import Mathlib.Algebra.Order.Ring.Nat
import Mathlib.Tactic.Ring
/-!
# IsoDate — naive date-times and their ISO 8601 text

`isoformat` writes the microseconds only where there are some; the reader takes both forms back (`ofIso_isoformat`).
-/

def isLeap (year : Nat) : Bool := year % 4 = 0 && (year % 100 ≠ 0 || year % 400 = 0)

def daysInMonth (year month : Nat) : Nat :=
  if month = 2 then if isLeap year then 29 else 28
  else if month = 4 ∨ month = 6 ∨ month = 9 ∨ month = 11 then 30
  else 31

/-- A date and a time of day, in no time zone. -/
@[ext] structure DateTime where
  year : Nat
  month : Nat
  day : Nat
  hour : Nat
  minute : Nat
  second : Nat
  microsecond : Nat
  year_mem : 1 ≤ year ∧ year ≤ 9999
  month_mem : 1 ≤ month ∧ month ≤ 12
  day_mem : 1 ≤ day ∧ day ≤ daysInMonth year month
  hour_lt : hour < 24
  minute_lt : minute < 60
  second_lt : second < 60
  microsecond_lt : microsecond < 1000000
deriving DecidableEq

namespace DateTime

/-! ## Fields of digits -/

/-- `f"{n:0wd}"`, for a number of at most `w` digits. -/
def pad : Nat → Nat → List Char
  | 0, _ => []
  | w + 1, n => pad w (n / 10) ++ [Nat.digitChar (n % 10)]

def digit? (c : Char) : Option Nat := if c.isDigit then some (c.toNat - 48) else none

/-- The number of the next `w` digits, after those read into `acc`, and what follows. -/
def digits : Nat → Nat → List Char → Option (Nat × List Char)
  | 0, acc, cs => some (acc, cs)
  | _ + 1, _, [] => none
  | w + 1, acc, c :: cs => (digit? c).bind fun d => digits w (10 * acc + d) cs

theorem digit?_digitChar : ∀ d, d < 10 → digit? (Nat.digitChar d) = some d := by decide

/-- Reading on after a padded number. -/
theorem digits_add_pad (v : Nat) (cs : List Char) : ∀ (w n acc : Nat), n < 10 ^ w →
    digits (w + v) acc (pad w n ++ cs) = digits v (acc * 10 ^ w + n) cs := by
  intro w
  induction w generalizing v cs with
  | zero =>
    intro n acc hn
    have hzero : n = 0 := by omega
    rw [hzero, pad, List.nil_append, Nat.zero_add, pow_zero, Nat.mul_one, Nat.add_zero]
  | succ w ih =>
    intro n acc hn
    have hn' : n / 10 < 10 ^ w := by
      rw [pow_succ] at hn
      omega
    rw [pad, List.append_assoc, List.singleton_append, Nat.add_right_comm, Nat.add_assoc, ih (v + 1) _ _ _ hn', digits,
      digit?_digitChar _ (Nat.mod_lt _ (by decide)), Option.bind_some]
    have hvalue : 10 * (acc * 10 ^ w + n / 10) + n % 10 = acc * 10 ^ (w + 1) + n := by
      rw [pow_succ]
      calc 10 * (acc * 10 ^ w + n / 10) + n % 10 = acc * (10 ^ w * 10) + (10 * (n / 10) + n % 10) := by ring
        _ = acc * (10 ^ w * 10) + n := by rw [Nat.div_add_mod]
    rw [hvalue]

/-- **A padded number is read back.** -/
theorem digits_pad {w n : Nat} (h : n < 10 ^ w) (cs : List Char) : digits w 0 (pad w n ++ cs) = some (n, cs) := by
  have hread := digits_add_pad 0 cs w n 0 h
  rw [Nat.zero_mul, Nat.zero_add] at hread
  exact hread

/-- `w` digits and a separator. -/
def field (w : Nat) (sep : Char) (cs : List Char) : Option (Nat × List Char) :=
  match digits w 0 cs with
  | some (n, c :: cs) => if c = sep then some (n, cs) else none
  | _ => none

theorem field_pad {w n : Nat} (h : n < 10 ^ w) (sep : Char) (cs : List Char) :
    field w sep (pad w n ++ sep :: cs) = some (n, cs) := by
  unfold field
  rw [digits_pad h]
  exact if_pos rfl

/-- The fraction of a second, in microseconds. -/
def fraction : List Char → Option Nat
  | [] => some 0
  | '.' :: cs => match digits 6 0 cs with
    | some (n, []) => some n
    | _ => none
  | _ => none

/-! ## The text of a date-time -/

def isoChars (d : DateTime) : List Char :=
  pad 4 d.year ++ '-' :: (pad 2 d.month ++ '-' :: (pad 2 d.day ++ 'T' :: (pad 2 d.hour ++ ':' ::
    (pad 2 d.minute ++ ':' :: (pad 2 d.second ++ if d.microsecond = 0 then [] else '.' :: pad 6 d.microsecond)))))

/-- `d.isoformat()`. -/
def isoformat (d : DateTime) : String := String.ofList d.isoChars

def ofFields (year month day hour minute second microsecond : Nat) : Option DateTime :=
  if h : (1 ≤ year ∧ year ≤ 9999) ∧ (1 ≤ month ∧ month ≤ 12) ∧ (1 ≤ day ∧ day ≤ daysInMonth year month) ∧
      hour < 24 ∧ minute < 60 ∧ second < 60 ∧ microsecond < 1000000 then
    some ⟨year, month, day, hour, minute, second, microsecond, h.1, h.2.1, h.2.2.1, h.2.2.2.1, h.2.2.2.2.1,
      h.2.2.2.2.2.1, h.2.2.2.2.2.2⟩
  else none

/-- The date-time of a text `YYYY-MM-DDTHH:MM:SS` or `YYYY-MM-DDTHH:MM:SS.ffffff`. -/
def ofIso (text : String) : Option DateTime := do
  let (year, cs) ← field 4 '-' text.toList
  let (month, cs) ← field 2 '-' cs
  let (day, cs) ← field 2 'T' cs
  let (hour, cs) ← field 2 ':' cs
  let (minute, cs) ← field 2 ':' cs
  let (second, cs) ← digits 2 0 cs
  let microsecond ← fraction cs
  ofFields year month day hour minute second microsecond

theorem fraction_microsecond {n : Nat} (h : n < 1000000) :
    fraction (if n = 0 then [] else '.' :: pad 6 n) = some n := by
  split
  · rename_i hn
    rw [hn]
    rfl
  · have hread := digits_pad (w := 6) h []
    rw [List.append_nil] at hread
    simp only [fraction, hread]

theorem ofFields_self (d : DateTime) :
    ofFields d.year d.month d.day d.hour d.minute d.second d.microsecond = some d :=
  dif_pos ⟨d.year_mem, d.month_mem, d.day_mem, d.hour_lt, d.minute_lt, d.second_lt, d.microsecond_lt⟩

theorem day_lt (d : DateTime) : d.day < 10 ^ 2 := by
  have hday := d.day_mem.2
  unfold daysInMonth at hday
  split at hday <;> split at hday <;> omega

example : (ofFields 2026 1 5 9 0 0 250).map isoformat = some "2026-01-05T09:00:00.000250" := by decide +kernel

/-- **A date-time is read back from its text.** -/
theorem ofIso_isoformat (d : DateTime) : ofIso d.isoformat = some d := by
  have hyear : d.year < 10 ^ 4 := Nat.lt_succ_of_le d.year_mem.2
  have hmonth : d.month < 10 ^ 2 := Nat.lt_of_le_of_lt d.month_mem.2 (by decide)
  have hhour : d.hour < 10 ^ 2 := Nat.lt_trans d.hour_lt (by decide)
  have hminute : d.minute < 10 ^ 2 := Nat.lt_trans d.minute_lt (by decide)
  have hsecond : d.second < 10 ^ 2 := Nat.lt_trans d.second_lt (by decide)
  unfold ofIso isoformat isoChars
  rw [String.toList_ofList, field_pad hyear, Option.bind_eq_bind, Option.bind_some]
  simp only [Option.bind_eq_bind, field_pad hmonth, field_pad d.day_lt, field_pad hhour, field_pad hminute,
    digits_pad hsecond, fraction_microsecond d.microsecond_lt, ofFields_self, Option.bind_some]

end DateTime
