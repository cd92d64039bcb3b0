import KafkaGuide.Lib.Decimal
import KafkaGuide.Lib.Text
/-!
# DecimalText — the text of a decimal number

`str` writes a number's digits with a point, or in scientific notation where the exponent is positive or the number is
small.  Either way the text gives coefficient and exponent back (`ofText_toText`).
-/

namespace Decimal

/-! ## Reading -/

def allDigits (cs : List Char) : Bool := cs.all Char.isDigit

/-- The number of a text of digits, at least one. -/
def natOf? (cs : List Char) : Option Nat :=
  if cs ≠ [] ∧ allDigits cs then some (Nat.ofDigitChars 10 cs 0) else none

/-- `[-+]?\d+`. -/
def intOf? : List Char → Option Int
  | '-' :: cs => (natOf? cs).map (fun n : Nat => -(n : Int))
  | '+' :: cs => (natOf? cs).map Int.ofNat
  | cs => (natOf? cs).map Int.ofNat

/-- `(E[-+]?\d+)?`, in either case of the letter. -/
def exponentOf? : List Char → Option Int
  | [] => some 0
  | c :: cs => if c = 'E' ∨ c = 'e' then intOf? cs else none

/-- The fraction and what follows it. -/
def fractionOf : List Char → List Char × List Char
  | '.' :: cs => (cs.takeWhile Char.isDigit, cs.dropWhile Char.isDigit)
  | cs => ([], cs)

def ofChars (cs : List Char) : Option Decimal :=
  let int := cs.takeWhile Char.isDigit
  let (frac, rest) := fractionOf (cs.dropWhile Char.isDigit)
  if int ++ frac = [] then none
  else (exponentOf? rest).map (fun e => ⟨Nat.ofDigitChars 10 (int ++ frac) 0, e - frac.length⟩)

/-- `Decimal(text)`, for the texts of finite numbers without a sign. -/
def ofText (text : String) : Option Decimal := ofChars text.toList

/-! ## Writing -/

def exponentChars (x : Int) : List Char :=
  if x = 0 then [] else 'E' :: (if x < 0 then '-' else '+') :: Nat.toDigits 10 x.natAbs

/-- Integer part, fraction and exponent of the text of a number. -/
structure Layout where
  int : List Char
  frac : List Char
  exponent : Int

def Layout.chars (l : Layout) : List Char :=
  l.int ++ (if l.frac = [] then [] else '.' :: l.frac) ++ exponentChars l.exponent

/-- Where `__str__` puts the point, and the exponent it leaves. -/
def layout (d : Decimal) : Layout :=
  let digits := Nat.toDigits 10 d.coeff
  let leftdigits := d.exp + digits.length
  let dotplace := if d.exp ≤ 0 ∧ -6 < leftdigits then leftdigits else 1
  let exponent := leftdigits - dotplace
  if dotplace ≤ 0 then ⟨['0'], List.replicate (-dotplace).toNat '0' ++ digits, exponent⟩
  else if digits.length ≤ dotplace then ⟨digits ++ List.replicate (dotplace - digits.length).toNat '0', [], exponent⟩
  else ⟨digits.take dotplace.toNat, digits.drop dotplace.toNat, exponent⟩

/-- `str(d)`. -/
def toText (d : Decimal) : String := String.ofList d.layout.chars

/-! ## The round trip -/

theorem natOf?_toDigits (n : Nat) : natOf? (Nat.toDigits 10 n) = some n := by
  unfold natOf? allDigits
  rw [if_pos, Nat.ofDigitChars_ten_toDigits]
  refine ⟨Nat.toDigits_ne_nil, ?_⟩
  rw [List.all_eq_true]
  exact fun c hc => Nat.isDigit_of_mem_toDigits (by decide) (by decide) hc

theorem exponentOf?_chars (x : Int) : exponentOf? (exponentChars x) = some x := by
  unfold exponentChars
  rcases lt_trichotomy x 0 with hneg | rfl | hpos
  · rw [if_neg hneg.ne, if_pos hneg]
    change (natOf? (Nat.toDigits 10 x.natAbs)).map (fun n : Nat => -(n : Int)) = some x
    rw [natOf?_toDigits, Option.map_some, Option.some.injEq]
    omega
  · rfl
  · rw [if_neg hpos.ne', if_neg hpos.not_gt]
    change (natOf? (Nat.toDigits 10 x.natAbs)).map Int.ofNat = some x
    rw [natOf?_toDigits, Option.map_some, Option.some.injEq, Int.ofNat_eq_natCast]
    omega

theorem exponentChars_head (x : Int) : ∀ c cs, exponentChars x = c :: cs → c.isDigit = false ∧ c ≠ '.' := by
  intro c cs h
  unfold exponentChars at h
  split at h
  · cases h
  · cases h
    decide

/-- **A text that is laid out is read back.** -/
theorem ofChars_chars {l : Layout} (hint : ∀ c ∈ l.int, c.isDigit = true) (hfrac : ∀ c ∈ l.frac, c.isDigit = true)
    (hne : l.int ≠ []) :
    ofChars l.chars = some ⟨Nat.ofDigitChars 10 (l.int ++ l.frac) 0, l.exponent - l.frac.length⟩ := by
  have hexp := exponentChars_head l.exponent
  have hrest : ∀ c cs, (if l.frac = [] then [] else '.' :: l.frac) ++ exponentChars l.exponent = c :: cs →
      c.isDigit = false := by
    intro c cs h
    split at h
    · exact (hexp c cs h).1
    · cases h
      decide
  have hfraction : fractionOf ((if l.frac = [] then [] else '.' :: l.frac) ++ exponentChars l.exponent) =
      (l.frac, exponentChars l.exponent) := by
    split
    · rename_i hnil
      rw [hnil, List.nil_append]
      cases hcs : exponentChars l.exponent with
      | nil => rfl
      | cons c cs =>
        have hdot := (hexp c cs hcs).2
        unfold fractionOf
        split
        · rename_i heq
          cases heq
          exact absurd rfl hdot
        · rfl
    · obtain ⟨htake, hdrop⟩ := Text.span_append hfrac (fun c cs h => (hexp c cs h).1)
      rw [List.cons_append, fractionOf, htake, hdrop]
  obtain ⟨htake, hdrop⟩ := Text.span_append hint hrest
  have hall : l.int ++ l.frac ≠ [] := by simp [hne]
  unfold ofChars Layout.chars
  simp only [List.append_assoc, htake, hdrop, hfraction, if_neg hall, exponentOf?_chars, Option.map_some]

/-- What a layout is of: its parts are digits, and they make up the number. -/
structure Layout.Of (d : Decimal) (l : Layout) : Prop where
  int : ∀ c ∈ l.int, c.isDigit = true
  frac : ∀ c ∈ l.frac, c.isDigit = true
  int_ne_nil : l.int ≠ []
  coeff : Nat.ofDigitChars 10 (l.int ++ l.frac) 0 = d.coeff
  exp : l.exponent - l.frac.length = d.exp

theorem digits_zeros (n : Nat) : ∀ c ∈ List.replicate n '0', c.isDigit = true := by
  intro c hc
  rw [(List.mem_replicate.1 hc).2]
  decide

theorem layout_of (d : Decimal) : d.layout.Of d := by
  have hdigits : ∀ c ∈ Nat.toDigits 10 d.coeff, c.isDigit = true :=
    fun c hc => Nat.isDigit_of_mem_toDigits (by decide) (by decide) hc
  have hpos : 0 < (Nat.toDigits 10 d.coeff).length := List.length_pos_iff.2 Nat.toDigits_ne_nil
  have hvalue : Nat.ofDigitChars 10 (Nat.toDigits 10 d.coeff) 0 = d.coeff := Nat.ofDigitChars_ten_toDigits
  unfold layout
  dsimp only
  generalize Nat.toDigits 10 d.coeff = digits at *
  generalize hdot : (if d.exp ≤ 0 ∧ -6 < d.exp + (digits.length : Int) then d.exp + (digits.length : Int) else 1) =
    dotplace
  split
  · constructor
    · intro c hc
      rw [List.mem_singleton.1 hc]
      decide
    · intro c hc
      rcases List.mem_append.1 hc with hc | hc
      · exact digits_zeros _ c hc
      · exact hdigits c hc
    · exact List.cons_ne_nil _ _
    · have hzero : Nat.ofDigitChars 10 (['0'] ++ List.replicate (-dotplace).toNat '0') 0 = 0 := by
        rw [Nat.ofDigitChars_append, Nat.ofDigitChars_replicate_zero]
        rfl
      rw [← List.append_assoc, Nat.ofDigitChars_append, hzero, hvalue]
    · dsimp only
      rw [List.length_append, List.length_replicate]
      omega
  · split
    · -- all digits are left of the point, and there is nothing to fill
      have hfill : dotplace = digits.length := by
        split at hdot <;> omega
      have hnone : (dotplace - digits.length).toNat = 0 := by omega
      rw [hnone, List.replicate_zero, List.append_nil]
      constructor
      · exact hdigits
      · exact fun c hc => nomatch hc
      · exact List.length_pos_iff.1 hpos
      · rw [List.append_nil, hvalue]
      · dsimp only
        rw [List.length_nil]
        omega
    · constructor
      · exact fun c hc => hdigits c (List.mem_of_mem_take hc)
      · exact fun c hc => hdigits c (List.mem_of_mem_drop hc)
      · apply List.length_pos_iff.1
        dsimp only
        rw [List.length_take]
        omega
      · rw [List.take_append_drop, hvalue]
      · dsimp only
        rw [List.length_drop]
        omega

/-- **The text of a number gives the number back.** -/
theorem ofText_toText (d : Decimal) : ofText d.toText = some d := by
  have h := layout_of d
  unfold ofText toText
  rw [String.toList_ofList, ofChars_chars h.int h.frac h.int_ne_nil, h.coeff, h.exp]

example : (ofText "1.50").map toText = some "1.50" ∧ toText ⟨5, -8⟩ = "5E-8" ∧ toText ⟨12, 3⟩ = "1.2E+4" := by
  decide +kernel

end Decimal
