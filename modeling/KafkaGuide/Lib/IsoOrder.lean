import Mathlib.Algebra.BigOperators.Intervals
import Mathlib.Algebra.Order.BigOperators.Group.Finset
import Mathlib.Data.List.Lex
import Mathlib.Data.String.Basic
import KafkaGuide.Lib.IsoDate
/-!
# IsoOrder — the order of date-times, and of their texts

Date-times compare field by field.  That is the order of the instants they name (`instant_strictMono`), and the
lexicographic order of their ISO 8601 texts (`isoformat_strictMono`), though these are of two lengths.
-/
namespace DateTime

/-! ## The order -/

def fields (d : DateTime) : List Nat := [d.year, d.month, d.day, d.hour, d.minute, d.second, d.microsecond]

theorem fields_injective : Function.Injective fields := by
  intro d d' h
  simp only [fields, List.cons.injEq, and_true] at h
  obtain ⟨hyear, hmonth, hday, hhour, hminute, hsecond, hmicrosecond⟩ := h
  exact DateTime.ext hyear hmonth hday hhour hminute hsecond hmicrosecond

/-- `d < d'` of naive date-times: the first field in which they differ decides. -/
instance : LinearOrder DateTime := LinearOrder.lift' fields fields_injective

theorem lt_iff {d d' : DateTime} : d < d' ↔ d.year < d'.year ∨ d.year = d'.year ∧ (d.month < d'.month ∨
    d.month = d'.month ∧ (d.day < d'.day ∨ d.day = d'.day ∧ (d.hour < d'.hour ∨ d.hour = d'.hour ∧
      (d.minute < d'.minute ∨ d.minute = d'.minute ∧ (d.second < d'.second ∨
        d.second = d'.second ∧ d.microsecond < d'.microsecond))))) := by
  change d.fields < d'.fields ↔ _
  simp [fields, List.cons_lt_cons_iff]

/-! ## Instants -/

def daysInYear (year : Nat) : Nat := if isLeap year then 366 else 365

def daysBeforeYear (year : Nat) : Nat := ∑ y ∈ Finset.Ico 1 year, daysInYear y

def daysBeforeMonth (year month : Nat) : Nat := ∑ m ∈ Finset.Ico 1 month, daysInMonth year m

/-- The number of the day, 1 January of the year 1 being the first. -/
def ordinal (d : DateTime) : Nat := daysBeforeYear d.year + daysBeforeMonth d.year d.month + d.day

/-- The microseconds before it, up to a constant. -/
def instant (d : DateTime) : Nat :=
  (((d.ordinal * 24 + d.hour) * 60 + d.minute) * 60 + d.second) * 1000000 + d.microsecond

theorem sum_add_le (f : Nat → Nat) {a b : Nat} (ha : 1 ≤ a) (hab : a < b) :
    ∑ i ∈ Finset.Ico 1 a, f i + f a ≤ ∑ i ∈ Finset.Ico 1 b, f i := by
  rw [← Finset.sum_Ico_succ_top ha]
  exact Finset.sum_le_sum_of_subset (Finset.Ico_subset_Ico_right hab)

theorem daysBeforeMonth_thirteen (year : Nat) : daysBeforeMonth year 13 = daysInYear year := by
  unfold daysBeforeMonth daysInYear
  cases hleap : isLeap year <;> simp [Finset.sum_Ico_succ_top, daysInMonth, hleap]

/-- Every day of a year comes before the next year's. -/
theorem day_of_year_le (d : DateTime) : daysBeforeMonth d.year d.month + d.day ≤ daysInYear d.year := by
  have hlt : d.month < 13 := Nat.lt_succ_of_le d.month_mem.2
  have hmonth := sum_add_le (daysInMonth d.year) d.month_mem.1 hlt
  have hyear := daysBeforeMonth_thirteen d.year
  have hday := d.day_mem.2
  unfold daysBeforeMonth at hyear ⊢
  omega

/-- **Days are numbered in their order.** -/
theorem ordinal_lt {d d' : DateTime} (h : d.year < d'.year ∨ d.year = d'.year ∧ (d.month < d'.month ∨
    d.month = d'.month ∧ d.day < d'.day)) : d.ordinal < d'.ordinal := by
  have hday' := d'.day_mem.1
  unfold ordinal
  rcases h with hyear | ⟨hyear, hmonth | ⟨hmonth, hday⟩⟩
  · have hyears := sum_add_le daysInYear d.year_mem.1 hyear
    have hday := day_of_year_le d
    unfold daysBeforeYear
    omega
  · have hmonths := sum_add_le (daysInMonth d.year) d.month_mem.1 hmonth
    have hday := d.day_mem.2
    rw [← hyear]
    unfold daysBeforeMonth
    omega
  · rw [← hyear, ← hmonth]
    omega

/-- **The order of date-times is that of the instants they name.** -/
theorem instant_strictMono : StrictMono instant := by
  intro d d' h
  have hhour := d.hour_lt
  have hminute := d.minute_lt
  have hsecond := d.second_lt
  have hmicrosecond := d.microsecond_lt
  unfold instant
  rcases lt_iff.1 h with hyear | ⟨hyear, hmonth | ⟨hmonth, hday | ⟨hday, htime⟩⟩⟩
  · have hdate := ordinal_lt (.inl hyear)
    omega
  · have hdate := ordinal_lt (.inr ⟨hyear, .inl hmonth⟩)
    omega
  · have hdate := ordinal_lt (.inr ⟨hyear, .inr ⟨hmonth, hday⟩⟩)
    omega
  · have hdate : d.ordinal = d'.ordinal := by
      unfold ordinal
      rw [hyear, hmonth, hday]
    omega

/-! ## Texts -/

theorem digitChar_lt : ∀ b < 10, ∀ a < b, Nat.digitChar a < Nat.digitChar b := by decide

/-- **Padded numbers compare as the numbers**, whatever follows them. -/
theorem pad_append_lt : ∀ {w n m : Nat} (cs cs' : List Char), n < m → m < 10 ^ w → pad w n ++ cs < pad w m ++ cs'
  | 0, n, m, cs, cs', hnm, hm => by
    rw [pow_zero] at hm
    omega
  | w + 1, n, m, cs, cs', hnm, hm => by
    rw [pow_succ] at hm
    rw [pad, pad, List.append_assoc, List.append_assoc]
    rcases Nat.lt_or_ge (n / 10) (m / 10) with hlt | hge
    · exact pad_append_lt _ _ hlt (by omega)
    · have hsame : n / 10 = m / 10 := by omega
      rw [hsame]
      apply List.append_left_lt
      exact List.Lex.rel (digitChar_lt (m % 10) (Nat.mod_lt _ (by decide)) (n % 10) (by omega))

/-- A padded number and what follows it compare as a pair. -/
theorem pad_append_lt_of {w n m : Nat} {cs cs' : List Char} (hm : m < 10 ^ w) (h : n < m ∨ n = m ∧ cs < cs') :
    pad w n ++ cs < pad w m ++ cs' := by
  rcases h with hlt | ⟨rfl, hcs⟩
  · exact pad_append_lt cs cs' hlt hm
  · exact List.append_left_lt hcs

/-- A second without a fraction comes before those with one. -/
theorem fraction_lt {n m : Nat} (h : n < m) (hm : m < 1000000) :
    (if n = 0 then [] else '.' :: pad 6 n) < (if m = 0 then [] else '.' :: pad 6 m) := by
  rw [if_neg (by omega : ¬ m = 0)]
  split
  · exact List.Lex.nil
  · have hpad := pad_append_lt (w := 6) [] [] h hm
    rw [List.append_nil, List.append_nil] at hpad
    exact List.Lex.cons hpad

theorem isoChars_lt {d d' : DateTime} (h : d < d') : d.isoChars < d'.isoChars := by
  have hyear : d'.year < 10 ^ 4 := Nat.lt_succ_of_le d'.year_mem.2
  have hmonth : d'.month < 10 ^ 2 := Nat.lt_of_le_of_lt d'.month_mem.2 (by decide)
  have hhour : d'.hour < 10 ^ 2 := Nat.lt_trans d'.hour_lt (by decide)
  have hminute : d'.minute < 10 ^ 2 := Nat.lt_trans d'.minute_lt (by decide)
  have hsecond : d'.second < 10 ^ 2 := Nat.lt_trans d'.second_lt (by decide)
  unfold isoChars
  refine pad_append_lt_of hyear ((lt_iff.1 h).imp_right (And.imp_right fun h => List.Lex.cons ?_))
  refine pad_append_lt_of hmonth (h.imp_right (And.imp_right fun h => List.Lex.cons ?_))
  refine pad_append_lt_of d'.day_lt (h.imp_right (And.imp_right fun h => List.Lex.cons ?_))
  refine pad_append_lt_of hhour (h.imp_right (And.imp_right fun h => List.Lex.cons ?_))
  refine pad_append_lt_of hminute (h.imp_right (And.imp_right fun h => List.Lex.cons ?_))
  exact pad_append_lt_of hsecond (h.imp_right (And.imp_right fun h => fraction_lt h d'.microsecond_lt))

/-- **The lexicographic order of the texts is the order of the date-times**, microseconds written or not. -/
theorem isoformat_strictMono : StrictMono isoformat := by
  intro d d' h
  rw [String.lt_iff_toList_lt, isoformat, isoformat, String.toList_ofList, String.toList_ofList]
  exact isoChars_lt h

end DateTime
