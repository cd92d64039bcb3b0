import Mathlib.Algebra.Order.Field.Power
import Mathlib.Algebra.Order.Floor.Semifield
import Mathlib.Data.Int.Log
import Mathlib.Data.Rat.Floor
import Mathlib.Tactic.Linarith
import Mathlib.Tactic.Positivity
/-!
# Decimal — decimal floating point

A number is a coefficient and a power of ten, and a context says how many digits a result may have.  An operation's
exact result is cut to them, half to even (`fix`); on the numbers themselves that is `Context.round` (`fix_toRat`), so
sums and products are the exact ones, rounded (`add_toRat`, `mul_toRat`).  What has few enough digits stays as it is
(`round_eq_self`), and no power of ten is crossed (`zpow_le_round`).
-/

/-- A finite decimal number without a sign. -/
@[ext] structure Decimal where
  coeff : Nat
  exp : Int
deriving DecidableEq

namespace Decimal

def toRat (d : Decimal) : ℚ := (d.coeff : ℚ) * 10 ^ d.exp

theorem toRat_pos {d : Decimal} (h : 0 < d.coeff) : 0 < d.toRat := by
  unfold toRat
  have : (0 : ℚ) < d.coeff := by exact_mod_cast h
  positivity

structure Context where
  prec : Nat
  emin : Int
  emax : Int
  prec_pos : 0 < prec

/-- The exponent of the least subnormal number. -/
def Context.etiny (ctx : Context) : Int := ctx.emin - ctx.prec + 1

/-- The exponent of the greatest number. -/
def Context.etop (ctx : Context) : Int := ctx.emax - ctx.prec + 1

/-- `decimal.DefaultContext`, which rounds half to even and traps overflow. -/
def defaultContext : Context where
  prec := 28
  emin := -999999
  emax := 999999
  prec_pos := by decide

/-! ## Rounding half to even -/

/-- `n / m`, to the nearest, half to even. -/
def divHalfEven (n m : Nat) : Nat :=
  if 2 * (n % m) < m then n / m
  else if m < 2 * (n % m) then n / m + 1
  else if n / m % 2 = 0 then n / m
  else n / m + 1

/-- The nearest natural number, half to even. -/
def nearestEven (x : ℚ) : Nat :=
  if 2 * (x - ⌊x⌋₊) < 1 then ⌊x⌋₊
  else if 1 < 2 * (x - ⌊x⌋₊) then ⌊x⌋₊ + 1
  else if ⌊x⌋₊ % 2 = 0 then ⌊x⌋₊
  else ⌊x⌋₊ + 1

theorem nearestEven_natCast (n : Nat) : nearestEven n = n := by
  unfold nearestEven
  rw [Nat.floor_natCast, sub_self, mul_zero, if_pos one_pos]

theorem floor_le_nearestEven (x : ℚ) : ⌊x⌋₊ ≤ nearestEven x := by
  unfold nearestEven
  split
  · exact Nat.le_refl _
  · split
    · exact Nat.le_succ _
    · split
      · exact Nat.le_refl _
      · exact Nat.le_succ _

theorem le_nearestEven {n : Nat} {x : ℚ} (h : (n : ℚ) ≤ x) : n ≤ nearestEven x :=
  (Nat.le_floor h).trans (floor_le_nearestEven x)

theorem nearestEven_div (n : Nat) {m : Nat} (hm : 0 < m) : nearestEven ((n : ℚ) / m) = divHalfEven n m := by
  have hm' : (0 : ℚ) < m := by exact_mod_cast hm
  have hrem : (n : ℚ) / m - (n / m : Nat) = (n % m : Nat) / m := by
    rw [eq_div_iff hm'.ne', sub_mul, div_mul_cancel₀ _ hm'.ne', sub_eq_iff_eq_add]
    have h := Nat.mod_add_div n m
    rw [Nat.mul_comm m] at h
    exact_mod_cast h.symm
  have hlt : 2 * (((n % m : Nat) : ℚ) / m) < 1 ↔ 2 * (n % m) < m := by
    rw [← mul_div_assoc, div_lt_one hm']
    exact_mod_cast Iff.rfl
  have hgt : 1 < 2 * (((n % m : Nat) : ℚ) / m) ↔ m < 2 * (n % m) := by
    rw [← mul_div_assoc, one_lt_div hm']
    exact_mod_cast Iff.rfl
  unfold nearestEven divHalfEven
  rw [Nat.floor_div_eq_div, hrem]
  simp only [hlt, hgt]

theorem divHalfEven_le {n m b : Nat} (hm : 0 < m) (h : n < b * m) : divHalfEven n m ≤ b := by
  have hq : n / m < b := (Nat.div_lt_iff_lt_mul hm).2 h
  unfold divHalfEven
  split
  · exact hq.le
  · split
    · exact hq
    · split
      · exact hq.le
      · exact hq

/-! ## Rounding to a context -/

/-- The exponent of the last digit a number keeps. -/
def Context.quantum (ctx : Context) (q : ℚ) : Int := max (Int.log 10 q + 1 - ctx.prec) ctx.etiny

/-- **The number a context has for `q`.** -/
def Context.round (ctx : Context) (q : ℚ) : ℚ :=
  (nearestEven (q / 10 ^ ctx.quantum q) : ℚ) * 10 ^ ctx.quantum q

@[simp] theorem round_zero (ctx : Context) : ctx.round 0 = 0 := by
  have h : nearestEven (0 : ℚ) = 0 := nearestEven_natCast 0
  unfold Context.round
  rw [zero_div, h, Nat.cast_zero, zero_mul]

theorem round_nonneg (ctx : Context) (q : ℚ) : 0 ≤ ctx.round q := by
  unfold Context.round
  positivity

theorem log_toRat {d : Decimal} (h : 0 < d.coeff) : Int.log 10 d.toRat = Nat.log 10 d.coeff + d.exp := by
  have hpos := toRat_pos h
  have hexp : (0 : ℚ) < 10 ^ d.exp := by positivity
  apply le_antisymm
  · have hlt : d.toRat < (10 : ℕ) ^ ((Nat.log 10 d.coeff : ℤ) + d.exp + 1) := by
      have hc : (d.coeff : ℚ) < 10 ^ (Nat.log 10 d.coeff + 1) := by
        exact_mod_cast Nat.lt_pow_succ_log_self (by decide) d.coeff
      calc d.toRat < 10 ^ (Nat.log 10 d.coeff + 1) * 10 ^ d.exp := mul_lt_mul_of_pos_right hc hexp
        _ = (10 : ℕ) ^ ((Nat.log 10 d.coeff : ℤ) + d.exp + 1) := by
          rw [← zpow_natCast, ← zpow_add₀ (by norm_num)]
          push_cast
          ring_nf
    have := (Int.lt_zpow_iff_log_lt (by decide) hpos).1 hlt
    omega
  · apply (Int.zpow_le_iff_le_log (by decide) hpos).1
    have hc : (10 : ℚ) ^ Nat.log 10 d.coeff ≤ d.coeff := by
      exact_mod_cast Nat.pow_log_le_self 10 h.ne'
    calc ((10 : ℕ) : ℚ) ^ ((Nat.log 10 d.coeff : ℤ) + d.exp) = 10 ^ Nat.log 10 d.coeff * 10 ^ d.exp := by
          rw [zpow_add₀ (by norm_num), zpow_natCast]
          norm_num
      _ ≤ d.toRat := mul_le_mul_of_nonneg_right hc hexp.le

/-- **What has few enough digits stays as it is.** -/
theorem round_eq_self (ctx : Context) {d : Decimal} (hc : d.coeff < 10 ^ ctx.prec) (he : ctx.etiny ≤ d.exp) :
    ctx.round d.toRat = d.toRat := by
  rcases Nat.eq_zero_or_pos d.coeff with hzero | hpos
  · have h : d.toRat = 0 := by simp [toRat, hzero]
    rw [h, round_zero]
  · have hlog : Nat.log 10 d.coeff < ctx.prec := Nat.log_lt_of_lt_pow hpos.ne' hc
    have hq : ctx.quantum d.toRat ≤ d.exp := by
      unfold Context.quantum
      rw [log_toRat hpos]
      omega
    obtain ⟨m, hm⟩ := Int.eq_ofNat_of_zero_le (sub_nonneg.2 hq)
    have hscaled : d.toRat / 10 ^ ctx.quantum d.toRat = ((d.coeff * 10 ^ m : Nat) : ℚ) := by
      have hexp : d.exp = m + ctx.quantum d.toRat := by omega
      rw [div_eq_iff (zpow_pos (by norm_num) _).ne']
      conv_lhs => rw [toRat, hexp, zpow_add₀ (by norm_num), zpow_natCast]
      push_cast
      ring
    unfold Context.round
    rw [hscaled, nearestEven_natCast, ← hscaled, div_mul_cancel₀ _ (zpow_pos (by norm_num) _).ne']

/-- **Rounding crosses no power of ten.** -/
theorem zpow_le_round (ctx : Context) {j : Int} (hj : ctx.etiny ≤ j) {q : ℚ} (h : 10 ^ j ≤ q) :
    (10 : ℚ) ^ j ≤ ctx.round q := by
  have hpos : 0 < q := lt_of_lt_of_le (zpow_pos (by norm_num) j) h
  have hlog : j ≤ Int.log 10 q := (Int.zpow_le_iff_le_log (by decide) hpos).1 (by exact_mod_cast h)
  -- the greatest power below `q` is a whole number of quanta
  have hquantum : ctx.quantum q ≤ Int.log 10 q := by
    have hprec := ctx.prec_pos
    unfold Context.quantum
    omega
  have hpow : (10 : ℚ) ^ Int.log 10 q ≤ q := by
    exact_mod_cast Int.zpow_log_le_self (b := 10) (by decide) hpos
  obtain ⟨m, hm⟩ := Int.eq_ofNat_of_zero_le (sub_nonneg.2 hquantum)
  have hk : (0 : ℚ) < 10 ^ ctx.quantum q := zpow_pos (by norm_num) _
  have hsplit : (10 : ℚ) ^ Int.log 10 q = ((10 ^ m : Nat) : ℚ) * 10 ^ ctx.quantum q := by
    have hexp : Int.log 10 q = m + ctx.quantum q := by omega
    rw [hexp, zpow_add₀ (by norm_num), zpow_natCast]
    push_cast
    rfl
  have hle : ((10 ^ m : Nat) : ℚ) ≤ q / 10 ^ ctx.quantum q := by
    rw [le_div_iff₀ hk, ← hsplit]
    exact hpow
  calc (10 : ℚ) ^ j ≤ 10 ^ Int.log 10 q := zpow_le_zpow_right₀ (by norm_num) hlog
    _ = ((10 ^ m : Nat) : ℚ) * 10 ^ ctx.quantum q := hsplit
    _ ≤ ctx.round q := by
      apply mul_le_mul_of_nonneg_right _ hk.le
      exact_mod_cast le_nearestEven hle

/-! ## Operations -/

/-- `len(str(c))`. -/
def numDigits (c : Nat) : Nat := Nat.log 10 c + 1

/-- A coefficient that rounding took to one digit too many. -/
def Context.carry (ctx : Context) (d : Decimal) : Option Decimal :=
  if numDigits d.coeff ≤ ctx.prec then some d
  else if ctx.etop < d.exp + 1 then none
  else some ⟨d.coeff / 10, d.exp + 1⟩

/-- `_fix`: the result of an operation, `none` where it raises `Overflow`. -/
def fix (ctx : Context) (d : Decimal) : Option Decimal :=
  if d.coeff = 0 then some ⟨0, min (max d.exp ctx.etiny) ctx.emax⟩
  else
    let top := (numDigits d.coeff : Int) + d.exp - ctx.prec
    let expMin := max top ctx.etiny
    if ctx.etop < top then none
    else if expMin ≤ d.exp then some d
    else ctx.carry ⟨divHalfEven d.coeff (10 ^ (expMin - d.exp).toNat), expMin⟩

def mul (ctx : Context) (a b : Decimal) : Option Decimal := fix ctx ⟨a.coeff * b.coeff, a.exp + b.exp⟩

/-- The coefficients are aligned to the lesser exponent. -/
def add (ctx : Context) (a b : Decimal) : Option Decimal :=
  let exp := min a.exp b.exp
  fix ctx ⟨a.coeff * 10 ^ (a.exp - exp).toNat + b.coeff * 10 ^ (b.exp - exp).toNat, exp⟩

/-- `Decimal(n)`. -/
def ofNat (n : Nat) : Decimal := ⟨n, 0⟩

@[simp] theorem toRat_ofNat (n : Nat) : (ofNat n).toRat = n := by
  simp [toRat, ofNat]

theorem carry_toRat {ctx : Context} {d r : Decimal} (hd : d.coeff ≤ 10 ^ ctx.prec) (h : ctx.carry d = some r) :
    r.toRat = d.toRat := by
  unfold Context.carry at h
  split at h
  · cases h
    rfl
  · rename_i hdigits
    split at h
    · cases h
    · cases h
      -- only `10 ^ prec` itself has one digit too many
      have hge : 10 ^ ctx.prec ≤ d.coeff := by
        by_contra hlt
        rcases Nat.eq_zero_or_pos d.coeff with hzero | hpos
        · have hprec := ctx.prec_pos
          simp only [numDigits, hzero, Nat.log_zero_right] at hdigits
          omega
        · have := Nat.log_lt_of_lt_pow hpos.ne' (not_le.1 hlt)
          unfold numDigits at hdigits
          omega
      have hcoeff : d.coeff = 10 ^ ctx.prec := le_antisymm hd hge
      have hdvd : 10 * (d.coeff / 10) = d.coeff := by
        apply Nat.mul_div_cancel'
        rw [hcoeff]
        exact dvd_pow_self 10 ctx.prec_pos.ne'
      calc ((d.coeff / 10 : Nat) : ℚ) * 10 ^ (d.exp + 1)
          = ((10 * (d.coeff / 10) : Nat) : ℚ) * 10 ^ d.exp := by
            rw [zpow_add₀ (by norm_num), zpow_one]
            push_cast
            ring
        _ = d.toRat := by rw [hdvd, toRat]

/-- **`fix` rounds.** -/
theorem fix_toRat {ctx : Context} {d r : Decimal} (h : fix ctx d = some r) : r.toRat = ctx.round d.toRat := by
  unfold fix at h
  split at h
  · rename_i hzero
    cases h
    simp [toRat, hzero]
  · rename_i hne
    have hpos : 0 < d.coeff := Nat.pos_of_ne_zero hne
    have hquantum : ctx.quantum d.toRat =
        max ((numDigits d.coeff : Int) + d.exp - ctx.prec) ctx.etiny := by
      unfold Context.quantum numDigits
      rw [log_toRat hpos]
      push_cast
      congr 1
      ring
    dsimp only at h
    rw [← hquantum] at h
    split at h
    · cases h
    · split at h
      · rename_i hexp
        cases h
        symm
        apply round_eq_self
        · have hdigits : numDigits d.coeff ≤ ctx.prec := by omega
          exact lt_of_lt_of_le (Nat.lt_pow_succ_log_self (by decide) _) (Nat.pow_le_pow_right (by decide) hdigits)
        · omega
      · rename_i hexp
        obtain ⟨m, hm⟩ := Int.eq_ofNat_of_zero_le (sub_nonneg.2 (not_le.1 hexp).le)
        have htoNat : (ctx.quantum d.toRat - d.exp).toNat = m := by omega
        rw [htoNat] at h
        have hlt : d.coeff < 10 ^ ctx.prec * 10 ^ m := by
          rw [← pow_add]
          have hdigits : numDigits d.coeff ≤ ctx.prec + m := by omega
          exact lt_of_lt_of_le (Nat.lt_pow_succ_log_self (by decide) _) (Nat.pow_le_pow_right (by decide) hdigits)
        rw [carry_toRat (divHalfEven_le (by positivity) hlt) h]
        have hscaled : d.toRat / 10 ^ ctx.quantum d.toRat = (d.coeff : ℚ) / ((10 ^ m : Nat) : ℚ) := by
          have hexp' : ctx.quantum d.toRat = m + d.exp := by omega
          conv_lhs => rw [hexp', zpow_add₀ (by norm_num), zpow_natCast, toRat]
          push_cast
          rw [mul_div_mul_right _ _ (zpow_pos (by norm_num) _).ne']
        unfold Context.round
        rw [hscaled, nearestEven_div _ (by positivity)]
        rfl

/-- **A product is the exact one, rounded.** -/
theorem mul_toRat {ctx : Context} {a b r : Decimal} (h : mul ctx a b = some r) :
    r.toRat = ctx.round (a.toRat * b.toRat) := by
  rw [fix_toRat h]
  congr 1
  unfold toRat
  rw [zpow_add₀ (by norm_num)]
  push_cast
  ring

theorem toRat_align (d : Decimal) {e : Int} (h : e ≤ d.exp) :
    ((d.coeff * 10 ^ (d.exp - e).toNat : Nat) : ℚ) * 10 ^ e = d.toRat := by
  obtain ⟨m, hm⟩ := Int.eq_ofNat_of_zero_le (sub_nonneg.2 h)
  have htoNat : (d.exp - e).toNat = m := by omega
  have hexp : d.exp = m + e := by omega
  conv_rhs => rw [toRat, hexp, zpow_add₀ (by norm_num), zpow_natCast]
  rw [htoNat]
  push_cast
  ring

/-- **A sum is the exact one, rounded.** -/
theorem add_toRat {ctx : Context} {a b r : Decimal} (h : add ctx a b = some r) :
    r.toRat = ctx.round (a.toRat + b.toRat) := by
  rw [fix_toRat h]
  congr 1
  have ha := toRat_align a (min_le_left a.exp b.exp)
  have hb := toRat_align b (min_le_right a.exp b.exp)
  rw [← ha, ← hb, ← add_mul]
  unfold toRat
  push_cast
  rfl

end Decimal
