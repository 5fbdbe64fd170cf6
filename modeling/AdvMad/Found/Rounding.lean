import AdvMad.Found.Trunc
import Mathlib.Algebra.Order.Field.Power
import Mathlib.Data.Int.Log

/-!
# Rounding to 53 places

The rounding of IEEE 754 binary64 as a function on the rationals, without a bound above: a number
has 53 significant binary places, and none below the 1074th behind the point (`Representable`);
`nearest` is the nearest such number, ties to even. The lemmas are those that proofs about rounded
arithmetic use.

* `nearest_of_representable`, `representable_nearest` — a projection onto these numbers.
* `nearest_mono`, `nearest_neg` — monotone and odd; so a comparison of rounded numbers is decided at
  the two neighbours of a threshold (`add_lastPlace_le_of_lt`, `le_nearest_mul_iff`).
* `abs_nearest_sub_le` — the relative error, one part in `2 ^ 53`; so integers below `2 ^ 53` that
  are scaled and rounded to the same number are neighbours (`neighbours_of_nearest_mul_eq`).
-/

namespace AdvMad.Found

/-! ## To an integer -/

/-- The nearest integer, of two that are equally near the even one. -/
def roundEven (q : ℚ) : ℤ :=
  if 2 * (q - ⌊q⌋) < 1 then ⌊q⌋
  else if 1 < 2 * (q - ⌊q⌋) then ⌊q⌋ + 1
  else if ⌊q⌋ % 2 = 0 then ⌊q⌋ else ⌊q⌋ + 1

/-- An integer nearest to a number, and even where there are two. -/
def IsRoundEven (q : ℚ) (n : ℤ) : Prop := |(n : ℚ) - q| < 1 / 2 ∨ |(n : ℚ) - q| = 1 / 2 ∧ Even n

/-- Rounding gives such an integer. -/
theorem isRoundEven_roundEven (q : ℚ) : IsRoundEven q (roundEven q) := by
  have hlo := Int.floor_le q
  have hhi := Int.lt_floor_add_one q
  unfold IsRoundEven roundEven
  split_ifs with hlt hgt heven
  · left
    rw [abs_lt]
    constructor <;> linarith
  · left
    push_cast
    rw [abs_lt]
    constructor <;> linarith
  · right
    refine ⟨?_, Int.even_iff.mpr heven⟩
    rw [abs_sub_comm, abs_of_nonneg (by linarith)]
    linarith
  · right
    refine ⟨?_, Int.even_iff.mpr (by omega)⟩
    push_cast
    rw [abs_of_nonneg (by linarith)]
    linarith

/-- It is at most one half away. -/
theorem IsRoundEven.abs_sub_le {q : ℚ} {n : ℤ} (h : IsRoundEven q n) : |(n : ℚ) - q| ≤ 1 / 2 := by
  rcases h with h | ⟨h, -⟩
  · exact h.le
  · exact h.le

/-- There is only one. -/
theorem IsRoundEven.unique {q : ℚ} {m n : ℤ} (hm : IsRoundEven q m) (hn : IsRoundEven q n) :
    m = n := by
  have hm' := abs_le.mp hm.abs_sub_le
  have hn' := abs_le.mp hn.abs_sub_le
  have hle : (m : ℚ) ≤ n + 1 := by linarith
  have hge : (n : ℚ) ≤ m + 1 := by linarith
  have hle : m ≤ n + 1 := by exact_mod_cast hle
  have hge : n ≤ m + 1 := by exact_mod_cast hge
  by_contra hne
  -- two different ones are neighbours, both one half away, and one of them is odd
  have hnext : m = n + 1 ∨ n = m + 1 := by omega
  have hcast : (m : ℚ) = n + 1 ∨ (n : ℚ) = m + 1 := by exact_mod_cast hnext
  rcases hm with hm | ⟨-, hm⟩
  · have hm := abs_lt.mp hm
    rcases hcast with h | h <;> linarith
  · rcases hn with hn | ⟨-, hn⟩
    · have hn := abs_lt.mp hn
      rcases hcast with h | h <;> linarith
    · rw [Int.even_iff] at hm hn
      omega

/-- At most one half away. -/
theorem abs_roundEven_sub_le (q : ℚ) : |(roundEven q : ℚ) - q| ≤ 1 / 2 :=
  (isRoundEven_roundEven q).abs_sub_le

/-- An integer stays. -/
@[simp] theorem roundEven_intCast (n : ℤ) : roundEven n = n := by
  simp [roundEven]

/-- A power of two stays. -/
theorem roundEven_two_pow (k : ℕ) : roundEven (2 ^ k) = 2 ^ k := by
  exact_mod_cast roundEven_intCast (2 ^ k)

/-- Rounding is odd. -/
theorem roundEven_neg (q : ℚ) : roundEven (-q) = -roundEven q := by
  apply (isRoundEven_roundEven (-q)).unique
  have hdist : |((-roundEven q : ℤ) : ℚ) - -q| = |(roundEven q : ℚ) - q| := by
    rw [← abs_neg]
    push_cast
    ring_nf
  unfold IsRoundEven
  rw [hdist, even_neg]
  exact isRoundEven_roundEven q

/-- Rounding is monotone. -/
theorem roundEven_mono {q r : ℚ} (h : q ≤ r) : roundEven q ≤ roundEven r := by
  rcases h.eq_or_lt with rfl | h
  · exact le_rfl
  · have hq := abs_le.mp (abs_roundEven_sub_le q)
    have hr := abs_le.mp (abs_roundEven_sub_le r)
    have hlt : (roundEven q : ℚ) < roundEven r + 1 := by linarith
    have hlt : roundEven q < roundEven r + 1 := by exact_mod_cast hlt
    omega

/-! ## The last place -/

/-- One place higher is twice as much. -/
theorem two_zpow_mul_two_le {d e : ℤ} (h : d < e) : (2 : ℚ) ^ d * 2 ≤ 2 ^ e := by
  rw [← zpow_add_one₀ (by norm_num)]
  exact zpow_le_zpow_right₀ (by norm_num) (by omega)

/-- The exponent of the last place of a number: that of its first place less 52, and at least
-1074. -/
def lastPlace (q : ℚ) : ℤ := max (Int.log 2 |q| - 52) (-1074)

/-- The nearest number of 53 places, of two that are equally near the one that ends in a zero. -/
def nearest (q : ℚ) : ℚ := roundEven (q / 2 ^ lastPlace q) * 2 ^ lastPlace q

/-- A number of 53 places, the last of which is no lower than the 1074th behind the point. -/
def Representable (q : ℚ) : Prop := ∃ m e : ℤ, |m| < 2 ^ 53 ∧ -1074 ≤ e ∧ q = m * 2 ^ e

/-- The sign does not move the last place. -/
theorem lastPlace_neg (q : ℚ) : lastPlace (-q) = lastPlace q := by
  unfold lastPlace
  rw [abs_neg]

/-- Rounding is odd. -/
theorem nearest_neg (q : ℚ) : nearest (-q) = -nearest q := by
  unfold nearest
  rw [lastPlace_neg, neg_div, roundEven_neg]
  push_cast
  ring

/-- The last place is the lowest there is or 52 below the first. -/
theorem lastPlace_eq_or (q : ℚ) :
    lastPlace q = -1074 ∨ -1074 < lastPlace q ∧ Int.log 2 |q| = lastPlace q + 52 := by
  unfold lastPlace
  omega

/-- A number has at most 53 places. -/
theorem abs_lt_lastPlace (q : ℚ) : |q| < 2 ^ 53 * 2 ^ lastPlace q := by
  have hlt := Int.lt_zpow_succ_log_self (R := ℚ) (b := 2) (by norm_num) |q|
  calc |q| < 2 ^ (Int.log 2 |q| + 1) := by exact_mod_cast hlt
    _ ≤ 2 ^ (53 + lastPlace q) := by
        refine zpow_le_zpow_right₀ (by norm_num) ?_
        unfold lastPlace
        omega
    _ = 2 ^ 53 * 2 ^ lastPlace q := by rw [zpow_add₀ (by norm_num), zpow_ofNat]

/-- It has all of them where the last one is not the lowest there is. -/
theorem le_abs_of_lastPlace {q : ℚ} (hq : q ≠ 0) (h : -1074 < lastPlace q) :
    2 ^ 52 * 2 ^ lastPlace q ≤ |q| := by
  rcases lastPlace_eq_or q with hlow | ⟨-, hlog⟩
  · omega
  · have hle := Int.zpow_log_le_self (R := ℚ) (b := 2) (by norm_num) (abs_pos.mpr hq)
    rwa [hlog, add_comm, zpow_add₀ (by norm_num), Nat.cast_ofNat, zpow_ofNat] at hle

/-- A larger number has no lower a last place. -/
theorem lastPlace_mono {q r : ℚ} (hq : q ≠ 0) (h : |q| ≤ |r|) : lastPlace q ≤ lastPlace r := by
  have hlog := Int.log_mono_right (R := ℚ) (b := 2) (abs_pos.mpr hq) h
  unfold lastPlace
  omega

/-- A number with 53 places down to a place has its last place no higher. -/
theorem lastPlace_le {q : ℚ} {e : ℤ} (hq : q ≠ 0) (he : -1074 ≤ e) (h : |q| < 2 ^ 53 * 2 ^ e) :
    lastPlace q ≤ e := by
  have hlog : Int.log 2 |q| < 53 + e := by
    apply (Int.lt_zpow_iff_log_lt (by norm_num) (abs_pos.mpr hq)).mp
    rwa [Nat.cast_ofNat, zpow_add₀ (by norm_num), zpow_ofNat]
  unfold lastPlace
  omega

/-! ## A projection -/

/-- Zero is one of the numbers. -/
theorem representable_zero : Representable 0 := ⟨0, 0, by norm_num, by norm_num, by simp⟩

/-- With a number its negative is one. -/
theorem Representable.neg {q : ℚ} (h : Representable q) : Representable (-q) := by
  obtain ⟨m, e, hm, he, rfl⟩ := h
  exact ⟨-m, e, by rwa [abs_neg], he, by push_cast; ring⟩

/-- An integer of 53 places. -/
theorem representable_intCast {n : ℤ} (h : |n| < 2 ^ 53) : Representable n :=
  ⟨n, 0, h, by norm_num, by simp⟩

/-- A number that is a multiple of its last place stays. -/
theorem nearest_of_eq_mul {q : ℚ} {m e : ℤ} (h : q = m * 2 ^ e) (he : lastPlace q ≤ e) :
    nearest q = q := by
  have hpos : (2 : ℚ) ^ lastPlace q ≠ 0 := by positivity
  obtain ⟨k, hk⟩ := Int.le.dest he
  have hquot : q / 2 ^ lastPlace q = ((m * 2 ^ k : ℤ) : ℚ) := by
    rw [div_eq_iff hpos]
    conv_lhs => rw [h, ← hk, add_comm, zpow_add₀ (by norm_num)]
    push_cast
    rw [zpow_natCast, mul_assoc]
  unfold nearest
  rw [hquot, roundEven_intCast, ← hquot, div_mul_cancel₀ _ hpos]

/-- **A number of 53 places is its own rounding.** -/
theorem nearest_of_representable {q : ℚ} (h : Representable q) : nearest q = q := by
  obtain ⟨m, e, hm, he, heq⟩ := h
  rcases eq_or_ne q 0 with rfl | hq
  · simp [nearest, roundEven]
  · refine nearest_of_eq_mul heq (lastPlace_le hq he ?_)
    have hm : |(m : ℚ)| < 2 ^ 53 := by exact_mod_cast hm
    have hpos : (0 : ℚ) < 2 ^ e := by positivity
    rw [heq, abs_mul, abs_of_pos hpos]
    exact mul_lt_mul_of_pos_right hm hpos

/-- The rounded number in units of the last place. -/
theorem abs_roundEven_lastPlace_le (q : ℚ) : |roundEven (q / 2 ^ lastPlace q)| ≤ 2 ^ 53 := by
  have hpos : (0 : ℚ) < 2 ^ lastPlace q := by positivity
  have hlt : |q / 2 ^ lastPlace q| < 2 ^ 53 := by
    rw [abs_div, abs_of_pos hpos, div_lt_iff₀ hpos]
    exact abs_lt_lastPlace q
  obtain ⟨hlo, hhi⟩ := abs_lt.mp hlt
  have hupper := roundEven_mono hhi.le
  have hlower := roundEven_mono hlo.le
  rw [roundEven_neg, roundEven_two_pow] at hlower
  rw [roundEven_two_pow] at hupper
  exact abs_le.mpr ⟨hlower, hupper⟩

/-- **A rounded number is one of 53 places.** -/
theorem representable_nearest (q : ℚ) : Representable (nearest q) := by
  have hplace : -1074 ≤ lastPlace q := le_max_right _ _
  rcases (abs_roundEven_lastPlace_le q).lt_or_eq with hlt | heq
  · exact ⟨_, _, hlt, hplace, rfl⟩
  · -- a carry into the 54th place leaves a power of two
    have hpow : ∀ r : ℚ, r = 2 ^ 53 * 2 ^ lastPlace q → Representable r := by
      rintro r rfl
      refine ⟨2 ^ 52, lastPlace q + 1, by norm_num, by omega, ?_⟩
      rw [zpow_add₀ (by norm_num)]
      norm_num
      ring
    unfold nearest
    rcases (abs_eq (by norm_num)).mp heq with h | h
    · exact hpow _ (by rw [h]; norm_num)
    · rw [h]
      push_cast
      rw [neg_mul]
      exact (hpow _ rfl).neg

/-! ## Monotone -/

/-- Rounding keeps a number non-negative. -/
theorem nearest_nonneg {q : ℚ} (h : 0 ≤ q) : 0 ≤ nearest q := by
  have hquot : (0 : ℚ) ≤ q / 2 ^ lastPlace q := by positivity
  have hround := roundEven_mono hquot
  have hzero : roundEven 0 = 0 := by simpa using roundEven_intCast 0
  rw [hzero] at hround
  have hround : (0 : ℚ) ≤ roundEven (q / 2 ^ lastPlace q) := by exact_mod_cast hround
  unfold nearest
  positivity

/-- On the positive side rounding is monotone: two numbers have the same last place, or a power of
two stands between them. -/
theorem nearest_mono_of_pos {q r : ℚ} (hq : 0 < q) (h : q ≤ r) : nearest q ≤ nearest r := by
  have hr : 0 < r := hq.trans_le h
  have hplaces : lastPlace q ≤ lastPlace r := by
    apply lastPlace_mono hq.ne'
    rwa [abs_of_pos hq, abs_of_pos hr]
  rcases hplaces.eq_or_lt with heq | hlt
  · unfold nearest
    rw [heq]
    have hpos : (0 : ℚ) < 2 ^ lastPlace r := by positivity
    have hround := roundEven_mono (div_le_div_of_nonneg_right h hpos.le)
    gcongr
  · have hposq : (0 : ℚ) < 2 ^ lastPlace q := by positivity
    have hposr : (0 : ℚ) < 2 ^ lastPlace r := by positivity
    -- the lower number is rounded to at most a power of two
    have hupper : nearest q ≤ 2 ^ 53 * 2 ^ lastPlace q := by
      have hround := (abs_le.mp (abs_roundEven_lastPlace_le q)).2
      have hround : (roundEven (q / 2 ^ lastPlace q) : ℚ) ≤ 2 ^ 53 := by exact_mod_cast hround
      exact mul_le_mul_of_nonneg_right hround hposq.le
    -- the upper one to at least such a power
    have hlower : 2 ^ 52 * 2 ^ lastPlace r ≤ nearest r := by
      have hle := le_abs_of_lastPlace hr.ne' ((le_max_right _ _).trans_lt hlt)
      rw [abs_of_pos hr, ← le_div_iff₀ hposr] at hle
      have hround := roundEven_mono hle
      rw [roundEven_two_pow] at hround
      have hround : (2 ^ 52 : ℚ) ≤ roundEven (r / 2 ^ lastPlace r) := by exact_mod_cast hround
      exact mul_le_mul_of_nonneg_right hround hposr.le
    have hbetween := two_zpow_mul_two_le hlt
    linarith

/-- **Rounding is monotone.** -/
theorem nearest_mono {q r : ℚ} (h : q ≤ r) : nearest q ≤ nearest r := by
  rcases lt_or_ge 0 q with hq | hq
  · exact nearest_mono_of_pos hq h
  · have hqneg : nearest q ≤ 0 := by
      have hnonneg := nearest_nonneg (neg_nonneg.mpr hq)
      rw [nearest_neg] at hnonneg
      linarith
    rcases lt_or_ge r 0 with hr | hr
    · have hneg := nearest_mono_of_pos (neg_pos.mpr hr) (neg_le_neg h)
      rw [nearest_neg, nearest_neg] at hneg
      linarith
    · exact hqneg.trans (nearest_nonneg hr)

/-- Rounding does not pass a number of 53 places from below. -/
theorem nearest_le {q d : ℚ} (hd : Representable d) (h : q ≤ d) : nearest q ≤ d := by
  have hle := nearest_mono h
  rwa [nearest_of_representable hd] at hle

/-- Nor from above. -/
theorem le_nearest {q d : ℚ} (hd : Representable d) (h : d ≤ q) : d ≤ nearest q := by
  have hle := nearest_mono h
  rwa [nearest_of_representable hd] at hle

/-- **The next number**: above a number of 53 places, the first of which is not zero, the next one
is one unit of the last place away. -/
theorem add_lastPlace_le_of_lt {q : ℚ} (hq : Representable q) {m e : ℤ} (hm : 2 ^ 52 ≤ m)
    (h : m * 2 ^ e < q) : (m + 1) * 2 ^ e ≤ q := by
  obtain ⟨n, k, hn, -, rfl⟩ := hq
  have hn : |(n : ℚ)| < 2 ^ 53 := by exact_mod_cast hn
  have hm' : (2 ^ 52 : ℚ) ≤ m := by exact_mod_cast hm
  have hpose : (0 : ℚ) < 2 ^ e := by positivity
  have hposk : (0 : ℚ) < 2 ^ k := by positivity
  -- the number has no place below the unit, or it would be too small
  have hek : e ≤ k := by
    by_contra hlt
    have hstep := two_zpow_mul_two_le (not_le.mp hlt)
    have hn := (abs_lt.mp hn).2
    have hlarge : (2 ^ 52 : ℚ) * 2 ^ e ≤ m * 2 ^ e := mul_le_mul_of_nonneg_right hm' hpose.le
    have hsmall : (n : ℚ) * 2 ^ k < 2 ^ 53 * 2 ^ k := mul_lt_mul_of_pos_right hn hposk
    nlinarith
  obtain ⟨j, rfl⟩ := Int.le.dest hek
  rw [zpow_add₀ (by norm_num), mul_comm ((2 : ℚ) ^ e), ← mul_assoc, zpow_natCast] at h ⊢
  have hlt : (m : ℚ) < n * 2 ^ j := lt_of_mul_lt_mul_right h hpose.le
  have hlt : m < n * 2 ^ j := by exact_mod_cast hlt
  have hle : (m : ℚ) + 1 ≤ n * 2 ^ j := by exact_mod_cast hlt
  exact mul_le_mul_of_nonneg_right hle hpose.le

/-- **A threshold under scaling**: the scaled number reaches a bound exactly from a threshold on,
where the neighbours of the threshold lie on the two sides of the bound. -/
theorem le_nearest_mul_iff {q c d t : ℚ} (hq : Representable q) (hc : 0 ≤ c) {m e : ℤ}
    (hm : 2 ^ 52 ≤ m) (hbelow : nearest (m * 2 ^ e * c) < d) (hlt : m * 2 ^ e < t)
    (habove : d ≤ nearest ((m + 1) * 2 ^ e * c)) (hle : t ≤ (m + 1) * 2 ^ e) :
    d ≤ nearest (q * c) ↔ t ≤ q := by
  constructor
  · intro h
    by_contra hqt
    have hqm : q ≤ m * 2 ^ e := by
      by_contra hmq
      exact hqt (hle.trans (add_lastPlace_le_of_lt hq hm (not_le.mp hmq)))
    have hscaled := nearest_mono (mul_le_mul_of_nonneg_right hqm hc)
    linarith
  · intro h
    have hnext := add_lastPlace_le_of_lt hq hm (hlt.trans_le h)
    exact habove.trans (nearest_mono (mul_le_mul_of_nonneg_right hnext hc))

/-! ## The error -/

/-- Rounding moves a number by at most half a unit of its last place. -/
theorem abs_nearest_sub_le_lastPlace (q : ℚ) : |nearest q - q| ≤ 2 ^ lastPlace q / 2 := by
  have hpos : (0 : ℚ) < 2 ^ lastPlace q := by positivity
  have hdist : nearest q - q =
      (roundEven (q / 2 ^ lastPlace q) - q / 2 ^ lastPlace q) * 2 ^ lastPlace q := by
    unfold nearest
    rw [sub_mul, div_mul_cancel₀ _ hpos.ne']
  rw [hdist, abs_mul, abs_of_pos hpos]
  have h := mul_le_mul_of_nonneg_right (abs_roundEven_sub_le (q / 2 ^ lastPlace q)) hpos.le
  linarith

/-- A number that has all its places is moved by at most one part in `2 ^ 53` of its first place. -/
theorem abs_nearest_sub_le_log {q : ℚ} (h : 2 ^ (-1022 : ℤ) ≤ |q|) :
    |nearest q - q| ≤ 2 ^ Int.log 2 |q| / 2 ^ 53 := by
  have hpos : 0 < |q| := lt_of_lt_of_le (by positivity) h
  have hlog : -1022 ≤ Int.log 2 |q| := by
    apply (Int.zpow_le_iff_le_log (by norm_num) hpos).mp
    exact_mod_cast h
  have hplace : lastPlace q = Int.log 2 |q| - 52 := by
    unfold lastPlace
    omega
  have hunit : (2 : ℚ) ^ lastPlace q / 2 = 2 ^ Int.log 2 |q| / 2 ^ 53 := by
    rw [hplace, zpow_sub₀ (by norm_num)]
    norm_num
    ring
  rw [← hunit]
  exact abs_nearest_sub_le_lastPlace q

/-- Its first place is no more than the number. -/
theorem two_zpow_log_le {q : ℚ} (h : 2 ^ (-1022 : ℤ) ≤ |q|) : (2 : ℚ) ^ Int.log 2 |q| ≤ |q| := by
  have hpos : 0 < |q| := lt_of_lt_of_le (by positivity) h
  exact_mod_cast Int.zpow_log_le_self (R := ℚ) (b := 2) (by norm_num) hpos

/-- Nor is it more than the rounded number. -/
theorem two_zpow_log_le_nearest {q : ℚ} (h : 2 ^ (-1022 : ℤ) ≤ |q|) :
    (2 : ℚ) ^ Int.log 2 |q| ≤ |nearest q| := by
  have hpos : 0 < |q| := lt_of_lt_of_le (by positivity) h
  have hlog : -1022 ≤ Int.log 2 |q| := by
    apply (Int.zpow_le_iff_le_log (by norm_num) hpos).mp
    exact_mod_cast h
  have hpow : Representable (2 ^ Int.log 2 |q|) :=
    ⟨1, Int.log 2 |q|, by norm_num, by omega, by simp⟩
  have hle := le_nearest hpow (two_zpow_log_le h)
  rcases abs_choice q with habs | habs
  · rw [habs] at hle ⊢
    exact hle.trans (le_abs_self _)
  · rw [habs, nearest_neg] at hle
    rw [habs]
    exact hle.trans (neg_le_abs _)

/-- **The relative error** of a number that has all its places: one part in `2 ^ 53` of it. -/
theorem abs_nearest_sub_le {q : ℚ} (h : 2 ^ (-1022 : ℤ) ≤ |q|) :
    |nearest q - q| ≤ |q| / 2 ^ 53 :=
  (abs_nearest_sub_le_log h).trans (div_le_div_of_nonneg_right (two_zpow_log_le h) (by norm_num))

/-- The same, of the rounded number. -/
theorem abs_nearest_sub_le_nearest {q : ℚ} (h : 2 ^ (-1022 : ℤ) ≤ |q|) :
    |nearest q - q| ≤ |nearest q| / 2 ^ 53 :=
  (abs_nearest_sub_le_log h).trans
    (div_le_div_of_nonneg_right (two_zpow_log_le_nearest h) (by norm_num))

/-! ## Integers -/

/-- A power of two is a number of 53 places. -/
theorem representable_two_pow (k : ℕ) : Representable (2 ^ k) :=
  ⟨1, k, by norm_num, by omega, by simp⟩

/-- An integer is rounded to an integer. -/
theorem exists_nearest_intCast (n : ℤ) : ∃ k : ℤ, nearest n = k := by
  rcases lt_or_ge |n| (2 ^ 53) with h | h
  · exact ⟨n, nearest_of_representable (representable_intCast h)⟩
  · have hn : (n : ℚ) ≠ 0 := by
      rintro hn
      obtain rfl : n = 0 := by exact_mod_cast hn
      norm_num at h
    have hplace : 0 ≤ lastPlace n := by
      by_contra hneg
      have hlt := abs_lt_lastPlace n
      have hunit : (2 : ℚ) ^ lastPlace n ≤ 1 := zpow_le_one_of_nonpos₀ (by norm_num) (by omega)
      have h : (2 ^ 53 : ℚ) ≤ |(n : ℚ)| := by exact_mod_cast h
      linarith
    obtain ⟨k, hk⟩ := Int.eq_ofNat_of_zero_le hplace
    refine ⟨roundEven (n / 2 ^ lastPlace n) * 2 ^ k, ?_⟩
    have hpow : (2 : ℚ) ^ lastPlace n = 2 ^ k := by rw [hk, zpow_natCast]
    unfold nearest
    rw [hpow]
    push_cast
    rfl

/-- What is rounded to an integer of 53 places was that integer. -/
theorem eq_of_nearest_intCast {m n : ℤ} (hn : |n| < 2 ^ 53) (h : nearest m = n) : m = n := by
  rcases lt_or_ge |m| (2 ^ 53) with hm | hm
  · rw [nearest_of_representable (representable_intCast hm)] at h
    exact_mod_cast h
  · -- a larger integer is not rounded below the bound
    exfalso
    have hn : |(n : ℚ)| < 2 ^ 53 := by exact_mod_cast hn
    obtain ⟨hlo, hhi⟩ := abs_lt.mp hn
    rcases le_abs.mp hm with hm | hm
    · have hm : (2 : ℚ) ^ 53 ≤ m := by exact_mod_cast hm
      linarith [le_nearest (representable_two_pow 53) hm]
    · have hm : (2 : ℚ) ^ 53 ≤ -m := by exact_mod_cast hm
      have hle := le_nearest (representable_two_pow 53) hm
      rw [nearest_neg] at hle
      linarith

/-- A scaled integer is zero or has all its places. -/
theorem le_abs_intCast_mul {s : ℚ} (hs : 2 ^ (-1022 : ℤ) ≤ s) {n : ℤ} (hn : n ≠ 0) :
    2 ^ (-1022 : ℤ) ≤ |(n : ℚ) * s| := by
  have hpos : 0 < s := lt_of_lt_of_le (by positivity) hs
  have hone : (1 : ℚ) ≤ |(n : ℚ)| := by exact_mod_cast Int.one_le_abs hn
  rw [abs_mul, abs_of_pos hpos]
  exact hs.trans (le_mul_of_one_le_left hpos.le hone)

/-- The distance of two scaled integers that are rounded to the same number. -/
theorem abs_sub_le_of_nearest_mul_eq {s : ℚ} (hs : 2 ^ (-1022 : ℤ) ≤ s) {m n : ℤ} (hn : 0 ≤ n)
    (h : nearest (m * s) = nearest (n * s)) :
    |(m : ℚ) - n| * 2 ^ 106 ≤ n * (2 ^ 54 + 1) := by
  have hpos : 0 < s := lt_of_lt_of_le (by positivity) hs
  have hn₀ : (0 : ℚ) ≤ n * s := mul_nonneg (by exact_mod_cast hn) hpos.le
  have hzero : ∀ k : ℤ, k = 0 → nearest (k * s) - k * s = 0 := by
    rintro k rfl
    simp [nearest_of_representable representable_zero]
  -- one error is measured by the integer, the other one by what both are rounded to
  have hleft : |nearest (n * s) - n * s| ≤ n * s / 2 ^ 53 := by
    rcases eq_or_ne n 0 with h₀ | h₀
    · rw [hzero n h₀, abs_zero]
      positivity
    · have hle := abs_nearest_sub_le (le_abs_intCast_mul hs h₀)
      rwa [abs_of_nonneg hn₀] at hle
  have hright : |nearest (n * s) - m * s| ≤ nearest (n * s) / 2 ^ 53 := by
    rw [← h]
    rcases eq_or_ne m 0 with h₀ | h₀
    · rw [hzero m h₀, abs_zero, h]
      exact div_nonneg (nearest_nonneg hn₀) (by norm_num)
    · have hle := abs_nearest_sub_le_nearest (le_abs_intCast_mul hs h₀)
      rwa [h, abs_of_nonneg (nearest_nonneg hn₀), ← h] at hle
  have hsum : |((m : ℚ) - n) * s| ≤ nearest (n * s) / 2 ^ 53 + n * s / 2 ^ 53 := by
    have htriangle := abs_sub_le ((m : ℚ) * s) (nearest (n * s)) (n * s)
    rw [← sub_mul] at htriangle
    rw [abs_sub_comm] at hright
    linarith
  rw [abs_mul, abs_of_pos hpos] at hsum
  have hrounded := (abs_le.mp hleft).2
  have hscaled : |(m : ℚ) - n| * 2 ^ 106 * s ≤ n * (2 ^ 54 + 1) * s := by
    norm_num at hsum hrounded ⊢
    linarith
  exact le_of_mul_le_mul_right hscaled hpos

/-- **Scaled integers that are rounded to the same number** are the same or neighbours, and
neighbours only from `2 ^ 52` on. -/
theorem neighbours_of_nearest_mul_eq {s : ℚ} (hs : 2 ^ (-1022 : ℤ) ≤ s) {m n : ℤ} (hn : 0 ≤ n)
    (hlt : n < 2 ^ 53) (h : nearest (m * s) = nearest (n * s)) :
    m = n ∨ (m = n + 1 ∨ m + 1 = n) ∧ 2 ^ 52 ≤ n := by
  have hdist := abs_sub_le_of_nearest_mul_eq hs hn h
  have hdist : |m - n| * 2 ^ 106 ≤ n * (2 ^ 54 + 1) := by exact_mod_cast hdist
  rcases eq_or_ne m n with heq | hne
  · exact Or.inl heq
  · right
    have hfar : |m - n| < 2 := by
      by_contra hge
      omega
    have hone : 1 ≤ |m - n| := Int.one_le_abs (sub_ne_zero.mpr hne)
    refine ⟨?_, by omega⟩
    rcases abs_choice (m - n) with habs | habs <;> omega

end AdvMad.Found
