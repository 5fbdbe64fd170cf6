import Mathlib.Data.Rat.Floor
import Mathlib.Tactic.Linarith

/-!
# Truncation toward zero

`trunc` drops the fraction of a rational toward zero, as the conversion of a floating-point number
to an integer type does; `saturate` clamps an integer to a range, and `inRange` refuses one outside
it. The lemmas reduce `trunc` to the floor on the non-negative side and by symmetry on the other.
-/

namespace AdvMad.Found

/-- The rational without its fraction, rounded toward zero. -/
def trunc (q : ℚ) : ℤ := q.num.tdiv q.den

/-- The nearest integer of the range from `lo` to `hi`. -/
def saturate (lo hi n : ℤ) : ℤ := max lo (min hi n)

/-- The integer itself where it lies in the range from `lo` to `hi`. -/
def inRange (lo hi n : ℤ) : Option ℤ := if lo ≤ n ∧ n ≤ hi then some n else none

/-- On the non-negative side truncation is the floor. -/
theorem trunc_of_nonneg {q : ℚ} (h : 0 ≤ q) : trunc q = ⌊q⌋ := by
  unfold trunc
  rw [Int.tdiv_eq_ediv_of_nonneg (Rat.num_nonneg.mpr h), Rat.floor_def']

/-- Truncation is symmetric about zero. -/
theorem trunc_neg (q : ℚ) : trunc (-q) = -trunc q := by
  unfold trunc
  rw [Rat.num_neg_eq_neg_num, Rat.den_neg_eq_den, Int.neg_tdiv]

/-- An integer has no fraction. -/
@[simp] theorem trunc_intCast (n : ℤ) : trunc n = n := by
  unfold trunc
  rw [Rat.num_intCast, Rat.den_intCast, Nat.cast_one, Int.tdiv_one]

/-- Nor has a natural number. -/
@[simp] theorem trunc_natCast (n : ℕ) : trunc n = n := by
  simpa using trunc_intCast n

/-- Truncation keeps a non-negative rational non-negative. -/
theorem trunc_nonneg {q : ℚ} (h : 0 ≤ q) : 0 ≤ trunc q := by
  rw [trunc_of_nonneg h]
  exact Int.floor_nonneg.mpr h

/-- Truncating between two integers stays between them. -/
theorem trunc_eq_iff_of_nonneg {q : ℚ} (h : 0 ≤ q) (n : ℤ) :
    trunc q = n ↔ (n : ℚ) ≤ q ∧ q < n + 1 := by
  rw [trunc_of_nonneg h, Int.floor_eq_iff]

/-- Below a positive integer before and after truncating. -/
theorem trunc_lt_iff {n : ℤ} (hn : 0 < n) (q : ℚ) : trunc q < n ↔ q < n := by
  have hcast : (0 : ℚ) < n := by exact_mod_cast hn
  rcases le_total 0 q with h | h
  · rw [trunc_of_nonneg h, Int.floor_lt]
  · have hneg : trunc q = -trunc (-q) := by rw [trunc_neg, neg_neg]
    have hnonneg := trunc_nonneg (q := -q) (by linarith)
    exact iff_of_true (by omega) (by linarith)

/-- The same for the bounds of the integer types. -/
theorem trunc_lt_two_pow_iff (k : ℕ) (q : ℚ) : trunc q < 2 ^ k ↔ q < 2 ^ k := by
  rw [trunc_lt_iff (by positivity)]
  push_cast
  rfl

/-- Above a negative integer before and after truncating. -/
theorem neg_lt_trunc_iff {n : ℤ} (hn : 0 < n) (q : ℚ) : -n < trunc q ↔ -(n : ℚ) < q := by
  have hneg : trunc q = -trunc (-q) := by rw [trunc_neg, neg_neg]
  rw [hneg, neg_lt_neg_iff, trunc_lt_iff hn, neg_lt]

/-- What truncates to minus one. -/
theorem trunc_eq_neg_one_iff (q : ℚ) : trunc q = -1 ↔ -2 < q ∧ q ≤ -1 := by
  rcases le_total 0 q with h | h
  · have hnonneg := trunc_nonneg h
    apply iff_of_false (by omega)
    rintro ⟨-, hle⟩
    linarith
  · have hneg : trunc q = -trunc (-q) := by rw [trunc_neg, neg_neg]
    rw [hneg, neg_inj, trunc_eq_iff_of_nonneg (by linarith) 1]
    constructor
    · rintro ⟨hle, hlt⟩
      norm_num at hle hlt
      constructor <;> linarith
    · rintro ⟨hlt, hle⟩
      constructor
      · norm_num
        linarith
      · norm_num
        linarith

/-- A clamped integer lies in the range. -/
theorem saturate_mem {lo hi : ℤ} (h : lo ≤ hi) (n : ℤ) :
    lo ≤ saturate lo hi n ∧ saturate lo hi n ≤ hi := by
  unfold saturate
  omega

/-- An integer of the range is not refused. -/
theorem inRange_of_mem {lo hi n : ℤ} (h₁ : lo ≤ n) (h₂ : n ≤ hi) : inRange lo hi n = some n :=
  if_pos ⟨h₁, h₂⟩

/-- Nor is it moved. -/
theorem saturate_of_mem {lo hi n : ℤ} (h₁ : lo ≤ n) (h₂ : n ≤ hi) : saturate lo hi n = n := by
  unfold saturate
  omega

end AdvMad.Found
