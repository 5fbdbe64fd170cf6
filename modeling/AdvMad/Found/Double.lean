import AdvMad.Found.Rounding

/-!
# Floating-point numbers

The type `Double` of IEEE 754 binary64 over the rationals: an operation gives the exact result, and
`Extended.round` takes it to the format, as the standard says. `Arithmetic` is what a program
needs of its numbers, so that one translation of it can be read on `Double`, where it runs, and on
`ℚ`, where rounding is idealized away.

The sign of a zero is left out. Only a division by zero tells it, and that is left out too: here its
result is NaN.
-/

namespace AdvMad.Found

/-- A number, an infinity or NaN. -/
inductive Extended
  | finite (q : ℚ)
  | infinite (negative : Bool)
  | nan
deriving DecidableEq, Repr

namespace Extended

/-- The exact negative. -/
def neg : Extended → Extended
  | finite q => finite (-q)
  | infinite negative => infinite (!negative)
  | nan => nan

/-- The exact sum. -/
def add : Extended → Extended → Extended
  | finite p, finite q => finite (p + q)
  | finite _, infinite s => infinite s
  | infinite s, finite _ => infinite s
  | infinite s, infinite t => if s = t then infinite s else nan
  | _, _ => nan

/-- The exact difference. -/
def sub (x y : Extended) : Extended := x.add y.neg

/-- The exact product. -/
def mul : Extended → Extended → Extended
  | finite p, finite q => finite (p * q)
  | finite p, infinite s => if p = 0 then nan else infinite (decide (p < 0) != s)
  | infinite s, finite q => if q = 0 then nan else infinite (s != decide (q < 0))
  | infinite s, infinite t => infinite (s != t)
  | _, _ => nan

/-- The exact quotient; NaN for a division by zero. -/
def div : Extended → Extended → Extended
  | finite p, finite q => if q = 0 then nan else finite (p / q)
  | finite _, infinite _ => finite 0
  | infinite s, finite q => if q = 0 then nan else infinite (s != decide (q < 0))
  | _, _ => nan

/-- The nearest datum of the format: a number whose rounding is too large becomes an infinity. -/
def round : Extended → Extended
  | finite q => if |nearest q| < 2 ^ 1024 then finite (nearest q) else infinite (decide (q < 0))
  | x => x

/-- A datum of the format. -/
def IsDouble : Extended → Prop
  | finite q => Representable q ∧ |q| < 2 ^ 1024
  | _ => True

/-- Rounding gives a datum of the format. -/
theorem isDouble_round (x : Extended) : x.round.IsDouble := by
  cases x with
  | finite q =>
      simp only [round]
      split_ifs with h
      · exact ⟨representable_nearest q, h⟩
      · trivial
  | infinite negative => trivial
  | nan => trivial

/-- A datum of the format is its own rounding. -/
theorem round_of_isDouble {x : Extended} (h : x.IsDouble) : x.round = x := by
  cases x with
  | finite q =>
      obtain ⟨hq, hlt⟩ := h
      simp only [round]
      rw [nearest_of_representable hq, if_pos hlt]
  | infinite negative => rfl
  | nan => rfl

/-- A number no larger than one of the format is rounded to a number. -/
theorem round_finite {q d : ℚ} (hd : (finite d).IsDouble) (h : |q| ≤ |d|) :
    (finite q).round = finite (nearest q) := by
  obtain ⟨hrep, hlt⟩ := hd
  have habs : Representable |d| := by
    rcases abs_choice d with h | h
    · rwa [h]
    · rw [h]
      exact hrep.neg
  obtain ⟨hlo, hhi⟩ := abs_le.mp h
  have hupper := nearest_le habs hhi
  have hlower := le_nearest habs.neg hlo
  simp only [round]
  rw [if_pos ((abs_le.mpr ⟨hlower, hupper⟩).trans_lt hlt)]

/-- A power of two below the bound is in the format. -/
theorem isDouble_two_pow {k : ℕ} (h : k < 1024) : (finite (2 ^ k)).IsDouble := by
  refine ⟨representable_two_pow k, ?_⟩
  rw [abs_of_pos (by positivity)]
  exact pow_lt_pow_right₀ (by norm_num) h

/-- An integer of 53 places is in the format. -/
theorem isDouble_intCast {n : ℤ} (h : |n| < 2 ^ 53) : (finite n).IsDouble := by
  refine ⟨representable_intCast h, ?_⟩
  have hcast : |(n : ℚ)| < 2 ^ 53 := by exact_mod_cast h
  exact hcast.trans (pow_lt_pow_right₀ (by norm_num) (by norm_num))

/-! ### Numbers -/

/-- A number, no infinity and not NaN. -/
def IsFinite (x : Extended) : Prop := ∃ q, x = finite q

/-- What is rounded to a number was one. -/
theorem IsFinite.of_round {x : Extended} (h : x.round.IsFinite) : x.IsFinite := by
  cases x with
  | finite q => exact ⟨q, rfl⟩
  | infinite negative => exact h
  | nan => exact h

/-- A product that is a number has a number on its left. -/
theorem IsFinite.of_mul {x y : Extended} (h : (x.mul y).IsFinite) : x.IsFinite := by
  obtain ⟨r, hr⟩ := h
  cases x with
  | finite q => exact ⟨q, rfl⟩
  | infinite s =>
      cases y with
      | finite q =>
          simp only [mul] at hr
          split_ifs at hr
      | infinite t => cases hr
      | nan => cases hr
  | nan => cases y <;> cases hr

/-- A quotient that is a number has a number on its left. -/
theorem IsFinite.of_div {x y : Extended} (h : (x.div y).IsFinite) : x.IsFinite := by
  obtain ⟨r, hr⟩ := h
  cases x with
  | finite q => exact ⟨q, rfl⟩
  | infinite s =>
      cases y with
      | finite q =>
          simp only [div] at hr
          split_ifs at hr
      | infinite t => cases hr
      | nan => cases hr
  | nan => cases y <;> cases hr

/-- A number that rounding leaves a number. -/
theorem round_eq_nearest {q : ℚ} (h : (finite q).round.IsFinite) :
    (finite q).round = finite (nearest q) := by
  obtain ⟨r, hr⟩ := h
  simp only [round] at hr ⊢
  split_ifs at hr ⊢
  rfl

/-! ### Below zero -/

/-- Not below zero. -/
def NotNegative : Extended → Prop
  | finite q => 0 ≤ q
  | infinite negative => negative = false
  | nan => True

/-- Such a datum is no number below zero. -/
theorem NotNegative.ne {x : Extended} (h : x.NotNegative) {q : ℚ} (hq : q < 0) : x ≠ finite q := by
  rintro rfl
  exact absurd h (not_le.mpr hq)

/-- Sums keep it. -/
theorem NotNegative.add {x y : Extended} (hx : x.NotNegative) (hy : y.NotNegative) :
    (x.add y).NotNegative := by
  cases x with
  | finite p =>
      cases y with
      | finite q => exact add_nonneg hx hy
      | infinite t => exact hy
      | nan => trivial
  | infinite s =>
      cases y with
      | finite q => exact hx
      | infinite t =>
          simp only [Extended.add]
          split_ifs
          · exact hx
          · trivial
      | nan => trivial
  | nan => cases y <;> trivial

/-- Products keep it. -/
theorem NotNegative.mul {x y : Extended} (hx : x.NotNegative) (hy : y.NotNegative) :
    (x.mul y).NotNegative := by
  have hsign : ∀ {q : ℚ}, 0 ≤ q → decide (q < 0) = false := fun h =>
    decide_eq_false (not_lt.mpr h)
  cases x with
  | finite p =>
      cases y with
      | finite q => exact mul_nonneg hx hy
      | infinite t =>
          obtain rfl : t = false := hy
          simp only [Extended.mul]
          split_ifs
          · trivial
          · rw [hsign hx]
            rfl
      | nan => trivial
  | infinite s =>
      obtain rfl : s = false := hx
      cases y with
      | finite q =>
          simp only [Extended.mul]
          split_ifs
          · trivial
          · rw [hsign hy]
            rfl
      | infinite t =>
          obtain rfl : t = false := hy
          rfl
      | nan => trivial
  | nan => cases y <;> trivial

/-- Quotients keep it. -/
theorem NotNegative.div {x y : Extended} (hx : x.NotNegative) (hy : y.NotNegative) :
    (x.div y).NotNegative := by
  cases x with
  | finite p =>
      cases y with
      | finite q =>
          simp only [Extended.div]
          split_ifs
          · trivial
          · exact div_nonneg hx hy
      | infinite t => exact le_rfl
      | nan => trivial
  | infinite s =>
      obtain rfl : s = false := hx
      cases y with
      | finite q =>
          simp only [Extended.div]
          split_ifs
          · trivial
          · rw [decide_eq_false (not_lt.mpr hy)]
            rfl
      | infinite t => trivial
      | nan => trivial
  | nan => cases y <;> trivial

/-- So does rounding. -/
theorem NotNegative.round {x : Extended} (h : x.NotNegative) : x.round.NotNegative := by
  cases x with
  | finite q =>
      simp only [Extended.round]
      split_ifs
      · exact nearest_nonneg h
      · exact decide_eq_false (not_lt.mpr h)
  | infinite negative => exact h
  | nan => trivial

end Extended

/-- A floating-point number of 64 bits. -/
structure Double where
  datum : Extended
  isDouble : datum.IsDouble
deriving DecidableEq

/-- What a program calculates with: numbers with the four operations, the number that a literal or
an integer becomes, and the value of a number. -/
class Arithmetic (N : Type) extends Add N, Sub N, Mul N, Div N where
  ofRat : ℚ → N
  value : N → Extended

export Arithmetic (ofRat value)

/-- The exact arithmetic. -/
instance : Arithmetic ℚ where
  ofRat q := q
  value q := .finite q

/-- A literal of the exact arithmetic is the number itself. -/
@[simp] theorem ofRat_rat (q : ℚ) : (ofRat q : ℚ) = q := rfl

/-- A number of it has itself as its value. -/
@[simp] theorem value_rat (q : ℚ) : value q = .finite q := rfl

namespace Double

/-- The result of an operation. -/
def round (x : Extended) : Double := ⟨x.round, x.isDouble_round⟩

/-- The arithmetic of floating-point numbers. -/
instance : Arithmetic Double where
  add x y := round (x.datum.add y.datum)
  sub x y := round (x.datum.sub y.datum)
  mul x y := round (x.datum.mul y.datum)
  div x y := round (x.datum.div y.datum)
  ofRat q := round (.finite q)
  value x := x.datum

/-- The value of a result is the exact one, rounded. -/
theorem value_round (x : Extended) : value (round x) = x.round := rfl

/-- That of a product. -/
@[simp] theorem value_mul (x y : Double) : value (x * y) = ((value x).mul (value y)).round :=
  value_round _

/-- That of a quotient. -/
@[simp] theorem value_div (x y : Double) : value (x / y) = ((value x).div (value y)).round :=
  value_round _

/-- That of a literal. -/
@[simp] theorem value_ofRat (q : ℚ) : value (ofRat q : Double) = (Extended.finite q).round :=
  value_round _

/-- An integer of 53 places is a number as it is. -/
theorem value_ofRat_intCast {n : ℤ} (h : |n| < 2 ^ 53) :
    value (ofRat n : Double) = .finite n :=
  Extended.round_of_isDouble (Extended.isDouble_intCast h)

/-- The number of a datum is one of the format. -/
theorem isDouble_of_value {x : Double} {q : ℚ} (h : value x = .finite q) :
    (Extended.finite q).IsDouble := h ▸ x.isDouble

/-- A literal up to four is rounded to a number. -/
theorem value_literal {c : ℚ} (h₀ : 0 ≤ c) (h : c ≤ 4) :
    value (ofRat c : Double) = .finite (nearest c) := by
  apply Extended.round_finite (Extended.isDouble_two_pow (k := 2) (by norm_num))
  rw [abs_of_nonneg h₀, abs_of_nonneg (by norm_num)]
  linarith

/-- A share of a number: the number times a literal from zero to one. -/
theorem value_mul_ofRat {x : Double} {q c : ℚ} (hx : value x = .finite q) (h₀ : 0 ≤ c)
    (h₁ : c ≤ 1) : value (x * ofRat c) = .finite (nearest (q * nearest c)) := by
  have hupper : nearest c ≤ 1 := nearest_le (representable_two_pow 0) (by simpa using h₁)
  rw [value_mul, hx, value_literal h₀ (by linarith)]
  apply Extended.round_finite (isDouble_of_value hx)
  rw [abs_mul, abs_of_nonneg (nearest_nonneg h₀)]
  exact mul_le_of_le_one_right (abs_nonneg q) hupper

end Double

end AdvMad.Found
