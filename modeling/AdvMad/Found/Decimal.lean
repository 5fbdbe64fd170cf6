import Mathlib.Algebra.Order.Field.Rat
import Mathlib.Data.List.TakeWhile
import Mathlib.Data.Nat.Digits.Defs
import Mathlib.Tactic.IntervalCases
import Mathlib.Tactic.Positivity

/-!
# Decimal notation

Digits and decimal literals as lists of characters, read without rounding: `digitVal` and
`Nat.digitChar` are inverse on the digits, `natOf` reads a run of digits, `integer` one with an
optional sign, and `decimal` a literal with an optional sign and an optional point (no exponent,
no hexadecimal form). On the texts a numeric key pad enters, digits with at most one point,
`unsignedDecimal_of_digitsAndPoint` says when there is a number.
-/

namespace AdvMad.Found

/-- The value of a decimal digit. -/
def digitVal (c : Char) : Option ℕ :=
  if '0'.toNat ≤ c.toNat ∧ c.toNat ≤ '9'.toNat then some (c.toNat - '0'.toNat) else none

/-- Reading a digit that was written. -/
theorem digitVal_digitChar {d : ℕ} (h : d < 10) : digitVal (Nat.digitChar d) = some d := by
  interval_cases d <;> rfl

/-- The number a run of digits denotes, `0` for the empty run. -/
def natOf (cs : List Char) : Option ℕ :=
  cs.foldlM (fun n c => (digitVal c).map fun d => 10 * n + d) 0

/-- A run of digits. -/
def Digits (cs : List Char) : Prop := ∀ c ∈ cs, c.isDigit = true

instance (cs : List Char) : Decidable (Digits cs) := List.decidableBAll _ cs

/-- A digit has a value. -/
theorem digitVal_of_isDigit {c : Char} (h : c.isDigit = true) : ∃ d, digitVal c = some d := by
  simp only [Char.isDigit, Bool.and_eq_true, decide_eq_true_eq, ge_iff_le,
    UInt32.le_iff_toNat_le] at h
  exact ⟨c.toNat - '0'.toNat, if_pos h⟩

/-- Reading on from the number read so far, a run of digits denotes a number. -/
theorem foldlM_digitVal_of_digits {cs : List Char} (h : Digits cs) (start : ℕ) :
    ∃ n, cs.foldlM (fun n c => (digitVal c).map fun d => 10 * n + d) start = some n := by
  induction cs generalizing start with
  | nil => exact ⟨start, rfl⟩
  | cons c cs ih =>
      obtain ⟨d, hd⟩ := digitVal_of_isDigit (h c List.mem_cons_self)
      obtain ⟨n, hn⟩ := ih (fun c' hc' => h c' (List.mem_cons_of_mem c hc')) (10 * start + d)
      refine ⟨n, ?_⟩
      rw [List.foldlM_cons, hd, Option.map_some, Option.bind_eq_bind, Option.bind_some, hn]

/-- A run of digits denotes a number. -/
theorem natOf_of_digits {cs : List Char} (h : Digits cs) : ∃ n, natOf cs = some n :=
  foldlM_digitVal_of_digits h 0

/-- An integer literal without sign: a run of digits, at least one. -/
def unsignedInteger (cs : List Char) : Option ℕ := if cs = [] then none else natOf cs

/-- An integer literal, with an optional sign. -/
def integer (text : String) : Option ℤ :=
  match text.toList with
  | '-' :: cs => (unsignedInteger cs).map Int.negOfNat
  | '+' :: cs => (unsignedInteger cs).map Int.ofNat
  | cs => (unsignedInteger cs).map Int.ofNat

/-- A run of digits has no sign. -/
theorem integer_of_digits {text : String} (h : Digits text.toList) (hne : text.toList ≠ []) {n : ℕ}
    (hn : natOf text.toList = some n) : integer text = some (n : ℤ) := by
  unfold integer
  split
  · rename_i cs hcs
    have hminus := h '-' (by rw [hcs]; exact List.mem_cons_self)
    exact absurd hminus (by decide)
  · rename_i cs hcs
    have hplus := h '+' (by rw [hcs]; exact List.mem_cons_self)
    exact absurd hplus (by decide)
  · simp only [unsignedInteger, if_neg hne, hn, Option.map_some, Int.ofNat_eq_natCast]

/-- A literal without sign: digits, or digits around a point, at least one digit in all. -/
def unsignedDecimal (cs : List Char) : Option ℚ :=
  match cs.span (· ≠ '.') with
  | (whole, []) => if whole = [] then none else (natOf whole).map fun n => (n : ℚ)
  | (whole, _ :: fraction) =>
      if whole = [] ∧ fraction = [] then none
      else do
        let w ← natOf whole
        let f ← natOf fraction
        some (w + f / 10 ^ fraction.length)

/-- A decimal literal. -/
def decimal (text : String) : Option ℚ :=
  match text.toList with
  | '-' :: cs => (unsignedDecimal cs).map fun q => -q
  | '+' :: cs => unsignedDecimal cs
  | cs => unsignedDecimal cs

example : decimal "180" = some 180 ∧ decimal "1.5" = some (3 / 2) ∧ decimal "abc" = none ∧
    decimal "" = none := by decide +kernel

/-! ### Texts of digits with at most one point -/

/-- A text of digits with at most one point. -/
def DigitsAndPoint (cs : List Char) : Prop :=
  (∀ c ∈ cs, c.isDigit = true ∨ c = '.') ∧ cs.count '.' ≤ 1

instance (cs : List Char) : Decidable (DigitsAndPoint cs) :=
  haveI : Decidable (∀ c ∈ cs, c.isDigit = true ∨ c = '.') := List.decidableBAll _ cs
  inferInstanceAs (Decidable (_ ∧ _))

/-- A point is no digit. -/
theorem not_mem_of_digits {cs : List Char} (h : Digits cs) : '.' ∉ cs := by
  intro hmem
  exact absurd (h '.' hmem) (by decide)

/-- Such a text is a run of digits, or two around a point. -/
theorem digitsAndPoint_cases {cs : List Char} (h : DigitsAndPoint cs) :
    Digits cs ∨ ∃ whole fraction, cs = whole ++ '.' :: fraction ∧ Digits whole ∧
      Digits fraction := by
  obtain ⟨hchars, hcount⟩ := h
  have hdigits : ∀ ds : List Char, (∀ c ∈ ds, c ∈ cs) → '.' ∉ ds → Digits ds := by
    intro ds hsub hpoint c hc
    exact (hchars c (hsub c hc)).resolve_right fun heq => hpoint (heq ▸ hc)
  by_cases hpoint : '.' ∈ cs
  · obtain ⟨whole, fraction, heq⟩ := List.append_of_mem hpoint
    rw [heq, List.count_append, List.count_cons_self] at hcount
    refine Or.inr ⟨whole, fraction, heq, hdigits whole ?_ ?_, hdigits fraction ?_ ?_⟩
    · intro c hc
      rw [heq]
      exact List.mem_append_left _ hc
    · exact List.count_eq_zero.mp (by omega)
    · intro c hc
      rw [heq]
      exact List.mem_append_right _ (List.mem_cons_of_mem _ hc)
    · exact List.count_eq_zero.mp (by omega)
  · exact Or.inl (hdigits cs (fun _ hc => hc) hpoint)

/-- Reading a run of digits without a point. -/
theorem unsignedDecimal_of_digits {cs : List Char} (h : Digits cs) :
    unsignedDecimal cs = if cs = [] then none else (natOf cs).map fun n => (n : ℚ) := by
  have hall : ∀ c ∈ cs, decide (c ≠ '.') = true := by
    intro c hc
    exact decide_eq_true fun heq => not_mem_of_digits h (heq ▸ hc)
  have hspan : cs.span (· ≠ '.') = (cs, []) := by
    rw [List.span_eq_takeWhile_dropWhile, List.takeWhile_eq_self_iff.mpr hall,
      List.dropWhile_eq_nil_iff.mpr hall]
  unfold unsignedDecimal
  rw [hspan]

/-- Reading digits around a point. -/
theorem unsignedDecimal_of_point {whole : List Char} (h : Digits whole) (fraction : List Char) :
    unsignedDecimal (whole ++ '.' :: fraction) =
      if whole = [] ∧ fraction = [] then none
      else (do
        let w ← natOf whole
        let f ← natOf fraction
        some ((w : ℚ) + f / 10 ^ fraction.length)) := by
  have hall : ∀ c ∈ whole, decide (c ≠ '.') = true := by
    intro c hc
    exact decide_eq_true fun heq => not_mem_of_digits h (heq ▸ hc)
  have hspan : (whole ++ '.' :: fraction).span (· ≠ '.') = (whole, '.' :: fraction) := by
    rw [List.span_eq_takeWhile_dropWhile, List.takeWhile_append_of_pos hall,
      List.dropWhile_append_of_pos hall]
    simp
  unfold unsignedDecimal
  rw [hspan]

/-- What such a text denotes is not negative, and it denotes something exactly when it has a
digit. -/
theorem unsignedDecimal_of_digitsAndPoint {cs : List Char} (h : DigitsAndPoint cs) :
    ((∃ c ∈ cs, c.isDigit = true) ∧ ∃ q, unsignedDecimal cs = some q ∧ 0 ≤ q) ∨
      ((¬ ∃ c ∈ cs, c.isDigit = true) ∧ unsignedDecimal cs = none) := by
  rcases digitsAndPoint_cases h with hdigits | ⟨whole, fraction, rfl, hwhole, hfraction⟩
  · rw [unsignedDecimal_of_digits hdigits]
    by_cases hnil : cs = []
    · right
      simp [hnil]
    · obtain ⟨n, hn⟩ := natOf_of_digits hdigits
      obtain ⟨c, hc⟩ := List.exists_mem_of_ne_nil cs hnil
      left
      refine ⟨⟨c, hc, hdigits c hc⟩, n, ?_, Nat.cast_nonneg n⟩
      rw [if_neg hnil, hn]
      rfl
  · rw [unsignedDecimal_of_point hwhole]
    by_cases hnil : whole = [] ∧ fraction = []
    · right
      simp [hnil]
    · obtain ⟨w, hw⟩ := natOf_of_digits hwhole
      obtain ⟨f, hf⟩ := natOf_of_digits hfraction
      left
      refine ⟨?_, w + f / 10 ^ fraction.length, ?_, by positivity⟩
      · by_cases hwholeNil : whole = []
        · have hfractionNil : fraction ≠ [] := fun hf => hnil ⟨hwholeNil, hf⟩
          obtain ⟨c, hc⟩ := List.exists_mem_of_ne_nil fraction hfractionNil
          exact ⟨c, List.mem_append_right _ (List.mem_cons_of_mem _ hc), hfraction c hc⟩
        · obtain ⟨c, hc⟩ := List.exists_mem_of_ne_nil whole hwholeNil
          exact ⟨c, List.mem_append_left _ hc, hwhole c hc⟩
      · rw [if_neg hnil, hw, hf]
        rfl

/-- Such a text has no sign. -/
theorem decimal_of_digitsAndPoint {text : String} (h : DigitsAndPoint text.toList) :
    decimal text = unsignedDecimal text.toList := by
  have hsign : ∀ c cs, text.toList = c :: cs → c ≠ '-' ∧ c ≠ '+' := by
    intro c cs heq
    have hc := h.1 c (by rw [heq]; exact List.mem_cons_self)
    constructor
    · rintro rfl
      exact absurd hc (by decide)
    · rintro rfl
      exact absurd hc (by decide)
  unfold decimal
  split
  · rename_i cs heq
    exact absurd rfl (hsign _ cs heq).1
  · rename_i cs heq
    exact absurd rfl (hsign _ cs heq).2
  · rfl

end AdvMad.Found
