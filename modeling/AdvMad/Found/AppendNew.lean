import Mathlib.Data.List.Basic
import Mathlib.Data.List.Perm.Basic

/-!
# Lists that grow by values they do not hold

`appendNew xs x` appends `x` unless it is in `xs` already. As a set the list gains `x`; as a
sequence it does not always: `exists_getLast?_appendNew` says what its last element is.

`appendAllNew xs ys` does it with one value after the other. What it puts behind `xs` is a
repetition-free part of `ys` (`exists_added`), the same up to order for any `ys` of the same values
(`appendAllNew_perm`).
-/

namespace AdvMad.Found

variable {α : Type} [DecidableEq α]

/-- Append a value the list does not hold. -/
def appendNew (xs : List α) (x : α) : List α := if x ∈ xs then xs else xs ++ [x]

/-- A value that is there is not appended. -/
theorem appendNew_of_mem {xs : List α} {x : α} (h : x ∈ xs) : appendNew xs x = xs := if_pos h

/-- A new one is, at the end. -/
theorem appendNew_of_not_mem {xs : List α} {x : α} (h : x ∉ xs) : appendNew xs x = xs ++ [x] :=
  if_neg h

/-- Nothing but the value is added. -/
theorem mem_appendNew {xs : List α} {x y : α} : y ∈ appendNew xs x ↔ y ∈ xs ∨ y = x := by
  by_cases h : x ∈ xs
  · rw [appendNew_of_mem h]
    constructor
    · exact Or.inl
    · rintro (hy | rfl)
      · exact hy
      · exact h
  · rw [appendNew_of_not_mem h, List.mem_append, List.mem_singleton]

/-- The list ends in something. -/
theorem appendNew_ne_nil (xs : List α) (x : α) : appendNew xs x ≠ [] :=
  List.ne_nil_of_mem (mem_appendNew.mpr (Or.inr rfl))

/-- A new value is the last element. -/
theorem getLast?_appendNew_of_not_mem {xs : List α} {x : α} (h : x ∉ xs) :
    (appendNew xs x).getLast? = some x := by
  rw [appendNew_of_not_mem h, List.getLast?_concat]

/-- **What the list ends in**, of a kind that `x` is of: `x` was not in the list, or the list ended
in something of that kind. -/
theorem exists_getLast?_appendNew {P : α → Prop} (xs : List α) {x : α} (hx : P x) :
    (∃ y, (appendNew xs x).getLast? = some y ∧ P y) ↔
      x ∉ xs ∨ ∃ y, xs.getLast? = some y ∧ P y := by
  by_cases h : x ∈ xs
  · rw [appendNew_of_mem h, or_iff_right (not_not_intro h)]
  · rw [getLast?_appendNew_of_not_mem h]
    exact iff_of_true ⟨x, rfl, hx⟩ (Or.inl h)

/-! ### One value after the other -/

/-- Append the values a list does not hold. -/
def appendAllNew (xs ys : List α) : List α := ys.foldl appendNew xs

/-- No values leave the list as it is. -/
@[simp] theorem appendAllNew_nil (xs : List α) : appendAllNew xs [] = xs := rfl

/-- The first value goes before the others. -/
@[simp] theorem appendAllNew_cons (xs : List α) (y : α) (ys : List α) :
    appendAllNew xs (y :: ys) = appendAllNew (appendNew xs y) ys := rfl

/-- The list gains the values and nothing else. -/
theorem mem_appendAllNew {xs ys : List α} {z : α} :
    z ∈ appendAllNew xs ys ↔ z ∈ xs ∨ z ∈ ys := by
  induction ys generalizing xs with
  | nil => simp
  | cons y ys ih => rw [appendAllNew_cons, ih, mem_appendNew, List.mem_cons, or_assoc]

/-- **What is added**: the values of `ys` that were not there, in their order and none twice. -/
theorem exists_added (xs ys : List α) :
    ∃ added, appendAllNew xs ys = xs ++ added ∧ added.Nodup ∧ added.Sublist ys ∧
      ∀ z, z ∈ added ↔ z ∉ xs ∧ z ∈ ys := by
  induction ys generalizing xs with
  | nil => exact ⟨[], by simp⟩
  | cons y ys ih =>
      by_cases hy : y ∈ xs
      · obtain ⟨added, heq, hnodup, hsub, hmem⟩ := ih xs
        refine ⟨added, ?_, hnodup, hsub.cons y, fun z => ?_⟩
        · rw [appendAllNew_cons, appendNew_of_mem hy, heq]
        · rw [hmem, List.mem_cons]
          refine and_congr_right fun hz => (or_iff_right ?_).symm
          rintro rfl
          exact hz hy
      · obtain ⟨added, heq, hnodup, hsub, hmem⟩ := ih (xs ++ [y])
        simp only [List.mem_append, List.mem_singleton, not_or] at hmem
        refine ⟨y :: added, ?_, ?_, hsub.cons_cons y, fun z => ?_⟩
        · rw [appendAllNew_cons, appendNew_of_not_mem hy, heq, List.append_assoc]
          rfl
        · exact List.nodup_cons.mpr ⟨fun hz => ((hmem y).mp hz).1.2 rfl, hnodup⟩
        · rw [List.mem_cons, List.mem_cons, hmem]
          by_cases hz : z = y
          · subst hz
            simp [hy]
          · simp [hz]

/-- **The order of the values does not matter**, nor how often they come: the lists hold the same
up to order. -/
theorem appendAllNew_perm (xs : List α) {ys zs : List α} (h : ∀ z, z ∈ ys ↔ z ∈ zs) :
    (appendAllNew xs ys).Perm (appendAllNew xs zs) := by
  obtain ⟨added, heq, hnodup, -, hmem⟩ := exists_added xs ys
  obtain ⟨added', heq', hnodup', -, hmem'⟩ := exists_added xs zs
  rw [heq, heq']
  apply List.Perm.append_left
  apply (List.perm_ext_iff_of_nodup hnodup hnodup').mpr
  intro z
  rw [hmem, hmem', h z]

end AdvMad.Found
