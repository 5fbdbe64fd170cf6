import Mathlib.Data.List.Basic
import Mathlib.Data.List.InsertIdx
import Mathlib.Data.List.Perm.Basic

/-!
# Editing the rows of a list

The index-checked primitives of a growable array, `none` when the index is out of range (where
the array traps), and the two ways of carrying a row to another place: exchanging two rows, and
taking row `i` out and putting it back at `j`. The two agree exactly when the row passes over rows
equal to the one it lands on (`swap_eq_move_iff`). Where rows have only been taken out,
`filter_eq_filter_iff` says when a selection does not notice. Two lists of the same values edited at
one row each keep the same values exactly where the rows are equal (`perm_eraseIdx_iff`,
`perm_move_iff`).
-/

namespace AdvMad.Found

variable {α : Type}

/-- Put `x` in front of row `i`; `i` may be the number of rows. -/
def insertAt (xs : List α) (x : α) (i : ℕ) : Option (List α) :=
  if i ≤ xs.length then some (xs.insertIdx i x) else none

/-- Take row `i` out. -/
def removeAt (xs : List α) (i : ℕ) : Option (List α) :=
  if i < xs.length then some (xs.eraseIdx i) else none

/-- Exchange rows `i` and `j`. -/
def swapAt (xs : List α) (i j : ℕ) : Option (List α) :=
  match xs[i]?, xs[j]? with
  | some a, some b => some ((xs.set i b).set j a)
  | _, _ => none

/-- Replace row `i` by what `f` makes of it. -/
def updateAt (xs : List α) (i : ℕ) (f : α → Option α) : Option (List α) :=
  match xs[i]? with
  | some x => (f x).map fun y => xs.set i y
  | none => none

/-! ### In range -/

/-- A row up to the number of rows may be inserted at. -/
theorem insertAt_of_le {xs : List α} {i : ℕ} (h : i ≤ xs.length) (x : α) :
    insertAt xs x i = some (xs.insertIdx i x) := if_pos h

/-- The first row always may. -/
theorem insertAt_zero (xs : List α) (x : α) : insertAt xs x 0 = some (x :: xs) :=
  insertAt_of_le (Nat.zero_le _) x

/-- A row of the array may be taken out. -/
theorem removeAt_of_lt {xs : List α} {i : ℕ} (h : i < xs.length) :
    removeAt xs i = some (xs.eraseIdx i) := if_pos h

/-- Two rows of the array may be exchanged. -/
theorem swapAt_of_lt {xs : List α} {i j : ℕ} (hi : i < xs.length) (hj : j < xs.length) :
    swapAt xs i j = some ((xs.set i xs[j]).set j xs[i]) := by
  unfold swapAt
  rw [List.getElem?_eq_getElem hi, List.getElem?_eq_getElem hj]

/-- A row of the array may be edited. -/
theorem updateAt_of_lt {xs : List α} {i : ℕ} (h : i < xs.length) (f : α → Option α) :
    updateAt xs i f = (f xs[i]).map fun y => xs.set i y := by
  unfold updateAt
  rw [List.getElem?_eq_getElem h]

/-! ### Rows taken out -/

/-- Taking row `i` out leaves the other rows and that one. -/
theorem perm_eraseIdx_append {xs : List α} {i : ℕ} (h : i < xs.length) :
    xs.Perm (xs.eraseIdx i ++ [xs[i]]) := by
  have hcons : (xs[i] :: xs.eraseIdx i).Perm xs := List.getElem_cons_eraseIdx_perm h
  exact hcons.symm.trans (List.perm_append_singleton _ _).symm

/-- A list and a part of it select the same rows exactly when none of the rows taken out is
selected. -/
theorem filter_eq_filter_iff {xs part out : List α} (hpart : part.Sublist xs)
    (hperm : xs.Perm (part ++ out)) (p : α → Bool) :
    xs.filter p = part.filter p ↔ ∀ x ∈ out, p x = false := by
  have hlen : (xs.filter p).length = (part.filter p).length + (out.filter p).length := by
    have hfilter := (hperm.filter p).length_eq
    simpa [List.filter_append] using hfilter
  constructor
  · intro heq x hx
    rw [heq] at hlen
    have hnil : out.filter p = [] := List.eq_nil_of_length_eq_zero (by omega)
    simpa using List.filter_eq_nil_iff.mp hnil x hx
  · intro hout
    have hnil : out.filter p = [] := by
      apply List.filter_eq_nil_iff.mpr
      intro x hx
      simp [hout x hx]
    have heq : (part.filter p).length = (xs.filter p).length := by
      rw [hlen, hnil, List.length_nil, Nat.add_zero]
    exact ((hpart.filter p).eq_of_length heq).symm

/-! ### The same values in another order -/

/-- One value in front tells two lists of the same values apart. -/
theorem cons_perm_cons_iff (xs : List α) {x y : α} : (x :: xs).Perm (y :: xs) ↔ x = y := by
  classical
  constructor
  · intro h
    by_contra hne
    have hcount := h.count_eq x
    rw [List.count_cons_self, List.count_cons_of_ne (Ne.symm hne)] at hcount
    omega
  · rintro rfl
    exact List.Perm.refl _

/-- Taking row `i` out of two lists of the same values leaves the same values exactly where the
rows are equal. -/
theorem perm_eraseIdx_iff {xs ys : List α} (h : xs.Perm ys) {i : ℕ} (hx : i < xs.length)
    (hy : i < ys.length) : (xs.eraseIdx i).Perm (ys.eraseIdx i) ↔ xs[i] = ys[i] := by
  have hsplit : (xs[i] :: xs.eraseIdx i).Perm (ys[i] :: ys.eraseIdx i) :=
    (List.getElem_cons_eraseIdx_perm hx).trans (h.trans (List.getElem_cons_eraseIdx_perm hy).symm)
  constructor
  · intro herase
    exact (cons_perm_cons_iff _).mp (hsplit.trans (herase.symm.cons ys[i]))
  · intro heq
    rw [heq] at hsplit
    exact hsplit.cons_inv

/-- Taking row `i` out and putting a value in leaves the same values exactly where the value is that
of the row. -/
theorem perm_move_iff {xs : List α} {i j : ℕ} (hi : i < xs.length) (hj : j < xs.length) (x : α) :
    ((xs.eraseIdx i).insertIdx j x).Perm xs ↔ x = xs[i] := by
  have hlen : (xs.eraseIdx i).length = xs.length - 1 := List.length_eraseIdx_of_lt hi
  have hinsert := List.perm_insertIdx x (xs.eraseIdx i) (by omega : j ≤ (xs.eraseIdx i).length)
  have hsplit : (xs[i] :: xs.eraseIdx i).Perm xs := List.getElem_cons_eraseIdx_perm hi
  rw [← cons_perm_cons_iff (xs.eraseIdx i)]
  constructor
  · intro h
    exact hinsert.symm.trans (h.trans hsplit.symm)
  · intro h
    exact hinsert.trans (h.trans hsplit)

/-! ### The row carried to another place -/

/-- Every row that row `i` passes over on its way to `j` equals the one at `j`. -/
def PassesOverEqual (xs : List α) (i j : ℕ) : Prop :=
  ∀ k, (i < k ∧ k ≤ j) ∨ (j ≤ k ∧ k < i) → xs[k]? = xs[j]?

/-- Row `k` after an exchange. -/
theorem getElem?_swap {xs : List α} {i j : ℕ} (hi : i < xs.length) (hj : j < xs.length) (k : ℕ) :
    ((xs.set i xs[j]).set j xs[i])[k]? =
      if k = j then xs[i]? else if k = i then xs[j]? else xs[k]? := by
  by_cases hkj : k = j
  · subst hkj
    simp [hi, hj]
  · by_cases hki : k = i
    · subst hki
      simp [hi, hj, hkj, Ne.symm hkj]
    · simp [hkj, hki, Ne.symm hkj, Ne.symm hki]

/-- Row `k` after taking row `i` out and putting it back at `j`: the rows in between shift by
one towards `i`. -/
theorem getElem?_move {xs : List α} {i j : ℕ} (hi : i < xs.length) (hj : j < xs.length) (k : ℕ) :
    ((xs.eraseIdx i).insertIdx j xs[i])[k]? =
      if k = j then xs[i]?
      else if i ≤ k ∧ k < j then xs[k + 1]?
      else if j < k ∧ k ≤ i then xs[k - 1]?
      else xs[k]? := by
  have hlen := List.length_eraseIdx_of_lt hi
  rw [List.getElem?_insertIdx]
  by_cases hkj : k = j
  · subst hkj
    have hle : k ≤ (xs.eraseIdx i).length := by omega
    simp [hle, hi]
  · rw [if_neg hkj]
    -- left of `j` the row is that of the list without `i`, right of it the one before
    split_ifs <;> first
      | omega
      | (rw [List.getElem?_eraseIdx]; split_ifs <;> first | rfl | omega | (congr 1; omega))

/-- Rows after `i`, each equal to the one before it and the first to row `j`. -/
theorem eq_of_shifted_up {xs : List α} {i j : ℕ}
    (h : ∀ k, i ≤ k → k < j → (if k = i then xs[j]? else xs[k]?) = xs[k + 1]?) {k : ℕ}
    (hik : i < k) (hkj : k ≤ j) : xs[k]? = xs[j]? := by
  obtain ⟨n, rfl⟩ : ∃ n, k = i + 1 + n := ⟨k - (i + 1), by omega⟩
  induction n with
  | zero =>
      have hnext := h i (Nat.le_refl i) hkj
      rw [if_pos rfl] at hnext
      exact hnext.symm
  | succ n ih =>
      have hnext := h (i + 1 + n) (by omega) (by omega)
      rw [if_neg (by omega)] at hnext
      exact hnext.symm.trans (ih (by omega) (by omega))

/-- Rows before `i`, each equal to the one after it and the last to row `j`. -/
theorem eq_of_shifted_down {xs : List α} {i j : ℕ}
    (h : ∀ k, j < k → k ≤ i → (if k = i then xs[j]? else xs[k]?) = xs[k - 1]?) {k : ℕ}
    (hjk : j ≤ k) (hki : k < i) : xs[k]? = xs[j]? := by
  have hwalk : ∀ n l, l + 1 + n = i → j ≤ l → xs[l]? = xs[j]? := by
    intro n
    induction n with
    | zero =>
        intro l hl hjl
        have hnext := h (l + 1) (by omega) (by omega)
        rw [if_pos hl] at hnext
        exact hnext.symm
    | succ n ih =>
        intro l hl hjl
        have hnext := h (l + 1) (by omega) (by omega)
        rw [if_neg (by omega)] at hnext
        exact hnext.symm.trans (ih (l + 1) (by omega) (by omega))
  exact hwalk (i - (k + 1)) k (by omega) hjk

/-- **Exchanging two rows is moving one of them exactly when it passes over equal rows.** -/
theorem swap_eq_move_iff {xs : List α} {i j : ℕ} (hi : i < xs.length) (hj : j < xs.length) :
    (xs.set i xs[j]).set j xs[i] = (xs.eraseIdx i).insertIdx j xs[i] ↔ PassesOverEqual xs i j := by
  constructor
  · intro heq
    have hrow : ∀ k, (if k = j then xs[i]? else if k = i then xs[j]? else xs[k]?) =
        if k = j then xs[i]? else if i ≤ k ∧ k < j then xs[k + 1]?
          else if j < k ∧ k ≤ i then xs[k - 1]? else xs[k]? := by
      intro k
      rw [← getElem?_swap hi hj k, ← getElem?_move hi hj k, heq]
    -- row by row, the passed rows are shifted by one towards `i`
    rintro k (⟨h₁, h₂⟩ | ⟨h₁, h₂⟩)
    · refine eq_of_shifted_up (fun l h₃ h₄ => ?_) h₁ h₂
      have hl := hrow l
      have hlj : ¬ l = j := by omega
      have hup : i ≤ l ∧ l < j := ⟨h₃, h₄⟩
      rwa [if_neg hlj, if_neg hlj, if_pos hup] at hl
    · refine eq_of_shifted_down (fun l h₃ h₄ => ?_) h₁ h₂
      have hl := hrow l
      have hlj : ¬ l = j := by omega
      have hup : ¬ (i ≤ l ∧ l < j) := by omega
      have hdown : j < l ∧ l ≤ i := ⟨h₃, h₄⟩
      rwa [if_neg hlj, if_neg hlj, if_neg hup, if_pos hdown] at hl
  · intro h
    apply List.ext_getElem?
    intro k
    rw [getElem?_swap hi hj k, getElem?_move hi hj k]
    by_cases hkj : k = j
    · rw [if_pos hkj, if_pos hkj]
    · rw [if_neg hkj, if_neg hkj]
      by_cases hup : i ≤ k ∧ k < j
      · rw [if_pos hup, h (k + 1) (by omega)]
        split_ifs with hki
        · rfl
        · exact h k (by omega)
      · rw [if_neg hup]
        by_cases hdown : j < k ∧ k ≤ i
        · rw [if_pos hdown, h (k - 1) (by omega)]
          split_ifs with hki
          · rfl
          · exact h k (by omega)
        · rw [if_neg hdown, if_neg (by omega)]

end AdvMad.Found
