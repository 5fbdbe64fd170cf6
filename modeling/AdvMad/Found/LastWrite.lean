import Mathlib.Data.List.Basic

/-!
# The last write

A cell beside a state. Every event changes the state; some, depending on the state that they find,
write a value into the cell.

* `W.value s v as` — the cell after the events `as`, from a state `s` and a cell that holds `v`.
* `W.Last s as v` — an event of `as` writes `v`, and no later one writes.
* `last_or_silent` — after every run the cell holds what the last write put there, if there was one;
  `value_of_last` is the other direction: there is at most one last write.
* `value_eq_iff` — both, for a run that begins with a write.
* `foldl_act` — state and cell as one fold, for a simulation.
-/

namespace AdvMad.Found

/-- What an event does to the state, and what it writes into the cell. -/
structure Writer (S A V : Type) where
  step : S → A → S
  /-- `none` where the event does not write. -/
  write : S → A → Option V

namespace Writer

variable {S A V : Type} (W : Writer S A V)

/-- The state after a run. -/
def state (s : S) (as : List A) : S := as.foldl W.step s

/-- The cell after a run. -/
def value : S → V → List A → V
  | _, v, [] => v
  | s, v, a :: as => value (W.step s a) ((W.write s a).getD v) as

/-- No event of a run writes. -/
def Silent : S → List A → Prop
  | _, [] => True
  | s, a :: as => W.write s a = none ∧ Silent (W.step s a) as

/-- An event of a run writes the value, and none after it writes. -/
def Last (s : S) (as : List A) (v : V) : Prop :=
  ∃ before a after, as = before ++ a :: after ∧ W.write (W.state s before) a = some v ∧
    W.Silent (W.step (W.state s before) a) after

/-- State and cell together. -/
def act (x : S × V) (a : A) : S × V := (W.step x.1 a, (W.write x.1 a).getD x.2)

/-- The state and the value of a run do not depend on one another. -/
theorem foldl_act (s : S) (v : V) (as : List A) :
    as.foldl W.act (s, v) = (W.state s as, W.value s v as) := by
  induction as generalizing s v with
  | nil => rfl
  | cons a as ih => exact ih (W.step s a) ((W.write s a).getD v)

variable {W} {s : S} {v : V} {as : List A}

/-- Without a write the cell holds what it held. -/
theorem value_of_silent (h : W.Silent s as) : W.value s v as = v := by
  induction as generalizing s with
  | nil => rfl
  | cons a as ih =>
      show W.value (W.step s a) ((W.write s a).getD v) as = v
      rw [h.1, Option.getD_none]
      exact ih h.2

/-- The last write of the rest of a run is that of the run. -/
theorem Last.cons {a : A} {v' : V} (h : W.Last (W.step s a) as v') : W.Last s (a :: as) v' := by
  obtain ⟨before, b, after, rfl, hwrite, hsilent⟩ := h
  exact ⟨a :: before, b, after, rfl, hwrite, hsilent⟩

/-- **The last write**: the cell holds what it put there, or what the cell held before where no
event writes. -/
theorem last_or_silent (s : S) (v : V) (as : List A) :
    W.Last s as (W.value s v as) ∨ W.Silent s as := by
  induction as generalizing s v with
  | nil => exact Or.inr trivial
  | cons a as ih =>
      rcases ih (W.step s a) ((W.write s a).getD v) with h | h
      · exact Or.inl h.cons
      · rcases hwrite : W.write s a with _ | v'
        · exact Or.inr ⟨hwrite, h⟩
        · refine Or.inl ⟨[], a, as, rfl, ?_, h⟩
          show W.write s a = some (W.value (W.step s a) ((W.write s a).getD v) as)
          rw [value_of_silent h, hwrite, Option.getD_some]

/-- A last write is in the cell. -/
theorem value_of_last {v' : V} (h : W.Last s as v') : W.value s v as = v' := by
  obtain ⟨before, a, after, rfl, hwrite, hsilent⟩ := h
  induction before generalizing s v with
  | nil =>
      show W.value (W.step s a) ((W.write s a).getD v) after = v'
      have hwritten : W.write s a = some v' := hwrite
      have hafter : W.Silent (W.step s a) after := hsilent
      rw [value_of_silent hafter, hwritten, Option.getD_some]
  | cons b before ih => exact ih hwrite hsilent

/-- **In a run that begins with a write** the cell holds a value exactly if the last write put it
there. -/
theorem value_eq_iff {a : A} (hwrite : (W.write s a).isSome) (v' : V) :
    W.value s v (a :: as) = v' ↔ W.Last s (a :: as) v' := by
  constructor
  · rintro rfl
    rcases last_or_silent s v (a :: as) with h | h
    · exact h
    · have hnone := h.1
      rw [hnone] at hwrite
      simp at hwrite
  · exact value_of_last

end Writer

end AdvMad.Found
