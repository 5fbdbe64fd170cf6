import Mathlib.Data.List.Basic

/-!
# Runs of a machine that can trap

A `Machine` is a step function on states and events together with the events a state offers. A
step that traps is `none`: the process is gone and no later event is taken. The whole-run notions
are recursive on the list of events, so that one induction on the run serves all of them:

* `M.run s as` — the state after the events `as`, `none` as soon as one step traps.
* `M.Each C s as` — every step of the run satisfies `C`, read at the state before the step;
  `M.Legal` is the case where `C` is "the event is offered".
* `M.Always P s as` — `P` holds of every state the run reaches, the first one included
  (`always_iff_prefix` is the reading by prefixes).

The rules: `always_of_each` (an invariant kept by the steps taken holds of every state reached) and
`each_of_invariant` (so does of every step what follows from it), `run_progress` and
`always_of_progress` (the same with totality), `each_congr` (two step conditions that agree at
every state of the invariant agree along the run) and `run_foldl` (a function on an abstract state
that follows every step follows the run).
-/

namespace AdvMad.Found

/-- A step function, `none` when the step traps, and the events a state offers. -/
structure Machine (S A : Type) where
  /-- The state after an event, `none` when handling it traps. -/
  step : S → A → Option S
  /-- The events that can happen in a state. -/
  enabled : S → A → Prop

namespace Machine

variable {S A T : Type} (M : Machine S A)

/-- The state after a list of events. -/
def run : S → List A → Option S
  | s, [] => some s
  | s, a :: as => (M.step s a).bind fun s' => run s' as

/-- Every step of the run satisfies `C` at the state before it. -/
def Each (C : S → A → Prop) : S → List A → Prop
  | _, [] => True
  | s, a :: as => C s a ∧ ∀ s', M.step s a = some s' → Each C s' as

/-- Every event of the run is offered by the state it meets. -/
def Legal (s : S) (as : List A) : Prop := M.Each M.enabled s as

/-- `P` holds of every state the run reaches. -/
def Always (P : S → Prop) : S → List A → Prop
  | s, [] => P s
  | s, a :: as => P s ∧ ∀ s', M.step s a = some s' → Always P s' as

/-! ### Unfolding along the run -/

/-- No action leaves the state as it is. -/
@[simp] theorem run_nil (s : S) : M.run s [] = some s := rfl

/-- The first action of a run comes before the others. -/
@[simp] theorem run_cons (s : S) (a : A) (as : List A) :
    M.run s (a :: as) = (M.step s a).bind fun s' => M.run s' as := rfl

/-- Nothing is asked of a run of no action. -/
@[simp] theorem each_nil (C : S → A → Prop) (s : S) : M.Each C s [] := trivial

/-- A condition on the first step, and on the steps after it. -/
@[simp] theorem each_cons (C : S → A → Prop) (s : S) (a : A) (as : List A) :
    M.Each C s (a :: as) ↔ C s a ∧ ∀ s', M.step s a = some s' → M.Each C s' as := Iff.rfl

/-- A run of no action has the one state. -/
@[simp] theorem always_nil (P : S → Prop) (s : S) : M.Always P s [] ↔ P s := Iff.rfl

/-- A property of the state at the beginning, and of those after the first step. -/
@[simp] theorem always_cons (P : S → Prop) (s : S) (a : A) (as : List A) :
    M.Always P s (a :: as) ↔ P s ∧ ∀ s', M.step s a = some s' → M.Always P s' as := Iff.rfl

/-- The first action is enabled, and the others after it. -/
theorem legal_cons (s : S) (a : A) (as : List A) :
    M.Legal s (a :: as) ↔ M.enabled s a ∧ ∀ s', M.step s a = some s' → M.Legal s' as := Iff.rfl

/-- A step condition that can be decided can be decided along a run. -/
instance decidableEach (C : S → A → Prop) [∀ s a, Decidable (C s a)] :
    (as : List A) → (s : S) → Decidable (M.Each C s as)
  | [], _ => isTrue trivial
  | a :: as, s =>
      match hs : M.step s a with
      | none => decidable_of_iff (C s a) ⟨fun h => ⟨h, fun s' h' => by simp [hs] at h'⟩, And.left⟩
      | some s₁ =>
          have := decidableEach C as s₁
          decidable_of_iff (C s a ∧ M.Each C s₁ as)
            ⟨fun h => ⟨h.1, fun s' h' => Option.some_inj.mp (hs.symm.trans h') ▸ h.2⟩,
              fun h => ⟨h.1, h.2 s₁ hs⟩⟩

instance decidableLegal [∀ s a, Decidable (M.enabled s a)] (s : S) (as : List A) :
    Decidable (M.Legal s as) := M.decidableEach M.enabled as s

/-- A property of states that can be decided can be decided along a run. -/
instance decidableAlways (P : S → Prop) [DecidablePred P] :
    (as : List A) → (s : S) → Decidable (M.Always P s as)
  | [], s => inferInstanceAs (Decidable (P s))
  | a :: as, s =>
      match hs : M.step s a with
      | none => decidable_of_iff (P s) ⟨fun h => ⟨h, fun s' h' => by simp [hs] at h'⟩, And.left⟩
      | some s₁ =>
          have := decidableAlways P as s₁
          decidable_of_iff (P s ∧ M.Always P s₁ as)
            ⟨fun h => ⟨h.1, fun s' h' => Option.some_inj.mp (hs.symm.trans h') ▸ h.2⟩,
              fun h => ⟨h.1, h.2 s₁ hs⟩⟩

/-- A run of `as ++ bs` is one of `as` and one of `bs` from where it ends. -/
theorem run_append (s : S) (as bs : List A) :
    M.run s (as ++ bs) = (M.run s as).bind fun s' => M.run s' bs := by
  induction as generalizing s with
  | nil => rfl
  | cons a as ih =>
      rw [List.cons_append, run_cons, run_cons, Option.bind_assoc]
      congr 1
      funext s'
      exact ih s'

/-- A step condition along `as ++ bs`. -/
theorem each_append (C : S → A → Prop) (s : S) (as bs : List A) :
    M.Each C s (as ++ bs) ↔
      M.Each C s as ∧ ∀ s', M.run s as = some s' → M.Each C s' bs := by
  induction as generalizing s with
  | nil => simp
  | cons a as ih =>
      simp only [List.cons_append, each_cons, run_cons, ih]
      cases M.step s a with
      | none => simp
      | some s' => simp [and_assoc]

/-- Splitting a step condition. -/
theorem each_and (C D : S → A → Prop) (s : S) (as : List A) :
    M.Each (fun s a => C s a ∧ D s a) s as ↔ M.Each C s as ∧ M.Each D s as := by
  induction as generalizing s with
  | nil => simp
  | cons a as ih =>
      simp only [each_cons, ih]
      constructor
      · rintro ⟨⟨hc, hd⟩, h⟩
        exact ⟨⟨hc, fun s' hs => (h s' hs).1⟩, hd, fun s' hs => (h s' hs).2⟩
      · rintro ⟨⟨hc, h₁⟩, hd, h₂⟩
        exact ⟨⟨hc, hd⟩, fun s' hs => ⟨h₁ s' hs, h₂ s' hs⟩⟩

/-- `Always P` by prefixes: `P` holds of the state every prefix of the run ends in. -/
theorem always_iff_prefix (P : S → Prop) (s : S) (as : List A) :
    M.Always P s as ↔ ∀ bs, bs <+: as → ∀ s', M.run s bs = some s' → P s' := by
  induction as generalizing s with
  | nil =>
      constructor
      · rintro h bs hbs s' hrun
        obtain rfl := List.prefix_nil.mp hbs
        cases hrun
        exact h
      · intro h
        exact h [] List.nil_prefix s rfl
  | cons a as ih =>
      rw [always_cons]
      constructor
      · rintro ⟨hP, h⟩ bs hbs s' hrun
        rcases List.prefix_cons_iff.mp hbs with rfl | ⟨cs, rfl, hcs⟩
        · cases hrun
          exact hP
        · rw [run_cons, Option.bind_eq_some_iff] at hrun
          obtain ⟨s₁, hstep, hrun⟩ := hrun
          exact (ih s₁).mp (h s₁ hstep) cs hcs s' hrun
      · intro h
        refine ⟨h [] List.nil_prefix s rfl, fun s₁ hstep => (ih s₁).mpr fun bs hbs s' hrun => ?_⟩
        exact h (a :: bs) (List.cons_prefix_cons.mpr ⟨rfl, hbs⟩) s' (by simp [hstep, hrun])

/-- `Always P` as a step condition: `P` at the start, and after every step. -/
theorem always_iff_each (P : S → Prop) (s : S) (as : List A) :
    M.Always P s as ↔ P s ∧ M.Each (fun s a => ∀ s', M.step s a = some s' → P s') s as := by
  induction as generalizing s with
  | nil => simp
  | cons a as ih =>
      simp only [always_cons, each_cons, ih]
      constructor
      · rintro ⟨hP, h⟩
        exact ⟨hP, fun s' hs => (h s' hs).1, fun s' hs => (h s' hs).2⟩
      · rintro ⟨hP, h₁, h₂⟩
        exact ⟨hP, fun s' hs => ⟨h₁ s' hs, h₂ s' hs⟩⟩

/-! ### The rules -/

variable {M}

/-- A weaker step condition holds along the run. -/
theorem Each.mono {C D : S → A → Prop} (h : ∀ s a, C s a → D s a) {s : S} {as : List A}
    (hC : M.Each C s as) : M.Each D s as := by
  induction as generalizing s with
  | nil => trivial
  | cons a as ih => exact ⟨h s a hC.1, fun s' hs => ih (hC.2 s' hs)⟩

/-- A condition on the events alone. -/
theorem each_of_forall {P : A → Prop} (s : S) {as : List A} (h : ∀ a ∈ as, P a) :
    M.Each (fun _ => P) s as := by
  induction as generalizing s with
  | nil => trivial
  | cons a as ih =>
      rw [List.forall_mem_cons] at h
      exact ⟨h.1, fun s' _ => ih s' h.2⟩

/-- A legal run of events that all have a property, as one step condition. -/
theorem Legal.and_forall {P : A → Prop} {s : S} {as : List A} (hlegal : M.Legal s as)
    (h : ∀ a ∈ as, P a) : M.Each (fun s a => M.enabled s a ∧ P a) s as :=
  (M.each_and _ _ s as).mpr ⟨hlegal, each_of_forall s h⟩

/-- Where no step traps, every run has an end. -/
theorem exists_run (htotal : ∀ s a, ∃ s', M.step s a = some s') (s : S) (as : List A) :
    ∃ s', M.run s as = some s' := by
  induction as generalizing s with
  | nil => exact ⟨s, rfl⟩
  | cons a as ih =>
      obtain ⟨s₁, hs⟩ := htotal s a
      obtain ⟨s', hrun⟩ := ih s₁
      exact ⟨s', by rw [run_cons, hs]; exact hrun⟩

/-- **Invariant rule**: what every step meeting `C` keeps holds of every state reached by such
steps. -/
theorem always_of_each {I : S → Prop} {C : S → A → Prop}
    (hstep : ∀ s a s', I s → C s a → M.step s a = some s' → I s') {s : S} {as : List A}
    (hI : I s) (hC : M.Each C s as) : M.Always I s as := by
  induction as generalizing s with
  | nil => exact hI
  | cons a as ih => exact ⟨hI, fun s' hs => ih (hstep s a s' hI hC.1 hs) (hC.2 s' hs)⟩

/-- A weaker property holds along the run. -/
theorem Always.mono {P Q : S → Prop} {s : S} {as : List A} (hP : M.Always P s as)
    (h : ∀ s, P s → Q s) : M.Always Q s as := by
  induction as generalizing s with
  | nil => exact h s hP
  | cons a as ih => exact ⟨h s hP.1, fun s' hs => ih (hP.2 s' hs)⟩

/-- **Invariant rule, step by step**: what holds of every step meeting `C` from a state of the
invariant holds of each step of the run. -/
theorem each_of_invariant {I : S → Prop} {C D : S → A → Prop}
    (hkeep : ∀ s a s', I s → C s a → M.step s a = some s' → I s')
    (hD : ∀ s a, I s → C s a → D s a) {s : S} {as : List A} (hI : I s) (hC : M.Each C s as) :
    M.Each D s as := by
  induction as generalizing s with
  | nil => trivial
  | cons a as ih => exact ⟨hD s a hI hC.1, fun s' hs => ih (hkeep s a s' hI hC.1 hs) (hC.2 s' hs)⟩

/-- **Progress rule**: where no step meeting `C` traps, neither does a run of such steps. -/
theorem run_progress {I : S → Prop} {C : S → A → Prop}
    (hstep : ∀ s a, I s → C s a → ∃ s', M.step s a = some s' ∧ I s') {s : S} {as : List A}
    (hI : I s) (hC : M.Each C s as) : ∃ s', M.run s as = some s' ∧ I s' := by
  induction as generalizing s with
  | nil => exact ⟨s, rfl, hI⟩
  | cons a as ih =>
      obtain ⟨s₁, hs, hI₁⟩ := hstep s a hI hC.1
      obtain ⟨s', hrun, hI'⟩ := ih hI₁ (hC.2 s₁ hs)
      exact ⟨s', by rw [run_cons, hs]; exact hrun, hI'⟩

/-- **Progress rule, state by state**: such a run meets the invariant all along. -/
theorem always_of_progress {I : S → Prop} {C : S → A → Prop}
    (hstep : ∀ s a, I s → C s a → ∃ s', M.step s a = some s' ∧ I s') {s : S} {as : List A}
    (hI : I s) (hC : M.Each C s as) : M.Always I s as := by
  refine always_of_each ?_ hI hC
  intro s a s' hs hCs hstep'
  obtain ⟨s₁, hs₁, hI₁⟩ := hstep s a hs hCs
  have heq : s₁ = s' := Option.some_inj.mp (hs₁.symm.trans hstep')
  rwa [heq] at hI₁

/-- What every step taken tells of its event holds of all events of a run that does not trap. -/
theorem forall_of_run {C : S → A → Prop} {P : A → Prop}
    (hP : ∀ s a s', C s a → M.step s a = some s' → P a) {s s' : S} {as : List A}
    (hC : M.Each C s as) (hrun : M.run s as = some s') : ∀ a ∈ as, P a := by
  induction as generalizing s with
  | nil => simp
  | cons a as ih =>
      rw [run_cons, Option.bind_eq_some_iff] at hrun
      obtain ⟨s₁, hs, hrun⟩ := hrun
      rw [List.forall_mem_cons]
      exact ⟨hP s a s₁ hC.1 hs, ih (hC.2 s₁ hs) hrun⟩

/-- **Exchange rule**: two step conditions that say the same at every state of an invariant, kept
by the steps that meet them, say the same along the run. The first step that breaks one breaks
the other, and nothing is asked of the steps after it. -/
theorem each_congr {I : S → Prop} {C D : S → A → Prop}
    (hiff : ∀ s a, I s → M.enabled s a → (C s a ↔ D s a))
    (hkeep : ∀ s a s', I s → M.enabled s a → C s a → M.step s a = some s' → I s')
    {s : S} {as : List A} (hI : I s) (hlegal : M.Legal s as) :
    M.Each C s as ↔ M.Each D s as := by
  induction as generalizing s with
  | nil => simp
  | cons a as ih =>
      obtain ⟨hen, hrest⟩ := (M.legal_cons s a as).mp hlegal
      rw [each_cons, each_cons]
      constructor
      · rintro ⟨hC, h⟩
        refine ⟨(hiff s a hI hen).mp hC, fun s' hs => ?_⟩
        exact (ih (hkeep s a s' hI hen hC hs) (hrest s' hs)).mp (h s' hs)
      · rintro ⟨hD, h⟩
        have hC := (hiff s a hI hen).mpr hD
        refine ⟨hC, fun s' hs => ?_⟩
        exact (ih (hkeep s a s' hI hen hC hs) (hrest s' hs)).mpr (h s' hs)

/-- **Simulation rule**: an abstract state updated event by event stays related to the machine. -/
theorem run_foldl {R : S → T → Prop} {C : S → A → Prop} (g : T → A → T)
    (hstep : ∀ s t a s', R s t → C s a → M.step s a = some s' → R s' (g t a))
    {s s' : S} {t : T} {as : List A} (hR : R s t) (hC : M.Each C s as)
    (hrun : M.run s as = some s') : R s' (as.foldl g t) := by
  induction as generalizing s t with
  | nil =>
      cases hrun
      exact hR
  | cons a as ih =>
      rw [run_cons, Option.bind_eq_some_iff] at hrun
      obtain ⟨s₁, hs, hrun⟩ := hrun
      exact ih (hstep s t a s₁ hR hC.1 hs) (hC.2 s₁ hs) hrun

end Machine

end AdvMad.Found
