import AdvMad.Found.Run

/-!
# Read, compute, write, without a transaction

A document that some parties edit, and from which others read, compute a result and write it back
into the same document in a later step. Nothing ties a write to the read it was computed from, so
any number of them overlap.

* `Shared.Kept` — the invariant: the result stored is the one computed from the document read by
  the party that wrote last, and a version number stands for one document throughout.
* `stores_last` — that holds in every state of every run.
* `stores_latest` — where every party writes no later than those that read after it, the result
  stored is the one computed from the most recent version that any party that wrote has read.
* `document_run` / `observe_run` — a property of the document that edits and results keep, and an
  observation of it that only edits change: no read and no write in between matters to them.
-/

namespace AdvMad.Found

/-- A document with a stored result: how it is edited, what is computed from it, and how a result
is written into it. -/
structure Register (D R E : Type) where
  /-- `none` where the edit fails and changes nothing. -/
  edit : E → D → Option D
  compute : D → Option R
  write : R → D → D
  stored : D → Option R
  stored_write : ∀ r d, stored (write r d) = some r
  stored_edit : ∀ e d d', edit e d = some d' → stored d' = stored d

/-- What a party has read: a version of the document and its number. -/
structure Reading (D : Type) where
  version : ℕ
  document : D

/-- The document, the versions before it (oldest first), the readings a write is still to follow,
and the readings a write has followed (newest first). -/
structure Shared (D : Type) where
  history : List D
  document : D
  pending : List (Reading D)
  wrote : List (Reading D)

/-- What can happen. -/
inductive Access (E : Type)
  | edit (e : E)
  | read
  /-- The party of the `i`-th pending reading computes and writes; without a result it writes
  nothing. -/
  | write (i : ℕ)
deriving DecidableEq, Repr

/-- The edit of an access, if it is one. -/
def Access.edit? {E : Type} : Access E → Option E
  | .edit e => some e
  | .read | .write _ => none

namespace Shared

variable {D R E : Type} (M : Register D R E)

/-- A document nobody has read. -/
def start (d : D) : Shared D := ⟨[], d, [], []⟩

/-- A new version of the document. -/
def publish (s : Shared D) (d : D) : Shared D :=
  { s with history := s.history ++ [s.document], document := d }

/-- The state after an access. -/
def next (s : Shared D) : Access E → Shared D
  | .edit e =>
      match M.edit e s.document with
      | some d => s.publish d
      | none => s
  | .read => { s with pending := s.pending ++ [⟨s.history.length, s.document⟩] }
  | .write i =>
      match s.pending[i]? with
      | some r =>
          match M.compute r.document with
          | some result =>
              { s.publish (M.write result s.document) with
                pending := s.pending.eraseIdx i
                wrote := r :: s.wrote }
          | none => { s with pending := s.pending.eraseIdx i }
      | none => s

/-- A write belongs to a pending reading. -/
def Offers (s : Shared D) : Access E → Prop
  | .write i => i < s.pending.length
  | _ => True

instance (s : Shared D) : (a : Access E) → Decidable (s.Offers a)
  | .write i => inferInstanceAs (Decidable (i < s.pending.length))
  | .edit _ | .read => inferInstanceAs (Decidable True)

/-- The parties and their document. -/
def machine : Machine (Shared D) (Access E) := ⟨fun s a => some (s.next M a), Offers⟩

instance (s : Shared D) (a : Access E) : Decidable ((machine M).enabled s a) :=
  inferInstanceAs (Decidable (s.Offers a))

/-- The version of a number. -/
def version (s : Shared D) (n : ℕ) : Option D := (s.history ++ [s.document])[n]?

/-- The result stored is the one computed from what the last writer read. -/
def StoresLast (s : Shared D) : Prop :=
  ∀ r ∈ s.wrote.head?, M.stored s.document = M.compute r.document ∧
    (M.compute r.document).isSome

/-- The result stored is the one computed from the most recent version a writer has read. -/
def StoresLatest (s : Shared D) : Prop :=
  ∀ r ∈ s.wrote, (∀ w ∈ s.wrote, w.version ≤ r.version) →
    M.stored s.document = M.compute r.document

instance [DecidableEq R] (s : Shared D) : Decidable (StoresLatest M s) :=
  inferInstanceAs (Decidable (∀ r ∈ s.wrote, _ → _))

/-- A write follows no write of a version read later. -/
def InOrder (s : Shared D) : Access E → Prop
  | .write i => ∀ r ∈ s.pending[i]?, (M.compute r.document).isSome →
      ∀ w ∈ s.wrote, w.version ≤ r.version
  | _ => True

instance (s : Shared D) : (a : Access E) → Decidable (InOrder M s a)
  | .write i => inferInstanceAs (Decidable (∀ r ∈ s.pending[i]?, _ → _))
  | .edit _ | .read => inferInstanceAs (Decidable True)

/-- The invariant. -/
structure Kept (s : Shared D) : Prop where
  storesLast : StoresLast M s
  versions : ∀ r, r ∈ s.pending ∨ r ∈ s.wrote → s.version r.version = some r.document

variable {M}

/-- A new version leaves the numbers of the earlier ones. -/
theorem version_publish {s : Shared D} {n : ℕ} {d : D} (h : s.version n = some d) (d' : D) :
    (s.publish d').version n = some d := by
  have hlt : n < (s.history ++ [s.document]).length := (List.getElem?_eq_some_iff.mp h).1
  show ((s.history ++ [s.document]) ++ [d'])[n]? = some d
  rw [List.getElem?_append_left hlt]
  exact h

/-- What an access can do: publish an edit, add a reading, write a result over a reading, drop a
reading without a result, or nothing. -/
theorem next_cases (s : Shared D) (a : Access E) :
    (∃ e d, M.edit e s.document = some d ∧ s.next M a = s.publish d) ∨
    (s.next M a = { s with pending := s.pending ++ [⟨s.history.length, s.document⟩] }) ∨
    (∃ i r result, a = .write i ∧ s.pending[i]? = some r ∧ M.compute r.document = some result ∧
      s.next M a = { s.publish (M.write result s.document) with
        pending := s.pending.eraseIdx i
        wrote := r :: s.wrote }) ∨
    (∃ i, s.next M a = { s with pending := s.pending.eraseIdx i }) ∨
    s.next M a = s := by
  cases a with
  | edit e =>
      cases hedit : M.edit e s.document with
      | none => exact Or.inr (Or.inr (Or.inr (Or.inr (by simp [next, hedit]))))
      | some d => exact Or.inl ⟨e, d, hedit, by simp [next, hedit]⟩
  | read => exact Or.inr (Or.inl rfl)
  | write i =>
      cases hpending : s.pending[i]? with
      | none => exact Or.inr (Or.inr (Or.inr (Or.inr (by simp [next, hpending]))))
      | some r =>
          cases hcompute : M.compute r.document with
          | none => exact Or.inr (Or.inr (Or.inr (Or.inl ⟨i, by simp [next, hpending, hcompute]⟩)))
          | some result =>
              exact Or.inr (Or.inr (Or.inl
                ⟨i, r, result, rfl, hpending, hcompute, by simp [next, hpending, hcompute]⟩))

/-- **Step lemma**: every access keeps the invariant. -/
theorem kept_next {s : Shared D} (hs : Kept M s) (a : Access E) : Kept M (s.next M a) := by
  rcases next_cases (M := M) s a with ⟨e, d, hedit, heq⟩ | heq |
    ⟨i, r, result, -, hpending, hcompute, heq⟩ | ⟨i, heq⟩ | heq <;> rw [heq]
  · refine ⟨?_, fun r hr => version_publish (hs.versions r hr) d⟩
    intro r hr
    obtain ⟨hstored, hsome⟩ := hs.storesLast r hr
    exact ⟨(M.stored_edit e _ _ hedit).trans hstored, hsome⟩
  · refine ⟨hs.storesLast, ?_⟩
    rintro r (hr | hr)
    · rcases List.mem_append.mp hr with hr | hr
      · exact hs.versions r (Or.inl hr)
      · obtain rfl := List.mem_singleton.mp hr
        exact List.getElem?_concat_length
    · exact hs.versions r (Or.inr hr)
  · constructor
    · intro w hw
      obtain rfl : r = w := by simpa using hw
      refine ⟨?_, by rw [hcompute]; rfl⟩
      rw [hcompute]
      exact M.stored_write result s.document
    · rintro w (hw | hw)
      · exact version_publish (hs.versions w (Or.inl (List.mem_of_mem_eraseIdx hw))) _
      · rcases List.mem_cons.mp hw with rfl | hw
        · exact version_publish (hs.versions w (Or.inl (List.mem_of_getElem? hpending))) _
        · exact version_publish (hs.versions w (Or.inr hw)) _
  · refine ⟨hs.storesLast, ?_⟩
    rintro w (hw | hw)
    · exact hs.versions w (Or.inl (List.mem_of_mem_eraseIdx hw))
    · exact hs.versions w (Or.inr hw)
  · exact hs

/-- At the start nothing has been read or written. -/
theorem kept_start (d : D) : Kept M (start d) :=
  ⟨fun r hr => (by cases hr), fun r hr => (by cases hr <;> contradiction)⟩

/-- The last writer has read the most recent version of all that wrote. -/
def LastIsLatest (s : Shared D) : Prop :=
  ∀ r ∈ s.wrote.head?, ∀ w ∈ s.wrote, w.version ≤ r.version

/-- An access in order keeps the last writer the latest. -/
theorem lastIsLatest_next {s : Shared D} (hs : LastIsLatest s) {a : Access E}
    (ha : InOrder M s a) : LastIsLatest (s.next M a) := by
  rcases next_cases (M := M) s a with ⟨e, d, -, heq⟩ | heq |
    ⟨i, r, result, rfl, hpending, hcompute, heq⟩ | ⟨i, heq⟩ | heq <;> rw [heq]
  · exact hs
  · exact hs
  · intro r' hr' w hw
    obtain rfl : r = r' := by simpa using hr'
    rcases List.mem_cons.mp hw with rfl | hw
    · exact Nat.le_refl _
    · exact ha r hpending (by rw [hcompute]; rfl) w hw
  · exact hs
  · exact hs

/-- Where the last writer is the latest, the result stored is that of the latest version. -/
theorem storesLatest_of_lastIsLatest {s : Shared D} (hs : Kept M s) (hlatest : LastIsLatest s) :
    StoresLatest M s := by
  intro r hr hmax
  cases hwrote : s.wrote with
  | nil =>
      rw [hwrote] at hr
      simp at hr
  | cons last rest =>
      have hhead : last ∈ s.wrote.head? := by
        rw [hwrote]
        rfl
      have hlast : last ∈ s.wrote := by
        rw [hwrote]
        exact List.mem_cons_self
      have hversion : last.version = r.version :=
        Nat.le_antisymm (hmax last hlast) (hlatest last hhead r hr)
      have hdocument : last.document = r.document := by
        have hread := hs.versions last (Or.inr hlast)
        rw [hversion, hs.versions r (Or.inr hr)] at hread
        exact (Option.some_inj.mp hread).symm
      rw [← hdocument]
      exact (hs.storesLast last hhead).1

/-- **The last writer decides**: in every state of every run the result stored is the one computed
from what the party that wrote last has read. -/
theorem stores_last (d : D) (accesses : List (Access E)) :
    (machine M).Always (StoresLast M) (start d) accesses := by
  refine (Machine.always_of_each (C := fun _ _ => True) ?_ (kept_start d)
    (Machine.each_of_forall _ fun _ _ => trivial)).mono fun s hs => hs.storesLast
  intro s a s' hs _ hstep
  cases hstep
  exact kept_next hs a

/-- **Writes in the order of the reads**: then the result stored is the one computed from the most
recent version that a writer has read. -/
theorem stores_latest (d : D) {accesses : List (Access E)}
    (horder : (machine M).Each (InOrder M) (start d) accesses) :
    (machine M).Always (StoresLatest M) (start d) accesses := by
  refine (Machine.always_of_each (I := fun s => Kept M s ∧ LastIsLatest s) ?_
    ⟨kept_start d, fun r hr => (by cases hr)⟩ horder).mono fun s hs =>
      storesLatest_of_lastIsLatest hs.1 hs.2
  rintro s a s' ⟨hs, hlatest⟩ ha hstep
  cases hstep
  exact ⟨kept_next hs a, lastIsLatest_next hlatest ha⟩

/-! ### The document without the results in it -/

/-- The edits of a run, in their order. -/
def edits (accesses : List (Access E)) : List E := accesses.filterMap Access.edit?

/-- The edits of a run are its accesses of that kind. -/
theorem mem_edits {accesses : List (Access E)} {e : E} :
    e ∈ edits accesses ↔ .edit e ∈ accesses := by
  unfold edits
  rw [List.mem_filterMap]
  constructor
  · rintro ⟨a, ha, heq⟩
    cases a with
    | edit e' =>
        obtain rfl := Option.some_inj.mp heq
        exact ha
    | _ => simp [Access.edit?] at heq
  · intro h
    exact ⟨.edit e, h, rfl⟩

/-- No access traps. -/
theorem exists_run (s : Shared D) (accesses : List (Access E)) :
    ∃ s', (machine M).run s accesses = some s' := by
  induction accesses generalizing s with
  | nil => exact ⟨s, rfl⟩
  | cons a accesses ih => exact ih (s.next M a)

/-- **A property of the document** that edits keep, and results written into it. -/
theorem document_run {P : D → Prop} (hedit : ∀ e d d', M.edit e d = some d' → P d → P d')
    (hwrite : ∀ r d d', M.compute d' = some r → P d → P (M.write r d)) {s s' : Shared D}
    {accesses : List (Access E)} (hs : P s.document)
    (hrun : (machine M).run s accesses = some s') : P s'.document := by
  refine Machine.run_foldl (M := machine M) (R := fun s (_ : Unit) => P s.document)
    (C := fun _ _ => True) (t := ()) (fun _ _ => ()) ?_ hs
    (Machine.each_of_forall s fun _ _ => trivial) hrun
  rintro s - a s' hs - hstep
  obtain rfl := Option.some_inj.mp hstep
  rcases next_cases (M := M) s a with ⟨e, d, he, heq⟩ | heq | ⟨i, r, result, -, -, hcompute, heq⟩ |
    ⟨i, heq⟩ | heq <;> rw [heq]
  · exact hedit e s.document d he hs
  · exact hs
  · exact hwrite result s.document r.document hcompute hs
  · exact hs
  · exact hs

/-- One access, seen by an observation that results leave alone. -/
theorem observe_next {X : Type} (observe : D → X) (g : X → E → X)
    (hedit : ∀ e d, observe ((M.edit e d).getD d) = g (observe d) e)
    (hwrite : ∀ r d, observe (M.write r d) = observe d) (s : Shared D) (a : Access E) :
    observe (s.next M a).document = a.edit?.elim (observe s.document) (g (observe s.document)) := by
  cases a with
  | edit e =>
      change _ = g (observe s.document) e
      rw [← hedit e s.document]
      cases he : M.edit e s.document with
      | none => simp [next, he]
      | some d => simp [next, he, publish]
  | read => rfl
  | write i =>
      change observe (s.next M (.write i)).document = observe s.document
      cases hpending : s.pending[i]? with
      | none => simp [next, hpending]
      | some r =>
          cases hcompute : M.compute r.document with
          | none => simp [next, hpending, hcompute]
          | some result => simp [next, hpending, hcompute, publish, hwrite]

/-- **An observation that results leave alone** is, after any run, what the edits of the run make
of it. -/
theorem observe_run {X : Type} (observe : D → X) (g : X → E → X)
    (hedit : ∀ e d, observe ((M.edit e d).getD d) = g (observe d) e)
    (hwrite : ∀ r d, observe (M.write r d) = observe d) {s s' : Shared D}
    {accesses : List (Access E)} (hrun : (machine M).run s accesses = some s') :
    observe s'.document = (edits accesses).foldl g (observe s.document) := by
  unfold edits
  rw [List.foldl_filterMap]
  refine Machine.run_foldl (M := machine M) (R := fun s x => observe s.document = x)
    (C := fun _ _ => True) _ ?_ rfl (Machine.each_of_forall s fun _ _ => trivial) hrun
  rintro s x a s' rfl - hstep
  obtain rfl := Option.some_inj.mp hstep
  rw [observe_next observe g hedit hwrite]
  cases a.edit? <;> rfl

end Shared

end AdvMad.Found
