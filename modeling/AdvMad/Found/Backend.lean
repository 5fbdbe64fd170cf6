import Mathlib.Data.List.Basic

/-!
# A document behind a network

Parties update a document and read it. An update is sent at once and reaches the document later, in
any order, or never. What a party reads is a version that the document has had, with the party's own
updates under way on top of it.

* `Sourced` — the invariant: a property `P` of all versions and a property `Q` of all updates under
  way, where updates of `Q` keep `P`. It is kept by sending (`sourced_send`), by the arrival of an
  update (`sourced_apply`) and by its loss (`sourced_refuse`).
* `sourced_view` — then what is read has the property too.
* `Grows` — a preorder that updates respect holds between every version and the last one.
-/

namespace AdvMad.Found

/-- An update under way, and the party that sent it. -/
structure Sent (U : Type) where
  party : ℕ
  update : U
deriving DecidableEq, Repr

/-- The document, its versions before (the last one first) and the updates under way. -/
structure Backend (D U : Type) where
  document : D
  earlier : List D
  updates : List (Sent U)

namespace Backend

variable {D U : Type} (act : D → U → D)

/-- A document nobody has updated. -/
def start (d : D) : Backend D U := ⟨d, [], []⟩

/-- All versions, the last one first. -/
def versions (b : Backend D U) : List D := b.document :: b.earlier

/-- A party sends an update. -/
def send (b : Backend D U) (party : ℕ) (u : U) : Backend D U :=
  { b with updates := b.updates ++ [⟨party, u⟩] }

/-- A party sends an update, if it has one to send. -/
def send? (b : Backend D U) (party : ℕ) (u : Option U) : Backend D U := u.elim b (b.send party)

/-- The `i`-th update under way reaches the document. -/
def apply (b : Backend D U) (i : ℕ) : Backend D U :=
  match b.updates[i]? with
  | some sent => ⟨act b.document sent.update, b.versions, b.updates.eraseIdx i⟩
  | none => b

/-- It never will. -/
def refuse (b : Backend D U) (i : ℕ) : Backend D U := { b with updates := b.updates.eraseIdx i }

/-- The updates of a party under way, in the order in which they were sent. -/
def own (b : Backend D U) (party : ℕ) : List U :=
  (b.updates.filter fun sent => decide (sent.party = party)).map Sent.update

/-- What a party reads of a version. -/
def view (b : Backend D U) (party version : ℕ) : Option D :=
  (b.versions[version]?).map fun d => (b.own party).foldl act d

/-- The invariant. -/
structure Sourced (P : D → Prop) (Q : U → Prop) (b : Backend D U) : Prop where
  versions : ∀ d ∈ b.versions, P d
  updates : ∀ sent ∈ b.updates, Q sent.update

/-- Every version is related to the last one. -/
def Grows (R : D → D → Prop) (b : Backend D U) : Prop := ∀ d ∈ b.versions, R d b.document

variable {act} {P : D → Prop} {Q : U → Prop} {R : D → D → Prop} {b : Backend D U}

/-- At the start the one version has its property. -/
theorem sourced_start {d : D} (h : P d) : Sourced P Q (start d : Backend D U) := by
  refine ⟨fun d' hd' => ?_, fun sent hsent => ?_⟩
  · obtain rfl := List.mem_singleton.mp hd'
    exact h
  · simp [start] at hsent

/-- An update that has its property may be sent. -/
theorem sourced_send (hb : Sourced P Q b) (party : ℕ) {u : U} (hu : Q u) :
    Sourced P Q (b.send party u) := by
  refine ⟨hb.versions, fun sent hsent => ?_⟩
  rcases List.mem_append.mp hsent with hsent | hsent
  · exact hb.updates sent hsent
  · obtain rfl := List.mem_singleton.mp hsent
    exact hu

/-- So may none. -/
theorem sourced_send? (hb : Sourced P Q b) (party : ℕ) {u : Option U} (hu : ∀ x ∈ u, Q x) :
    Sourced P Q (b.send? party u) := by
  cases u with
  | none => exact hb
  | some u => exact sourced_send hb party (hu u rfl)

/-- An update applied gives a version with the property, where the action keeps it. -/
theorem sourced_apply (hact : ∀ d u, P d → Q u → P (act d u)) (hb : Sourced P Q b) (i : ℕ) :
    Sourced P Q (b.apply act i) := by
  unfold apply
  rcases hi : b.updates[i]? with _ | sent
  · exact hb
  · refine ⟨fun d hd => ?_, fun s hs => hb.updates s (List.mem_of_mem_eraseIdx hs)⟩
    rcases List.mem_cons.mp hd with rfl | hd
    · apply hact
      · exact hb.versions b.document List.mem_cons_self
      · exact hb.updates sent (List.mem_of_getElem? hi)
    · exact hb.versions d hd

/-- An update refused leaves the versions as they are. -/
theorem sourced_refuse (hb : Sourced P Q b) (i : ℕ) : Sourced P Q (b.refuse i) :=
  ⟨hb.versions, fun s hs => hb.updates s (List.mem_of_mem_eraseIdx hs)⟩

/-- Updates of `Q`, one after the other, keep `P`. -/
theorem foldl_act (hact : ∀ d u, P d → Q u → P (act d u)) {us : List U} (hus : ∀ u ∈ us, Q u)
    {d : D} (hd : P d) : P (us.foldl act d) := by
  induction us generalizing d with
  | nil => exact hd
  | cons u us ih =>
      rw [List.forall_mem_cons] at hus
      exact ih hus.2 (hact d u hd hus.1)

/-- **What is read** has the property of the versions. -/
theorem sourced_view (hact : ∀ d u, P d → Q u → P (act d u)) (hb : Sourced P Q b)
    {party version : ℕ} {d : D} (hd : b.view act party version = some d) : P d := by
  obtain ⟨d₀, hd₀, rfl⟩ := Option.map_eq_some_iff.mp hd
  apply foldl_act hact _ (hb.versions d₀ (List.mem_of_getElem? hd₀))
  intro u hu
  obtain ⟨sent, hsent, rfl⟩ := List.mem_map.mp hu
  exact hb.updates sent (List.mem_of_mem_filter hsent)

/-- There is something to read of every version. -/
theorem exists_view (act : D → U → D) (party : ℕ) {version : ℕ} (h : version < b.versions.length) :
    ∃ d, b.view act party version = some d := by
  unfold view
  rw [List.getElem?_eq_getElem h]
  exact ⟨_, rfl⟩

/-- One version is below itself. -/
theorem grows_start (hrefl : ∀ d, R d d) (d : D) : Grows R (start d : Backend D U) := by
  intro d' hd'
  obtain rfl := List.mem_singleton.mp hd'
  exact hrefl _

/-- Sending adds no version. -/
@[simp] theorem grows_send? (party : ℕ) (u : Option U) :
    Grows R (b.send? party u) ↔ Grows R b := by
  cases u <;> exact Iff.rfl

/-- An update applied gives a version above all others, where the action only goes up. -/
theorem grows_apply (hrefl : ∀ d, R d d) (htrans : ∀ d d' d'', R d d' → R d' d'' → R d d'')
    (hact : ∀ d u, R d (act d u)) (hb : Grows R b) (i : ℕ) : Grows R (b.apply act i) := by
  unfold apply
  rcases hi : b.updates[i]? with _ | sent
  · exact hb
  · intro d hd
    rcases List.mem_cons.mp hd with rfl | hd
    · exact hrefl _
    · exact htrans d b.document _ (hb d hd) (hact b.document sent.update)

end Backend

end AdvMad.Found
