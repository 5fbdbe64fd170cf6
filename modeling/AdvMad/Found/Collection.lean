import Mathlib.Data.List.Nodup
import Mathlib.Data.List.Perm.Basic
import Mathlib.Logic.Function.Basic

/-!
# A collection that parties add to

A service that stores a collection of items for each of several groups. A party sends an item under
a group; the service accepts it or rejects it later. What a party sees of a group at a version is
the collection of that version, and besides it what the party itself has sent and was not rejected.

* `Service.Kept` — the invariant: a collection is what it was at the beginning and the items
  accepted for its group, each once. It is kept by sending an item of a fresh key (`kept_send`), by
  accepting (`kept_accept`) and by rejecting (`kept_reject`).
* `mem_of_mem_view` / `nodup_view` — what is seen was there or was sent, and nothing is seen twice.
* `view_eq_stored` — a party with nothing pending sees, at the last version, the collection.
-/

namespace AdvMad.Found

/-- A list around one of its rows, and with that row replaced. -/
theorem exists_split {α : Type} {xs : List α} {i : ℕ} {x : α} (h : xs[i]? = some x) :
    ∃ before after, xs = before ++ x :: after ∧
      ∀ y, xs.set i y = before ++ y :: after := by
  obtain ⟨hi, rfl⟩ := List.getElem?_eq_some_iff.mp h
  refine ⟨xs.take i, xs.drop (i + 1), ?_, fun y => ?_⟩
  · rw [List.getElem_cons_drop, List.take_append_drop]
  · rw [List.set_eq_take_append_cons_drop, if_pos hi]

/-- Where an item sent has got to. -/
inductive Status
  | pending
  | accepted
  | rejected
deriving DecidableEq, Repr

/-- An item sent by a party under a group. -/
structure Write (G I : Type) where
  party : ℕ
  group : G
  item : I
  status : Status
deriving DecidableEq, Repr

/-- The service has taken the item. -/
def Write.isAccepted {G I : Type} (w : Write G I) : Bool := decide (w.status = .accepted)

/-- The collections, in the order in which their items were accepted, and all that was sent. -/
structure Service (G I : Type) where
  stored : G → List I
  sent : List (Write G I)

namespace Service

variable {G I K : Type} [DecidableEq G] (key : I → K)

/-- A party sends an item. -/
def send (s : Service G I) (party : ℕ) (group : G) (item : I) : Service G I :=
  { s with sent := s.sent ++ [⟨party, group, item, .pending⟩] }

/-- The service takes the `i`-th item sent into its collection. -/
def accept (s : Service G I) (i : ℕ) : Service G I :=
  match s.sent[i]? with
  | some w =>
      if w.status = .pending then
        ⟨Function.update s.stored w.group (s.stored w.group ++ [w.item]),
          s.sent.set i { w with status := .accepted }⟩
      else s
  | none => s

/-- The service refuses the `i`-th item sent. -/
def reject (s : Service G I) (i : ℕ) : Service G I :=
  match s.sent[i]? with
  | some w =>
      if w.status = .pending then { s with sent := s.sent.set i { w with status := .rejected } }
      else s
  | none => s

/-- The items sent under a group, of the writes that `p` selects. -/
def items (p : Write G I → Bool) (sent : List (Write G I)) (group : G) : List I :=
  (sent.filter fun w => decide (w.group = group) && p w).map Write.item

/-- All items sent under a group. -/
def all (s : Service G I) (group : G) : List I := items (fun _ => true) s.sent group

/-- The items accepted for a group. -/
def accepted (s : Service G I) (group : G) : List I :=
  items Write.isAccepted s.sent group

/-- The items a party has sent under a group, but for those rejected. -/
def own (s : Service G I) (party : ℕ) (group : G) : List I :=
  items (fun w => decide (w.party = party) && decide (w.status ≠ .rejected)) s.sent group

/-- What a party sees of a group at a version. -/
def view [DecidableEq K] (s : Service G I) (party : ℕ) (group : G) (version : ℕ) : List I :=
  let collection := (s.stored group).take version
  collection ++ (s.own party group).filter fun x => decide (key x ∉ collection.map key)

/-- No item of the group has the key. -/
def Fresh (s : Service G I) (group : G) (k : K) : Prop :=
  k ∉ (s.stored group ++ s.all group).map key

instance [DecidableEq K] (s : Service G I) (group : G) (k : K) : Decidable (s.Fresh key group k) :=
  inferInstanceAs (Decidable (¬ _))

/-- Nothing a party has sent is pending. -/
def Settled (s : Service G I) (party : ℕ) : Prop :=
  ∀ w ∈ s.sent, w.party = party → w.status ≠ .pending

/-- The invariant. -/
structure Kept (initial : G → List I) (s : Service G I) : Prop where
  stored : ∀ g, (s.stored g).Perm (initial g ++ s.accepted g)
  keys : ∀ g, ((initial g ++ s.all g).map key).Nodup

/-! ### The items selected -/

variable {p q : Write G I → Bool} {sent sent' : List (Write G I)} {g : G}

/-- An item is that of some write. -/
theorem mem_items {x : I} :
    x ∈ items p sent g ↔ ∃ w ∈ sent, w.group = g ∧ p w = true ∧ w.item = x := by
  simp [items, and_assoc]

/-- Writes one after the other give their items one after the other. -/
theorem items_append :
    items p (sent ++ sent') g = items p sent g ++ items p sent' g := by
  simp [items]

/-- The first write gives its item first, if it gives one. -/
theorem items_cons (w : Write G I) :
    items p (w :: sent) g =
      (if w.group = g ∧ p w = true then [w.item] else []) ++ items p sent g := by
  unfold items
  rw [List.filter_cons]
  by_cases h : w.group = g ∧ p w = true
  · simp [h]
  · rw [if_neg (by simpa using h), if_neg h]
    rfl

/-- A stricter selection is a part of the items. -/
theorem items_sublist (h : ∀ w, p w = true → q w = true) :
    (items p sent g).Sublist (items q sent g) := by
  unfold items
  apply List.Sublist.map
  apply List.monotone_filter_right
  intro w hw
  simp only [Bool.and_eq_true] at hw ⊢
  exact ⟨hw.1, h w hw.2⟩

/-- What is accepted is part of what there is. -/
theorem accepted_subset_all {s : Service G I} {x : I} (h : x ∈ s.accepted g) : x ∈ s.all g :=
  (items_sublist fun _ _ => rfl).subset h

/-- So is what a party has written itself. -/
theorem own_sublist_all (s : Service G I) (party : ℕ) (g : G) :
    (s.own party g).Sublist (s.all g) := items_sublist fun _ _ => rfl

/-! ### The invariant is kept -/

variable {key} {initial : G → List I} {s : Service G I}

/-- At the start nothing has been written. -/
theorem kept_start (stored : G → List I) (h : ∀ g, ((stored g).map key).Nodup) :
    Kept key stored ⟨stored, []⟩ := by
  refine ⟨fun g => ?_, fun g => ?_⟩
  · simp [accepted, items]
  · simpa [all, items] using h g

/-- Sending an item of a fresh key. -/
theorem kept_send (hs : Kept key initial s) (party : ℕ) {group : G} {item : I}
    (hfresh : s.Fresh key group (key item)) : Kept key initial (s.send party group item) := by
  refine ⟨fun g => ?_, fun g => ?_⟩
  · have haccepted : (s.send party group item).accepted g = s.accepted g := by
      simp [send, accepted, items, Write.isAccepted]
    rw [haccepted]
    exact hs.stored g
  · by_cases hg : group = g
    · subst hg
      have hall : (s.send party group item).all group = s.all group ++ [item] := by
        simp [send, all, items]
      have hnew : key item ∉ (initial group ++ s.all group).map key := by
        intro hmem
        apply hfresh
        obtain ⟨x, hx, hkey⟩ := List.mem_map.mp hmem
        refine List.mem_map.mpr ⟨x, ?_, hkey⟩
        rcases List.mem_append.mp hx with hx | hx
        · exact List.mem_append_left _ ((hs.stored group).symm.subset (List.mem_append_left _ hx))
        · exact List.mem_append_right _ hx
      rw [hall, ← List.append_assoc, List.map_append]
      apply List.Nodup.append (hs.keys group) (by simp)
      simpa [List.disjoint_singleton] using hnew
    · have hall : (s.send party group item).all g = s.all g := by
        simp [send, all, items, hg]
      rw [hall]
      exact hs.keys g

/-- A write whose status changes is sent under the same group with the same item. -/
theorem all_of_status {before after : List (Write G I)} (w : Write G I) (status : Status) :
    items (fun _ => true) (before ++ { w with status := status } :: after) g =
      items (fun _ => true) (before ++ w :: after) g := by
  simp [items_append, items_cons]

/-- What was sent stays sent. -/
theorem all_accept (s : Service G I) (i : ℕ) (g : G) : (s.accept i).all g = s.all g := by
  unfold accept
  rcases hw : s.sent[i]? with _ | w
  · rfl
  · by_cases hpending : w.status = .pending
    · obtain ⟨before, after, hsent, hset⟩ := exists_split hw
      simp only [if_pos hpending, all]
      rw [hset, all_of_status, ← hsent]
    · simp only [if_neg hpending]

/-- A write rejected leaves what there is. -/
theorem all_reject (s : Service G I) (i : ℕ) (g : G) : (s.reject i).all g = s.all g := by
  unfold reject
  rcases hw : s.sent[i]? with _ | w
  · rfl
  · by_cases hpending : w.status = .pending
    · obtain ⟨before, after, hsent, hset⟩ := exists_split hw
      simp only [if_pos hpending, all]
      rw [hset, all_of_status, ← hsent]
    · simp only [if_neg hpending]

/-- A write sent takes nothing away. -/
theorem all_subset_send (s : Service G I) (party : ℕ) (group : G) (item : I) (g : G) :
    s.all g ⊆ (s.send party group item).all g := by
  unfold all send
  rw [items_append]
  exact List.subset_append_left _ _

/-- It adds its item to its group. -/
theorem mem_all_send {party : ℕ} {group : G} {item x : I} :
    x ∈ (s.send party group item).all g ↔ x ∈ s.all g ∨ group = g ∧ item = x := by
  unfold all send
  rw [items_append, List.mem_append]
  simp [items]

/-- Accepting an item. -/
theorem kept_accept (hs : Kept key initial s) (i : ℕ) : Kept key initial (s.accept i) := by
  refine ⟨fun g => ?_, fun g => by rw [all_accept]; exact hs.keys g⟩
  have hstored := hs.stored g
  unfold accept
  rcases hw : s.sent[i]? with _ | w
  · exact hstored
  · by_cases hpending : w.status = .pending
    · obtain ⟨before, after, hsent, hset⟩ := exists_split hw
      simp only [if_pos hpending]
      unfold accepted at hstored ⊢
      rw [hsent, items_append, items_cons, if_neg (by simp [Write.isAccepted, hpending]),
        List.nil_append] at hstored
      simp only [hset, items_append, items_cons, Write.isAccepted, decide_true, and_true]
      by_cases hg : w.group = g
      · subst hg
        rw [Function.update_self, if_pos rfl, List.singleton_append, ← List.append_assoc]
        have hmiddle : (w.item :: (initial w.group ++ items Write.isAccepted before w.group ++
            items Write.isAccepted after w.group)).Perm (initial w.group ++
            items Write.isAccepted before w.group ++
            w.item :: items Write.isAccepted after w.group) := List.perm_middle.symm
        rw [List.append_assoc] at hmiddle
        exact (List.perm_append_singleton _ _).trans ((hstored.cons w.item).trans hmiddle)
      · rw [Function.update_of_ne (Ne.symm hg), if_neg hg, List.nil_append]
        exact hstored
    · simp only [if_neg hpending]
      exact hstored

/-- Rejecting an item. -/
theorem kept_reject (hs : Kept key initial s) (i : ℕ) : Kept key initial (s.reject i) := by
  refine ⟨fun g => ?_, fun g => by rw [all_reject]; exact hs.keys g⟩
  have hstored := hs.stored g
  unfold reject
  rcases hw : s.sent[i]? with _ | w
  · exact hstored
  · by_cases hpending : w.status = .pending
    · obtain ⟨before, after, hsent, hset⟩ := exists_split hw
      simp only [if_pos hpending]
      unfold accepted at hstored ⊢
      rw [hsent, items_append, items_cons, if_neg (by simp [Write.isAccepted, hpending])]
        at hstored
      rw [hset, items_append, items_cons, if_neg (by simp [Write.isAccepted])]
      exact hstored
    · simp only [if_neg hpending]
      exact hstored

/-! ### What is seen -/

/-- What is stored was there or was accepted. -/
theorem mem_of_mem_stored (hs : Kept key initial s) {x : I} (hx : x ∈ s.stored g) :
    x ∈ initial g ∨ x ∈ s.all g := by
  rcases List.mem_append.mp ((hs.stored g).subset hx) with hx | hx
  · exact Or.inl hx
  · exact Or.inr (accepted_subset_all hx)

variable [DecidableEq K]

/-- **What is seen was there, or was sent under the group.** -/
theorem mem_of_mem_view (hs : Kept key initial s) {party version : ℕ} {x : I}
    (hx : x ∈ s.view key party g version) : x ∈ initial g ∨ x ∈ s.all g := by
  unfold view at hx
  rcases List.mem_append.mp hx with hx | hx
  · exact mem_of_mem_stored hs (List.mem_of_mem_take hx)
  · exact Or.inr ((own_sublist_all s party g).subset (List.mem_of_mem_filter hx))

/-- **Nothing is seen twice.** -/
theorem nodup_view (hs : Kept key initial s) (party version : ℕ) :
    ((s.view key party g version).map key).Nodup := by
  have hkeys := hs.keys g
  rw [List.map_append, List.nodup_append'] at hkeys
  have hstored : ((s.stored g).map key).Nodup := by
    have hsub : ((initial g ++ s.accepted g).map key).Sublist ((initial g ++ s.all g).map key) :=
      ((List.Sublist.refl _).append (items_sublist fun _ _ => rfl)).map key
    exact ((hs.stored g).map key).nodup_iff.mpr (hsub.nodup (hs.keys g))
  unfold view
  rw [List.map_append]
  apply List.Nodup.append
  · exact ((List.take_sublist version _).map key).nodup hstored
  · exact (((List.filter_sublist).trans (own_sublist_all s party g)).map key).nodup hkeys.2.1
  · intro k hk hk'
    obtain ⟨x, hx, rfl⟩ := List.mem_map.mp hk'
    have hnew : key x ∉ ((s.stored g).take version).map key := by
      simpa using List.of_mem_filter hx
    exact hnew hk

/-- **The last version**: a party with nothing pending sees what is stored. -/
theorem view_eq_stored (hs : Kept key initial s) {party version : ℕ} (hsettled : s.Settled party)
    (hversion : (s.stored g).length ≤ version) : s.view key party g version = s.stored g := by
  unfold view
  rw [List.take_of_length_le hversion]
  apply List.append_right_eq_self.mpr
  rw [List.filter_eq_nil_iff]
  intro x hx
  obtain ⟨w, hw, hgroup, hstatus, rfl⟩ := mem_items.mp hx
  simp only [Bool.and_eq_true, decide_eq_true_eq] at hstatus
  obtain ⟨hparty, hrejected⟩ := hstatus
  have haccepted : w.status = .accepted := by
    cases hs : w.status with
    | pending => exact absurd hs (hsettled w hw hparty)
    | accepted => rfl
    | rejected => exact absurd hs hrejected
  have hmem : w.item ∈ s.stored g := by
    apply (hs.stored g).symm.subset
    apply List.mem_append_right
    exact mem_items.mpr ⟨w, hw, hgroup, by simp [Write.isAccepted, haccepted], rfl⟩
  simpa using ⟨w.item, hmem, rfl⟩

end Service

end AdvMad.Found
