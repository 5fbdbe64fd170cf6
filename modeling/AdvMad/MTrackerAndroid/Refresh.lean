import AdvMad.MTrackerAndroid.Saves
import AdvMad.Found.ReadComputeWrite

/-!
# Refreshes on the shared document

Every installation works on the one tracking document. A refresh reads it in one step (`getData`),
and calculates and updates the three macro fields in a later one (`calculateData`, `writeData`);
nothing in the app ties the two together, and Saves and other refreshes come between.

* `tracking` — the document as a register that Saves edit and refreshes compute from and write to.
* `stored_macros` — whose amounts are stored: those of the refresh that wrote last, which read the
  most recent version of all that wrote where refreshes write in the order of their reads.
* `older_refresh_wins` — two overlapping refreshes with a Save between their reads.
-/

namespace AdvMad.MTrackerAndroid

open AdvMad.Found

/-- The amounts a refresh calculates from the document it has read; `none` where the mapping fails
or an entry is missing, and nothing is written.
Source: `MacrosFragment.kt`, `getData` and `calculateData`. -/
def refreshed (document : Document) : Option MacroData :=
  (toObject document).bind (calculateData Double)

/-- The tracking document under Saves and refreshes. -/
def tracking (toDouble : String → Option ℚ) : Register Document MacroData Save where
  edit s document := save toDouble document s
  compute := refreshed
  write := writeData
  stored := stored
  stored_write := stored_writeData
  stored_edit s document document' h := by
    obtain ⟨t, dataEntry⟩ := s
    cases hvalue : toDouble dataEntry with
    | none =>
        unfold save setData at h
        rw [hvalue] at h
        cases h
    | some value =>
        rw [save_eq hvalue] at h
        cases h
        exact stored_union document t.field value

/-- **Whose amounts are stored.** For every document and every interleaving of Saves, refresh reads
and refresh writes of any number of clients: in every state in which a refresh has written, the
stored amounts are the ones calculated from the document that the refresh that wrote last had read;
and along every run in which no refresh writes after one that read a later version, they are the
ones calculated from the most recent version that any refresh that wrote has read. -/
theorem stored_macros (toDouble : String → Option ℚ) (document : Document)
    (accesses : List (Access Save)) :
    (Shared.machine (tracking toDouble)).Always
        (fun s => ∀ r ∈ s.wrote.head?,
          stored s.document = refreshed r.document ∧ (refreshed r.document).isSome)
        (Shared.start document) accesses ∧
      ((Shared.machine (tracking toDouble)).Each (Shared.InOrder (tracking toDouble))
          (Shared.start document) accesses →
        (Shared.machine (tracking toDouble)).Always
          (fun s => ∀ r ∈ s.wrote, (∀ w ∈ s.wrote, w.version ≤ r.version) →
            stored s.document = refreshed r.document)
          (Shared.start document) accesses) :=
  ⟨Shared.stores_last document accesses, Shared.stores_latest document⟩

/-- A document with one entry of everything the calculation reads. -/
def filledDocument : Document := fun id =>
  if id = "weight" then some (.array [180])
  else if id = "height" then some (.array [70])
  else if id = "body_fat_percentage" then some (.array [20])
  else if id = "birthday" then some (.array [30])
  else if id = "activity_level" then some (.array [5])
  else none

/-- A refresh reads and writes, a weight is saved, and another refresh reads and writes. -/
def inTurn : List (Access Save) := [.read, .write 0, .edit (.weight, "250"), .read, .write 0]

/-- That run, from the filled document. -/
theorem stored_macros_inTurn :
    (Shared.machine (tracking decimal)).Always
        (fun s => ∀ r ∈ s.wrote.head?,
          stored s.document = refreshed r.document ∧ (refreshed r.document).isSome)
        (Shared.start filledDocument) inTurn ∧
      (Shared.machine (tracking decimal)).Always
        (fun s => ∀ r ∈ s.wrote, (∀ w ∈ s.wrote, w.version ≤ r.version) →
          stored s.document = refreshed r.document)
        (Shared.start filledDocument) inTurn :=
  (stored_macros decimal filledDocument inTurn).imp_right fun h => h (by decide +kernel)

/-- A refresh reads, a weight is saved, a refresh reads and writes, and the first one writes. -/
def overlapping : List (Access Save) :=
  [.read, .edit (.weight, "250"), .read, .write 1, .write 0]

/-- After that run no refresh is under way, and the amounts stored are not those of the most recent
version read. -/
theorem older_refresh_wins :
    (Shared.machine (tracking decimal)).Legal (Shared.start filledDocument) overlapping ∧
      ∃ s, (Shared.machine (tracking decimal)).run (Shared.start filledDocument) overlapping =
          some s ∧
        s.pending.isEmpty = true ∧ s.wrote.isEmpty = false ∧
        ¬ ∀ r ∈ s.wrote, (∀ w ∈ s.wrote, w.version ≤ r.version) →
          stored s.document = refreshed r.document := by
  refine ⟨by decide +kernel, _, rfl, ?_, ?_, ?_⟩ <;> decide +kernel

end AdvMad.MTrackerAndroid
