import AdvMad.Found.Run

/-!
# A memory and its file

A memory that is edited, written to a file now and then, and read from the file again when the
process starts anew. `Turn.act` says what each of these does to the two.

What an edit comes to depends on which comes first after it, a write or a restart:

* `remaining ts` — the edits of `ts` after which no restart comes before a write: `memory_run` says
  that they, in their order, make up the memory.
* `written ts` — those after which a write comes before a restart: `file_run`, the same for the
  file.

Where what an event is to the memory depends on the state it meets, `turnsOf` reads the turns off
the run of a machine, and `cells_of_run` carries a step lemma to the run. `loadFile` is how a
program finds its file: the one it wrote, or else the one it came with.
-/

namespace AdvMad.Found

/-- What happens to a memory and its file. -/
inductive Turn (E : Type)
  | edit (e : E)
  /-- The memory is written to the file. -/
  | write
  /-- The memory is lost and read from the file. -/
  | restart
  /-- Neither is touched. -/
  | pass
deriving DecidableEq, Repr

namespace Turn

variable {E X : Type}

/-- The memory and the file after a turn. -/
def act (apply : X → E → X) : X × X → Turn E → X × X
  | (memory, file), .edit e => (apply memory e, file)
  | (memory, _), .write => (memory, memory)
  | (_, file), .restart => (file, file)
  | (memory, file), .pass => (memory, file)

/-- A restart comes, before any write. -/
def restartsFirst : List (Turn E) → Bool
  | [] => false
  | .write :: _ => false
  | .restart :: _ => true
  | .edit _ :: ts => restartsFirst ts
  | .pass :: ts => restartsFirst ts

/-- A write comes, before any restart. -/
def writesFirst : List (Turn E) → Bool
  | [] => false
  | .write :: _ => true
  | .restart :: _ => false
  | .edit _ :: ts => writesFirst ts
  | .pass :: ts => writesFirst ts

/-- The edits that what comes after them leaves in place. -/
def editsWhere (p : List (Turn E) → Bool) : List (Turn E) → List E
  | [] => []
  | .edit e :: ts => if p ts then e :: editsWhere p ts else editsWhere p ts
  | .write :: ts => editsWhere p ts
  | .restart :: ts => editsWhere p ts
  | .pass :: ts => editsWhere p ts

/-- The edits after which no restart comes before a write. -/
def remaining (ts : List (Turn E)) : List E := editsWhere (fun ts => !restartsFirst ts) ts

/-- The edits after which a write comes before a restart. -/
def written (ts : List (Turn E)) : List E := editsWhere writesFirst ts

variable (apply : X → E → X)

/-- The memory after a run, from any memory and file. -/
theorem memory_foldl (memory file : X) (ts : List (Turn E)) :
    (ts.foldl (act apply) (memory, file)).1 =
      (remaining ts).foldl apply (if restartsFirst ts then file else memory) := by
  unfold remaining
  induction ts generalizing memory file with
  | nil => rfl
  | cons t ts ih =>
      rw [List.foldl_cons]
      cases t with
      | edit e =>
          simp only [act, ih, restartsFirst, editsWhere]
          by_cases h : restartsFirst ts = true
          · simp [h]
          · simp [h]
      | write => simp [act, ih, restartsFirst, editsWhere]
      | restart => simp [act, ih, restartsFirst, editsWhere]
      | pass => exact ih memory file

/-- The file after a run, from any memory and file. -/
theorem file_foldl (memory file : X) (ts : List (Turn E)) :
    (ts.foldl (act apply) (memory, file)).2 =
      (written ts).foldl apply (if writesFirst ts then memory else file) := by
  unfold written
  induction ts generalizing memory file with
  | nil => rfl
  | cons t ts ih =>
      rw [List.foldl_cons]
      cases t with
      | edit e =>
          simp only [act, ih, writesFirst, editsWhere]
          by_cases h : writesFirst ts = true
          · simp [h]
          · simp [h]
      | write => simp [act, ih, writesFirst, editsWhere]
      | restart => simp [act, ih, writesFirst, editsWhere]
      | pass => exact ih memory file

/-- **The memory after a run** that starts from the file: the edits that remain, in their order. -/
theorem memory_run (x : X) (ts : List (Turn E)) :
    (ts.foldl (act apply) (x, x)).1 = (remaining ts).foldl apply x := by
  rw [memory_foldl, ite_self]

/-- **The file after it**: the edits that were written. -/
theorem file_run (x : X) (ts : List (Turn E)) :
    (ts.foldl (act apply) (x, x)).2 = (written ts).foldl apply x := by
  rw [file_foldl, ite_self]

/-! ### Along the run of a machine -/

variable {S A : Type} (M : Machine S A) (turn : S → A → Turn E)

/-- The turns of a run, each read off the state its event meets. -/
def turnsOf : S → List A → List (Turn E)
  | _, [] => []
  | s, a :: as => turn s a :: (M.step s a).elim [] fun s' => turnsOf s' as

variable {M turn apply}

/-- **Run lemma**: memory and file stay related to the state if every step relates them. -/
theorem cells_of_run {R : S → X × X → Prop} {C : S → A → Prop}
    (hstep : ∀ s p a s', R s p → C s a → M.step s a = some s' → R s' (act apply p (turn s a)))
    {s s' : S} {p : X × X} {as : List A} (hR : R s p) (hC : M.Each C s as)
    (hrun : M.run s as = some s') : R s' ((turnsOf M turn s as).foldl (act apply) p) := by
  induction as generalizing s p with
  | nil =>
      obtain rfl := Option.some_inj.mp hrun
      exact hR
  | cons a as ih =>
      rw [Machine.run_cons, Option.bind_eq_some_iff] at hrun
      obtain ⟨s₁, hs, hrun⟩ := hrun
      simp only [turnsOf, hs, Option.elim_some, List.foldl_cons]
      exact ih (hstep s p a s₁ hR hC.1 hs) (hC.2 s₁ hs) hrun

end Turn

/-! ## Finding the file -/

/-- A way to put values into a file. -/
structure Coder (Content A : Type) where
  encode : A → Content
  /-- Fails on content of another kind. -/
  decode : Content → Option A
  decode_encode : ∀ x, decode (encode x) = some x

/-- The value of the file written, where there is one, else of the one that came with the program;
`readable` says whether the file can be read. -/
def loadFile {Content A ε : Type} (coder : Coder Content A) (noFile notDecoded : ε)
    (readable : Bool) (written bundled : Option Content) : Except ε A :=
  match written.or bundled with
  | some content =>
      if readable then
        match coder.decode content with
        | some x => .ok x
        | none => .error notDecoded
      else .error notDecoded
  | none => .error noFile

/-- What is written is loaded. -/
theorem loadFile_encode {Content A ε : Type} (coder : Coder Content A) (noFile notDecoded : ε)
    (x : A) (bundled : Option Content) :
    loadFile coder noFile notDecoded true (some (coder.encode x)) bundled = .ok x := by
  simp [loadFile, coder.decode_encode]

end AdvMad.Found
