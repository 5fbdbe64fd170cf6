import AdvMad.MTrackerAndroid.MacrosFragment
import AdvMad.MTrackerAndroid.Refresh

/-!
# Many clients on the tracking document

The lists of the document grow by `arrayUnion` only, and a refresh touches the macro fields only. So
whatever the interleaving of Saves, refresh reads and refresh writes of any number of clients:

* `numbers_run` — a list field holds what it held and the numbers saved to it, each once.
  `lists_keep_saves` says it of every list: no Save is lost and nothing else appears.
* `lists_converge` — which Saves there are decides the lists up to order, and whether the document
  maps; their order, their repetition and the refreshes do not matter.
* `document_maps_iff` — a document that maps does so until a number is saved that no `Long` holds,
  and never again.
-/

namespace AdvMad.MTrackerAndroid

open AdvMad.Found

variable {toDouble : String → Option ℚ}

/-- What a Save brings to a list field, if anything. -/
def Save.brings (toDouble : String → Option ℚ) (f : ListField) (s : Save) : Option ℚ :=
  if s.1.field = f then toDouble s.2 else none

/-- The numbers that Saves bring to a list field, in their order. -/
def saved (toDouble : String → Option ℚ) (saves : List Save) (f : ListField) : List ℚ :=
  saves.filterMap (Save.brings toDouble f)

/-- A number saved to a list is that of some Save. -/
theorem mem_saved {saves : List Save} {f : ListField} {q : ℚ} :
    q ∈ saved toDouble saves f ↔ ∃ s ∈ saves, s.1.field = f ∧ toDouble s.2 = some q := by
  simp [saved, Save.brings, List.mem_filterMap]

/-! ## The lists -/

/-- The amounts go to no list field. -/
theorem writeData_list (macroData : MacroData) (document : Document) (f : ListField) :
    writeData macroData document f.id = document f.id := by
  obtain ⟨hp, hf, hc⟩ := f.id_ne_macro
  unfold writeData
  rw [Function.update_of_ne hc, Function.update_of_ne hf, Function.update_of_ne hp]

/-- The numbers of a list are those of before. -/
theorem numbers_writeData (macroData : MacroData) (document : Document) (f : ListField) :
    numbers (writeData macroData document) f = numbers document f := by
  unfold numbers
  rw [writeData_list]

/-- One Save of any text, seen on one list field. -/
theorem numbers_save (toDouble : String → Option ℚ) (document : Document) (s : Save)
    (f : ListField) :
    numbers ((save toDouble document s).getD document) f =
      (s.brings toDouble f).elim (numbers document f) (appendNew (numbers document f)) := by
  obtain ⟨t, dataEntry⟩ := s
  unfold Save.brings
  rcases hvalue : toDouble dataEntry with _ | value
  · have hnone : save toDouble document (t, dataEntry) = none := by
      simp [save, setData, hvalue]
    rw [hnone]
    simp
  · rw [save_eq hvalue, Option.getD_some, numbers_union]
    by_cases hf : t.field = f
    · subst hf
      simp
    · simp [hf, Ne.symm hf]

/-- **A list field after a run** holds what it held, and the numbers saved to it. -/
theorem numbers_run {document : Document} {accesses : List (Access Save)} {s : Shared Document}
    (hrun : (Shared.machine (tracking toDouble)).run (Shared.start document) accesses = some s)
    (f : ListField) :
    numbers s.document f =
      appendAllNew (numbers document f) (saved toDouble (Shared.edits accesses) f) := by
  rw [Shared.observe_run (fun document => numbers document f)
    (fun xs s => (s.brings toDouble f).elim xs (appendNew xs))
    (fun s document => numbers_save toDouble document s f)
    (fun macroData document => numbers_writeData macroData document f) hrun]
  unfold appendAllNew saved
  rw [List.foldl_filterMap]
  congr 1
  funext xs s
  cases s.brings toDouble f <;> rfl

/-- **No Save is lost, and nothing else appears.** For every document and every interleaving of
Saves, refresh reads and refresh writes of any number of clients: every list field holds at the end
what it held at the beginning, followed by the numbers saved to it that it did not hold, each of
them once and in the order of a Save of it. -/
theorem lists_keep_saves (toDouble : String → Option ℚ) (document : Document)
    (accesses : List (Access Save)) :
    ∃ s, (Shared.machine (tracking toDouble)).run (Shared.start document) accesses = some s ∧
      ∀ f, ∃ added, numbers s.document f = numbers document f ++ added ∧ added.Nodup ∧
        added.Sublist (saved toDouble (Shared.edits accesses) f) ∧
        ∀ q, q ∈ added ↔
          q ∉ numbers document f ∧ q ∈ saved toDouble (Shared.edits accesses) f := by
  obtain ⟨s, hrun⟩ := Shared.exists_run (M := tracking toDouble) (Shared.start document) accesses
  refine ⟨s, hrun, fun f => ?_⟩
  rw [numbers_run hrun f]
  exact exists_added _ _

/-! ## The mapping -/

/-- List fields hold arrays of numbers, if anything, and macro fields numbers of the range. -/
structure Shaped (document : Document) : Prop where
  lists : ∀ f : ListField,
    document f.id = none ∨ ∃ elements, document f.id = some (.array elements)
  macroProtein : ∃ p, toInt? (document "macro_protein") = some p
  macroFat : ∃ f, toInt? (document "macro_fat") = some f
  macroCarb : ∃ c, toInt? (document "macro_carb") = some c

/-- Numbers that all map make a list that maps. -/
theorem exists_mapM_toLong {elements : List ℚ} (h : ∀ q ∈ elements, ∃ n, toLong q = some n) :
    ∃ xs, elements.mapM toLong = some xs := by
  induction elements with
  | nil => exact ⟨[], rfl⟩
  | cons q elements ih =>
      rw [List.forall_mem_cons] at h
      obtain ⟨n, hn⟩ := h.1
      obtain ⟨xs, hxs⟩ := ih h.2
      exact ⟨n :: xs, by simp [List.mapM_cons, hn, hxs]⟩

/-- **When a document maps**: it has the shape, and every number of a list is one that a `Long`
holds. -/
theorem exists_toObject_iff (document : Document) :
    (∃ data, toObject document = some data) ↔
      Shaped document ∧ ∀ f, ∀ q ∈ numbers document f, ∃ n, toLong q = some n := by
  constructor
  · rintro ⟨data, h⟩
    obtain ⟨hlists, hp, hf, hc⟩ := toObject_eq_some_iff.mp h
    refine ⟨⟨fun f => ?_, ⟨_, hp⟩, ⟨_, hf⟩, ⟨_, hc⟩⟩, fun f => ?_⟩
    · rcases toLongs_cases (hlists f) with ⟨hnone, -⟩ | ⟨elements, -, harray, -⟩
      · exact Or.inl hnone
      · exact Or.inr ⟨elements, harray⟩
    · exact toLong_of_mapM (numbers_of_toLongs (hlists f))
  · rintro ⟨⟨hlists, ⟨p, hp⟩, ⟨t, ht⟩, ⟨c, hc⟩⟩, hnumbers⟩
    have hlongs : ∀ f : ListField, ∃ longs, toLongs (document f.id) = some longs := by
      intro f
      rcases hlists f with hnone | ⟨elements, harray⟩
      · rw [hnone]
        exact ⟨none, rfl⟩
      · have hmem := hnumbers f
        unfold numbers at hmem
        rw [harray] at hmem ⊢
        obtain ⟨xs, hxs⟩ := exists_mapM_toLong hmem
        exact ⟨some xs, by rw [toLongs, hxs]; rfl⟩
    choose longs hlongs using hlongs
    let data : NutritionData :=
      NutritionData.withLists ⟨none, none, none, none, none, none, none, p, t, c⟩ longs
    refine ⟨data, toObject_eq_some_iff.mpr ⟨fun f => ?_, hp, ht, hc⟩⟩
    rw [hlongs, NutritionData.list_withLists]

/-- A Save keeps the shape. -/
theorem Shaped.union {document : Document} (h : Shaped document) (f : ListField) (value : ℚ) :
    Shaped (document.union f value) := by
  obtain ⟨hp, hf, hc⟩ := f.id_ne_macro
  refine ⟨fun g => ?_, ?_, ?_, ?_⟩
  · by_cases hg : g.id = f.id
    · rw [hg, document.union_self]
      right
      rcases h.lists f with hnone | ⟨elements, harray⟩
      · rw [hnone]
        exact ⟨_, rfl⟩
      · rw [harray]
        exact ⟨_, rfl⟩
    · rw [document.union_of_ne f value hg]
      exact h.lists g
  · rw [document.union_of_ne f value hp.symm]
    exact h.macroProtein
  · rw [document.union_of_ne f value hf.symm]
    exact h.macroFat
  · rw [document.union_of_ne f value hc.symm]
    exact h.macroCarb

/-- The amounts calculated are those of an energy. -/
theorem exists_shares {data : NutritionData} {macroData : MacroData}
    (h : calculateData Double data = some macroData) :
    ∃ energy : Double, macroData = shares energy := by
  unfold calculateData calculateFrom at h
  split at h
  · simp at h
  · obtain rfl := Option.some_inj.mp h
    exact ⟨_, rfl⟩

/-- Amounts calculated keep the shape. -/
theorem Shaped.writeData {document : Document} (h : Shaped document) (energy : Double) :
    Shaped (writeData (shares energy) document) := by
  refine ⟨fun f => ?_, ?_, ?_, ?_⟩
  · rw [writeData_list]
    exact h.lists f
  all_goals simp [MTrackerAndroid.writeData, shares, toInt?, toInt32_toInt]

/-- The shape is kept along every run. -/
theorem shaped_run {document : Document} (h : Shaped document) {accesses : List (Access Save)}
    {s : Shared Document}
    (hrun : (Shared.machine (tracking toDouble)).run (Shared.start document) accesses = some s) :
    Shaped s.document := by
  apply Shared.document_run _ _ h hrun
  · rintro ⟨t, dataEntry⟩ document document' hsave hshaped
    rcases hvalue : toDouble dataEntry with _ | value
    · simp [tracking, save, setData, hvalue] at hsave
    · change save toDouble document (t, dataEntry) = some document' at hsave
      rw [save_eq hvalue, Option.some_inj] at hsave
      rw [← hsave]
      exact hshaped.union t.field value
  · intro macroData document document' hcompute hshaped
    obtain ⟨data, -, hcalc⟩ := Option.bind_eq_some_iff.mp hcompute
    obtain ⟨energy, rfl⟩ := exists_shares hcalc
    exact hshaped.writeData energy

/-- **When the document maps.** For every document that maps and every interleaving of Saves,
refresh reads and refresh writes of any number of clients: the document maps at the end iff a `Long`
holds every number that has been saved. So one number too large, saved once by one client, keeps
every screen of every client from mapping the document from then on. -/
theorem document_maps_iff (toDouble : String → Option ℚ) (document : Document)
    (hdocument : ∃ data, toObject document = some data) (accesses : List (Access Save)) :
    ∃ s, (Shared.machine (tracking toDouble)).run (Shared.start document) accesses = some s ∧
      ((∃ data, toObject s.document = some data) ↔
        ∀ save : Save, .edit save ∈ accesses → ∀ q, toDouble save.2 = some q →
          ∃ n, toLong q = some n) := by
  obtain ⟨hshaped, hnumbers⟩ := (exists_toObject_iff document).mp hdocument
  obtain ⟨s, hrun⟩ := Shared.exists_run (M := tracking toDouble) (Shared.start document) accesses
  refine ⟨s, hrun, ?_⟩
  rw [exists_toObject_iff, and_iff_right (shaped_run hshaped hrun)]
  constructor
  · intro h save hsave q hq
    apply h save.1.field q
    rw [numbers_run hrun, mem_appendAllNew]
    exact Or.inr (mem_saved.mpr ⟨save, Shared.mem_edits.mpr hsave, rfl, hq⟩)
  · intro h f q hq
    rw [numbers_run hrun, mem_appendAllNew] at hq
    rcases hq with hq | hq
    · exact hnumbers f q hq
    · obtain ⟨save, hsave, -, hsaved⟩ := mem_saved.mp hq
      exact h save (Shared.mem_edits.mp hsave) q hsaved

/-- Two clients save, a refresh reads before and writes after, and one number is too large. -/
def tooLarge : List (Access Save) :=
  [.read, .edit (.weight, "250"), .edit (.height, "9223372036854775808"), .write 0]

/-- That run, from the filled document. -/
theorem document_maps_iff_tooLarge :
    ∃ s, (Shared.machine (tracking decimal)).run (Shared.start filledDocument) tooLarge = some s ∧
      ((∃ data, toObject s.document = some data) ↔
        ∀ save : Save, .edit save ∈ tooLarge → ∀ q, decimal save.2 = some q →
          ∃ n, toLong q = some n) :=
  document_maps_iff decimal filledDocument ⟨_, rfl⟩ tooLarge

/-- **Which Saves there are decides.** For every document and any two runs with the same Saves, in
any order, any number of times and among any refreshes: every list field holds the same numbers at
the end of both up to order, and where the document mapped at the beginning it maps at the end of
both or of neither. -/
theorem lists_converge (toDouble : String → Option ℚ) (document : Document)
    (accesses accesses' : List (Access Save))
    (hsaves : ∀ save : Save, .edit save ∈ accesses ↔ .edit save ∈ accesses') :
    ∃ s s', (Shared.machine (tracking toDouble)).run (Shared.start document) accesses = some s ∧
      (Shared.machine (tracking toDouble)).run (Shared.start document) accesses' = some s' ∧
      (∀ f, (numbers s.document f).Perm (numbers s'.document f)) ∧
      ((∃ data, toObject document = some data) →
        ((∃ data, toObject s.document = some data) ↔
          ∃ data, toObject s'.document = some data)) := by
  obtain ⟨s, hrun⟩ := Shared.exists_run (M := tracking toDouble) (Shared.start document) accesses
  obtain ⟨s', hrun'⟩ := Shared.exists_run (M := tracking toDouble) (Shared.start document) accesses'
  have hsaved : ∀ f q, q ∈ saved toDouble (Shared.edits accesses) f ↔
      q ∈ saved toDouble (Shared.edits accesses') f := by
    intro f q
    simp only [mem_saved, Shared.mem_edits, hsaves]
  have hperm : ∀ f, (numbers s.document f).Perm (numbers s'.document f) := by
    intro f
    rw [numbers_run hrun, numbers_run hrun']
    exact appendAllNew_perm _ (hsaved f)
  refine ⟨s, s', hrun, hrun', hperm, fun hdocument => ?_⟩
  obtain ⟨hshaped, -⟩ := (exists_toObject_iff document).mp hdocument
  rw [exists_toObject_iff, exists_toObject_iff, and_iff_right (shaped_run hshaped hrun),
    and_iff_right (shaped_run hshaped hrun')]
  simp only [(hperm _).mem_iff]

/-- Two Saves with a refresh between them. -/
def weightFirst : List (Access Save) :=
  [.edit (.weight, "250"), .read, .edit (.height, "71"), .write 0]

/-- The same two Saves the other way round, the one of the height twice. -/
def heightFirst : List (Access Save) :=
  [.edit (.height, "71"), .edit (.weight, "250"), .edit (.height, "71")]

/-- The two runs, from the filled document. -/
theorem lists_converge_weightFirst :
    ∃ s s',
      (Shared.machine (tracking decimal)).run (Shared.start filledDocument) weightFirst = some s ∧
      (Shared.machine (tracking decimal)).run (Shared.start filledDocument) heightFirst =
        some s' ∧
      (∀ f, (numbers s.document f).Perm (numbers s'.document f)) ∧
      ((∃ data, toObject filledDocument = some data) →
        ((∃ data, toObject s.document = some data) ↔
          ∃ data, toObject s'.document = some data)) := by
  apply lists_converge decimal filledDocument weightFirst heightFirst
  intro save
  simp only [weightFirst, heightFirst, List.mem_cons, Access.edit.injEq, List.not_mem_nil,
    reduceCtorEq, false_or, or_false]
  constructor
  · rintro (h | h)
    · exact Or.inr (Or.inl h)
    · exact Or.inl h
  · rintro (h | h | h)
    · exact Or.inr h
    · exact Or.inl h
    · exact Or.inr h

end AdvMad.MTrackerAndroid
