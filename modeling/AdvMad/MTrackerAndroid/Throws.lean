import AdvMad.MTrackerAndroid.Network

/-!
# When the process of a client ends

A Save throws where its text is no number, a listener where the document that it is handed does not
map, and the listener of an entry screen that was left where its list is empty; nothing catches any
of them. A document that does not map stays so, because no update takes a number out of a list: from
one Save on, every answer that carries the number ends a process, on every client. No list becomes
empty either, so one that is was so at the beginning.

* `Throws` — the event ends the process of its client (`start_of_throws`).
* `maps_of_possible` — where every Save of a run is a number that a `Long` holds, every document
  that can come about maps.
* `runs_never_throw_iff` — for any condition on Saves: no run all of whose Saves meet it ends a
  process, iff every Save that meets it is such a number and no list of the first document is empty.

The condition is what a check in front of `setData` would have to ensure; the source has no such
check.
-/

namespace AdvMad.MTrackerAndroid

namespace Network

open AdvMad.Found

/-- The handling of an event throws. Source: `AddSpecificData.kt`, `setData` and the listener of
`getData`; `MacrosFragment.kt`, the listeners of `getDataInitially` and `getData`. -/
def Throws (toDouble : String → Option ℚ) (s : Network) : Event → Prop
  | .save client entry =>
      (s.clients client).entry.isSome ∧ entry.label toDouble = none
  | .entrySuccess client version =>
      ∃ e ∈ (s.clients client).entry, ∃ d ∈ s.backend.view Update.apply client version,
        e.answer d = none
  | .lateSuccess client t version =>
      ∃ d ∈ s.backend.view Update.apply client version, lateAnswer t d = false
  | .success client request version =>
      ∃ d ∈ s.backend.view Update.apply client version,
        (s.clients client).macros.step (.complete request (.success (some d))) = none
  | .openEntry _ _ | .leaveEntry _ | .entryFailure _ | .lateFailure _ _ | .onCreateView _ _
  | .refresh _ | .failure _ _ | .apply _ | .refuse _ => False

variable {toDouble : String → Option ℚ} {document : Document} {es : List Event}

/-! ### What throws -/

/-- An entry screen takes an answer exactly if the document maps. -/
theorem answer_eq_none_iff (e : EntryScreen) (d : Document) :
    e.answer d = none ↔ toObject d = none := by
  unfold EntryScreen.answer
  rw [Option.map_eq_none_iff]

/-- So do the listeners of the macros screen. -/
theorem texts_eq_none_iff (getter : Getter) (d : Document) :
    getter.texts d = none ↔ toObject d = none := by
  cases getter with
  | getDataInitially =>
      unfold Getter.texts MacrosFragment.getDataInitially
      rw [Option.map_eq_none_iff]
  | getData =>
      unfold Getter.texts MacrosFragment.getData
      rw [Option.map_eq_none_iff, Option.map_eq_none_iff]

/-- An event of the macros screen throws exactly if the document that it brings does not map. -/
theorem complete_eq_none_iff (screen : MacrosScreen) (request : Request) (d : Document) :
    screen.step (.complete request (.success (some d))) = none ↔ toObject d = none := by
  show screen.complete request (.success (some d)) = none ↔ _
  rw [MacrosScreen.complete_of_data rfl, Option.map_eq_none_iff]
  exact texts_eq_none_iff request.getter d

/-- The listener of an entry screen that was left also needs a list that is not empty. -/
theorem lateAnswer_eq_false_iff (t : DataTypes) (d : Document) :
    lateAnswer t d = false ↔ toObject d = none ∨ ∃ data, toObject d = some data ∧
      data.list t.field = some [] := by
  unfold lateAnswer
  rcases toObject d with _ | data <;> simp

/-- A Save throws exactly if its text is no number. -/
theorem label_eq_none_iff (s : Save) : s.label toDouble = none ↔ toDouble s.2 = none := by
  unfold Save.label
  rw [Option.map_eq_none_iff]

/-- The client that handles an event. -/
def Event.client? : Event → Option ℕ
  | .openEntry client _ | .leaveEntry client | .save client _ | .entrySuccess client _
  | .entryFailure client | .lateSuccess client _ _ | .lateFailure client _
  | .onCreateView client _ | .refresh client | .success client _ _ | .failure client _ =>
      some client
  | .apply _ | .refuse _ => none

/-- An event that throws ends the process of its client: the client starts again. -/
theorem start_of_throws {s : Network} {e : Event} (h : Throws toDouble s e) :
    ∃ client ∈ e.client?, (s.handle toDouble e).clients client = .start := by
  cases e with
  | save client entry =>
      obtain ⟨hopen, hlabel⟩ := h
      obtain ⟨e, he⟩ := Option.isSome_iff_exists.mp hopen
      refine ⟨client, rfl, ?_⟩
      simp only [handle, he, hlabel, Option.map_none, setEntry, setClient_clients_self]
  | entrySuccess client version =>
      obtain ⟨e, he, d, hd, hanswer⟩ := h
      rw [Option.mem_def] at he hd
      refine ⟨client, rfl, ?_⟩
      simp only [handle, he, hd, hanswer, setEntry, setClient_clients_self]
  | success client request version =>
      obtain ⟨d, hd, hstep⟩ := h
      rw [Option.mem_def] at hd
      refine ⟨client, rfl, ?_⟩
      have hmacros : ((s.send client (request.getter.update d)).clients client).macros.step
          (.complete request (.success (some d))) = none := hstep
      simp only [handle, hd, handleMacros, hmacros, setClient_clients_self]
  | lateSuccess client t version =>
      obtain ⟨d, hd, hlate⟩ := h
      rw [Option.mem_def] at hd
      refine ⟨client, rfl, ?_⟩
      simp [handle, hd, hlate]
  | openEntry | leaveEntry | entryFailure | lateFailure | onCreateView | refresh | failure | apply
  | refuse => exact h.elim

/-! ### Saves in range -/

variable (toDouble es) in
/-- Every Save of a run is a number that a `Long` holds. -/
def SavesInRange : Prop := ∀ client s, .save client s ∈ es → InLongRange toDouble s

/-- Every document that can come about has the shape. -/
theorem shaped_of_possible (hshaped : Shaped document) {d : Document}
    (hd : Possible toDouble document es d) : Shaped d := by
  induction hd with
  | start => exact hshaped
  | save hmem hvalue hd ih => exact ih.union _ _
  | refresh hd' hmacros hd ih ih' =>
      obtain ⟨data, -, hcalc⟩ := Option.bind_eq_some_iff.mp hmacros
      obtain ⟨energy, rfl⟩ := exists_shares hcalc
      exact Shaped.writeData (by assumption) energy

/-- **Every document that can come about maps**, where the first one does and every Save is in
range. -/
theorem maps_of_possible (hdocument : ∃ data, toObject document = some data)
    (hsaves : SavesInRange toDouble es) {d : Document} (hd : Possible toDouble document es d) :
    ∃ data, toObject d = some data := by
  obtain ⟨hshaped, hnumbers⟩ := (exists_toObject_iff document).mp hdocument
  refine (exists_toObject_iff d).mpr ⟨shaped_of_possible hshaped hd, fun f q hq => ?_⟩
  obtain ⟨added, hadded, hentered⟩ := entries_of_possible hd f
  rw [hadded, List.mem_append] at hq
  rcases hq with hq | hq
  · exact hnumbers f q hq
  · obtain ⟨client, s, hmem, -, hvalue⟩ := hentered q hq
    obtain ⟨value, n, hvalue', hn⟩ := hsaves client s hmem
    rw [hvalue, Option.some_inj] at hvalue'
    exact ⟨n, by rw [hvalue', hn]⟩

variable (document) in
/-- No list field is an empty array. -/
def NoEmptyList : Prop := ∀ f : ListField, document f.id ≠ some (.array [])

/-- **No list becomes empty.** -/
theorem noEmptyList_of_possible (h : NoEmptyList document) {d : Document}
    (hd : Possible toDouble document es d) : NoEmptyList d := by
  induction hd with
  | start => exact h
  | @save d client s value hmem hvalue hd ih =>
      intro f
      by_cases hf : f.id = s.1.field.id
      · rw [hf, d.union_self]
        rcases d s.1.field.id with _ | (q | elements | elements | _)
        all_goals simp [arrayUnion, appendNew_ne_nil]
      · rw [d.union_of_ne _ value hf]
        exact ih f
  | refresh hd' hmacros hd ih ih' =>
      intro f
      rw [writeData_list]
      apply_assumption

/-- A list that maps to an empty one is empty. -/
theorem list_ne_nil {d : Document} (h : NoEmptyList d) {data : NutritionData}
    (hdata : toObject d = some data) (f : ListField) : data.list f ≠ some [] := by
  intro hnil
  have hlist := (toObject_eq_some_iff.mp hdata).1 f
  rcases toLongs_cases hlist with ⟨-, hnone⟩ | ⟨elements, xs, harray, hxs, hsome⟩
  · rw [hnone] at hnil
    simp at hnil
  · rw [hsome, Option.some_inj] at hnil
    subst hnil
    cases elements with
    | nil => exact h f harray
    | cons q elements =>
        rw [List.mapM_cons] at hxs
        obtain ⟨n, -, hxs⟩ := Option.bind_eq_some_iff.mp hxs
        obtain ⟨ns, -, hxs⟩ := Option.bind_eq_some_iff.mp hxs
        simp at hxs

/-- What is read in a state of the invariant maps. -/
theorem maps_of_view (hdocument : ∃ data, toObject document = some data)
    (hsaves : SavesInRange toDouble es) {s : Network} (hs : Sourced toDouble document es s)
    {client version : ℕ} {d : Document} (hd : d ∈ s.backend.view Update.apply client version) :
    toObject d ≠ none := by
  have hpossible := Backend.sourced_view possible_apply hs.backend hd
  obtain ⟨data, hdata⟩ := maps_of_possible hdocument hsaves hpossible
  simp [hdata]

/-- No event of such a run throws, where no list is empty at the beginning. -/
theorem not_throws (hdocument : ∃ data, toObject document = some data)
    (hsaves : SavesInRange toDouble es) (hlists : NoEmptyList document) {s : Network}
    (hs : Sourced toDouble document es s) {e : Event} (hmem : e ∈ es) : ¬ Throws toDouble s e := by
  cases e with
  | save client entry =>
      rintro ⟨-, hlabel⟩
      obtain ⟨value, -, hvalue, -⟩ := hsaves client entry hmem
      rw [label_eq_none_iff, hvalue] at hlabel
      simp at hlabel
  | entrySuccess client version =>
      rintro ⟨e, -, d, hd, hanswer⟩
      exact maps_of_view hdocument hsaves hs hd ((answer_eq_none_iff e d).mp hanswer)
  | success client request version =>
      rintro ⟨d, hd, hstep⟩
      exact maps_of_view hdocument hsaves hs hd ((complete_eq_none_iff _ request d).mp hstep)
  | lateSuccess client t version =>
      rintro ⟨d, hd, hlate⟩
      rcases (lateAnswer_eq_false_iff t d).mp hlate with hnone | ⟨data, hdata, hnil⟩
      · exact maps_of_view hdocument hsaves hs hd hnone
      · have hpossible := Backend.sourced_view possible_apply hs.backend hd
        exact list_ne_nil (noEmptyList_of_possible hlists hpossible) hdata t.field hnil
  | openEntry | leaveEntry | entryFailure | lateFailure | onCreateView | refresh | failure | apply
  | refuse => exact id

/-! ### A Save out of range -/

/-- A Save on an entry screen just opened. -/
def openSave (s : Save) : List Event := [.openEntry 0 s.1, .save 0 s]

/-- The macros screen of the same client is opened and answered with the first document, on which
the client's Save is made already. -/
def openMacros : List Event := [.onCreateView 0 0, .success 0 ⟨0, 0, .getDataInitially⟩ 0]

/-- A Save on a screen just opened is offered. -/
theorem legal_openSave (s : Save) : (machine toDouble).Legal (start document) (openSave s) := by
  refine ⟨trivial, fun s' hs' => ⟨?_, fun _ _ => trivial⟩⟩
  obtain rfl := Option.some_inj.mp hs'
  exact ⟨⟨s.1, none, true⟩, by simp [handle], rfl⟩

/-- A text that is no number throws. -/
theorem toDouble_of_openSave {s : Save}
    (h : (machine toDouble).Each (fun s e => ¬ Throws toDouble s e) (start document) (openSave s)) :
    ∃ value, toDouble s.2 = some value := by
  by_contra hno
  refine (h.2 _ rfl).1 ⟨by simp [handle], ?_⟩
  rw [label_eq_none_iff, Option.eq_none_iff_forall_ne_some]
  exact fun value hvalue => hno ⟨value, hvalue⟩

variable (document) in
/-- After the Save of a number the client reads it in the first document. -/
theorem run_openSave {s : Save} {value : ℚ} (hvalue : toDouble s.2 = some value) :
    ∃ s', (machine toDouble).run (start document) (openSave s) = some s' ∧
      (s'.clients 0).macros = .start ∧
      s'.backend.view Update.apply 0 0 = some (document.union s.1.field value) := by
  have hlabel : s.label toDouble =
      some (if s.1 = .activityLevel then .shownDouble value else .shownLong (toInt value)) := by
    rw [Save.label, hvalue, Option.map_some]
  have hupdate : s.update toDouble = some (.union s.1.field value) := by
    rw [Save.update, hvalue, Option.map_some]
  refine ⟨_, rfl, ?_, ?_⟩
  · simp [handle, setEntry, hlabel, start, Client.start, Client.leave, setClient, send]
  · simp [handle, setEntry, hupdate, start, setClient, send, Backend.view, Backend.send?,
      Backend.send, Backend.versions, Backend.own, Backend.start, Update.apply]

variable {s : Network}

/-- The first macros screen of a client. -/
theorem macros_onCreateView (hmacros : (s.clients 0).macros = .start) :
    ((s.handle toDouble (.onCreateView 0 0)).clients 0).macros =
      MacrosScreen.start.load 0 .getDataInitially := by
  simp [handle, handleMacros, MacrosScreen.step, hmacros]

/-- Its get may be answered with the first document. -/
theorem legal_openMacros (hmacros : (s.clients 0).macros = .start) :
    (machine toDouble).Legal s openMacros := by
  refine ⟨trivial, fun s' hs' => ⟨?_, fun _ _ => trivial⟩⟩
  obtain rfl := Option.some_inj.mp hs'
  refine ⟨?_, Nat.succ_pos _⟩
  rw [macros_onCreateView hmacros]
  exact List.mem_cons_self

/-- A document that does not map throws. -/
theorem maps_of_openMacros {d : Document} (hd : s.backend.view Update.apply 0 0 = some d)
    (h : (machine toDouble).Each (fun s e => ¬ Throws toDouble s e) s openMacros) :
    ∃ data, toObject d = some data := by
  have hmaps : toObject d ≠ none := fun hnone =>
    (h.2 _ rfl).1 ⟨d, hd, (complete_eq_none_iff _ _ d).mpr hnone⟩
  exact Option.ne_none_iff_exists'.mp hmaps

/-! ### A list that is empty -/

/-- An entry screen is left before its get is answered. -/
def openAndLeave (t : DataTypes) : List Event :=
  [.openEntry 0 t, .leaveEntry 0, .lateSuccess 0 t 0]

variable (toDouble document) in
/-- Such a run is offered. -/
theorem legal_openAndLeave (t : DataTypes) :
    (machine toDouble).Legal (start document) (openAndLeave t) := by
  refine ⟨trivial, fun s₁ h₁ => ⟨trivial, fun s₂ h₂ => ⟨?_, fun _ _ => trivial⟩⟩⟩
  obtain rfl := Option.some_inj.mp h₁
  obtain rfl := Option.some_inj.mp h₂
  exact ⟨by simp [handle, Client.leave], Nat.succ_pos _⟩

/-- A list that is empty throws then. -/
theorem list_ne_nil_of_openAndLeave {t : DataTypes} {data : NutritionData}
    (hdata : toObject document = some data)
    (h : (machine toDouble).Each (fun s e => ¬ Throws toDouble s e) (start document)
      (openAndLeave t)) : data.list t.field ≠ some [] := by
  intro hnil
  have hview : ((start document).handle toDouble (.openEntry 0 t) |>.handle toDouble
      (.leaveEntry 0)).backend.view Update.apply 0 0 = some document := by
    simp [handle, start, setClient, Backend.view, Backend.versions, Backend.own, Backend.start]
  refine ((h.2 _ rfl).2 _ rfl).1 ⟨document, hview, ?_⟩
  exact (lateAnswer_eq_false_iff t document).mpr (Or.inr ⟨data, hdata, hnil⟩)

/-- Every list field is that of a data type. -/
theorem exists_dataType (f : ListField) : ∃ t : DataTypes, t.field = f := by
  cases f
  · exact ⟨.activityLevel, rfl⟩
  · exact ⟨.birthday, rfl⟩
  · exact ⟨.bodyFatPercentage, rfl⟩
  · exact ⟨.chestSize, rfl⟩
  · exact ⟨.height, rfl⟩
  · exact ⟨.waistSize, rfl⟩
  · exact ⟨.weight, rfl⟩

variable (toDouble document)

/-- **When no process ever ends.** For every document that maps and every condition on Saves: along
every run of any number of clients all of whose Saves meet the condition, with the updates arriving
in any order or never, no event throws, iff every Save that meets the condition is a number that a
`Long` holds, and no list field of the document is an empty array. -/
theorem runs_never_throw_iff (hdocument : ∃ data, toObject document = some data)
    (allowed : Save → Prop) :
    (∀ es, (machine toDouble).Legal (start document) es →
        (∀ client s, .save client s ∈ es → allowed s) →
        (machine toDouble).Each (fun s e => ¬ Throws toDouble s e) (start document) es) ↔
      (∀ s, allowed s → InLongRange toDouble s) ∧ NoEmptyList document := by
  constructor
  · intro h
    refine ⟨fun s hs => ?_, fun f hempty => ?_⟩
    · have hopen := h (openSave s) (legal_openSave s) (by simp [openSave, hs])
      obtain ⟨value, hvalue⟩ := toDouble_of_openSave hopen
      obtain ⟨s', hrun, hmacros, hview⟩ := run_openSave document hvalue
      have hlegal : (machine toDouble).Legal (start document) (openSave s ++ openMacros) := by
        refine (Machine.each_append _ _ _ _ _).mpr ⟨legal_openSave s, fun s'' hs'' => ?_⟩
        obtain rfl := Option.some_inj.mp (hrun.symm.trans hs'')
        exact legal_openMacros hmacros
      have hshow := h (openSave s ++ openMacros) hlegal (by simp [openSave, openMacros, hs])
      have hafter := ((Machine.each_append _ _ _ _ _).mp hshow).2 s' hrun
      obtain ⟨data, hdata⟩ := maps_of_openMacros hview hafter
      obtain ⟨n, hn⟩ := toLong_of_toObject_union hdata
      exact ⟨value, n, hvalue, hn⟩
    · obtain ⟨t, rfl⟩ := exists_dataType f
      obtain ⟨data, hdata⟩ := hdocument
      have hnil : data.list t.field = some [] := by
        have hlist := (toObject_eq_some_iff.mp hdata).1 t.field
        rw [hempty] at hlist
        exact (Option.some_inj.mp hlist).symm
      have hleave := h _ (legal_openAndLeave toDouble document t) (by simp [openAndLeave])
      exact list_ne_nil_of_openAndLeave hdata hleave hnil
  · rintro ⟨h, hlists⟩ es hlegal hallowed
    have hsaves : SavesInRange toDouble es := fun client s hmem => h s (hallowed client s hmem)
    have hsteps : (machine toDouble).Each (fun s e => s.Offers e ∧ e ∈ es) (start document) es :=
      hlegal.and_forall fun _ => id
    have hstart : Sourced toDouble document es (start document) := sourced_start
    refine Machine.each_of_invariant ?_ ?_ hstart hsteps
    · intro s e s' hs hen hstep
      obtain rfl := Option.some_inj.mp hstep
      exact sourced_step hs hen.1 hen.2
    · intro s e hs hen
      exact not_throws hdocument hsaves hlists hs hen.2

/-- A bound on the length alone: it admits the empty text, which throws. -/
theorem runs_never_throw_iff_short :
    (∀ es, (machine decimal).Legal (start filledDocument) es →
        (∀ client s, .save client s ∈ es → s.2.length ≤ 3) →
        (machine decimal).Each (fun s e => ¬ Throws decimal s e) (start filledDocument) es) ↔
      (∀ s : Save, s.2.length ≤ 3 → InLongRange decimal s) ∧ NoEmptyList filledDocument :=
  runs_never_throw_iff decimal filledDocument ⟨_, rfl⟩ fun s => s.2.length ≤ 3

end Network

end AdvMad.MTrackerAndroid
