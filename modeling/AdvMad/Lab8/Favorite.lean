import AdvMad.Lab8.Dogs

/-!
# Lab 8: the favourite dog is the last one saved and not deleted

`History` reads a sequence of events without looking at the document: the last write that had an
effect, and whether the favourite screen shows a dog. The app follows it (`follows_step`): the
document holds what that write wrote, and the flag `noData` of the screen says whether a dog is
shown. The one thing a history does not foresee is a save whose digits do not fit an `Int`, which
throws.

* `favorite_is_last_saved_iff` — over every sequence of events from a document without a dog: no
  event throws and every opening shows the last write, exactly when the digits of every save with
  both fields filled denote a number below `2 ^ 31`.
* `save_throws` — ten digits are enough to throw.
-/

namespace AdvMad.Lab8

open AdvMad.Found

/-- A write that had an effect: a save with both fields filled, or a delete of a dog shown. -/
inductive Write
  | save (dogType fluffiness : String)
  | delete
deriving DecidableEq, Repr

/-- The last write of a history that had an effect, and whether the favourite screen shows a dog. -/
structure History where
  last : Option Write
  shown : Bool
deriving DecidableEq, Repr

/-- The last write left a dog. -/
def Write.isSave : Write → Bool
  | .save _ _ => true
  | .delete => false

/-- A save counts if both fields are filled, a delete if a dog is shown; an opening shows the dog
the last write left. -/
def History.after (h : History) : Event → History
  | .save dogType fluffiness =>
      if dogType = "" ∨ fluffiness = "" then h
      else { h with last := some (.save dogType fluffiness) }
  | .openFavorite => { h with shown := h.last.any Write.isSave }
  | .delete => if h.shown then ⟨some .delete, false⟩ else h

/-- The last write of a sequence of events that had an effect. -/
def lastWrite (events : List Event) : Option Write :=
  (events.foldl History.after ⟨none, false⟩).last

/-- A document that maps and has no dog, whichever of the two fields says so. -/
def HoldsNoDog (document : Document) : Prop :=
  ∃ data ∈ toObject document, data.DogType.getD "" = "" ∨ data.Fluffiness.getD (-1) = -1

instance (document : Document) : Decidable (HoldsNoDog document) :=
  inferInstanceAs (Decidable (∃ data ∈ toObject document, _ ∨ _))

/-- What a last write leaves in the document. -/
def Stored : Option Write → Document → Prop
  | none, document => HoldsNoDog document
  | some (.save dogType fluffiness), document => dogType ≠ "" ∧
      ∃ n : ℕ, natOf fluffiness.toList = some n ∧ n < 2 ^ 31 ∧
        document = ⟨.value dogType, .value n⟩
  | some .delete, document => document = ⟨.value "", .value (-1)⟩

/-- The favourite screen shows this dog. -/
def Shows (a : App) (dogType : String) (fluffiness : ℕ) : Prop :=
  ∃ f, a.favorite = some f ∧ f.favDogType = "Favorite Dog Type: " ++ dogType ∧
    f.favDogFluffiness = "Favorite Dog Fluffiness: " ++ toString fluffiness

/-- The favourite screen shows that there is no dog. -/
def ShowsNoDog (a : App) : Prop :=
  ∃ f, a.favorite = some f ∧ f.favDogType = "No Dog Entered" ∧
    f.favDogFluffiness = "No Dog Entered"

/-- The favourite screen shows what the last write left: a dog exactly when that is a save of its
type and of digits that denote its fluffiness, otherwise no dog. -/
def ShowsLastWrite (last : Option Write) (a : App) : Prop :=
  (∀ dogType n, Shows a dogType n ↔
      ∃ fluffiness, last = some (.save dogType fluffiness) ∧ natOf fluffiness.toList = some n) ∧
    ((∀ dogType fluffiness, last ≠ some (.save dogType fluffiness)) → ShowsNoDog a)

/-! ### The texts of the screen -/

/-- A number is read off its digits. -/
theorem toString_injective {m n : ℕ} (h : toString m = toString n) : m = n := by
  have hdigits : Nat.toDigits 10 m = Nat.toDigits 10 n := by
    have hlist := congrArg String.toList h
    simpa [Nat.toString_eq_repr, Nat.toList_repr] using hlist
  have hvalue := congrArg (fun cs => Nat.ofDigitChars 10 cs 0) hdigits
  simpa using hvalue

/-- The text behind a label is read off the line. -/
theorem append_left_cancel {label t u : String} (h : label ++ t = label ++ u) : t = u := by
  have hlist := congrArg String.toList h
  simp only [String.toList_append, List.append_cancel_left_eq] at hlist
  exact String.toList_injective hlist

/-- A dog's line is not the line that says there is none. -/
theorem noDog_ne_dogType (dogType : String) :
    "No Dog Entered" ≠ "Favorite Dog Type: " ++ dogType := by
  intro h
  have hhead := congrArg (fun s => s.toList.head?) h
  simp at hhead

/-- The screen shows at most one dog. -/
theorem shows_iff_of_texts {a : App} {f : FavoriteFragment} (hf : a.favorite = some f)
    {dogType : String} {n : ℕ} (htype : f.favDogType = "Favorite Dog Type: " ++ dogType)
    (hfluff : f.favDogFluffiness = "Favorite Dog Fluffiness: " ++ toString n) (t : String) (m : ℕ) :
    Shows a t m ↔ t = dogType ∧ m = n := by
  constructor
  · rintro ⟨g, hg, ht, hm⟩
    obtain rfl : f = g := Option.some_inj.mp (hf.symm.trans hg)
    rw [htype] at ht
    rw [hfluff] at hm
    exact ⟨(append_left_cancel ht).symm, (toString_injective (append_left_cancel hm)).symm⟩
  · rintro ⟨rfl, rfl⟩
    exact ⟨f, hf, htype, hfluff⟩

/-! ### What an opening shows -/

/-- The screen over the document a save left. -/
theorem getData_of_save (f : FavoriteFragment) {dogType : String} (hne : dogType ≠ "") {n : ℕ}
    (hfits : n < 2 ^ 31) :
    f.getData ⟨.value dogType, .value (n : ℤ)⟩ = some
      ⟨false, "Favorite Dog Fluffiness: " ++ toString n, "Favorite Dog Type: " ++ dogType⟩ := by
  have hdog : ¬ (dogType.length = 0 ∨ (n : ℤ) = -1) := by
    rintro (hlen | hmark)
    · exact hne (String.length_eq_zero_iff.mp hlen)
    · omega
  have hmaps : toObject ⟨.value dogType, .value (n : ℤ)⟩ = some ⟨some dogType, some (n : ℤ)⟩ := by
    apply if_pos
    rintro m ⟨⟩
    constructor <;> omega
  have htext : toString (n : ℤ) = toString n := rfl
  unfold FavoriteFragment.getData
  rw [hmaps, Option.map_some]
  simp only [FavoriteFragment.setData, Option.getD_some, if_neg hdog, htext]

/-- The screen over a document without a dog. -/
theorem getData_of_holdsNoDog (f : FavoriteFragment) {document : Document}
    (h : HoldsNoDog document) : f.getData document = some FavoriteFragment.setNoData := by
  obtain ⟨data, hdata, hnone⟩ := h
  have hmaps : toObject document = some data := hdata
  have hmark : (data.DogType.getD "").length = 0 ∨ data.Fluffiness.getD (-1) = -1 :=
    hnone.imp_left fun htype => by rw [htype]; rfl
  unfold FavoriteFragment.getData
  rw [hmaps, Option.map_some]
  simp only [FavoriteFragment.setData, if_pos hmark]

/-- The screen over what a last write left: the dog of a save, and otherwise none. -/
theorem getData_of_stored (f : FavoriteFragment) {last : Option Write} {document : Document}
    (hs : Stored last document) :
    (∃ dogType fluffiness n, last = some (.save dogType fluffiness) ∧
        natOf fluffiness.toList = some n ∧ f.getData document = some
          ⟨false, "Favorite Dog Fluffiness: " ++ toString n, "Favorite Dog Type: " ++ dogType⟩) ∨
      (last.any Write.isSave = false ∧ f.getData document = some FavoriteFragment.setNoData) := by
  rcases last with _ | ⟨dogType, fluffiness⟩ | _
  · have hnone : HoldsNoDog document := hs
    exact Or.inr ⟨rfl, getData_of_holdsNoDog f hnone⟩
  · obtain ⟨hne, n, hn, hfits, rfl⟩ := hs
    exact Or.inl ⟨dogType, fluffiness, n, rfl, hn, getData_of_save f hne hfits⟩
  · obtain rfl : document = ⟨.value "", .value (-1)⟩ := hs
    exact Or.inr ⟨rfl, getData_of_holdsNoDog f (by decide)⟩

/-- An opening shows what the last write left. -/
theorem showsLastWrite_of_open {last : Option Write} {a a' : App} (hs : Stored last a.document)
    (hopen : a.step .openFavorite = some a') : ShowsLastWrite last a' := by
  obtain ⟨f, hf, rfl⟩ := Option.map_eq_some_iff.mp hopen
  rcases getData_of_stored FavoriteFragment.onCreateView hs with
    ⟨dogType, fluffiness, n, rfl, hn, hset⟩ | ⟨hnosave, hset⟩
  · obtain rfl := Option.some_inj.mp (hf.symm.trans hset)
    constructor
    · intro t m
      rw [shows_iff_of_texts rfl rfl rfl]
      constructor
      · rintro ⟨rfl, rfl⟩
        exact ⟨fluffiness, rfl, hn⟩
      · rintro ⟨g, hg, hm⟩
        cases hg
        exact ⟨rfl, Option.some_inj.mp (hm.symm.trans hn)⟩
    · intro hnone
      exact absurd rfl (hnone dogType fluffiness)
  · obtain rfl := Option.some_inj.mp (hf.symm.trans hset)
    constructor
    · intro t m
      constructor
      · rintro ⟨g, hg, ht, -⟩
        cases hg
        exact absurd ht (noDog_ne_dogType t)
      · rintro ⟨g, rfl, -⟩
        simp [Write.isSave] at hnosave
    · intro _
      exact ⟨_, rfl, rfl, rfl⟩

/-! ### The app follows the history -/

/-- The document holds what the last write left, and the favourite screen's flag is down exactly
when it shows a dog. -/
structure Follows (a : App) (h : History) : Prop where
  stored : Stored h.last a.document
  shown : h.shown = true ↔ ∃ f, a.favorite = some f ∧ f.noData = false

/-- A save that does not throw. -/
theorem follows_save {a a' : App} {h : History} (hs : Follows a h) {dogType fluffiness : String}
    (hdigits : Digits fluffiness.toList)
    (hstep : a.step (.save dogType fluffiness) = some a') :
    Follows a' (h.after (.save dogType fluffiness)) := by
  unfold App.step at hstep
  rw [Option.map_eq_some_iff] at hstep
  obtain ⟨document, hsend, rfl⟩ := hstep
  by_cases hempty : dogType = "" ∨ fluffiness = ""
  · have hafter : h.after (.save dogType fluffiness) = h := if_pos hempty
    rw [AddDataFragment.sendData_of_empty hempty, Option.some_inj] at hsend
    rw [hafter, ← hsend]
    exact hs
  · obtain ⟨htype, hfluff⟩ := not_or.mp hempty
    obtain ⟨n, hn⟩ := natOf_of_digits hdigits
    rw [AddDataFragment.sendData_of_filled htype hfluff hdigits hn] at hsend
    by_cases hfits : n < 2 ^ 31
    · have hafter : h.after (.save dogType fluffiness) =
          { h with last := some (.save dogType fluffiness) } := if_neg hempty
      rw [if_pos hfits, Option.some_inj] at hsend
      rw [hafter]
      exact ⟨⟨htype, n, hn, hfits, hsend.symm⟩, hs.shown⟩
    · rw [if_neg hfits] at hsend
      simp at hsend

/-- An opening shows a dog exactly when the last write left one. -/
theorem follows_open {a a' : App} {h : History} (hs : Follows a h)
    (hstep : a.step .openFavorite = some a') : Follows a' (h.after .openFavorite) := by
  obtain ⟨f, hf, rfl⟩ := Option.map_eq_some_iff.mp hstep
  refine ⟨hs.stored, ?_⟩
  change h.last.any Write.isSave = true ↔ _
  rcases getData_of_stored FavoriteFragment.onCreateView hs.stored with
    ⟨dogType, fluffiness, n, hlast, -, hset⟩ | ⟨hnosave, hset⟩
  · obtain rfl := Option.some_inj.mp (hf.symm.trans hset)
    rw [hlast]
    exact iff_of_true rfl ⟨_, rfl, rfl⟩
  · obtain rfl := Option.some_inj.mp (hf.symm.trans hset)
    rw [hnosave]
    apply iff_of_false Bool.false_ne_true
    rintro ⟨g, hg, hflag⟩
    cases hg
    cases hflag

/-- With the flag up on every screen open, no dog is shown. -/
theorem Follows.not_shown {a : App} {h : History} (hs : Follows a h)
    (hup : ∀ f, a.favorite = some f → f.noData = true) : ¬ h.shown = true := by
  intro hshown
  obtain ⟨f, hf, hdown⟩ := hs.shown.mp hshown
  rw [hup f hf] at hdown
  simp at hdown

/-- A delete writes the marker exactly when a dog is shown. -/
theorem follows_delete {a a' : App} {h : History} (hs : Follows a h)
    (hstep : a.step .delete = some a') : Follows a' (h.after .delete) := by
  unfold App.step at hstep
  unfold History.after
  rcases hf : a.favorite with _ | f
  · have hshown := hs.not_shown (by simp [hf])
    rw [hf] at hstep
    obtain rfl := Option.some_inj.mp hstep
    rw [if_neg hshown]
    exact hs
  · rw [hf] at hstep
    obtain rfl := Option.some_inj.mp hstep
    by_cases hflag : f.noData = true
    · have hshown := hs.not_shown (by simp [hf, hflag])
      simp only [FavoriteFragment.delete, if_pos hflag, if_neg hshown]
      rw [← hf]
      exact hs
    · have hshown : h.shown = true := hs.shown.mpr ⟨f, hf, by simpa using hflag⟩
      simp only [FavoriteFragment.delete, if_neg hflag, if_pos hshown]
      refine ⟨rfl, iff_of_false Bool.false_ne_true ?_⟩
      rintro ⟨g, hg, hdown⟩
      cases hg
      cases hdown

/-- **One event that does not throw**: the app follows the history. -/
theorem follows_step {a a' : App} {h : History} {e : Event} (hs : Follows a h) (ho : a.Offers e)
    (hstep : a.step e = some a') : Follows a' (h.after e) := by
  cases e with
  | save dogType fluffiness => exact follows_save hs ho hstep
  | openFavorite => exact follows_open hs hstep
  | delete => exact follows_delete hs hstep

/-! ### Whole sequences -/

/-- A save with both fields filled has digits that denote a number below `2 ^ 31`. -/
def FitsInt : Event → Prop
  | .save dogType fluffiness => dogType ≠ "" → fluffiness ≠ "" →
      ∃ n, natOf fluffiness.toList = some n ∧ n < 2 ^ 31
  | _ => True

/-- A save does not throw exactly when it fits. -/
theorem sendData_ne_none_iff {dogType fluffiness : String} (hdigits : Digits fluffiness.toList)
    (document : Document) :
    (∃ d, AddDataFragment.sendData dogType fluffiness document = some d) ↔
      FitsInt (.save dogType fluffiness) := by
  obtain ⟨n, hn⟩ := natOf_of_digits hdigits
  unfold FitsInt
  by_cases hempty : dogType = "" ∨ fluffiness = ""
  · rw [AddDataFragment.sendData_of_empty hempty]
    exact iff_of_true ⟨_, rfl⟩ fun htype hfluff => absurd hempty (not_or.mpr ⟨htype, hfluff⟩)
  · obtain ⟨htype, hfluff⟩ := not_or.mp hempty
    rw [AddDataFragment.sendData_of_filled htype hfluff hdigits hn]
    by_cases hfits : n < 2 ^ 31
    · rw [if_pos hfits]
      exact iff_of_true ⟨_, rfl⟩ fun _ _ => ⟨n, hn, hfits⟩
    · rw [if_neg hfits]
      apply iff_of_false (by simp)
      intro hall
      obtain ⟨m, hm, hlt⟩ := hall htype hfluff
      rw [hn, Option.some_inj] at hm
      omega

/-- A save that goes through fits. -/
theorem fitsInt_of_step {a a' : App} {e : Event} (ho : a.Offers e) (hstep : a.step e = some a') :
    FitsInt e := by
  cases e with
  | save dogType fluffiness =>
      obtain ⟨d, hd, -⟩ := Option.map_eq_some_iff.mp hstep
      exact (sendData_ne_none_iff ho a.document).mp ⟨d, hd⟩
  | openFavorite => trivial
  | delete => trivial

/-- An app that follows a history does not throw on what fits: whatever the last write left, the
document maps. -/
theorem step_some_of_fitsInt {a : App} {h : History} (hs : Follows a h) {e : Event}
    (ho : a.Offers e) (hfits : FitsInt e) : ∃ a', a.step e = some a' := by
  cases e with
  | save dogType fluffiness =>
      obtain ⟨d, hd⟩ := (sendData_ne_none_iff ho a.document).mpr hfits
      exact ⟨_, Option.map_eq_some_iff.mpr ⟨d, hd, rfl⟩⟩
  | openFavorite =>
      rcases getData_of_stored FavoriteFragment.onCreateView hs.stored with
        ⟨_, _, _, -, -, hset⟩ | ⟨-, hset⟩
      · exact ⟨_, Option.map_eq_some_iff.mpr ⟨_, hset, rfl⟩⟩
      · exact ⟨_, Option.map_eq_some_iff.mpr ⟨_, hset, rfl⟩⟩
  | delete =>
      have hopen : a.favorite.isSome = true := ho
      obtain ⟨f, hf⟩ := Option.isSome_iff_exists.mp hopen
      refine ⟨⟨(f.delete a.document).2, some (f.delete a.document).1⟩, ?_⟩
      simp only [App.step, hf]

/-- What fits, read off the saves of a sequence. -/
theorem forall_fitsInt_iff (events : List Event) :
    (∀ e ∈ events, FitsInt e) ↔
      ∀ dogType fluffiness, .save dogType fluffiness ∈ events → dogType ≠ "" → fluffiness ≠ "" →
        ∃ n, natOf fluffiness.toList = some n ∧ n < 2 ^ 31 := by
  constructor
  · intro hfits dogType fluffiness hmem
    exact hfits _ hmem
  · intro hall e he
    cases e with
    | save dogType fluffiness => exact hall dogType fluffiness he
    | openFavorite => trivial
    | delete => trivial

/-- A sequence of events goes through exactly when all of them fit. -/
theorem run_iff_fitsInt {a : App} {h : History} (hs : Follows a h) {events : List Event}
    (hlegal : App.machine.Legal a events) :
    (∃ a', App.machine.run a events = some a') ↔ ∀ e ∈ events, FitsInt e := by
  constructor
  · rintro ⟨a', hrun⟩
    exact Machine.forall_of_run (fun a e a' ho hstep => fitsInt_of_step ho hstep) hlegal hrun
  · intro hfits
    have hsteps := (App.machine.each_and _ _ _ _).mpr
      ⟨hlegal, Machine.each_of_forall (M := App.machine) a hfits⟩
    have hstep : ∀ a e, (∃ h, Follows a h) → a.Offers e ∧ FitsInt e →
        ∃ a', a.step e = some a' ∧ ∃ h, Follows a' h := by
      rintro a e ⟨h, hs⟩ ⟨ho, hfits⟩
      obtain ⟨a', hstep⟩ := step_some_of_fitsInt hs ho hfits
      exact ⟨a', hstep, _, follows_step hs ho hstep⟩
    obtain ⟨a', hrun, -⟩ := Machine.run_progress hstep ⟨h, hs⟩ hsteps
    exact ⟨a', hrun⟩

/-- At the start, from a document without a dog, there is no write yet and nothing shown. -/
theorem follows_start {document : Document} (hnone : HoldsNoDog document) :
    Follows ⟨document, none⟩ ⟨none, false⟩ := by
  refine ⟨hnone, iff_of_false Bool.false_ne_true ?_⟩
  rintro ⟨f, hf, -⟩
  simp at hf

/-- **An opening after a whole sequence** shows its last write. -/
theorem showsLastWrite_of_run {document : Document} (hnone : HoldsNoDog document)
    {before : List Event} {a : App} (hlegal : App.machine.Legal ⟨document, none⟩ before)
    (hrun : App.machine.run ⟨document, none⟩ (before ++ [.openFavorite]) = some a) :
    ShowsLastWrite (lastWrite before) a := by
  rw [Machine.run_append, Option.bind_eq_some_iff] at hrun
  obtain ⟨a₁, hrun₁, hopen⟩ := hrun
  have hfollows := Machine.run_foldl (R := Follows) History.after
    (fun _ _ _ _ hs ho hstep => follows_step hs ho hstep) (follows_start hnone) hlegal hrun₁
  have hstep : App.machine.step a₁ .openFavorite = some a := by simpa using hopen
  exact showsLastWrite_of_open hfollows.stored hstep

/-- **The favourite dog is the last one saved and not deleted, as long as every save fits an
`Int`.** From a document that maps and has no dog, over every sequence of the events the two screens
offer: no event throws and every opening shows the last write that had an effect, iff every save
with both fields filled has digits that denote a number below `2 ^ 31`. -/
theorem favorite_is_last_saved_iff (document : Document) (hnone : HoldsNoDog document)
    (events : List Event) (hlegal : App.machine.Legal ⟨document, none⟩ events) :
    ((∃ a', App.machine.run ⟨document, none⟩ events = some a') ∧
        ∀ before, before ++ [.openFavorite] <+: events →
          ∀ a', App.machine.run ⟨document, none⟩ (before ++ [.openFavorite]) = some a' →
            ShowsLastWrite (lastWrite before) a') ↔
      ∀ dogType fluffiness, .save dogType fluffiness ∈ events → dogType ≠ "" → fluffiness ≠ "" →
        ∃ n, natOf fluffiness.toList = some n ∧ n < 2 ^ 31 := by
  rw [← forall_fitsInt_iff, ← run_iff_fitsInt (follows_start hnone) hlegal]
  constructor
  · exact fun h => h.1
  · intro hrun
    refine ⟨hrun, ?_⟩
    rintro before ⟨rest, hrest⟩ a' hrun'
    rw [← hrest, List.append_assoc] at hlegal
    exact showsLastWrite_of_run hnone ((App.machine.each_append _ _ _ _).mp hlegal).1 hrun'

/-- A document as the database console creates it, with neither field. -/
def freshDocument : Document := ⟨.absent, .absent⟩

/-- A dog saved, shown and deleted, and another one saved. -/
def savedAndDeleted : List Event :=
  [.save "Poodle" "7", .openFavorite, .delete, .openFavorite, .save "Pug" "0012", .openFavorite]

/-- That sequence, from such a document. -/
theorem favorite_is_last_saved_iff_deleted :
    ((∃ a', App.machine.run ⟨freshDocument, none⟩ savedAndDeleted = some a') ∧
        ∀ before, before ++ [.openFavorite] <+: savedAndDeleted →
          ∀ a', App.machine.run ⟨freshDocument, none⟩ (before ++ [.openFavorite]) = some a' →
            ShowsLastWrite (lastWrite before) a') ↔
      ∀ dogType fluffiness, .save dogType fluffiness ∈ savedAndDeleted → dogType ≠ "" →
        fluffiness ≠ "" → ∃ n, natOf fluffiness.toList = some n ∧ n < 2 ^ 31 :=
  favorite_is_last_saved_iff freshDocument (by decide) savedAndDeleted (by decide +kernel)

/-- Saving a dog of fluffiness `2 ^ 31` throws. -/
theorem save_throws :
    App.machine.Legal ⟨freshDocument, none⟩ [.save "Poodle" "2147483648"] ∧
      App.machine.run ⟨freshDocument, none⟩ [.save "Poodle" "2147483648"] = none := by
  constructor <;> decide +kernel

end AdvMad.Lab8
