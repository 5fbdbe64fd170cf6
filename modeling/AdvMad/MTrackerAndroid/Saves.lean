import AdvMad.MTrackerAndroid.Macros
import AdvMad.Found.Decimal

/-!
# From the entry screen to the calculation

What the getters of the macros screen return on a document the entry screens have saved to. A Save
is `arrayUnion`, which keeps a set; a getter takes the last element for the newest and converts it
on `Double`.

* `lastEntry_saveAll_iff` — for every list field: after any Saves, the getter returns the conversion
  of the value saved last exactly when that value was new to its list, or when what the list ended
  in has the same conversion.
* `Scaling.eq_iff` — a conversion by a factor tells whole numbers below `2 ^ 53` apart, but for some
  neighbours from `2 ^ 52` on (`Merged`).
* `getters_return_last_save_iff` — the four getters of whole numbers.
* `activityLevel_survives_iff` — the activity level, saved as a decimal, mapped to a whole number
  and read as tenths above one, comes back only as 1.1, calculated exactly or on `Double`.
-/

namespace AdvMad.MTrackerAndroid

open AdvMad.Found

variable {toDouble : String → Option ℚ}

/-- A value is new to a list field of the document, or truncates to the same as its last element. -/
def NewOrLast (document : Document) (f : ListField) (value : ℚ) : Prop :=
  value ∉ numbers document f ∨ (numbers document f).getLast?.map trunc = some (trunc value)

instance (document : Document) (f : ListField) (value : ℚ) :
    Decidable (NewOrLast document f value) :=
  inferInstanceAs (Decidable (_ ∨ _))

/-- **After any Saves**, the getter of a list field returns the conversion of the value saved last
to it exactly when the value was new to the list then, or when what the list ended in has the same
conversion. -/
theorem lastEntry_saveAll_iff {document : Document} {data : NutritionData}
    (hdocument : toObject document = some data) {before after : List Save} {t : DataTypes}
    {dataEntry : String} {value : ℚ} (hvalue : toDouble dataEntry = some value)
    (hsaves : ∀ s ∈ before ++ (t, dataEntry) :: after, InLongRange toDouble s)
    (hlast : ∀ s ∈ after, s.1 ≠ t) :
    ∃ earlier document' data', saveAll toDouble document before = some earlier ∧
      saveAll toDouble document (before ++ (t, dataEntry) :: after) = some document' ∧
      toObject document' = some data' ∧
      ∀ convert : Double → Double,
        lastEntry (data'.list t.field) convert = convert (ofRat (trunc value)) ↔
          value ∉ numbers earlier t.field ∨ ∃ q, (numbers earlier t.field).getLast? = some q ∧
            convert (ofRat (trunc q)) = convert (ofRat (trunc value)) := by
  obtain ⟨hbefore, hrest⟩ := List.forall_mem_append.mp hsaves
  obtain ⟨⟨value', n, hvalue', hn⟩, hafter⟩ := List.forall_mem_cons.mp hrest
  obtain rfl : value = value' := Option.some_inj.mp (hvalue.symm.trans hvalue')
  -- the document before the last Save, after it, and at the end
  obtain ⟨earlier, data₁, hrun₁, hmapped₁, -⟩ := saveAll_mapped hdocument hbefore
  obtain ⟨xs, -, hmapped₂⟩ := toObject_union hmapped₁ t.field hn
  obtain ⟨document', data', hrun₃, hmapped₃, hframe⟩ := saveAll_mapped hmapped₂ hafter
  have hnumbers : numbers document' t.field = appendNew (numbers earlier t.field) value := by
    rw [hframe t.field fun s hs hfield => hlast s hs (DataTypes.field_injective hfield),
      numbers_union, if_pos rfl]
  refine ⟨earlier, document', data', hrun₁, ?_, hmapped₃, fun convert => ?_⟩
  · rw [saveAll_append, hrun₁, Option.bind_some]
    unfold saveAll at hrun₃ ⊢
    rw [List.foldlM_cons, save_eq hvalue]
    exact hrun₃
  · rw [lastEntry_of_toObject hmapped₃, hnumbers, ← exists_getLast?_appendNew
      (P := fun q => convert (ofRat (trunc q)) = convert (ofRat (trunc value))) _ rfl]
    cases hend : (appendNew (numbers earlier t.field) value).getLast? with
    | none => exact absurd (List.getLast?_eq_none_iff.mp hend) (appendNew_ne_nil _ _)
    | some q => simp

/-! ## Conversions by a factor -/

/-- A conversion that scales numbers by a factor and rounds them, whole numbers of 53 places to
numbers. -/
structure Scaling (convert : Double → Double) (factor : ℚ) : Prop where
  scaled : ∀ x, (value (convert x)).IsFinite →
    ∃ q, value x = .finite q ∧ value (convert x) = .finite (nearest (q * factor))
  finite : ∀ n : ℕ, n < 2 ^ 53 → (value (convert (ofRat n))).IsFinite
  factor_ge : 2 ^ (-1022 : ℤ) ≤ factor

/-- A number that a conversion does not tell from a whole one: the two are neighbours, on `Double`,
from `2 ^ 52` on, and their conversions the same. -/
def Merged (convert : Double → Double) (last : ℤ) (value : ℕ) : Prop :=
  (nearest last = value + 1 ∨ nearest last + 1 = value) ∧ 2 ^ 52 ≤ value ∧
    convert (ofRat last) = convert (ofRat value)

instance (convert : Double → Double) (last : ℤ) (value : ℕ) :
    Decidable (Merged convert last value) :=
  inferInstanceAs (Decidable (_ ∧ _ ∧ _))

/-- A whole number below `2 ^ 53` is a number as it is. -/
theorem value_ofRat_natCast {n : ℕ} (h : n < 2 ^ 53) :
    value (ofRat n : Double) = .finite n := by
  have hlt : |(n : ℤ)| < 2 ^ 53 := by
    rw [abs_of_nonneg (by omega)]
    exact_mod_cast h
  exact_mod_cast Double.value_ofRat_intCast hlt

/-- Whole numbers below `2 ^ 53` are told apart as they are. -/
theorem ofRat_eq_iff {last : ℤ} {n : ℕ} (hn : n < 2 ^ 53) :
    (ofRat last : Double) = ofRat n ↔ last = n := by
  constructor
  · intro h
    have hvalue : value (ofRat last : Double) = .finite n := by rw [h, value_ofRat_natCast hn]
    have hfinite : (Extended.finite (last : ℚ)).round.IsFinite := ⟨_, hvalue⟩
    rw [Double.value_ofRat, Extended.round_eq_nearest hfinite] at hvalue
    have hlt : |(n : ℤ)| < 2 ^ 53 := by
      rw [abs_of_nonneg (by omega)]
      exact_mod_cast hn
    exact eq_of_nearest_intCast hlt (by exact_mod_cast Extended.finite.inj hvalue)
  · rintro rfl
    rfl

/-- **What a conversion by a factor tells apart**: all whole numbers below `2 ^ 53` but those that
merge with a neighbour. -/
theorem Scaling.eq_iff {convert : Double → Double} {factor : ℚ} (h : Scaling convert factor)
    {last : ℤ} {n : ℕ} (hn : n < 2 ^ 53) :
    convert (ofRat last) = convert (ofRat n) ↔ last = n ∨ Merged convert last n := by
  constructor
  · intro heq
    have hfinite := h.finite n hn
    obtain ⟨q, hq, hconvert⟩ := h.scaled (ofRat last) (by rw [heq]; exact hfinite)
    obtain ⟨p, hp, hconvert'⟩ := h.scaled (ofRat n) hfinite
    -- both are integers on `Double`, and scaled to the same number
    rw [value_ofRat_natCast hn] at hp
    rw [Double.value_ofRat, Extended.round_eq_nearest ⟨q, hq⟩] at hq
    obtain rfl := Extended.finite.inj hp
    obtain rfl := Extended.finite.inj hq
    obtain ⟨k, hk⟩ := exists_nearest_intCast last
    have hsame : nearest ((k : ℚ) * factor) = nearest (((n : ℤ) : ℚ) * factor) := by
      rw [← hk]
      exact Extended.finite.inj (hconvert.symm.trans ((congrArg value heq).trans hconvert'))
    have hlt : (n : ℤ) < 2 ^ 53 := by exact_mod_cast hn
    rcases neighbours_of_nearest_mul_eq h.factor_ge (by omega) hlt hsame with hk' | ⟨hk', hlarge⟩
    · left
      refine eq_of_nearest_intCast (abs_lt.mpr ⟨by omega, hlt⟩) ?_
      rw [hk, hk']
    · right
      refine ⟨?_, by exact_mod_cast hlarge, heq⟩
      rw [hk]
      exact_mod_cast hk'
  · rintro (rfl | ⟨-, -, heq⟩)
    · rfl
    · exact heq

/-- The two factors of the conversions. -/
theorem factor_bounds :
    2 ≤ nearest 2.205 ∧ nearest 2.205 ≤ 4 ∧ 2 ≤ nearest 2.54 ∧ nearest 2.54 ≤ 4 := by
  decide +kernel

/-- A whole number below `2 ^ 53` times a factor up to four. -/
theorem round_mul_of_lt {n : ℕ} (hn : n < 2 ^ 53) {factor : ℚ} (h₀ : 0 ≤ factor)
    (h : factor ≤ 4) : (Extended.finite (n * factor)).round.IsFinite := by
  refine ⟨_, Extended.round_finite (Extended.isDouble_two_pow (k := 55) (by norm_num)) ?_⟩
  have hn : (n : ℚ) ≤ 2 ^ 53 := by exact_mod_cast hn.le
  rw [abs_of_nonneg (by positivity), abs_of_nonneg (by positivity)]
  nlinarith

/-- Pounds are divided by the double nearest 2.205. -/
theorem scaling_kilograms : Scaling kilograms (nearest 2.205)⁻¹ := by
  obtain ⟨hlo, hhi, -, -⟩ := factor_bounds
  have hne : nearest 2.205 ≠ 0 := by linarith
  have hliteral := Double.value_literal (c := 2.205) (by norm_num) (by norm_num)
  have hdiv : ∀ {x : Double} {q : ℚ}, value x = .finite q →
      value (kilograms x) = (Extended.finite (q * (nearest 2.205)⁻¹)).round := by
    intro x q hq
    unfold kilograms
    rw [Double.value_div, hq, hliteral]
    simp only [Extended.div]
    rw [if_neg hne, div_eq_mul_inv]
  have hinv : (nearest 2.205)⁻¹ ≤ 1 := inv_le_one_of_one_le₀ (by linarith)
  refine ⟨fun x hx => ?_, fun n hn => ?_, ?_⟩
  · obtain ⟨q, hq⟩ := hx.of_round.of_div
    rw [hdiv hq] at hx ⊢
    exact ⟨q, hq, Extended.round_eq_nearest hx⟩
  · rw [hdiv (value_ofRat_natCast hn)]
    exact round_mul_of_lt hn (by positivity) (by linarith)
  · have hquarter : (4 : ℚ)⁻¹ ≤ (nearest 2.205)⁻¹ := inv_anti₀ (by linarith) hhi
    exact le_trans (by decide +kernel) hquarter

/-- Inches are multiplied by the double nearest 2.54. -/
theorem scaling_centimetres : Scaling centimetres (nearest 2.54) := by
  obtain ⟨-, -, hlo, hhi⟩ := factor_bounds
  have hliteral := Double.value_literal (c := 2.54) (by norm_num) (by norm_num)
  have hmul : ∀ {x : Double} {q : ℚ}, value x = .finite q →
      value (centimetres x) = (Extended.finite (q * nearest 2.54)).round := by
    intro x q hq
    unfold centimetres
    rw [Double.value_mul, hq, hliteral]
    rfl
  refine ⟨fun x hx => ?_, fun n hn => ?_, le_trans (by decide +kernel) hlo⟩
  · obtain ⟨q, hq⟩ := hx.of_round.of_mul
    rw [hmul hq] at hx ⊢
    exact ⟨q, hq, Extended.round_eq_nearest hx⟩
  · rw [hmul (value_ofRat_natCast hn)]
    exact round_mul_of_lt hn (by linarith) hhi

/-! ## The four getters -/

/-- A whole number below `2 ^ 53` is one that a `Long` holds. -/
theorem inLongRange_of_natCast {s : Save} {n : ℕ} (h : n < 2 ^ 53)
    (hs : toDouble s.2 = some (n : ℚ)) : InLongRange toDouble s := by
  refine ⟨n, n, hs, ?_⟩
  have hlt : (n : ℚ) < 2 ^ 63 := by exact_mod_cast h.trans (by norm_num)
  rw [toLong_of_lt (Nat.cast_nonneg n) hlt, trunc_natCast]

/-- A list field ends, truncated, in a number that a conversion merges with a value. -/
def EndsMerged (convert : Double → Double) (document : Document) (f : ListField) (value : ℕ) :
    Prop :=
  ∃ last, (numbers document f).getLast?.map trunc = some last ∧ Merged convert last value

/-- What a list ends in, by a property of its truncation. -/
theorem exists_getLast?_map_iff {xs : List ℚ} {P : ℤ → Prop} :
    (∃ q, xs.getLast? = some q ∧ P (trunc q)) ↔
      ∃ last, xs.getLast?.map trunc = some last ∧ P last := by
  cases xs.getLast? <;> simp

/-- **When the calculation uses the value saved last.** For every document that maps and all Saves
of whole numbers below `2 ^ 53`, the last one on a screen being of `value`: the document still maps
after them, and the getter of that screen returns the converted value exactly when the list held no
such value before that Save, or ended in it, or, for a weight or a height, ended in a neighbour that
has the same conversion. -/
theorem getters_return_last_save_iff (toDouble : String → Option ℚ) (document : Document)
    (data : NutritionData) (hdocument : toObject document = some data) (before after : List Save)
    (t : DataTypes) (dataEntry : String) (value : ℕ)
    (hvalue : toDouble dataEntry = some (value : ℚ))
    (hsaves : ∀ s ∈ before ++ (t, dataEntry) :: after,
      ∃ n : ℕ, n < 2 ^ 53 ∧ toDouble s.2 = some (n : ℚ))
    (hlast : ∀ s ∈ after, s.1 ≠ t) :
    ∃ earlier document' data', saveAll toDouble document before = some earlier ∧
      saveAll toDouble document (before ++ (t, dataEntry) :: after) = some document' ∧
      toObject document' = some data' ∧
      (t = .weight → (getWeight data' = kilograms (ofRat value : Double) ↔
        NewOrLast earlier t.field value ∨ EndsMerged kilograms earlier t.field value)) ∧
      (t = .height → (getHeight data' = centimetres (ofRat value : Double) ↔
        NewOrLast earlier t.field value ∨ EndsMerged centimetres earlier t.field value)) ∧
      (t = .bodyFatPercentage → (getBFP data' = (ofRat value : Double) ↔
        NewOrLast earlier t.field value)) ∧
      (t = .birthday → (getAge data' = (ofRat value : Double) ↔
        NewOrLast earlier t.field value)) := by
  have hrange : ∀ s ∈ before ++ (t, dataEntry) :: after, InLongRange toDouble s := by
    intro s hs
    obtain ⟨n, hlt, hn⟩ := hsaves s hs
    exact inLongRange_of_natCast hlt hn
  obtain ⟨n, hlt, hn⟩ := hsaves (t, dataEntry) (by simp)
  obtain rfl : value = n := by exact_mod_cast Option.some_inj.mp (hvalue.symm.trans hn)
  obtain ⟨earlier, document', data', hrun, hrun', hmapped, hread⟩ :=
    lastEntry_saveAll_iff hdocument hvalue hrange hlast
  rw [trunc_natCast, Int.cast_natCast] at hread
  have hscaled : ∀ {convert : Double → Double} {factor : ℚ}, Scaling convert factor →
      (lastEntry (data'.list t.field) convert = convert (ofRat value) ↔
        NewOrLast earlier t.field value ∨ EndsMerged convert earlier t.field value) := by
    intro convert factor hscaling
    rw [hread, exists_getLast?_map_iff (P := fun last => convert (ofRat last) = _)]
    simp only [hscaling.eq_iff hlt, and_or_left, exists_or, exists_eq_right]
    rw [← or_assoc]
    unfold NewOrLast EndsMerged
    rw [trunc_natCast]
  have hplain : lastEntry (data'.list t.field) id = (ofRat value : Double) ↔
      NewOrLast earlier t.field value := by
    rw [← id_eq (ofRat value : Double), hread,
      exists_getLast?_map_iff (P := fun last => id (ofRat last : Double) = _)]
    simp only [id_eq, ofRat_eq_iff hlt, exists_eq_right]
    unfold NewOrLast
    rw [trunc_natCast]
  refine ⟨earlier, document', data', hrun, hrun', hmapped, ?_, ?_, ?_, ?_⟩
  · rintro rfl
    exact hscaled scaling_kilograms
  · rintro rfl
    exact hscaled scaling_centimetres
  · rintro rfl
    exact hplain
  · rintro rfl
    exact hplain

/-- A document with no fields. -/
def emptyDocument : Document := fun _ => none

/-- A weight, another one, and the first again. -/
def weightRegained : List Save := [(.weight, "180"), (.weight, "175"), (.weight, "180")]

/-- The law for these Saves. -/
theorem getters_return_last_save_iff_regained :
    ∃ earlier document' data',
      saveAll decimal emptyDocument [(.weight, "180"), (.weight, "175")] = some earlier ∧
      saveAll decimal emptyDocument weightRegained = some document' ∧
      toObject document' = some data' ∧
      (DataTypes.weight = .weight → (getWeight data' = kilograms (ofRat (180 : ℕ) : Double) ↔
        NewOrLast earlier DataTypes.weight.field (180 : ℕ) ∨
          EndsMerged kilograms earlier DataTypes.weight.field 180)) ∧
      (DataTypes.weight = .height → (getHeight data' = centimetres (ofRat (180 : ℕ) : Double) ↔
        NewOrLast earlier DataTypes.weight.field (180 : ℕ) ∨
          EndsMerged centimetres earlier DataTypes.weight.field 180)) ∧
      (DataTypes.weight = .bodyFatPercentage → (getBFP data' = (ofRat (180 : ℕ) : Double) ↔
        NewOrLast earlier DataTypes.weight.field (180 : ℕ))) ∧
      (DataTypes.weight = .birthday → (getAge data' = (ofRat (180 : ℕ) : Double) ↔
        NewOrLast earlier DataTypes.weight.field (180 : ℕ))) := by
  refine getters_return_last_save_iff decimal emptyDocument _ rfl
    [(.weight, "180"), (.weight, "175")] [] .weight "180" 180 (by decide +kernel) ?_ (by simp)
  intro s hs
  simp only [List.cons_append, List.nil_append, List.mem_cons, List.not_mem_nil, or_false] at hs
  rcases hs with rfl | rfl | rfl
  · exact ⟨180, by norm_num, by decide +kernel⟩
  · exact ⟨175, by norm_num, by decide +kernel⟩
  · exact ⟨180, by norm_num, by decide +kernel⟩

/-- After these Saves the calculation uses the weight before the last. -/
theorem earlier_weight_used :
    (saveAll decimal emptyDocument weightRegained).bind toObject =
      some ⟨none, none, none, none, none, none, some [180, 175], none, none, none⟩ ∧
    getWeight ⟨none, none, none, none, none, none, some [180, 175], none, none, none⟩ ≠
      kilograms (ofRat 180 : Double) := by
  constructor <;> decide +kernel

/-- Two weights of the same number of kilograms, on `Double`. -/
example : Merged kilograms 4965218589175978 4965218589175977 := by decide +kernel

/-! ## The activity level -/

/-- A number from one to two truncates to one, or is two. -/
theorem trunc_of_one_le {a : ℚ} (h₁ : 1 ≤ a) (h₂ : a ≤ 2) :
    (trunc a = 1 ∧ a < 2) ∨ (trunc a = 2 ∧ a = 2) := by
  rcases h₂.lt_or_eq with h₂ | rfl
  · left
    refine ⟨(trunc_eq_iff_of_nonneg (by linarith) 1).mpr ⟨by simpa using h₁, ?_⟩, h₂⟩
    norm_num
    exact h₂
  · exact Or.inr ⟨trunc_natCast 2, rfl⟩

/-- The factor read back from a level between one and two, calculated exactly. -/
theorem activityFactor_trunc_eq_iff {a : ℚ} (h₁ : 1 ≤ a) (h₂ : a ≤ 2) :
    activityFactor (trunc a : ℚ) = a ↔ a = 11 / 10 := by
  simp only [activityFactor, ofRat_rat]
  rcases trunc_of_one_le h₁ h₂ with ⟨htrunc, -⟩ | ⟨htrunc, rfl⟩
  · rw [htrunc]
    constructor
    · intro h
      rw [← h]
      norm_num
    · rintro rfl
      norm_num
  · rw [htrunc]
    norm_num

/-- The factor read back on `Double`. -/
theorem value_activityFactor_trunc_iff {a : ℚ} (h₁ : 1 ≤ a) (h₂ : a ≤ 2) :
    value (activityFactor (ofRat (trunc a) : Double)) = .finite a ↔ a = nearest 1.1 := by
  rcases trunc_of_one_le h₁ h₂ with ⟨htrunc, -⟩ | ⟨htrunc, rfl⟩
  · have hone : value (activityFactor (ofRat ((1 : ℤ) : ℚ) : Double)) = .finite (nearest 1.1) := by
      decide +kernel
    rw [htrunc, hone, Extended.finite.injEq, eq_comm]
  · rw [htrunc]
    decide +kernel

/-- **The activity level that survives**: for every level from one to two that is not in the stored
list, saved and read back, the factor of the calculation is the level exactly when it is 1.1; on
`Double`, when it is the number nearest 1.1. -/
theorem activityLevel_survives_iff (toDouble : String → Option ℚ) (document : Document)
    (data : NutritionData) (hdocument : toObject document = some data) (dataEntry : String) (a : ℚ)
    (ha : toDouble dataEntry = some a) (h₁ : 1 ≤ a) (h₂ : a ≤ 2)
    (hnew : a ∉ numbers document .activityLevel) :
    ∃ document' currentEntry data',
      setData toDouble (getDataCustomizations (some DataTypes.activityLevel.value)).firestoreID
        dataEntry document = some (document', currentEntry) ∧
      toObject document' = some data' ∧
      (getActivityLevel data' = a ↔ a = 11 / 10) ∧
      (value (getActivityLevel data' : Double) = .finite a ↔ a = nearest 1.1) := by
  obtain ⟨currentEntry, hset⟩ := setData_eq ha .activityLevel document
  have hlong : toLong a = some (trunc a) := toLong_of_lt (by linarith) (by linarith)
  obtain ⟨xs, -, hmapped⟩ := toObject_union hdocument .activityLevel hlong
  refine ⟨_, currentEntry, _, hset, hmapped, ?_⟩
  have hlast : (numbers (document.union .activityLevel a) .activityLevel).getLast? = some a := by
    rw [numbers_union, if_pos rfl]
    exact getLast?_appendNew_of_not_mem hnew
  have hread : ∀ {N : Type} [Arithmetic N], getActivityLevel _ =
      activityFactor (ofRat (trunc a) : N) := fun {N} _ => by
    have hentry := lastEntry_of_toObject hmapped .activityLevel (activityFactor (N := N))
    rwa [hlast] at hentry
  rw [hread, hread]
  exact ⟨activityFactor_trunc_eq_iff h₁ h₂, value_activityFactor_trunc_iff h₁ h₂⟩

/-- The law for a level of 1.5. -/
theorem activityLevel_survives_iff_moderate :
    ∃ document' currentEntry data',
      setData decimal (getDataCustomizations (some DataTypes.activityLevel.value)).firestoreID
        "1.5" emptyDocument = some (document', currentEntry) ∧
      toObject document' = some data' ∧
      (getActivityLevel data' = (3 / 2 : ℚ) ↔ (3 / 2 : ℚ) = 11 / 10) ∧
      (value (getActivityLevel data' : Double) = .finite (3 / 2) ↔ 3 / 2 = nearest 1.1) :=
  activityLevel_survives_iff decimal emptyDocument _ rfl "1.5" (3 / 2) (by decide +kernel)
    (by norm_num) (by norm_num) (by simp [numbers, emptyDocument])

/-- A level of 1.5, saved on a document with no fields, comes back as 1.1. -/
theorem activityLevel_lost :
    ((setData decimal (getDataCustomizations (some DataTypes.activityLevel.value)).firestoreID
        "1.5" emptyDocument).bind fun r => toObject r.1).map (getActivityLevel (N := ℚ)) =
          some (11 / 10) ∧
      decimal "1.5" = some (3 / 2) ∧ (11 / 10 : ℚ) ≠ 3 / 2 := by
  refine ⟨?_, ?_, ?_⟩ <;> decide +kernel

end AdvMad.MTrackerAndroid
