import Log73.Scoring.Scorer

/-!
Scores are written to four metadata fields. Two contacts that differ at most there
are worth the same under rules that do not read these fields.
-/

namespace Log73

/-- The metadata fields the scorers write. -/
def scoreFields : List String := ["pts", "mult", "bonus", "dupe"]

/-- Equal in every ADIF field and in all metadata but the scores. -/
structure Unscored (contact contact' : Contact) : Prop where
  adif : ∀ key, contactAdifValue contact key = contactAdifValue contact' key
  metaFields : ∀ key, key ∉ scoreFields →
    contactMetaValue contact key = contactMetaValue contact' key

namespace Unscored

theorem refl (contact : Contact) : Unscored contact contact := ⟨fun _ => rfl, fun _ _ => rfl⟩

theorem symm {contact contact' : Contact} (h : Unscored contact contact') :
    Unscored contact' contact :=
  ⟨fun key => (h.adif key).symm, fun key hkey => (h.metaFields key hkey).symm⟩

theorem trans {a b c : Contact} (h : Unscored a b) (h' : Unscored b c) : Unscored a c :=
  ⟨fun key => (h.adif key).trans (h'.adif key),
    fun key hkey => (h.metaFields key hkey).trans (h'.metaFields key hkey)⟩

theorem setContactMeta (contact : Contact) {key : String} (value : Value)
    (hkey : key ∈ scoreFields) : Unscored (setContactMeta contact key value) contact where
  adif _ := contactAdifValue_setContactMeta contact key _ value
  metaFields _ hother :=
    contactMetaValue_setContactMeta_of_ne contact value fun h => hother (h ▸ hkey)

theorem contactId_eq {contact contact' : Contact} (h : Unscored contact contact') :
    contactId contact = contactId contact' := by
  rw [contactId, contactId, h.metaFields "id" (by decide)]

theorem setContactScoreFields (contact : Contact) (points mults bonus : Int64) (isDupe : Bool) :
    Unscored (setContactScoreFields contact points mults bonus isDupe) contact :=
  (((setContactMeta _ _ (by decide)).trans (setContactMeta _ _ (by decide))).trans
    (setContactMeta _ _ (by decide))).trans (setContactMeta _ _ (by decide))

theorem incrementContactScoreField (contact : Contact) {field : String} (delta : Int64)
    (hfield : field ∈ scoreFields) :
    Unscored (incrementContactScoreField contact field delta) contact :=
  setContactMeta _ _ hfield

end Unscored

namespace ScoringCondition

def fields (condition : ScoringCondition) : List String :=
  condition.field :: condition.matchesField.toList ++ condition.notMatchesField.toList

end ScoringCondition

/-- The fields of a rule's conditions. -/
def conditionFields (when? : Option ScoringCondition) (whenAll : List ScoringCondition) :
    List String :=
  when?.elim [] ScoringCondition.fields ++ whenAll.flatMap ScoringCondition.fields

/-- Every field a point rule names. -/
def QsoPoints.fields (qsoPoints : QsoPoints) : List String :=
  qsoPoints.gridDistance.elim [] (fun rule => [rule.stationGridField, rule.contactGridField])
    ++ qsoPoints.geography.elim [] (fun rule => [rule.countryField, rule.stationCountryField,
      rule.continentField, rule.stationContinentField])
    ++ qsoPoints.rules.flatMap fun rule => conditionFields rule.when? rule.whenAll

/-- Every contact field the scoring rules name. -/
def ScoringRules.fields (scoring : ScoringRules) : List String :=
  scoring.qsoPoints.elim [] QsoPoints.fields
    ++ scoring.dupeKey
    ++ scoring.multipliers.flatMap (fun rule =>
      rule.field :: rule.key ++ conditionFields rule.when? rule.whenAll)
    ++ scoring.bonusPoints.flatMap (fun rule => rule.field :: rule.key)
    ++ scoring.qsoCountBonusPoints.map (·.field)

/-- No rule names one of the metadata fields that hold scores. -/
def ScoringRules.ReadsNoScores (scoring : ScoringRules) : Prop :=
  ∀ field ∈ scoring.fields, field ∉ scoreFields

instance (scoring : ScoringRules) : Decidable scoring.ReadsNoScores :=
  inferInstanceAs (Decidable (∀ field ∈ scoring.fields, field ∉ scoreFields))

section Congr

variable [Platform] {contact contact' : Contact}

theorem contactPrefix_congr (h : Unscored contact contact') :
    contactPrefix contact = contactPrefix contact' := by
  rw [contactPrefix, contactPrefix, h.adif "PFX", h.adif "CALL"]

theorem jarlCallArea_congr (h : Unscored contact contact') :
    jarlCallArea contact = jarlCallArea contact' := by
  rw [jarlCallArea, jarlCallArea, h.adif "CALL", h.adif "DXCC"]

theorem sacArea_congr (h : Unscored contact contact') : sacArea contact = sacArea contact' := by
  rw [sacArea, sacArea, h.adif "DXCC", contactPrefix_congr h]

theorem fieldValue_congr (h : Unscored contact contact') {field : String}
    (hfield : field ∉ scoreFields) : fieldValue contact field = fieldValue contact' field := by
  rw [fieldValue, fieldValue, plainFieldValue, plainFieldValue, contactPrefix_congr h,
    jarlCallArea_congr h, sacArea_congr h, h.metaFields field hfield, h.adif "MODE",
    h.adif "GRIDSQUARE", h.adif "DXCC", h.adif "SRX_STRING", h.adif "SRX", h.adif field]

theorem scoringKey_congr (h : Unscored contact contact') {fields : List String}
    (hfields : ∀ field ∈ fields, field ∉ scoreFields) :
    scoringKey contact fields = scoringKey contact' fields := by
  rw [scoringKey, scoringKey]
  refine congrArg _ (List.map_congr_left fun field hfield => ?_)
  rw [fieldValue_congr h (hfields field hfield)]

theorem dupeScoringKey_congr (h : Unscored contact contact') {fields : List String}
    (hfields : ∀ field ∈ fields, field ∉ scoreFields) :
    dupeScoringKey contact fields = dupeScoringKey contact' fields := by
  rw [dupeScoringKey, dupeScoringKey]
  refine congrArg _ (List.map_congr_left fun field hfield => ?_)
  rw [fieldValue_congr h (hfields field hfield), dupeModeClass, dupeModeClass,
    fieldValue_congr h (by decide : "MODE" ∉ scoreFields)]

theorem comparesWith_congr (h : Unscored contact contact') (value : String) (expected : Bool)
    {other : Option String} (hother : ∀ field ∈ other.toList, field ∉ scoreFields) :
    comparesWith contact value expected other = comparesWith contact' value expected other := by
  cases other with
  | none => rfl
  | some field => simp only [comparesWith, fieldValue_congr h (hother field (by simp))]

theorem conditionMatches_congr (h : Unscored contact contact') {condition : ScoringCondition}
    (hfields : ∀ field ∈ condition.fields, field ∉ scoreFields) :
    conditionMatches condition contact = conditionMatches condition contact' := by
  simp only [ScoringCondition.fields, List.cons_append, List.mem_cons, List.mem_append] at hfields
  have hfield := hfields condition.field (.inl rfl)
  have hmatches := fun value => comparesWith_congr h value true
    fun field hf => hfields field (.inr (.inl hf))
  have hnotMatches := fun value => comparesWith_congr h value false
    fun field hf => hfields field (.inr (.inr hf))
  simp only [conditionMatches, fieldValue_congr h hfield, hmatches, hnotMatches, h.adif,
    h.metaFields _ hfield]

theorem allConditionsMatch_congr (h : Unscored contact contact')
    {when? : Option ScoringCondition} {whenAll : List ScoringCondition}
    (hfields : ∀ field ∈ conditionFields when? whenAll, field ∉ scoreFields) :
    allConditionsMatch when? whenAll contact = allConditionsMatch when? whenAll contact' := by
  simp only [conditionFields, List.mem_append, List.mem_flatMap] at hfields
  have hall : whenAll.all (conditionMatches · contact) =
      whenAll.all (conditionMatches · contact') := by
    rw [Bool.eq_iff_iff, List.all_eq_true, List.all_eq_true]
    refine forall₂_congr fun condition hmem => ?_
    rw [conditionMatches_congr h fun field hf => hfields field (.inr ⟨condition, hmem, hf⟩)]
  cases when? with
  | none => simp only [allConditionsMatch, Option.all_none, hall]
  | some condition =>
      simp only [allConditionsMatch, Option.all_some, hall,
        conditionMatches_congr h fun field hf => hfields field (.inl hf)]

/-- Points of a contact, under rules whose fields are all read the same. -/
theorem scoreQsoPoints_congr (h : Unscored contact contact') {qsoPoints : QsoPoints}
    (hfields : ∀ field ∈ qsoPoints.fields, field ∉ scoreFields) :
    scoreQsoPoints qsoPoints contact = scoreQsoPoints qsoPoints contact' := by
  simp only [QsoPoints.fields, List.mem_append] at hfields
  have htime : timeBonusPoints qsoPoints contact = timeBonusPoints qsoPoints contact' := by
    rw [timeBonusPoints, timeBonusPoints, h.adif]
  have hgrid : ∀ rule, qsoPoints.gridDistance = some rule →
      gridDistancePoints rule contact = gridDistancePoints rule contact' := by
    intro rule hrule
    rw [gridDistancePoints, gridDistancePoints,
      fieldValue_congr h (hfields rule.stationGridField (.inl (.inl (by simp [hrule])))),
      fieldValue_congr h (hfields rule.contactGridField (.inl (.inl (by simp [hrule]))))]
  have hgeography : ∀ rule, qsoPoints.geography = some rule →
      geographyPoints rule contact = geographyPoints rule contact' := by
    intro rule hrule
    have hf : ∀ field ∈ [rule.countryField, rule.stationCountryField, rule.continentField,
        rule.stationContinentField], fieldValue contact field = fieldValue contact' field :=
      fun field hmem => fieldValue_congr h
        (hfields field (.inl (.inr (by simpa [hrule] using hmem))))
    rw [geographyPoints, geographyPoints, fieldValue_congr h (by decide : "BAND" ∉ scoreFields),
      hf _ (by simp), hf rule.stationCountryField (by simp), hf rule.continentField (by simp),
      hf rule.stationContinentField (by simp)]
  have hrules : rulePoints qsoPoints.rules contact = rulePoints qsoPoints.rules contact' := by
    have hfilter :
        qsoPoints.rules.filter (fun rule => allConditionsMatch rule.when? rule.whenAll contact) =
          qsoPoints.rules.filter
            (fun rule => allConditionsMatch rule.when? rule.whenAll contact') :=
      List.filter_congr fun rule hmem => allConditionsMatch_congr h fun field hf =>
        hfields field (.inr (List.mem_flatMap.mpr ⟨rule, hmem, hf⟩))
    rw [rulePoints, rulePoints, ← List.head?_filter, ← List.head?_filter, hfilter]
  rw [scoreQsoPoints, scoreQsoPoints, htime]
  cases hg : qsoPoints.gridDistance with
  | some rule => simp only [hgrid rule hg]
  | none =>
      cases hgeo : qsoPoints.geography with
      | some rule => simp only [hgeography rule hgeo]
      | none => cases qsoPoints.points <;> simp only [hrules]

theorem multiplierMatches_congr (h : Unscored contact contact') {rule : MultiplierRule}
    (hfields : ∀ field ∈ rule.field :: conditionFields rule.when? rule.whenAll,
      field ∉ scoreFields) :
    multiplierMatches rule contact = multiplierMatches rule contact' := by
  rw [multiplierMatches, multiplierMatches, h.adif,
    fieldValue_congr h (hfields rule.field List.mem_cons_self),
    allConditionsMatch_congr h fun field hf => hfields field (List.mem_cons_of_mem _ hf)]

theorem contactInCategoryBand_congr (h : Unscored contact contact') (rules : ContestRules)
    (contestParams : Value) :
    contactInCategoryBand rules contestParams contact =
      contactInCategoryBand rules contestParams contact' := by
  rw [contactInCategoryBand, contactInCategoryBand,
    fieldValue_congr h (by decide : "BAND" ∉ scoreFields)]

end Congr

namespace ContestScoringModule

variable [Platform] {module : ContestScoringModule} {contact contact' : Contact}

omit [Platform] in
/-- The scoring fields of a module's rules, by the part that names them. -/
theorem mem_fields_of_multiplier {rule : MultiplierRule}
    (hrule : rule ∈ module.rules.scoring.multipliers) {field : String}
    (hfield : field ∈ rule.field :: rule.key ++ conditionFields rule.when? rule.whenAll) :
    field ∈ module.rules.scoring.fields := by
  simp only [ScoringRules.fields, List.mem_append, List.mem_flatMap]
  exact .inl (.inl (.inr ⟨rule, hrule, List.mem_append.mp hfield⟩))

omit [Platform] in
theorem mem_fields_of_bonus {rule : BonusPointRule}
    (hrule : rule ∈ module.rules.scoring.bonusPoints) {field : String}
    (hfield : field ∈ rule.field :: rule.key) : field ∈ module.rules.scoring.fields := by
  simp only [ScoringRules.fields, List.mem_append, List.mem_flatMap]
  exact .inl (.inr ⟨rule, hrule, hfield⟩)

theorem dupeKeyFor_congr (hreads : module.rules.scoring.ReadsNoScores)
    (h : Unscored contact contact') : module.dupeKeyFor contact = module.dupeKeyFor contact' := by
  rw [dupeKeyFor, dupeKeyFor, dupeScoringKey_congr h fun field hf => hreads field ?_]
  simp only [ScoringRules.fields, List.mem_append]
  exact .inl (.inl (.inl (.inr hf)))

theorem qsoPointsFor_congr (hreads : module.rules.scoring.ReadsNoScores)
    (h : Unscored contact contact') :
    module.qsoPointsFor contact = module.qsoPointsFor contact' := by
  rw [qsoPointsFor, qsoPointsFor, contactInCategoryBand_congr h]
  cases hpoints : module.rules.scoring.qsoPoints with
  | none => rfl
  | some qsoPoints =>
      have hfields : ∀ field ∈ qsoPoints.fields, field ∉ scoreFields := fun field hf =>
        hreads field (by simp [ScoringRules.fields, hpoints, hf])
      simp only [Option.bind_some, scoreQsoPoints_congr h hfields]

theorem multiplierCandidatesFor_congr (hreads : module.rules.scoring.ReadsNoScores)
    (h : Unscored contact contact') :
    module.multiplierCandidatesFor contact = module.multiplierCandidatesFor contact' := by
  have hfilter : module.rules.scoring.multipliers.filter (multiplierMatches · contact) =
      module.rules.scoring.multipliers.filter (multiplierMatches · contact') := by
    refine List.filter_congr fun rule hrule => multiplierMatches_congr h fun field hf => ?_
    refine hreads field (mem_fields_of_multiplier hrule ?_)
    simp only [List.mem_cons, List.cons_append, List.mem_append] at hf ⊢
    tauto
  rw [multiplierCandidatesFor, multiplierCandidatesFor, contactInCategoryBand_congr h, hfilter]
  split
  · refine List.map_congr_left fun rule hrule => ?_
    rw [scoringKey_congr h fun field hf => hreads field
      (mem_fields_of_multiplier (List.mem_filter.mp hrule).1 (by simp [hf]))]
  · rfl

theorem multiplierKeysFor_congr (hreads : module.rules.scoring.ReadsNoScores)
    (h : Unscored contact contact') :
    module.multiplierKeysFor contact = module.multiplierKeysFor contact' := by
  rw [multiplierKeysFor, multiplierKeysFor, multiplierCandidatesFor_congr hreads h]

theorem bonusKeysFor_congr (hreads : module.rules.scoring.ReadsNoScores)
    (h : Unscored contact contact') :
    module.bonusKeysFor contact = module.bonusKeysFor contact' := by
  rw [bonusKeysFor, bonusKeysFor]
  refine List.filterMap_congr fun rule hrule => ?_
  rw [fieldValue_congr h (hreads _ (mem_fields_of_bonus hrule List.mem_cons_self)),
    scoringKey_congr h fun field hf =>
      hreads field (mem_fields_of_bonus hrule (List.mem_cons_of_mem _ hf))]

theorem qsoCountBonusKeysFor_congr (hreads : module.rules.scoring.ReadsNoScores)
    (h : Unscored contact contact') :
    module.qsoCountBonusKeysFor contact = module.qsoCountBonusKeysFor contact' := by
  rw [qsoCountBonusKeysFor, qsoCountBonusKeysFor]
  refine List.filterMap_congr fun rule hrule => ?_
  rw [fieldValue_congr h (hreads _ ?_)]
  simp only [ScoringRules.fields, List.mem_append, List.mem_map]
  exact .inr ⟨rule, (List.mem_filter.mp hrule).1, rfl⟩

end ContestScoringModule

end Log73
