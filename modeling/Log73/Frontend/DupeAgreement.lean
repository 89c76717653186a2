import Log73.Frontend.Dupes
import Log73.Scoring.Fields

/-!
The duplicate keys of the frontend against those of the scorer. They are the same text
as long as the dupe key of the contest names no field that the scorer derives.
-/

namespace Log73

open SortedAssoc

theorem toAsciiUppercase_normalizeAdifFieldName {field : String}
    (h : normalizeAdifFieldName field = field) : toAsciiUppercase field = field := by
  rw [← h, normalizeAdifFieldName, toAsciiUppercase_idem]

theorem eqIgnoreAsciiCase_self (s : String) : eqIgnoreAsciiCase s s = true :=
  beq_self_eq_true _

namespace Frontend

/-- A field name as contest rules spell it: in uppercase and without blanks around it. -/
structure Canonical [Platform] (field : String) : Prop where
  adif : normalizeAdifFieldName field = field
  upper : toUpperCase field = field

/-- The fields that the scorer computes from others, apart from the mode class. -/
def Derived (field : String) : Prop :=
  field ∈ ["WPX_PREFIX", "GRID_FIELD", "JARL_CALL_AREA", "JARL_ENTITY", "DOK_AREA", "SAC_AREA"]

instance (field : String) : Decidable (Derived field) := inferInstanceAs (Decidable (_ ∈ _))

/-- A value that both sides print alike: text of the basic plane without U+0085 and
U+FEFF, and of the numbers the safe integers. -/
def ReadsAlike : Value → Prop
  | .string s => Basic s
  | .number (.int value) => value.natAbs ≤ 9007199254740992
  | .number (.float _) => False
  | _ => True

/-- The mode class is read off the mode, whatever stands under its own name. -/
abbrev NamesModeClass (field : String) : Prop := eqIgnoreAsciiCase field "MODE_CLASS" = true

abbrev NamesMode (field : String) : Prop := eqIgnoreAsciiCase field "MODE" = true

/-- A name of a list that both sides look up alike: the mode in any case, or a name as contest
rules spell it. -/
def SpelledAlike [Platform] (field : String) : Prop :=
  NamesModeClass field ∨ NamesMode field ∨ Canonical field

/-- What a dupe key reads for a name of its list. -/
def readName (field : String) : String :=
  if NamesModeClass field ∨ NamesMode field then "MODE" else field

/-- A contact whose values read alike where the dupe key reads them, with no metadata in the place
of an ADIF field. -/
structure Comparable (fields : List String) (contact : Contact) : Prop where
  values : ∀ field ∈ fields, ∀ value,
    contactAdifValue contact (readName field) = some value → ReadsAlike value
  metadata : ∀ field ∈ fields, ¬ NamesModeClass field →
    contactMetaValue contact (readName field) = none

theorem basic_toString (value : Int) : Basic (toString value) := by
  apply Basic.of_ascii
  intro c hc
  cases mem_toString_int hc with
  | inl hsign =>
      rw [hsign]
      decide
  | inr hdigit =>
      have := (isAsciiDigit_iff c).mp hdigit
      omega

theorem adifProperty_eq {contact : Contact} {field : String}
    (h : normalizeAdifFieldName field = field) :
    adifProperty contact field = contactAdifValue contact field := by
  rw [adifProperty, contactAdifValue, h]

section Single

/-- A contact that carries one field. -/
def single (field value : String) : Contact := buildContact [] [(field, .string value)]

variable {field : String}

theorem contactAdifValue_single (hname : normalizeAdifFieldName field = field)
    (value key : String) :
    contactAdifValue (single field value) key =
      if field = normalizeAdifFieldName key then some (.string value) else none := by
  rw [contactAdifValue, single, contactAdif_buildContact, Option.bind_some, normalizeContactAdif]
  simp only [List.map_cons, List.map_nil, insertAll, List.foldl_cons, List.foldl_nil]
  rw [hname, get?_insert]
  rfl

theorem contactMetaValue_single (value key : String) :
    contactMetaValue (single field value) key = none := by
  rw [contactMetaValue, single, contactMeta_buildContact, Option.bind_some]
  rfl

theorem comparable_single (hname : normalizeAdifFieldName field = field) (fields : List String)
    {value : String} (hvalue : Basic value) : Comparable fields (single field value) := by
  refine ⟨fun key _ v hv => ?_, fun key _ _ => contactMetaValue_single value (readName key)⟩
  rw [contactAdifValue_single hname] at hv
  split at hv
  · cases hv
    exact hvalue
  · cases hv

end Single

variable [Platform]

theorem basic_of_jsonString {value : Option Value} {text : String}
    (h : ∀ v ∈ value, ReadsAlike v) (htext : Log73.jsonString value = some text) :
    Basic text := by
  cases value with
  | none => cases htext
  | some value =>
      have hvalue := h value rfl
      cases value with
      | number n =>
          cases n with
          | int value =>
              rw [← Option.some_inj.mp htext]
              exact basic_toString value
          | float _ => exact absurd hvalue not_false
      | string s =>
          rw [← Option.some_inj.mp htext]
          exact hvalue
      | bool b =>
          rw [← Option.some_inj.mp htext]
          apply Basic.of_ascii
          cases b <;> decide
      | null | array _ | object _ => cases htext

theorem Canonical.eqIgnoreAsciiCase {field : String} (h : Canonical field) {name : String}
    (hname : toAsciiUppercase name = name) : eqIgnoreAsciiCase field name = (field == name) := by
  rw [Log73.eqIgnoreAsciiCase, toAsciiUppercase_normalizeAdifFieldName h.adif, hname]

theorem normalizeLoggerMode_eq {text : String} (h : Plain text) :
    normalizeLoggerMode (some text) = toUppercase (Log73.trim text) := by
  rw [normalizeLoggerMode, Option.getD_some, trim_eq h]
  rfl

variable [Browser]

theorem jsonString_eq {value : Option Value} (h : ∀ v ∈ value, ReadsAlike v) :
    jsonString value = Log73.jsonString value := by
  cases value with
  | none => rfl
  | some value =>
      have hvalue := h value rfl
      cases value with
      | number n =>
          cases n with
          | int value => exact congrArg some (if_pos hvalue)
          | float _ => exact absurd hvalue not_false
      | _ => rfl

omit [Browser] in
/-- A name in another case is in uppercase the name it is compared with. -/
theorem toUpperCase_of_eqIgnoreAsciiCase {field name : String} (hname : Ascii name)
    (hupper : toAsciiUppercase name = name) (h : eqIgnoreAsciiCase field name = true) :
    toUpperCase field = name := by
  have hsame : toAsciiUppercase field = name := (beq_iff_eq.mp h).trans hupper
  have hfield : Ascii field := by
    intro c hc
    have hmem : c.toUpper ∈ (toAsciiUppercase field).toList := by
      rw [toAsciiUppercase, String.toList_ofList]
      exact List.mem_map_of_mem hc
    have hcode := hname _ (hsame ▸ hmem)
    rw [toNat_toUpper] at hcode
    split at hcode <;> omega
  rw [toUpperCase, toUppercase_ascii hfield, hsame]

omit [Browser] [Platform] in
theorem readName_of_namesMode {field : String} (h : NamesModeClass field ∨ NamesMode field) :
    readName field = "MODE" := if_pos h

omit [Browser] [Platform] in
theorem not_namesModeClass {field : String} (h : NamesMode field) : ¬ NamesModeClass field := by
  intro hclass
  have hsame : toAsciiUppercase "MODE" = toAsciiUppercase "MODE_CLASS" :=
    (beq_iff_eq.mp h).symm.trans (beq_iff_eq.mp hclass)
  exact absurd hsame (by decide)

omit [Browser] in
/-- What the scorer reads of a field it does not derive. -/
theorem fieldValue_eq {field : String} (hname : Canonical field) (hclass : ¬ NamesModeClass field)
    (hderived : ¬ Derived field) (contact : Contact) :
    fieldValue contact field = plainFieldValue contact field := by
  have hne (name : String) (hupper : toAsciiUppercase name = name) (h : field ≠ name) :
      ¬ eqIgnoreAsciiCase field name = true := by
    rw [hname.eqIgnoreAsciiCase hupper, beq_iff_eq]
    exact h
  simp only [Derived, List.mem_cons, List.not_mem_nil, or_false, not_or] at hderived
  obtain ⟨hentityPrefix, hgrid, harea, hentity, hdok, hsac⟩ := hderived
  rw [fieldValue, if_neg hclass, if_neg (hne _ (by decide) hentityPrefix),
    if_neg (hne _ (by decide) hgrid), if_neg (hne _ (by decide) harea),
    if_neg (hne _ (by decide) hentity), if_neg (hne _ (by decide) hdok),
    if_neg (hne _ (by decide) hsac)]

section Fields

variable {fields : List String} {contact : Contact} (h : Comparable fields contact)
  {field : String} (hmem : field ∈ fields)
include h hmem

theorem jsonString_adifProperty (hname : normalizeAdifFieldName (readName field) = readName field) :
    jsonString (adifProperty contact (readName field)) =
      Log73.jsonString (contactAdifValue contact (readName field)) := by
  rw [adifProperty_eq hname]
  exact jsonString_eq fun value hvalue => h.values field hmem value hvalue

omit [Browser] in
theorem basic_adif {text : String}
    (htext : Log73.jsonString (contactAdifValue contact (readName field)) = some text) :
    Basic text :=
  basic_of_jsonString (fun value hvalue => h.values field hmem value hvalue) htext

omit [Browser] in
theorem plainFieldValue_eq (hclass : ¬ NamesModeClass field) :
    plainFieldValue contact (readName field) =
      ((Log73.jsonString (contactAdifValue contact (readName field))).map
        (Log73.normalizedFieldValue (readName field))).filter fun value => !value.isEmpty := by
  have hnone : Log73.jsonString (none : Option Value) = none := rfl
  rw [plainFieldValue, h.metadata field hmem hclass, hnone, Option.or_none]

/-- The mode class is read off the mode on both sides. -/
theorem modeClassKey_eq (hclass : NamesModeClass field) :
    modeClassKey (jsonString (adifProperty contact "MODE")) =
      (fieldValue contact field).getD "" := by
  have hread := readName_of_namesMode (Or.inl hclass)
  have hjson := jsonString_adifProperty h hmem (by rw [hread]; decide)
  rw [hread] at hjson
  rw [hjson, fieldValue, if_pos hclass]
  cases hmode : Log73.jsonString (contactAdifValue contact "MODE") with
  | none => rfl
  | some mode =>
      have hbasic := basic_adif h hmem (by rw [hread]; exact hmode)
      rw [modeClassKey, normalizeLoggerMode_eq hbasic.1, Option.map_some, Option.getD_some]
      generalize toUppercase (Log73.trim mode) = text
      by_cases hcw : text = "CW" ∨ text = "CW-R"
      · rw [if_pos hcw]
        cases hcw with
        | inl heq | inr heq => simp [heq]
      · rw [if_neg hcw]
        by_cases hphone : text = "SSB" ∨ text = "FM" ∨ text = "AM"
        · rw [if_pos hphone]
          obtain heq | heq | heq := hphone <;> simp [heq]
        · rw [if_neg hphone]
          split <;> simp_all

theorem dupeModeKey_eq (hnames : NamesMode field) :
    dupeModeKey (jsonString (adifProperty contact "MODE")) = (dupeModeClass contact).getD "" := by
  have hread := readName_of_namesMode (Or.inr hnames)
  have hjson := jsonString_adifProperty h hmem (by rw [hread]; decide)
  have hplain := plainFieldValue_eq h hmem (not_namesModeClass hnames)
  rw [hread] at hjson hplain
  have hvalue : fieldValue contact "MODE" = plainFieldValue contact "MODE" := rfl
  rw [hjson, dupeModeClass, hvalue, hplain]
  cases hmode : Log73.jsonString (contactAdifValue contact "MODE") with
  | none => rfl
  | some mode =>
      have hbasic := basic_adif h hmem (by rw [hread]; exact hmode)
      have hvalue : Log73.normalizedFieldValue "MODE" mode = toUppercase (Log73.trim mode) := by
        rw [Log73.normalizedFieldValue, if_neg]
        decide
      rw [dupeModeKey, normalizeLoggerMode_eq hbasic.1, Option.map_some, hvalue]
      generalize toUppercase (Log73.trim mode) = text
      by_cases hempty : text = ""
      · rw [hempty]
        rfl
      · have hisEmpty : (!text.isEmpty) = true := by simpa using hempty
        rw [if_neg hempty, Option.filter_some, if_pos hisEmpty, Option.map_some, Option.getD_some]
        by_cases hcw : text = "CW" ∨ text = "CW-R"
        · rw [if_pos hcw]
          cases hcw with
          | inl heq | inr heq => simp [heq]
        · rw [if_neg hcw]
          by_cases hssb : text = "SSB"
          · simp [hssb]
          · by_cases hfm : text = "FM"
            · simp [hfm]
            · rw [if_neg hssb, if_neg hfm]
              split <;> simp_all

/-- Both sides read the same text from a field that is not derived. -/
theorem contactFieldValue_eq (law : UppercaseLaw) (hname : SpelledAlike field)
    (hderived : ¬ Derived field) :
    contactFieldValue contact field =
      if eqIgnoreAsciiCase field "MODE" then (dupeModeClass contact).getD ""
      else (fieldValue contact field).getD "" := by
  rw [contactFieldValue]
  by_cases hclass : NamesModeClass field
  · have hmode : ¬ eqIgnoreAsciiCase field "MODE" = true := fun hmode =>
      not_namesModeClass hmode hclass
    rw [toUpperCase_of_eqIgnoreAsciiCase (by decide) (by decide) hclass, if_pos rfl, if_neg hmode]
    exact modeClassKey_eq h hmem hclass
  · by_cases hmode : NamesMode field
    · have hother : "MODE" ≠ "MODE_CLASS" := by decide
      rw [toUpperCase_of_eqIgnoreAsciiCase (by decide) (by decide) hmode, if_neg hother, if_pos rfl,
        if_pos hmode]
      exact dupeModeKey_eq h hmem hmode
    · have hcanonical : Canonical field := (hname.resolve_left hclass).resolve_left hmode
      have hread : readName field = field := if_neg (not_or.mpr ⟨hclass, hmode⟩)
      have hne {name : String} (hupper : toAsciiUppercase name = name)
          (hnot : ¬ eqIgnoreAsciiCase field name = true) : field ≠ name := by
        rw [hcanonical.eqIgnoreAsciiCase hupper, beq_iff_eq] at hnot
        exact hnot
      have hjson := jsonString_adifProperty h hmem (by rw [hread]; exact hcanonical.adif)
      have hplain := plainFieldValue_eq h hmem hclass
      rw [hread] at hjson hplain
      rw [hcanonical.upper, if_neg (hne (by decide) hclass), if_neg (hne (by decide) hmode),
        if_neg hmode, fieldValue_eq hcanonical hclass hderived, hplain, hjson]
      cases htext : Log73.jsonString (contactAdifValue contact field) with
      | none => rfl
      | some text =>
          have hbasic := basic_adif h hmem (by rw [hread]; exact htext)
          have hvalue : normalizedFieldValue field text =
              Log73.normalizedFieldValue field text := by
            rw [normalizedFieldValue, Log73.normalizedFieldValue, normalizeLoggerMode_eq hbasic.1,
              hcanonical.upper, hcanonical.eqIgnoreAsciiCase (by decide)]
            by_cases hcall : field = "CALL"
            · rw [if_pos hcall, if_pos (beq_iff_eq.mpr hcall)]
              exact dupeIdentity_eq law (hbasic.normalize law)
            · rw [if_neg hcall, if_neg (mt beq_iff_eq.mp hcall)]
          dsimp only
          rw [hvalue, Option.map_some]
          generalize Log73.normalizedFieldValue field text = value
          by_cases hempty : value = ""
          · rw [hempty]
            rfl
          · rw [Option.filter_some, if_pos (by simpa using hempty), Option.getD_some]

omit hmem in
/-- Without derived fields the two sides compute the same key. -/
theorem dupeKey_eq (law : UppercaseLaw) (hnames : ∀ field ∈ fields, SpelledAlike field)
    (hderived : ∀ field ∈ fields, ¬ Derived field) :
    dupeKey fields contact = dupeScoringKey contact fields := by
  rw [dupeKey, dupeScoringKey]
  congr 1
  exact List.map_congr_left fun field hfield =>
    contactFieldValue_eq h hfield law (hnames field hfield) (hderived field hfield)

end Fields

section Derived

omit [Platform] [Browser]

/-- The names under which the scorer reads the fields that it derives others from. -/
def sources : List String :=
  ["MODE", "PFX", "CALL", "GRIDSQUARE", "DXCC", "SRX_STRING", "SRX"]

theorem ne_normalize_of_derived {field : String} (h : Derived field) :
    ∀ source ∈ sources, field ≠ normalizeAdifFieldName source := by
  simp only [Derived, List.mem_cons, List.not_mem_nil, or_false] at h
  obtain rfl | rfl | rfl | rfl | rfl | rfl := h <;> decide

variable [Platform]

/-- What stands under the name of a derived field is never read by the scorer. -/
theorem fieldValue_single {field : String} (hname : Canonical field) (hderived : Derived field)
    (value : String) {key : String} (hkey : SpelledAlike key)
    (hnot : ¬ NamesMode key ∨ key = "MODE") : fieldValue (single field value) key = none := by
  have hnone : Log73.jsonString (none : Option Value) = none := rfl
  have hread : ∀ source ∈ sources, contactAdifValue (single field value) source = none := by
    intro source hsource
    rw [contactAdifValue_single hname.adif,
      if_neg (ne_normalize_of_derived hderived source hsource)]
  have hmode := hread "MODE" (by decide)
  have hpfx := hread "PFX" (by decide)
  have hcall := hread "CALL" (by decide)
  have hgrid := hread "GRIDSQUARE" (by decide)
  have hdxcc := hread "DXCC" (by decide)
  have hsrx := hread "SRX_STRING" (by decide)
  have hserial := hread "SRX" (by decide)
  by_cases hself : Derived key
  · simp only [Derived, List.mem_cons, List.not_mem_nil, or_false] at hself
    obtain rfl | rfl | rfl | rfl | rfl | rfl := hself <;>
      simp [fieldValue, contactPrefix, jarlCallArea, sacArea, eqIgnoreAsciiCase_self, *]
  · by_cases hclass : NamesModeClass key
    · rw [fieldValue, if_pos hclass, hmode, hnone]
      rfl
    · have hcanonical : Canonical key := by
        cases hnot with
        | inl hother => exact (hkey.resolve_left hclass).resolve_left hother
        | inr heq =>
            rw [heq]
            exact ⟨by decide, rfl⟩
      have hne : field ≠ key := fun heq => hself (heq ▸ hderived)
      rw [fieldValue_eq hcanonical hclass hself, plainFieldValue,
        contactMetaValue_single, contactAdifValue_single hname.adif, hcanonical.adif, if_neg hne,
        hnone]
      rfl

theorem dupeScoringKey_single {field : String} (hname : Canonical field)
    (hderived : Derived field) {fields : List String} (hfields : ∀ key ∈ fields, SpelledAlike key)
    (value : String) : dupeScoringKey (single field value) fields =
      joinWith "|" (fields.map fun _ => "") := by
  refine congrArg (joinWith "|") (List.map_congr_left fun key hkey => ?_)
  have hmode : SpelledAlike "MODE" := Or.inr (Or.inl rfl)
  split
  · rw [dupeModeClass, fieldValue_single hname hderived value hmode (Or.inr rfl)]
    rfl
  · next hother =>
      rw [fieldValue_single hname hderived value (hfields key hkey) (Or.inl hother)]
      rfl

variable [Browser]

/-- The frontend reads what stands under the name of a derived field, and nothing else. -/
theorem contactFieldValue_single {field : String} (hname : Canonical field)
    (hderived : Derived field) (value : String) {key : String} (hkey : SpelledAlike key) :
    contactFieldValue (single field value) key =
      if field = key then normalizeLoggerMode (some value) else "" := by
  have hread {key : String} (hkey : normalizeAdifFieldName key = key) :
      adifProperty (single field value) key =
        if field = key then some (.string value) else none := by
    rw [adifProperty_eq hkey, contactAdifValue_single hname.adif, hkey]
  have hderivedNe {name : String} (hname : ¬ Derived name) : field ≠ name :=
    fun heq => hname (heq ▸ hderived)
  have hmode : adifProperty (single field value) "MODE" = none := by
    rw [hread (by decide), if_neg (hderivedNe (by decide))]
  have hempty : normalizeLoggerMode none = "" := rfl
  have hnone : jsonString none = none := rfl
  -- a derived name is none of the mode
  have hother {name : String} (hupper : toAsciiUppercase name = name) (hname : ¬ Derived name)
      (hnames : eqIgnoreAsciiCase key name = true) : field ≠ key := by
    rintro rfl
    rw [‹Canonical field›.eqIgnoreAsciiCase hupper, beq_iff_eq] at hnames
    exact hderivedNe hname hnames
  rw [contactFieldValue, hmode, hnone]
  by_cases hclass : NamesModeClass key
  · rw [toUpperCase_of_eqIgnoreAsciiCase (by decide) (by decide) hclass, if_pos rfl,
      if_neg (hother (by decide) (by decide) hclass), modeClassKey, hempty]
    decide
  · by_cases hkeyMode : NamesMode key
    · have hne : "MODE" ≠ "MODE_CLASS" := by decide
      rw [toUpperCase_of_eqIgnoreAsciiCase (by decide) (by decide) hkeyMode, if_neg hne, if_pos rfl,
        if_neg (hother (by decide) (by decide) hkeyMode), dupeModeKey, hempty]
      decide
    · have hcanonical : Canonical key := (hkey.resolve_left hclass).resolve_left hkeyMode
      have hne {name : String} (hupper : toAsciiUppercase name = name)
          (hnot : ¬ eqIgnoreAsciiCase key name = true) : key ≠ name := by
        rw [hcanonical.eqIgnoreAsciiCase hupper, beq_iff_eq] at hnot
        exact hnot
      rw [hcanonical.upper, if_neg (hne (by decide) hclass), if_neg (hne (by decide) hkeyMode),
        hread hcanonical.adif]
      by_cases heq : field = key
      · have hcall : toUpperCase key ≠ "CALL" := by
          rw [hcanonical.upper, ← heq]
          exact hderivedNe (by decide)
        rw [if_pos heq, if_pos heq, jsonString]
        exact if_neg hcall
      · rw [if_neg heq, if_neg heq, hnone]

theorem mem_dupeKey_single {field : String} (hname : Canonical field) (hderived : Derived field)
    {fields : List String} (hfields : ∀ key ∈ fields, SpelledAlike key) (hmem : field ∈ fields)
    {value : String} {c : Char} (hc : c ≠ '|') :
    c ∈ (dupeKey fields (single field value)).toList ↔
      c ∈ (normalizeLoggerMode (some value)).toList := by
  have hsep : c ∉ "|".toList := by simpa using hc
  rw [dupeKey, mem_joinWith hsep]
  constructor
  · intro hpart
    obtain ⟨part, hpart, hcpart⟩ := hpart
    obtain ⟨key, hkey, rfl⟩ := List.mem_map.mp hpart
    rw [contactFieldValue_single hname hderived value (hfields key hkey)] at hcpart
    split at hcpart
    · exact hcpart
    · cases hcpart
  · intro hvalue
    refine ⟨_, List.mem_map_of_mem hmem, ?_⟩
    rw [contactFieldValue_single hname hderived value (Or.inr (Or.inr hname)), if_pos rfl]
    exact hvalue

omit [Browser] in
/-- A derived field is no mode. -/
theorem canonical_of_derived {field : String} (h : SpelledAlike field) (hderived : Derived field) :
    Canonical field := by
  simp only [Derived, List.mem_cons, List.not_mem_nil, or_false] at hderived
  obtain rfl | rfl | rfl | rfl | rfl | rfl := hderived <;>
    exact (h.resolve_left (by decide)).resolve_left (by decide)

/-- The dupe check of the frontend and the dupe marks of the backend agree on all pairs of
contacts that read alike exactly when the dupe key names no derived field. -/
theorem dupeKeys_agree_iff (law : UppercaseLaw) {fields : List String}
    (hnames : ∀ field ∈ fields, SpelledAlike field) :
    (∀ a b : Contact, Comparable fields a → Comparable fields b →
      (dupeKey fields a = dupeKey fields b ↔ dupeScoringKey a fields = dupeScoringKey b fields)) ↔
    ∀ field ∈ fields, ¬ Derived field := by
  constructor
  · intro hagree field hmem hderived
    have hname := canonical_of_derived (hnames field hmem) hderived
    have hbasic {text : String} (h : ∀ c ∈ text.toList, c.toNat < 128) : Basic text :=
      Basic.of_ascii h
    have hA : Basic "A" := hbasic (by decide)
    have hB : Basic "B" := hbasic (by decide)
    have hsame : dupeScoringKey (single field "A") fields =
        dupeScoringKey (single field "B") fields := by
      rw [dupeScoringKey_single hname hderived hnames "A",
        dupeScoringKey_single hname hderived hnames "B"]
    have hkeys := (hagree _ _ (comparable_single hname.adif fields hA)
      (comparable_single hname.adif fields hB)).mpr hsame
    -- the letter stored under the derived name shows in one of the two keys only
    have hvalueA : normalizeLoggerMode (some "A") = "A" := rfl
    have hvalueB : normalizeLoggerMode (some "B") = "B" := rfl
    have hin : 'A' ∈ (dupeKey fields (single field "A")).toList := by
      rw [mem_dupeKey_single hname hderived hnames hmem (by decide), hvalueA]
      decide
    rw [hkeys, mem_dupeKey_single hname hderived hnames hmem (by decide), hvalueB] at hin
    exact absurd hin (by decide)
  · intro hderived a b ha hb
    rw [dupeKey_eq ha law hnames hderived, dupeKey_eq hb law hnames hderived]

end Derived

end Frontend

attribute [local instance] asciiPlatform

namespace Frontend

attribute [local instance] plainBrowser

/-- A contact with a callsign and a band. -/
def worked (callsign : String) : Contact :=
  buildContact [] [("CALL", .string callsign), ("BAND", .string "20m")]

theorem dupeKey_worked :
    dupeKey ["WPX_PREFIX", "BAND"] (worked "K1ABC") =
        dupeKey ["WPX_PREFIX", "BAND"] (worked "W2XYZ")
      ∧ dupeScoringKey (worked "K1ABC") ["WPX_PREFIX", "BAND"] = "K1|20M"
      ∧ dupeScoringKey (worked "W2XYZ") ["WPX_PREFIX", "BAND"] = "W2|20M" := by
  decide +kernel

theorem dupeKeys_agree_iff_band :
    (UppercaseLaw ∧ ∀ field ∈ ["CALL", "BAND", "mode"], SpelledAlike field) ∧
    ((∀ a b : Contact, Comparable ["CALL", "BAND", "mode"] a →
      Comparable ["CALL", "BAND", "mode"] b →
      (dupeKey ["CALL", "BAND", "mode"] a = dupeKey ["CALL", "BAND", "mode"] b ↔
        dupeScoringKey a ["CALL", "BAND", "mode"] = dupeScoringKey b ["CALL", "BAND", "mode"])) ↔
      ∀ field ∈ ["CALL", "BAND", "mode"], ¬ Derived field) := by
  have hnames : ∀ field ∈ ["CALL", "BAND", "mode"], SpelledAlike field := by
    intro field hfield
    simp only [List.mem_cons, List.not_mem_nil, or_false] at hfield
    obtain rfl | rfl | rfl := hfield
    · exact Or.inr (Or.inr ⟨by decide, rfl⟩)
    · exact Or.inr (Or.inr ⟨by decide, rfl⟩)
    · exact Or.inr (Or.inl (by decide))
  exact ⟨⟨uppercaseLaw_ascii, hnames⟩, dupeKeys_agree_iff uppercaseLaw_ascii hnames⟩

end Frontend

end Log73
