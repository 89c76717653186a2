import Log73.Frontend.SerialNext
import Mathlib.Algebra.Group.Int.Defs
import Mathlib.Data.List.Pairwise

/-!
The next serial of a page is the greatest one it was told of or comes to, whatever the order of
what it takes in: the maximum of the backend's next serials and of one more than each serial of a
contact.
-/

namespace Log73.Frontend.SerialNext

open Maximum (join join_assoc join_none_right max?_append max?_congr exists_le_max?)

/-- A positive number that a double has exactly. -/
def Exact (value : Int) : Prop := 0 < value ∧ value ≤ 2 ^ 53

theorem exact_max {number : Option Int} (h : ∀ value, number = some value → Exact value)
    {value : Int} (hvalue : Exact value) : Exact (max (number.getD 1) value) := by
  cases number with
  | none => exact ⟨lt_max_of_lt_right hvalue.1, max_le (by decide) hvalue.2⟩
  | some other => exact ⟨lt_max_of_lt_right hvalue.1, max_le (h other rfl).2 hvalue.2⟩

theorem some_max_getD {number : Option Int} {value : Int} (hvalue : Exact value) :
    some (max (number.getD 1) value) = join number (some value) := by
  cases number with
  | none =>
      have hle : (1 : Int) ≤ value := hvalue.1
      rw [Option.getD_none, max_eq_right hle]
      rfl
  | some other => rfl

theorem join_eq_left {number : Option Int} {serial : Int} (hpos : 0 < serial)
    (hlt : serial < number.getD 1) : join number (some (serial + 1)) = number := by
  cases number with
  | none =>
      rw [Option.getD_none] at hlt
      omega
  | some value =>
      rw [Option.getD_some] at hlt
      exact congrArg some (max_eq_left hlt)

theorem join_eq_right {number : Option Int} {serial : Int}
    (hle : ¬serial < number.getD 1) : join number (some (serial + 1)) = some (serial + 1) := by
  cases number with
  | none => rfl
  | some value =>
      rw [Option.getD_some] at hle
      exact congrArg some (max_eq_right (by omega))

section Bands

variable [SerialBrowser]

def SameBand (left right : String) : Prop :=
  SerialBrowser.toLowerCase left = SerialBrowser.toLowerCase right

instance instDecidableSameBand (left right : String) : Decidable (SameBand left right) :=
  inferInstanceAs (Decidable (_ = _))

omit [SerialBrowser] in
/-- A name under which an object keeps a number, and that is not read in place of a missing one. -/
def PlainName (key : String) : Prop := key ≠ "__proto__" ∧ key ≠ "undefined"

/-- Bands that differ in more than case, with plain names and exact numbers. -/
structure Good (entries : List (String × Int)) : Prop where
  apart : entries.Pairwise fun left right => ¬SameBand left.1 right.1
  exact : ∀ entry ∈ entries, Exact entry.2
  plain : ∀ entry ∈ entries, PlainName entry.1

/-- The number of a band, however it is spelled. -/
def numberOf (entries : List (String × Int)) (band : String) : Option Int :=
  (entries.find? fun entry => SameBand entry.1 band).map Prod.snd

variable {entries : List (String × Int)} {band : String}

theorem numberOf_eq_some (h : entries.Pairwise fun left right => ¬SameBand left.1 right.1)
    {value : Int} : numberOf entries band = some value ↔
      ∃ entry ∈ entries, SameBand entry.1 band ∧ entry.2 = value := by
  rw [numberOf]
  induction entries with
  | nil => simp
  | cons first entries ih =>
      obtain ⟨hfirst, hrest⟩ := List.pairwise_cons.mp h
      rw [List.find?_cons]
      split
      · next hsame =>
          have hband : SameBand first.1 band := of_decide_eq_true hsame
          rw [Option.map_some, Option.some.injEq]
          constructor
          · rintro rfl
            exact ⟨first, List.mem_cons_self, hband, rfl⟩
          · rintro ⟨entry, hmem, hentry, rfl⟩
            rcases List.mem_cons.mp hmem with rfl | hlater
            · rfl
            · exact absurd (hband.trans hentry.symm) (hfirst entry hlater)
      · next hother =>
          rw [ih hrest]
          constructor
          · rintro ⟨entry, hmem, hentry, rfl⟩
            exact ⟨entry, List.mem_cons_of_mem _ hmem, hentry, rfl⟩
          · rintro ⟨entry, hmem, hentry, rfl⟩
            rcases List.mem_cons.mp hmem with rfl | hlater
            · exact absurd hentry (of_decide_eq_false hother)
            · exact ⟨entry, hlater, hentry, rfl⟩

theorem numberOf_nil (band : String) : numberOf [] band = none := rfl

theorem numberOf_cons (first : String × Int) (entries : List (String × Int)) (band : String) :
    numberOf (first :: entries) band =
      if SameBand first.1 band then some first.2 else numberOf entries band := by
  rw [numberOf, List.find?_cons]
  by_cases hsame : SameBand first.1 band
  · rw [decide_eq_true hsame, if_pos hsame]
    rfl
  · rw [decide_eq_false hsame, if_neg hsame]
    rfl

theorem numberOf_congr {other : String} (hsame : SameBand band other) :
    numberOf entries band = numberOf entries other := by
  have hfind : (fun entry : String × Int => decide (SameBand entry.1 band)) =
      fun entry => decide (SameBand entry.1 other) := by
    funext entry
    exact decide_eq_decide.mpr ⟨fun h => h.trans hsame, fun h => h.trans hsame.symm⟩
  rw [numberOf, numberOf, hfind]

theorem bandKey_eq : bandKey entries band =
    (entries.find? fun entry => SameBand entry.1 band).map Prod.fst := by
  rw [bandKey, List.find?_map]
  rfl

/-- The key that a value of a band is set under. -/
def keyFor (entries : List (String × Int)) (band : String) : String :=
  (bandKey entries band).getD band

theorem sameBand_keyFor (entries : List (String × Int)) (band : String) :
    SameBand (keyFor entries band) band := by
  rw [keyFor, bandKey_eq]
  cases hfind : entries.find? fun entry => SameBand entry.1 band with
  | none => rfl
  | some entry => exact of_decide_eq_true (by simpa using List.find?_some hfind)

theorem eq_of_sameBand (h : entries.Pairwise fun left right => ¬SameBand left.1 right.1)
    {left right : String × Int} (hleft : left ∈ entries) (hright : right ∈ entries)
    (hsame : SameBand left.1 right.1) : left = right := by
  have : Std.Symm fun left right : String × Int => ¬SameBand left.1 right.1 :=
    ⟨fun _ _ hnot hsame => hnot hsame.symm⟩
  by_contra hne
  exact List.Pairwise.forall h hleft hright hne hsame

/-- The key of a band is that of its entry, or the band itself where it has none. -/
theorem keyFor_cases (entries : List (String × Int)) (band : String) :
    (∃ entry ∈ entries, SameBand entry.1 band ∧ keyFor entries band = entry.1) ∨
      (∀ entry ∈ entries, ¬SameBand entry.1 band) ∧ keyFor entries band = band := by
  rw [keyFor, bandKey_eq]
  cases hfind : entries.find? fun entry => SameBand entry.1 band with
  | none =>
      refine Or.inr ⟨fun entry hmem hband => ?_, rfl⟩
      exact List.find?_eq_none.mp hfind entry hmem (decide_eq_true hband)
  | some entry =>
      have hband : SameBand entry.1 band := by simpa using List.find?_some hfind
      exact Or.inl ⟨entry, List.mem_of_find?_eq_some hfind, hband, rfl⟩

theorem Good.plain_keyFor (h : Good entries) (hband : PlainName band) :
    PlainName (keyFor entries band) := by
  rcases keyFor_cases entries band with ⟨entry, hmem, -, hkey⟩ | ⟨-, hkey⟩
  · rw [hkey]
    exact h.plain entry hmem
  · rw [hkey]
    exact hband

theorem Good.keys (h : Good entries) : entries.Pairwise fun left right => left.1 ≠ right.1 :=
  h.apart.imp fun hapart heq => hapart (congrArg SerialBrowser.toLowerCase heq)

theorem Good.exact_numberOf (h : Good entries) {band : String} {value : Int}
    (hnumber : numberOf entries band = some value) : Exact value := by
  obtain ⟨entry, hmem, -, rfl⟩ := (numberOf_eq_some h.apart).mp hnumber
  exact h.exact entry hmem

theorem Good.numberOf_eq (h : Good entries) {entry : String × Int} (hmem : entry ∈ entries)
    (hband : SameBand entry.1 band) : numberOf entries band = some entry.2 :=
  (numberOf_eq_some h.apart).mpr ⟨entry, hmem, hband, rfl⟩

theorem numberOf_eq_none (h : ∀ entry ∈ entries, ¬SameBand entry.1 band) :
    numberOf entries band = none := by
  have hnone : entries.find? (fun entry => SameBand entry.1 band) = none := by simpa using h
  rw [numberOf, hnone, Option.map_none]

theorem Good.set (h : Good entries) {value : Int} (hvalue : Exact value) (hband : PlainName band) :
    Good (OrderedMap.set entries (keyFor entries band) value) := by
  have hapart : (∀ entry ∈ entries, entry.1 ≠ keyFor entries band) →
      ∀ entry ∈ entries, ¬SameBand entry.1 (keyFor entries band) := by
    intro hnew
    rcases keyFor_cases entries band with ⟨entry, hmem, -, hkey⟩ | ⟨hnone, hkey⟩
    · exact absurd hkey.symm (hnew entry hmem)
    · rw [hkey]
      exact hnone
  refine ⟨OrderedMap.pairwise_set (R := fun left right => ¬SameBand left right) h.apart hapart,
    fun entry hmem => ?_, fun entry hmem => ?_⟩
  · rcases (OrderedMap.mem_set entry).mp hmem with rfl | ⟨hold, -⟩
    · exact hvalue
    · exact h.exact entry hold
  · rcases (OrderedMap.mem_set entry).mp hmem with rfl | ⟨hold, -⟩
    · exact h.plain_keyFor hband
    · exact h.plain entry hold

theorem Good.numberOf_set (h : Good entries) {value : Int} (hvalue : Exact value)
    (hband : PlainName band) (other : String) :
    numberOf (OrderedMap.set entries (keyFor entries band) value) other =
      if SameBand band other then some value else numberOf entries other := by
  have hkey := sameBand_keyFor entries band
  apply Option.ext
  intro found
  rw [numberOf_eq_some (h.set hvalue hband).apart]
  split
  · next hsame =>
      rw [Option.some.injEq]
      constructor
      · rintro ⟨entry, hmem, hentry, rfl⟩
        rcases (OrderedMap.mem_set entry).mp hmem with rfl | ⟨hold, hne⟩
        · rfl
        · have hentryBand : SameBand entry.1 band := hentry.trans hsame.symm
          rcases keyFor_cases entries band with ⟨first, hfirst, hfirstBand, hfirstKey⟩ | ⟨hnone, -⟩
          · rw [eq_of_sameBand h.apart hold hfirst (hentryBand.trans hfirstBand.symm)] at hne
            exact absurd hfirstKey.symm hne
          · exact absurd hentryBand (hnone entry hold)
      · rintro rfl
        exact ⟨_, (OrderedMap.mem_set _).mpr (Or.inl rfl), hkey.trans hsame, rfl⟩
  · next hother =>
      rw [numberOf_eq_some h.apart]
      constructor
      · rintro ⟨entry, hmem, hentry, rfl⟩
        rcases (OrderedMap.mem_set entry).mp hmem with rfl | ⟨hold, -⟩
        · exact absurd (hkey.symm.trans hentry) hother
        · exact ⟨entry, hold, hentry, rfl⟩
      · rintro ⟨entry, hmem, hentry, rfl⟩
        have hne : entry.1 ≠ keyFor entries band := by
          intro heq
          rw [heq] at hentry
          exact hother (hkey.symm.trans hentry)
        exact ⟨entry, (OrderedMap.mem_set entry).mpr (Or.inr ⟨hmem, hne⟩), hentry, rfl⟩

end Bands

section Numbers

variable [Browser]

theorem positiveNumber_eq {value : Int} (h : Exact value) : positiveNumber value = some value := by
  obtain ⟨hpos, hle⟩ := h
  rw [positiveNumber, if_pos (by omega), Option.filter_some, if_pos (decide_eq_true hpos)]

omit [Browser] in
theorem toDouble_eq {value : Int} (h : Exact value) : toDouble value = value := by
  obtain ⟨hpos, hle⟩ := h
  exact toDouble_of_le (by omega)

variable [SerialBrowser] {entries : List (String × Int)}

theorem Good.propertyNumber_eq (h : Good entries) {entry : String × Int} (hmem : entry ∈ entries) :
    propertyNumber entries entry.1 = some entry.2 := by
  rw [propertyNumber, OrderedMap.get?_eq_some h.keys hmem, Option.bind_some,
    positiveNumber_eq (h.exact entry hmem)]

omit [SerialBrowser] in
theorem propertyNumber_eq_none {key : String} (h : ∀ entry ∈ entries, entry.1 ≠ key) :
    propertyNumber entries key = none := by
  have hnone : entries.find? (·.1 = key) = none := by simpa using h
  rw [propertyNumber, OrderedMap.get?, hnone, Option.map_none, Option.bind_none]

theorem Good.propertyNumber_keyFor (h : Good entries) (band : String) :
    propertyNumber entries (keyFor entries band) = numberOf entries band := by
  rcases keyFor_cases entries band with ⟨entry, hmem, hband, hkey⟩ | ⟨hnone, hkey⟩
  · rw [hkey, h.propertyNumber_eq hmem, h.numberOf_eq hmem hband]
  · rw [hkey, numberOf_eq_none hnone, propertyNumber_eq_none]
    exact fun entry hmem heq => hnone entry hmem (congrArg SerialBrowser.toLowerCase heq)

/-- What is read for a band is its number. -/
theorem Good.propertyNumber_bandKey (h : Good entries) (band : String) :
    propertyNumber entries ((bandKey entries band).getD "undefined") = numberOf entries band := by
  cases hkey : bandKey entries band with
  | some key =>
      have hfor : keyFor entries band = key := by rw [keyFor, hkey, Option.getD_some]
      rw [Option.getD_some, ← hfor, h.propertyNumber_keyFor]
  | none =>
      rw [bandKey_eq, Option.map_eq_none_iff] at hkey
      rw [Option.getD_none, numberOf, hkey, Option.map_none, propertyNumber_eq_none]
      exact fun entry hmem => (h.plain entry hmem).2

theorem Good.propertyNumber_keyFor_getD (h : Good entries) (band : String) :
    propertyNumber entries ((bandKey entries band).getD band) = numberOf entries band :=
  h.propertyNumber_keyFor band

theorem Good.mergeBand_eq (h : Good entries) {observed : String × Int} (hexact : Exact observed.2)
    (hplain : PlainName observed.1) : mergeBand entries observed =
      OrderedMap.set entries (keyFor entries observed.1)
        (max ((numberOf entries observed.1).getD 1) observed.2) := by
  rw [mergeBand, h.propertyNumber_keyFor_getD, positiveNumber_eq hexact, Option.getD_some, assign,
    if_neg fun hproto => (h.plain_keyFor hplain).1 hproto.1]
  rfl

/-- What two objects have, for each band the greater number. -/
theorem Good.foldl_mergeBand {observed : List (String × Int)} (h : Good entries)
    (hobserved : Good observed) : Good (observed.foldl mergeBand entries) ∧
      ∀ band, numberOf (observed.foldl mergeBand entries) band =
        join (numberOf entries band) (numberOf observed band) := by
  induction observed generalizing entries with
  | nil =>
      refine ⟨h, fun band => ?_⟩
      rw [List.foldl_nil, numberOf_nil, join_none_right]
  | cons first observed ih =>
      obtain ⟨hfirst, hrest⟩ := List.pairwise_cons.mp hobserved.apart
      have hgood : Good observed :=
        ⟨hrest, fun entry hmem => hobserved.exact entry (List.mem_cons_of_mem _ hmem),
          fun entry hmem => hobserved.plain entry (List.mem_cons_of_mem _ hmem)⟩
      have hexact := hobserved.exact first List.mem_cons_self
      have hplain := hobserved.plain first List.mem_cons_self
      have hmax : Exact (max ((numberOf entries first.1).getD 1) first.2) :=
        exact_max (fun _ hnumber => h.exact_numberOf hnumber) hexact
      rw [List.foldl_cons, h.mergeBand_eq hexact hplain]
      obtain ⟨hmerged, hnumbers⟩ := ih (h.set hmax hplain) hgood
      refine ⟨hmerged, fun band => ?_⟩
      rw [hnumbers, h.numberOf_set hmax hplain]
      rw [numberOf_cons]
      split
      · next hsame =>
          have hnone : numberOf observed band = none :=
            numberOf_eq_none fun entry hmem hband => hfirst entry hmem (hsame.trans hband.symm)
          rw [hnone, some_max_getD hexact, join_none_right, numberOf_congr hsame]
      · rfl

end Numbers

section Events

variable [Browser] [SerialBrowser] (field : String) (serialScope : SerialScope)

omit [Browser] in
/-- A state of the backend for the field and the scope, where nothing is reserved, with positive
serials and bands that differ in more than case. -/
def OfField : Event → Prop
  | .refreshed payload _ => payload.fieldAdif = field ∧ payload.scope = serialScope ∧
      payload.reservationRequired = false ∧
      if serialScope = .band then
        (∀ entry ∈ payload.nextByBand.toList, 0 < entry.2) ∧
          payload.nextByBand.toList.Pairwise fun left right => ¬SameBand left.1 right.1
      else ∃ next, payload.next = some next ∧ 0 < next
  | .observed _ => True

/-- Serials that a double has exactly, those of contacts with the next one, and plain names of
bands. -/
def Plain : Event → Prop
  | .refreshed payload _ =>
      if serialScope = .band then
        ∀ entry ∈ payload.nextByBand.toList, entry.2 ≤ 2 ^ 53 ∧ PlainName entry.1
      else ∀ next, payload.next = some next → next ≤ 2 ^ 53
  | .observed adif =>
      (∀ serial, positiveInteger (SortedAssoc.get? adif field) = some serial → serial < 2 ^ 53) ∧
        (serialScope = .band → PlainName (observedBand adif))

/-- The next serials that an event tells of, overall or for a band: those of the backend, and one
more than the serial of a contact. -/
def nextSerials (band : String) : Event → List Int
  | .refreshed payload _ =>
      if serialScope = .band then
        (payload.nextByBand.toList.filter fun entry => SameBand entry.1 band).map Prod.snd
      else payload.next.toList
  | .observed adif =>
      match positiveInteger (SortedAssoc.get? adif field) with
      | none => []
      | some serial =>
          if serialScope ≠ .band ∨
              observedBand adif ≠ "" ∧ SameBand (observedBand adif) band then [serial + 1]
          else []

/-- A state of the field with exact numbers. -/
structure Sound (state : State) : Prop where
  fieldAdif : state.fieldAdif = field
  scope : state.scope = if serialScope = .band then .band else .global
  unreserved : state.reservationRequired = false
  next : serialScope ≠ .band → ∃ next, state.next = some next ∧ Exact next
  bands : serialScope = .band → Good state.nextByBand

variable {field serialScope} {state : State}

omit [Browser] in
theorem Sound.scope_eq_band (h : Sound field serialScope state) :
    state.scope = .band ↔ serialScope = .band := by
  rw [h.scope]
  split
  · next hband => exact iff_of_true rfl hband
  · next hband => exact iff_of_false (fun heq => by cases heq) hband

/-- The next serial is the one overall, or that of the band. -/
theorem Sound.currentSerialForBand_eq (h : Sound field serialScope state) (band : String) :
    currentSerialForBand (some state) (some band) =
      if serialScope = .band then numberOf state.nextByBand band else state.next := by
  rw [currentSerialForBand, Option.bind_some]
  by_cases hband : serialScope = .band
  · rw [if_neg (not_not.mpr (h.scope_eq_band.mpr hband)), if_pos hband]
    exact (h.bands hband).propertyNumber_bandKey band
  · obtain ⟨next, hnext, hexact⟩ := h.next hband
    rw [if_pos (h.scope_eq_band.not.mpr hband), if_neg hband, hnext, Option.bind_some,
      positiveNumber_eq hexact]

omit [Browser] in
theorem numberOf_eq_max? {entries : List (String × Int)}
    (h : entries.Pairwise fun left right => ¬SameBand left.1 right.1) (band : String) :
    numberOf entries band =
      ((entries.filter fun entry => SameBand entry.1 band).map Prod.snd).max? := by
  have hmem (value : Int) :
      value ∈ (entries.filter fun entry => SameBand entry.1 band).map Prod.snd ↔
      numberOf entries band = some value := by
    rw [numberOf_eq_some h]
    simp [and_assoc]
  cases hnumber : numberOf entries band with
  | none =>
      rw [eq_comm, List.max?_eq_none_iff, List.eq_nil_iff_forall_not_mem]
      intro value hvalue
      rw [hmem, hnumber] at hvalue
      cases hvalue
  | some value =>
      refine (List.max?_eq_some_iff.mpr ⟨(hmem value).mpr hnumber, fun other hother => ?_⟩).symm
      rw [hmem, hnumber, Option.some.injEq] at hother
      exact hother.ge

/-- A state of the backend, read as it is. -/
theorem sound_serialStateFromBackend {payload : Log73.SerialState} {unusedSerial : Option Int}
    (hfield : OfField field serialScope (.refreshed payload unusedSerial))
    (hplain : Plain field serialScope (.refreshed payload unusedSerial)) :
    Sound field serialScope (serialStateFromBackend payload) ∧
      ∀ band, currentSerialForBand (some (serialStateFromBackend payload)) (some band) =
        (nextSerials field serialScope band (.refreshed payload unusedSerial)).max? := by
  obtain ⟨hadif, hscope, hunreserved, hserials⟩ := hfield
  rw [Plain] at hplain
  have hentries (hband : serialScope = .band) :
      (serialStateFromBackend payload).nextByBand = payload.nextByBand.toList := by
    rw [if_pos hband] at hserials hplain
    have hread : ∀ entry ∈ payload.nextByBand.toList,
        (positiveNumber (toDouble entry.2)).map (fun value => (entry.1, value)) = some entry := by
      intro entry hmem
      have hexact : Exact entry.2 := ⟨hserials.1 entry hmem, (hplain entry hmem).1⟩
      rw [toDouble_eq hexact, positiveNumber_eq hexact, Option.map_some]
    exact (List.filterMap_congr hread).trans List.filterMap_some
  have hnext (hband : serialScope ≠ .band) :
      ∃ next, payload.next = some next ∧ (serialStateFromBackend payload).next = some next ∧
        Exact next := by
    rw [if_neg hband] at hserials hplain
    obtain ⟨next, hnext, hpos⟩ := hserials
    have hexact : Exact next := ⟨hpos, hplain next hnext⟩
    refine ⟨next, hnext, ?_, hexact⟩
    change payload.next.bind (fun value => positiveNumber (toDouble value)) = some next
    rw [hnext, Option.bind_some, toDouble_eq hexact, positiveNumber_eq hexact]
  have hsound : Sound field serialScope (serialStateFromBackend payload) := by
    refine ⟨hadif, ?_, hunreserved, fun hband => ?_, fun hband => ?_⟩
    · rw [← hscope]
      rfl
    · obtain ⟨next, -, hstate, hexact⟩ := hnext hband
      exact ⟨next, hstate, hexact⟩
    · rw [hentries hband]
      rw [if_pos hband] at hserials hplain
      exact ⟨hserials.2, fun entry hmem => ⟨hserials.1 entry hmem, (hplain entry hmem).1⟩,
        fun entry hmem => (hplain entry hmem).2⟩
  refine ⟨hsound, fun band => ?_⟩
  rw [hsound.currentSerialForBand_eq, nextSerials]
  by_cases hband : serialScope = .band
  · rw [if_pos hband, if_pos hband, hentries hband]
    rw [if_pos hband] at hserials
    exact numberOf_eq_max? hserials.2 band
  · obtain ⟨next, hpayload, hstate, -⟩ := hnext hband
    rw [if_neg hband, if_neg hband, hstate, hpayload]
    rfl

theorem Sound.mergeSerialStates (h : Sound field serialScope state) {observed : State}
    (hobserved : Sound field serialScope observed) :
    Sound field serialScope (mergeSerialStates state (some observed)) ∧
      ∀ band, currentSerialForBand (some (SerialNext.mergeSerialStates state (some observed)))
          (some band) =
        join (currentSerialForBand (some state) (some band))
          (currentSerialForBand (some observed) (some band)) := by
  have hsame : ¬(state.fieldAdif ≠ observed.fieldAdif ∨ state.scope ≠ observed.scope) := by
    rw [h.fieldAdif, hobserved.fieldAdif, h.scope, hobserved.scope]
    simp
  rw [SerialNext.mergeSerialStates, if_neg hsame]
  by_cases hband : serialScope = .band
  · rw [if_neg (not_not.mpr (h.scope_eq_band.mpr hband))]
    obtain ⟨hgood, hnumbers⟩ := (h.bands hband).foldl_mergeBand (hobserved.bands hband)
    have hmerged : Sound field serialScope { state with
        nextByBand := observed.nextByBand.foldl mergeBand state.nextByBand } :=
      ⟨h.fieldAdif, h.scope, h.unreserved, fun hnot => absurd hband hnot, fun _ => hgood⟩
    refine ⟨hmerged, fun band => ?_⟩
    rw [hmerged.currentSerialForBand_eq, h.currentSerialForBand_eq,
      hobserved.currentSerialForBand_eq, if_pos hband, if_pos hband, if_pos hband]
    exact hnumbers band
  · rw [if_pos (h.scope_eq_band.not.mpr hband)]
    obtain ⟨next, hnext, hexact⟩ := h.next hband
    obtain ⟨other, hother, hexact'⟩ := hobserved.next hband
    have hmax : some (max ((state.next.bind positiveNumber).getD 1)
        ((observed.next.bind positiveNumber).getD 1)) = some (max next other) := by
      rw [hnext, hother, Option.bind_some, Option.bind_some, positiveNumber_eq hexact,
        positiveNumber_eq hexact']
      rfl
    rw [hmax]
    have hmerged : Sound field serialScope { state with next := some (max next other) } :=
      ⟨h.fieldAdif, h.scope, h.unreserved,
        fun _ => ⟨_, rfl, lt_max_of_lt_left hexact.1, max_le hexact.2 hexact'.2⟩,
        fun heq => absurd heq hband⟩
    refine ⟨hmerged, fun band => ?_⟩
    rw [hmerged.currentSerialForBand_eq, h.currentSerialForBand_eq,
      hobserved.currentSerialForBand_eq, if_neg hband, if_neg hband, if_neg hband, hnext, hother]
    rfl

/-- The state after a contact, changed or not. -/
def afterContact (state : State) (adif : Map) : State :=
  (serialStateAfterContact state adif).getD state

theorem Sound.afterContact (h : Sound field serialScope state) (hfield : field ≠ "") {adif : Map}
    (hplain : Plain field serialScope (.observed adif)) :
    Sound field serialScope (afterContact state adif) ∧
      ∀ band, currentSerialForBand (some (SerialNext.afterContact state adif)) (some band) =
        join (currentSerialForBand (some state) (some band))
          (nextSerials field serialScope band (.observed adif)).max? := by
  obtain rfl := h.fieldAdif
  rw [SerialNext.afterContact, serialStateAfterContact, if_neg (String.isEmpty_iff.not.mpr hfield)]
  have hunchanged {serials : List Int} (hempty : serials = []) :
      ∀ band, currentSerialForBand (some state) (some band) =
        join (currentSerialForBand (some state) (some band)) serials.max? := by
    intro band
    rw [hempty, List.max?_nil, join_none_right]
  cases hserial : positiveInteger (SortedAssoc.get? adif state.fieldAdif) with
  | none =>
      refine ⟨h, fun band => hunchanged ?_ band⟩
      rw [nextSerials, hserial]
  | some serial =>
      have hpos : 0 < serial := of_decide_eq_true (Option.filter_eq_some_iff.mp hserial).2
      have hsafe : serial < 2 ^ 53 := hplain.1 serial hserial
      have hexact : Exact (serial + 1) := ⟨by omega, by omega⟩
      rw [Option.bind_some, toDouble_eq hexact]
      by_cases hband : serialScope = .band
      · rw [if_pos (h.scope_eq_band.mpr hband)]
        have hgood := h.bands hband
        have hname := hplain.2 hband
        by_cases hempty : (observedBand adif).isEmpty
        · rw [if_pos hempty]
          refine ⟨h, fun band => hunchanged ?_ band⟩
          rw [nextSerials, hserial]
          exact if_neg fun hor => hor.elim (absurd hband) fun hand =>
            hand.1 (String.isEmpty_iff.mp hempty)
        · rw [if_neg hempty]
          dsimp only
          rw [hgood.propertyNumber_keyFor_getD]
          have hserials (band : String) :
              nextSerials state.fieldAdif serialScope band (.observed adif) =
              if SameBand (observedBand adif) band then [serial + 1] else [] := by
            rw [nextSerials, hserial]
            have hnonempty : observedBand adif ≠ "" := fun heq => hempty (heq ▸ rfl)
            simp [hband, hnonempty]
          by_cases hlt : serial < (numberOf state.nextByBand (observedBand adif)).getD 1
          · rw [if_pos hlt]
            refine ⟨h, fun band => ?_⟩
            rw [hserials]
            split
            · next hsame =>
                rw [Option.getD_none, h.currentSerialForBand_eq, if_pos hband,
                  ← numberOf_congr hsame]
                exact (join_eq_left hpos hlt).symm
            · exact hunchanged rfl band
          · rw [if_neg hlt]
            have hafter : Sound state.fieldAdif serialScope { state with
                nextByBand := OrderedMap.set state.nextByBand
                  (keyFor state.nextByBand (observedBand adif)) (serial + 1) } :=
              ⟨h.fieldAdif, h.scope, h.unreserved, fun hnot => absurd hband hnot,
                fun _ => hgood.set hexact hname⟩
            refine ⟨hafter, fun band => ?_⟩
            rw [Option.getD_some, hserials]
            refine (hafter.currentSerialForBand_eq band).trans ?_
            rw [if_pos hband, hgood.numberOf_set hexact hname, h.currentSerialForBand_eq,
              if_pos hband]
            split
            · next hsame =>
                rw [← numberOf_congr hsame]
                exact (join_eq_right hlt).symm
            · rw [List.max?_nil, join_none_right]
      · rw [if_neg (h.scope_eq_band.not.mpr hband)]
        obtain ⟨next, hnext, hnextExact⟩ := h.next hband
        have hserials (band : String) :
            nextSerials state.fieldAdif serialScope band (.observed adif) = [serial + 1] := by
          rw [nextSerials, hserial]
          exact if_pos (Or.inl hband)
        rw [hnext, Option.bind_some, positiveNumber_eq hnextExact]
        by_cases hlt : serial < (some next).getD 1
        · rw [if_pos hlt]
          refine ⟨h, fun band => ?_⟩
          rw [Option.getD_none, h.currentSerialForBand_eq, if_neg hband, hserials, hnext]
          exact (join_eq_left hpos hlt).symm
        · rw [if_neg hlt]
          have hafter : Sound state.fieldAdif serialScope
              { state with next := some (serial + 1) } :=
            ⟨h.fieldAdif, h.scope, h.unreserved, fun _ => ⟨_, rfl, hexact⟩,
              fun heq => absurd heq hband⟩
          refine ⟨hafter, fun band => ?_⟩
          refine (hafter.currentSerialForBand_eq band).trans ?_
          rw [if_neg hband, h.currentSerialForBand_eq, if_neg hband, hserials, hnext]
          exact (join_eq_right hlt).symm

theorem Sound.observeContact_eq (h : Sound field serialScope state) (adif : Map) :
    observeContact { state := some state } adif =
      { state := some (SerialNext.afterContact state adif) } := by
  rw [observeContact, SerialNext.afterContact]
  dsimp only
  cases serialStateAfterContact state adif with
  | none => rfl
  | some nextState =>
      rw [h.unreserved]
      rfl

theorem refresh_eq {manager : Manager} {payload : Log73.SerialState}
    (h : Sound field serialScope
      (mergeSerialStates (serialStateFromBackend payload) manager.state))
    (unusedSerial : Option Int) : refresh manager payload unusedSerial =
      manager.pendingContacts.foldl observeContact
        { state := some (mergeSerialStates (serialStateFromBackend payload) manager.state) } := by
  have hunreserved :
      ¬(mergeSerialStates (serialStateFromBackend payload) manager.state).reservationRequired := by
    rw [h.unreserved]
    exact Bool.false_ne_true
  rw [refresh, if_neg hunreserved]

/-- The contacts that were held back, one after another. -/
theorem Sound.foldl_observeContact (h : Sound field serialScope state) (hfield : field ≠ "")
    {contacts : List Map}
    (hplain : ∀ adif ∈ contacts, Plain field serialScope (.observed adif)) :
    ∃ after, contacts.foldl observeContact { state := some state } = { state := some after } ∧
      Sound field serialScope after ∧
      ∀ band, currentSerialForBand (some after) (some band) =
        join (currentSerialForBand (some state) (some band))
          ((contacts.map Event.observed).flatMap (nextSerials field serialScope band)).max? := by
  induction contacts generalizing state with
  | nil =>
      refine ⟨state, rfl, h, fun band => ?_⟩
      rw [List.map_nil, List.flatMap_nil, List.max?_nil, join_none_right]
  | cons adif contacts ih =>
      obtain ⟨hsound, hcurrent⟩ := h.afterContact hfield (hplain adif List.mem_cons_self)
      obtain ⟨after, hfold, hafter, hlater⟩ :=
        ih hsound fun other hmem => hplain other (List.mem_cons_of_mem _ hmem)
      refine ⟨after, ?_, hafter, fun band => ?_⟩
      · rw [List.foldl_cons, h.observeContact_eq, hfold]
      · rw [hlater, hcurrent, List.map_cons, List.flatMap_cons, max?_append, join_assoc]

variable (field serialScope) in
/-- Contacts wait for the first state of the backend; from then on the next serials are the
greatest of all that was told of. -/
inductive Tracks (events : List Event) : Manager → Prop
  | waiting (contacts : List Map) (hevents : events = contacts.map Event.observed) :
      Tracks events { pendingContacts := contacts }
  | tracking (state : State) (hsound : Sound field serialScope state)
      (hserials : ∀ band, currentSerialForBand (some state) (some band) =
        (events.flatMap (nextSerials field serialScope band)).max?) :
      Tracks events { state := some state }

theorem join_max?_comm (events : List Event) (event : Event) (band : String) :
    join (nextSerials field serialScope band event).max?
        (events.flatMap (nextSerials field serialScope band)).max? =
      ((events ++ [event]).flatMap (nextSerials field serialScope band)).max? := by
  rw [← max?_append]
  refine max?_congr fun serial => ?_
  simp [or_comm]

theorem Tracks.step {events : List Event} {manager : Manager}
    (h : Tracks field serialScope events manager) (hfield : field ≠ "") {event : Event}
    (hof : OfField field serialScope event) (hplain : Plain field serialScope event)
    (hbefore : ∀ earlier ∈ events, Plain field serialScope earlier) :
    Tracks field serialScope (events ++ [event]) (step manager event) := by
  cases event with
  | observed adif =>
      cases h with
      | waiting contacts hevents =>
          refine .waiting (contacts ++ [adif]) ?_
          rw [hevents, List.map_append, List.map_singleton]
      | tracking state hsound hserials =>
          obtain ⟨hafter, hcurrent⟩ := hsound.afterContact hfield hplain
          rw [SerialNext.step, hsound.observeContact_eq]
          refine .tracking _ hafter fun band => ?_
          rw [hcurrent, hserials, List.flatMap_append, max?_append, List.flatMap_singleton]
  | refreshed payload unusedSerial =>
      obtain ⟨hbackend, hcurrent⟩ := sound_serialStateFromBackend hof hplain
      rw [SerialNext.step]
      cases h with
      | waiting contacts hevents =>
          have hcontacts : ∀ adif ∈ contacts, Plain field serialScope (.observed adif) := by
            intro adif hmem
            exact hbefore _ (hevents ▸ List.mem_map_of_mem hmem)
          obtain ⟨after, hfold, hafter, hlater⟩ :=
            hbackend.foldl_observeContact hfield hcontacts
          rw [refresh_eq hbackend]
          refine hfold ▸ .tracking _ hafter fun band => ?_
          rw [hlater, hcurrent, ← hevents, join_max?_comm]
      | tracking state hsound hserials =>
          obtain ⟨hmerged, hjoined⟩ := hbackend.mergeSerialStates hsound
          rw [refresh_eq hmerged]
          refine .tracking _ hmerged fun band => ?_
          rw [← join_max?_comm, ← hserials, ← hcurrent]
          exact hjoined band

theorem tracks_run {events : List Event} (hfield : field ≠ "")
    (hof : ∀ event ∈ events, OfField field serialScope event)
    (hplain : ∀ event ∈ events, Plain field serialScope event) :
    Tracks field serialScope events (Runs.run step {} events) := by
  induction events using List.reverseRecOn with
  | nil => exact .waiting [] rfl
  | append_singleton events event ih =>
      have hmem : event ∈ events ++ [event] := List.mem_append_right _ (List.mem_singleton_self _)
      have hevents : ∀ earlier ∈ events, Plain field serialScope earlier :=
        fun earlier hearlier => hplain earlier (List.mem_append_left _ hearlier)
      have htracks := ih (fun earlier hearlier => hof earlier (List.mem_append_left _ hearlier))
        hevents
      rw [Runs.run_append]
      exact htracks.step hfield (hof event hmem) (hplain event hmem) hevents

theorem Tracks.currentSerialForBand_eq {events : List Event} {manager : Manager}
    (h : Tracks field serialScope events manager) {payload : Log73.SerialState}
    {unusedSerial : Option Int} (hrefreshed : .refreshed payload unusedSerial ∈ events)
    (band : String) : currentSerialForBand manager.state (some band) =
      (events.flatMap (nextSerials field serialScope band)).max? := by
  cases h with
  | waiting contacts hevents =>
      rw [hevents] at hrefreshed
      obtain ⟨adif, -, hadif⟩ := List.mem_map.mp hrefreshed
      cases hadif
  | tracking state hsound hserials => exact hserials band

variable (field serialScope) in
/-- Once a state of the backend has come, the next serial is the maximum of the next serials of
the backend and of one more than each serial of a contact, whatever the order of the events; and
more events never lower it. -/
theorem currentSerialForBand_run (hfield : field ≠ "") (events later : List Event)
    (hof : ∀ event ∈ events ++ later, OfField field serialScope event)
    (hplain : ∀ event ∈ events ++ later, Plain field serialScope event)
    (payload : Log73.SerialState) (unusedSerial : Option Int)
    (hrefreshed : .refreshed payload unusedSerial ∈ events) (band : String) :
    currentSerialForBand (Runs.run step {} events).state (some band) =
        (events.flatMap (nextSerials field serialScope band)).max?
      ∧ ∀ serial, currentSerialForBand (Runs.run step {} events).state (some band) = some serial →
          ∃ next, currentSerialForBand (Runs.run step {} (events ++ later)).state (some band)
              = some next ∧ serial ≤ next := by
  have hevents : Tracks field serialScope events (Runs.run step {} events) := tracks_run hfield
    (fun event hmem => hof event (List.mem_append_left _ hmem))
    (fun event hmem => hplain event (List.mem_append_left _ hmem))
  have hall := tracks_run hfield hof hplain
  have hcurrent := hevents.currentSerialForBand_eq hrefreshed band
  refine ⟨hcurrent, fun serial hserial => ?_⟩
  rw [hall.currentSerialForBand_eq (List.mem_append_left _ hrefreshed) band]
  rw [hcurrent] at hserial
  refine exists_le_max? ?_ hserial
  rw [List.flatMap_append]
  exact List.subset_append_left _ _

end Events

end Log73.Frontend.SerialNext

namespace Log73

attribute [local instance] Frontend.plainBrowser

namespace Frontend.SerialNext

/-- A browser that knows ASCII only. -/
@[reducible] def plainSerialBrowser : SerialBrowser where
  toLowerCase := toAsciiLowercase
  valueText _ := ""

attribute [local instance] plainSerialBrowser

/-- The next serial of one band. -/
def bandPayload : Log73.SerialState where
  fieldAdif := "STX"
  scope := .band
  reservationRequired := false
  next := none
  nextByBand := (∅ : KeyMap Int).insert "20M" 4

def sentContact (band serial : String) : Map := [("BAND", .string band), ("STX", .string serial)]

/-- Serial 5 is sent on a band of this name before the backend is asked again. -/
def prototypeEvents : List Event :=
  [.refreshed bandPayload none, .observed (sentContact "__proto__" "5"),
    .refreshed bandPayload none]

theorem ofField_bandPayload (unusedSerial : Option Int) :
    OfField "STX" .band (.refreshed bandPayload unusedSerial) := by
  have hentries : bandPayload.nextByBand.toList = [("20M", 4)] := by decide +kernel
  refine ⟨rfl, rfl, rfl, ?_⟩
  rw [hentries]
  exact ⟨by decide, List.pairwise_singleton _ _⟩

/-- The next serial of the band is 6 after the contact, and gone after the second answer. -/
theorem not_max_prototypeEvents :
    (∀ event ∈ prototypeEvents, OfField "STX" .band event)
      ∧ currentSerialForBand (Runs.run step {} (prototypeEvents.take 2)).state (some "__proto__")
          = some 6
      ∧ currentSerialForBand (Runs.run step {} prototypeEvents).state (some "__proto__") ≠
          (prototypeEvents.flatMap (nextSerials "STX" .band "__proto__")).max? := by
  refine ⟨fun event hmem => ?_, by decide +kernel, by decide +kernel⟩
  rw [prototypeEvents, List.mem_cons, List.mem_cons, List.mem_singleton] at hmem
  rcases hmem with rfl | rfl | rfl
  · exact ofField_bandPayload none
  · trivial
  · exact ofField_bandPayload none

theorem plain_bandPayload (unusedSerial : Option Int) :
    Plain "STX" .band (.refreshed bandPayload unusedSerial) := by
  have hentries : bandPayload.nextByBand.toList = [("20M", 4)] := by decide +kernel
  rw [Plain, if_pos rfl, hentries]
  intro entry hmem
  rw [List.mem_singleton.mp hmem]
  exact ⟨by decide, by decide, by decide⟩

theorem plain_sentContact : Plain "STX" .band (.observed (sentContact "20m" "7")) := by
  have hread : positiveInteger (SortedAssoc.get? (sentContact "20m" "7") "STX") = some 7 := by
    decide +kernel
  refine ⟨fun serial hserial => ?_, fun _ => ⟨by decide +kernel, by decide +kernel⟩⟩
  rw [hread, Option.some.injEq] at hserial
  omega

theorem currentSerialForBand_run_sentContact :
    currentSerialForBand (Runs.run step {} [.observed (sentContact "20m" "7"),
          .refreshed bandPayload none]).state (some "20M") =
        ([Event.observed (sentContact "20m" "7"), .refreshed bandPayload none].flatMap
          (nextSerials "STX" .band "20M")).max?
      ∧ ∀ serial, currentSerialForBand (Runs.run step {} [.observed (sentContact "20m" "7"),
            .refreshed bandPayload none]).state (some "20M") = some serial →
          ∃ next, currentSerialForBand (Runs.run step {} ([.observed (sentContact "20m" "7"),
            .refreshed bandPayload none] ++ [.observed (sentContact "20m" "7")])).state
              (some "20M") = some next ∧ serial ≤ next := by
  have hof : ∀ event ∈ [Event.observed (sentContact "20m" "7"), .refreshed bandPayload none] ++
      [.observed (sentContact "20m" "7")], OfField "STX" .band event := by
    intro event hmem
    simp only [List.cons_append, List.nil_append, List.mem_cons, List.not_mem_nil, or_false] at hmem
    rcases hmem with rfl | rfl | rfl
    · trivial
    · exact ofField_bandPayload none
    · trivial
  have hplain : ∀ event ∈ [Event.observed (sentContact "20m" "7"), .refreshed bandPayload none] ++
      [.observed (sentContact "20m" "7")], Plain "STX" .band event := by
    intro event hmem
    simp only [List.cons_append, List.nil_append, List.mem_cons, List.not_mem_nil, or_false] at hmem
    rcases hmem with rfl | rfl | rfl
    · exact plain_sentContact
    · exact plain_bandPayload none
    · exact plain_sentContact
  exact currentSerialForBand_run "STX" .band (by decide) _ _ hof hplain bandPayload none
    (by simp) "20M"

end Frontend.SerialNext

end Log73
