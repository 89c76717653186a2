import Mathlib.Data.String.Basic
import Log73.BandMap.Spots
import Log73.Frontend.Dupes
import Log73.Library.Collating
import Log73.Library.Runs
import Log73.Library.TreeMap

/-!
The band map store of the browser (`bandMap.js`) over spots of any form, where `BandMap` has it
at the spots the backend sends: the order it keeps, the spots it holds, and the frequencies of
its CQ marks.
-/

namespace Log73.Frontend.SpotStore

open Collating TreeMap
open SortedAssoc (get?)

/-- Behaviour of the browser that the store rests on: `Number` of a value where it is finite,
`Math.round` of a hundredth, the text of an array or an object, and the two orders that
`localeCompare` is asked for. -/
class SpotBrowser where
  toNumber : Value → Option ℚ
  roundHundredth : ℚ → Int
  structureText : Value → String
  localeCompare : String → String → Int
  numericCompare : String → String → Int

/-- A spot as the store holds it: the fields it came with, and those that are written over
them. -/
structure StoredSpot where
  fields : Map
  id : String
  spotType : BandMapSpotType
  frequencyHz : ℚ
  frequencyTenthKhz : Int
  callDe : String
  callDx : String
  displayCallsign : String

section Spots

variable [Browser] [SpotBrowser]

/-- `String(value)`. -/
def text : Value → String
  | .null => "null"
  | .bool b => toString b
  | .number n => numberText n
  | .string s => s
  | value => SpotBrowser.structureText value

omit [Browser] [SpotBrowser] in
def truthy : Value → Bool
  | .null => false
  | .bool b => b
  | .number (.int value) => value ≠ 0
  | .number (.float value) => value ≠ 0
  | .string s => !s.isEmpty
  | _ => true

omit [Browser] [SpotBrowser] in
/-- A property that is neither missing nor null. -/
def property (fields : Map) (name : String) : Option Value :=
  (get? fields name).filter fun value => !value.isNull

def normalizedFrequencyHz (value : Option Value) : ℚ :=
  ((value.bind SpotBrowser.toNumber).filter (0 < ·)).getD 0

def frequencyTenthKhz (frequencyHz : ℚ) : Int := SpotBrowser.roundHundredth frequencyHz

/-- The names of the types are lowercase letters that nothing outside ASCII comes down to. -/
def normalizedSpotType (fields : Map) : BandMapSpotType :=
  let type := toAsciiLowercase <| trim <|
    (((property fields "spot_type").or (property fields "spotType")).or
      (property fields "type")).elim "" text
  if type = "cq" then .cq
  else if type = "in_use" then .inUse
  else if type = "rbn" then .rbn
  else if type = "local" then .localSpot
  else
    match get? fields "source" with
    | some (.string "rbn") => .rbn
    | _ => .dx

def cqDisplayCallsign (fields : Map) : String :=
  let radioName := trim ((property fields "radio_name").elim "" text)
  if radioName.isEmpty then "*** CQ ***" else "*** CQ (" ++ radioName ++ ") ***"

omit [Browser] [SpotBrowser] in
def sourceDisplaySuffix : BandMapSpotType → String
  | .rbn => "RBN"
  | .localSpot => "LOCAL"
  | _ => "DX"

variable [Platform]

def spotDisplayCallsign (spot : StoredSpot) : String :=
  match spot.spotType with
  | .cq => cqDisplayCallsign spot.fields
  | .inUse => "*** In Use ***"
  | spotType =>
      let callDx := toUpperCase (trim spot.callDx)
      if callDx.isEmpty then "" else callDx ++ " (" ++ sourceDisplaySuffix spotType ++ ")"

def normalizeBandMapSpot (rawSpot : Value) : Option StoredSpot :=
  rawSpot.asObject.bind fun fields => (property fields "id").bind fun id =>
    let frequencyHz := normalizedFrequencyHz (((property fields "frequency_hz").or
      (property fields "frequencyHz")).or (get? fields "freq"))
    if frequencyHz = 0 then none
    else
      let normalizedSpot : StoredSpot := {
        fields
        id := text id
        spotType := normalizedSpotType fields
        frequencyHz
        frequencyTenthKhz := frequencyTenthKhz frequencyHz
        callDe := toUpperCase (trim ((property fields "call_de").elim "" text))
        callDx := toUpperCase
          (trim (((property fields "call_dx").or (property fields "call")).elim "" text))
        displayCallsign := "" }
      some { normalizedSpot with displayCallsign := spotDisplayCallsign normalizedSpot }

end Spots

/-- `BandMapSpotStore`, with the frequency of the CQ mark of a band and a radio. -/
structure Store where
  spotsById : KeyMap StoredSpot := ∅
  sortedSpots : List StoredSpot := []
  cqFrequencyHzByBandAndRadio : KeyMap ℚ := ∅

section Store

variable [Browser] [SpotBrowser] [Platform]

def compareFrequencies (left right : StoredSpot) : Int :=
  left.frequencyTenthKhz - right.frequencyTenthKhz

def compareCallsigns (left right : StoredSpot) : Int :=
  SpotBrowser.localeCompare (spotDisplayCallsign left) (spotDisplayCallsign right)

omit [Browser] [Platform] in
def compareIds (left right : StoredSpot) : Int := SpotBrowser.numericCompare left.id right.id

/-- By frequency, then by what is displayed, then by id. -/
def compareSpots : StoredSpot → StoredSpot → Int :=
  andThen compareFrequencies (andThen compareCallsigns compareIds)

def sortedInsertIndex (spots : List StoredSpot) (spot : StoredSpot) : Nat :=
  searchIndex (fun other => compareSpots other spot ≤ 0) spots

omit [Platform] in
/-- The entry of a CQ mark in the table of CQ frequencies, if it has one. -/
def cqKey (spot : StoredSpot) : Option String :=
  if spot.spotType = .cq then
    ((get? spot.fields "band_name").filter truthy).bind fun bandName =>
      (property spot.fields "radio_id").map fun radioId => text bandName ++ ":" ++ text radioId
  else none

omit [Platform] in
/-- The table without the entry of a spot that is replaced or removed. -/
def withoutMark (store : Store) (spot : Option StoredSpot) : KeyMap ℚ :=
  (spot.bind cqKey).elim store.cqFrequencyHzByBandAndRadio
    store.cqFrequencyHzByBandAndRadio.erase

def addBandMapSpot (store : Store) (rawSpot : Value) : Store :=
  match normalizeBandMapSpot rawSpot with
  | none => store
  | some spot =>
      let cqFrequencyHzByBandAndRadio := withoutMark store store.spotsById[spot.id]?
      let sortedSpots := store.sortedSpots.filter fun currentSpot => currentSpot.id ≠ spot.id
      { spotsById := store.spotsById.insert spot.id spot
        sortedSpots := sortedSpots.insertIdx (sortedInsertIndex sortedSpots spot) spot
        cqFrequencyHzByBandAndRadio := (cqKey spot).elim cqFrequencyHzByBandAndRadio fun key =>
          cqFrequencyHzByBandAndRadio.insert key spot.frequencyHz }

omit [Platform] in
def removeBandMapSpot (store : Store) (id : Value) : Store :=
  match store.spotsById[text id]? with
  | none => store
  | some removedSpot =>
      { spotsById := store.spotsById.erase (text id)
        sortedSpots := store.sortedSpots.filter fun spot => spot.id ≠ text id
        cqFrequencyHzByBandAndRadio := withoutMark store (some removedSpot) }

/-- A call on the store. -/
inductive StoreCall where
  | addBandMapSpot (rawSpot : Value)
  | removeBandMapSpot (id : Value)

def step (store : Store) : StoreCall → Store
  | .addBandMapSpot rawSpot => addBandMapSpot store rawSpot
  | .removeBandMapSpot id => removeBandMapSpot store id

end Store

section Held

variable [Browser] [SpotBrowser] [Platform]

/-- The spots that are drawn are those that are held, each under its id and drawn once. -/
structure Held (store : Store) : Prop where
  keyed : ∀ (id : String) (spot : StoredSpot), store.spotsById[id]? = some spot → spot.id = id
  drawn : ∀ spot : StoredSpot, spot ∈ store.sortedSpots ↔ store.spotsById[spot.id]? = some spot
  once : store.sortedSpots.Nodup

/-- An order of text and an order of ids give the store its order. -/
structure BrowserOrders : Prop where
  callsigns : Comparator SpotBrowser.localeCompare
  ids : Comparator SpotBrowser.numericCompare

theorem comparator_compareSpots (horders : BrowserOrders) : Comparator compareSpots :=
  (comparator_sub.comap StoredSpot.frequencyTenthKhz).andThen
    ((horders.callsigns.comap spotDisplayCallsign).andThen
      (horders.ids.comap StoredSpot.id))

theorem sorted_step (horders : BrowserOrders) {store : Store}
    (h : Sorted compareSpots store.sortedSpots) (call : StoreCall) :
    Sorted compareSpots (step store call).sortedSpots := by
  cases call with
  | addBandMapSpot rawSpot =>
      rw [step, addBandMapSpot]
      cases normalizeBandMapSpot rawSpot with
      | none => exact h
      | some spot => exact (h.filter _).insertIdx (comparator_compareSpots horders) spot
  | removeBandMapSpot id =>
      rw [step, removeBandMapSpot]
      cases store.spotsById[text id]? with
      | none => exact h
      | some removedSpot => exact h.filter _

theorem sortedInsertIndex_le (spots : List StoredSpot) (spot : StoredSpot) :
    sortedInsertIndex spots spot ≤ spots.length := searchIndex_le _ _

theorem held_add {store : Store} (h : Held store) (rawSpot : Value) :
    Held (addBandMapSpot store rawSpot) := by
  rw [addBandMapSpot]
  cases normalizeBandMapSpot rawSpot with
  | none => exact h
  | some spot =>
      have hperm := List.perm_insertIdx spot _ (sortedInsertIndex_le
        (store.sortedSpots.filter fun currentSpot => currentSpot.id ≠ spot.id) spot)
      refine ⟨fun id other hget => ?_, fun other => ?_, ?_⟩
      · rw [getElem?_insert_key] at hget
        split at hget
        · next heq => exact Option.some.inj hget ▸ heq
        · exact h.keyed id other hget
      · rw [hperm.mem_iff, List.mem_cons, List.mem_filter, h.drawn, getElem?_insert_key,
          decide_eq_true_eq]
        by_cases heq : spot.id = other.id
        · rw [if_pos heq, Option.some.injEq]
          constructor
          · intro hor
            exact hor.elim Eq.symm fun hand => absurd heq.symm hand.2
          · intro hsame
            exact Or.inl hsame.symm
        · rw [if_neg heq]
          constructor
          · intro hor
            exact hor.elim (fun hsame => absurd (congrArg StoredSpot.id hsame.symm) heq) And.left
          · intro hget
            exact Or.inr ⟨hget, Ne.symm heq⟩
      · rw [hperm.nodup_iff, List.nodup_cons]
        refine ⟨fun hmem => ?_, h.once.filter _⟩
        exact of_decide_eq_true (List.mem_filter.mp hmem).2 rfl

omit [Platform] in
theorem held_remove {store : Store} (h : Held store) (id : Value) :
    Held (removeBandMapSpot store id) := by
  rw [removeBandMapSpot]
  cases store.spotsById[text id]? with
  | none => exact h
  | some removedSpot =>
      refine ⟨fun other spot hget => ?_, fun spot => ?_, h.once.filter _⟩
      · rw [getElem?_erase_key] at hget
        split at hget
        · cases hget
        · exact h.keyed other spot hget
      · rw [List.mem_filter, h.drawn, getElem?_erase_key, decide_eq_true_eq]
        by_cases heq : spot.id = text id
        · rw [if_pos heq.symm]
          exact iff_of_false (fun hand => hand.2 heq) fun hnone => by cases hnone
        · rw [if_neg (Ne.symm heq)]
          exact and_iff_left heq

theorem held_step {store : Store} (h : Held store) (call : StoreCall) : Held (step store call) := by
  cases call with
  | addBandMapSpot rawSpot => exact held_add h rawSpot
  | removeBandMapSpot id => exact held_remove h id

end Held

section Marks

variable [Browser] [SpotBrowser]

/-- The table has an entry for each CQ mark that is held, with the frequency of one that is. -/
structure CqDerived (store : Store) : Prop where
  listed : ∀ (key : String) (frequencyHz : ℚ),
    store.cqFrequencyHzByBandAndRadio[key]? = some frequencyHz →
      ∃ (id : String) (spot : StoredSpot), store.spotsById[id]? = some spot ∧ cqKey spot = some key
        ∧ spot.frequencyHz = frequencyHz
  complete : ∀ (id : String) (spot : StoredSpot) (key : String), store.spotsById[id]? = some spot →
    cqKey spot = some key → (store.cqFrequencyHzByBandAndRadio[key]?).isSome

/-- No spot under another id has this mark. -/
def Alone (store : Store) (id key : String) : Prop :=
  ∀ (other : String) (spot : StoredSpot), other ≠ id → store.spotsById[other]? = some spot →
    cqKey spot ≠ some key

/-- What comes in place of the spot under an id, or nothing, gives up its mark only where no
other spot has it. -/
def GivesUpAlone (store : Store) (id : String) (next : Option StoredSpot) : Prop :=
  ∀ key, (store.spotsById[id]?).bind cqKey = some key → next.bind cqKey ≠ some key →
    Alone store id key

variable {store changed : Store} {id : String} {next : Option StoredSpot}

theorem cqDerived_change
    (hspots : ∀ other, changed.spotsById[other]? =
      if id = other then next else store.spotsById[other]?)
    (hmarks : ∀ key, changed.cqFrequencyHzByBandAndRadio[key]? =
      if next.bind cqKey = some key then next.map StoredSpot.frequencyHz
      else if (store.spotsById[id]?).bind cqKey = some key then none
      else store.cqFrequencyHzByBandAndRadio[key]?)
    (h : CqDerived store) : CqDerived changed ↔ GivesUpAlone store id next := by
  constructor
  · intro hchanged key hprevious hnext other spot hne hget hkey
    have hsome := hchanged.complete other spot key (by rw [hspots, if_neg (Ne.symm hne), hget]) hkey
    rw [hmarks, if_neg hnext, if_pos hprevious] at hsome
    cases hsome
  · intro halone
    constructor
    · intro key frequencyHz hmark
      rw [hmarks] at hmark
      split at hmark
      · next hnext =>
          obtain ⟨spot, hspot, hfrequency⟩ := Option.map_eq_some_iff.mp hmark
          refine ⟨id, spot, by rw [hspots, if_pos rfl, hspot], ?_, hfrequency⟩
          rwa [hspot] at hnext
      · split at hmark
        · cases hmark
        · next hprevious =>
            obtain ⟨other, spot, hget, hkey, hfrequency⟩ := h.listed key frequencyHz hmark
            refine ⟨other, spot, ?_, hkey, hfrequency⟩
            have hne : id ≠ other := by
              intro heq
              rw [heq, hget] at hprevious
              exact hprevious hkey
            rw [hspots, if_neg hne, hget]
    · intro other spot key hget hkey
      rw [hspots] at hget
      rw [hmarks]
      by_cases hnext : next.bind cqKey = some key
      · rw [if_pos hnext]
        obtain ⟨spot, hspot, -⟩ := Option.bind_eq_some_iff.mp hnext
        rw [hspot]
        rfl
      · have hne : id ≠ other := by
          intro heq
          rw [if_pos heq] at hget
          rw [hget] at hnext
          exact hnext hkey
        rw [if_neg hne] at hget
        rw [if_neg hnext, if_neg]
        · exact h.complete other spot key hget hkey
        · intro hprevious
          exact halone key hprevious hnext other spot (Ne.symm hne) hget hkey

theorem getElem?_withoutMark (store : Store) (spot : Option StoredSpot) (key : String) :
    (withoutMark store spot)[key]? =
      if spot.bind cqKey = some key then none else store.cqFrequencyHzByBandAndRadio[key]? := by
  rw [withoutMark]
  cases spot.bind cqKey with
  | none => rfl
  | some mark =>
      rw [Option.elim_some, getElem?_erase_key]
      simp only [Option.some.injEq]

variable [Platform]

/-- The calls that leave the mark of a band and a radio to none but its own spot. -/
def KeepsMarks (store : Store) : StoreCall → Prop
  | .addBandMapSpot rawSpot =>
      ∀ spot, normalizeBandMapSpot rawSpot = some spot → GivesUpAlone store spot.id (some spot)
  | .removeBandMapSpot id => GivesUpAlone store (text id) none

theorem cqDerived_step (h : CqDerived store) (call : StoreCall) :
    CqDerived (step store call) ↔ KeepsMarks store call := by
  cases call with
  | addBandMapSpot rawSpot =>
      rw [step, addBandMapSpot, KeepsMarks]
      cases normalizeBandMapSpot rawSpot with
      | none => exact iff_of_true h fun _ hspot => by cases hspot
      | some spot =>
          dsimp only
          rw [cqDerived_change (fun other => getElem?_insert_key _ _ other spot) _ h]
          · constructor
            · intro hgives other heq
              exact Option.some.inj heq ▸ hgives
            · exact fun hgives => hgives spot rfl
          · intro key
            rw [Option.bind_some, Option.map_some]
            cases hmark : cqKey spot with
            | none => exact getElem?_withoutMark store _ key
            | some mark =>
                rw [Option.elim_some, getElem?_insert_key, getElem?_withoutMark]
                simp only [Option.some.injEq]
  | removeBandMapSpot id =>
      rw [step, removeBandMapSpot, KeepsMarks]
      cases hget : store.spotsById[text id]? with
      | none =>
          refine iff_of_true h fun key hkey => ?_
          rw [hget] at hkey
          cases hkey
      | some removedSpot =>
          dsimp only
          rw [cqDerived_change (fun other => getElem?_erase_key _ _ other) _ h]
          intro key
          rw [hget]
          exact getElem?_withoutMark store _ key

end Marks

section Runs

variable [Browser] [SpotBrowser] [Platform]

/-- The store is in order, holds what it draws, and has the frequencies of its CQ marks. -/
structure Exact (store : Store) : Prop where
  sorted : Sorted compareSpots store.sortedSpots
  held : Held store
  marks : CqDerived store

theorem kept_step (horders : BrowserOrders) (store : Store) (call : StoreCall)
    (h : Sorted compareSpots store.sortedSpots ∧ Held store) :
    Sorted compareSpots (step store call).sortedSpots ∧ Held (step store call) :=
  ⟨sorted_step horders h.1 call, held_step h.2 call⟩

theorem kept_empty : Sorted compareSpots ({} : Store).sortedSpots ∧ Held {} :=
  ⟨List.Pairwise.nil, ⟨by simp, by simp, List.nodup_nil⟩⟩

theorem kept_run (horders : BrowserOrders) (calls : List StoreCall) :
    Sorted compareSpots (Runs.run step {} calls).sortedSpots ∧ Held (Runs.run step {} calls) :=
  Runs.invariant_run_of_forall
    (fun store : Store => Sorted compareSpots store.sortedSpots ∧ Held store)
    (kept_step horders) kept_empty calls

end Runs

end Log73.Frontend.SpotStore

namespace Log73

attribute [local instance] asciiPlatform Frontend.plainBrowser

namespace Frontend.SpotStore

open Collating

/-- The order of the code points, which a browser agrees with on digits and capital letters. -/
def compareText (left right : String) : Int :=
  if left < right then -1 else if right < left then 1 else 0

@[reducible] def plainSpotBrowser : SpotBrowser where
  toNumber
    | .number (.int value) => some value
    | _ => none
  roundHundredth frequencyHz := (frequencyHz / 100 + 1 / 2).floor
  structureText _ := "[object Object]"
  localeCompare := compareText
  numericCompare := compareText

attribute [local instance] plainSpotBrowser

theorem comparator_compareText : Comparator compareText := comparator_lt (α := String)

theorem browserOrders_plain : BrowserOrders := ⟨comparator_compareText, comparator_compareText⟩

def cqSpot (id frequencyHz : Int) : Value :=
  .object [("band_name", .string "20m"), ("frequency_hz", .ofInt frequencyHz), ("id", .ofInt id),
    ("radio_id", .ofInt 1), ("spot_type", .string "cq")]

def sharedMark : List StoreCall :=
  [.addBandMapSpot (cqSpot 1 14030000), .addBandMapSpot (cqSpot 2 14040000),
    .removeBandMapSpot (.ofInt 2)]

end Frontend.SpotStore

end Log73
