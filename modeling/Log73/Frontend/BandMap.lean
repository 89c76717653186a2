import Log73.BandMap.Visible
import Log73.Frontend.Text

/-!
The spots a client holds (`bandMap.js`): by id, and in the order they are drawn in.
-/

namespace Log73.Frontend

open TreeMap Replica
open Std (ExtTreeMap)

/-- `localeCompare` in the language of the browser. -/
class Collator where
  localeCompare : String → String → Int

/-- A spot as it is drawn. -/
structure DisplayedSpot extends BandMapSpot where
  frequencyTenthKhz : Nat
  displayCallsign : String
  deriving DecidableEq

structure ClientSpotStore where
  spotsById : ExtTreeMap Nat DisplayedSpot := ∅
  sortedSpots : List DisplayedSpot := []
  cqFrequencyHzByBandAndRadio : KeyMap Nat := ∅

section Spots

/-- `Math.round` of the frequency in tenths of a kilohertz. -/
def frequencyTenthKhz (frequencyHz : Nat) : Nat := (frequencyHz + 50) / 100

def normalizedSpotType (spot : BandMapSpot) : BandMapSpotType :=
  match spot.spotType with
  | .cq => .cq
  | .inUse => .inUse
  | .rbn => .rbn
  | .localSpot => .localSpot
  | .dx => if spot.source = "rbn" then .rbn else .dx

def cqDisplayCallsign (spot : BandMapSpot) : String :=
  let radioName := trim (spot.radioName.getD "")
  if radioName.isEmpty then "*** CQ ***" else "*** CQ (" ++ radioName ++ ") ***"

def sourceDisplaySuffix (spotType : BandMapSpotType) : String :=
  match spotType with
  | .rbn => "RBN"
  | .localSpot => "LOCAL"
  | _ => "DX"

variable [Platform]

def spotDisplayCallsign (spot : BandMapSpot) : String :=
  match spot.spotType with
  | .cq => cqDisplayCallsign spot
  | .inUse => "*** In Use ***"
  | spotType =>
      let callDx := toUpperCase (trim spot.callDx)
      if callDx.isEmpty then "" else callDx ++ " (" ++ sourceDisplaySuffix spotType ++ ")"

def displayed (spot : BandMapSpot) : DisplayedSpot :=
  let normalized : BandMapSpot :=
    { spot with
      spotType := normalizedSpotType spot
      callDe := toUpperCase (trim spot.callDe)
      callDx := toUpperCase (trim spot.callDx) }
  { toBandMapSpot := normalized
    frequencyTenthKhz := frequencyTenthKhz spot.frequencyHz
    displayCallsign := spotDisplayCallsign normalized }

/-- A spot without a frequency is not shown. -/
def normalizeBandMapSpot (spot : BandMapSpot) : Option DisplayedSpot :=
  if spot.frequencyHz = 0 then none else some (displayed spot)

def DisplayedSpot.timeless (spot : DisplayedSpot) : DisplayedSpot := { spot with receivedAt := 0 }

end Spots

section Order

variable [Platform] [Collator]

def compareSpots (left right : DisplayedSpot) : Int :=
  let frequencyComparison : Int := left.frequencyTenthKhz - right.frequencyTenthKhz
  if frequencyComparison ≠ 0 then frequencyComparison
  else
    let callsignComparison := Collator.localeCompare (spotDisplayCallsign left.toBandMapSpot)
      (spotDisplayCallsign right.toBandMapSpot)
    if callsignComparison ≠ 0 then callsignComparison else left.id - right.id

/-- The loop of the binary search; the interval shrinks with every round. -/
def sortedInsertLoop (spots : List DisplayedSpot) (spot : DisplayedSpot) :
    Nat → Nat → Nat → Nat
  | 0, low, _ => low
  | rounds + 1, low, high =>
      if low < high then
        let middle := (low + high) / 2
        if (spots[middle]?).all fun other => compareSpots other spot ≤ 0 then
          sortedInsertLoop spots spot rounds (middle + 1) high
        else sortedInsertLoop spots spot rounds low middle
      else low

def sortedInsertIndex (spots : List DisplayedSpot) (spot : DisplayedSpot) : Nat :=
  sortedInsertLoop spots spot spots.length 0 spots.length

theorem sortedInsertIndex_le (spots : List DisplayedSpot) (spot : DisplayedSpot) :
    sortedInsertIndex spots spot ≤ spots.length := by
  suffices hloop : ∀ rounds low high, low ≤ high →
      sortedInsertLoop spots spot rounds low high ≤ high from
    hloop spots.length 0 spots.length (Nat.zero_le _)
  intro rounds
  induction rounds with
  | zero => exact fun _ _ h => h
  | succ rounds ih =>
      intro low high h
      rw [sortedInsertLoop]
      split
      · dsimp only
        split
        · exact ih _ _ (by omega)
        · exact (ih _ _ (by omega)).trans (by omega)
      · exact h

end Order

section Store

variable [Platform] [Collator]

/-- The entry of a CQ mark in the table of CQ frequencies. -/
def cqKey (spot : DisplayedSpot) : Option String :=
  if spot.spotType = .cq then
    (spot.bandName.filter fun bandName => !bandName.isEmpty).bind fun bandName =>
      spot.radioId.map fun radioId => bandName ++ ":" ++ toString radioId
  else none

def addBandMapSpot (store : ClientSpotStore) (rawSpot : BandMapSpot) : ClientSpotStore :=
  match normalizeBandMapSpot rawSpot with
  | none => store
  | some spot =>
      let withoutPrevious := ((store.spotsById[spot.id]?).bind cqKey).elim
        store.cqFrequencyHzByBandAndRadio store.cqFrequencyHzByBandAndRadio.erase
      let sortedSpots := store.sortedSpots.filter fun currentSpot => currentSpot.id ≠ spot.id
      { spotsById := store.spotsById.insert spot.id spot
        sortedSpots := sortedSpots.insertIdx (sortedInsertIndex sortedSpots spot) spot
        cqFrequencyHzByBandAndRadio := (cqKey spot).elim withoutPrevious fun key =>
          withoutPrevious.insert key spot.frequencyHz }

omit [Platform] [Collator] in
def removeBandMapSpot (store : ClientSpotStore) (id : Nat) : ClientSpotStore :=
  match store.spotsById[id]? with
  | none => store
  | some removedSpot =>
      { spotsById := store.spotsById.erase id
        sortedSpots := store.sortedSpots.filter fun spot => spot.id ≠ id
        cqFrequencyHzByBandAndRadio := (cqKey removedSpot).elim store.cqFrequencyHzByBandAndRadio
          store.cqFrequencyHzByBandAndRadio.erase }

def createBandMapSpotStore (spots : List BandMapSpot) : ClientSpotStore :=
  spots.foldl addBandMapSpot {}

end Store

section Shows

variable [Platform] [Collator]

/-- The client holds these spots and no others, apart from their times of arrival, and
draws what it holds. -/
structure Shows (store : ClientSpotStore) (view : Nat → Option BandMapSpot) : Prop where
  spots : ∀ id : Nat, (store.spotsById[id]?).map DisplayedSpot.timeless = (view id).map displayed
  drawn : ∀ spot : DisplayedSpot,
    spot ∈ store.sortedSpots ↔ store.spotsById[spot.id]? = some spot

omit [Collator] in
theorem shows_empty : Shows {} fun _ => none where
  spots _ := by simp
  drawn _ := by simp

theorem shows_add {store : ClientSpotStore} {view : Nat → Option BandMapSpot}
    (h : Shows store view) {spot : BandMapSpot} (hfrequency : 0 < spot.frequencyHz) :
    Shows (addBandMapSpot store spot) ((Change.put spot.id spot.timeless).apply view) := by
  have hnormalized : normalizeBandMapSpot spot = some (displayed spot) :=
    if_neg (Nat.ne_of_gt hfrequency)
  rw [addBandMapSpot, hnormalized]
  dsimp only
  have hid : (displayed spot).id = spot.id := rfl
  refine ⟨fun id => ?_, fun other => ?_⟩
  · rw [getElem?_insert_key, hid]
    by_cases heq : spot.id = id
    · rw [if_pos heq, ← heq, Change.apply_put_self]
      rfl
    · rw [if_neg heq, Change.apply_put_of_ne _ _ (Ne.symm heq)]
      exact h.spots id
  · dsimp only
    rw [hid]
    have hle := sortedInsertIndex_le
      (store.sortedSpots.filter fun currentSpot => currentSpot.id ≠ spot.id) (displayed spot)
    rw [(List.perm_insertIdx _ _ hle).mem_iff, List.mem_cons, List.mem_filter, decide_eq_true_eq,
      getElem?_insert_key, h.drawn]
    by_cases heq : spot.id = other.id
    · rw [if_pos heq, Option.some.injEq]
      constructor
      · intro hor
        cases hor with
        | inl hsame => exact hsame.symm
        | inr hand => exact absurd heq.symm hand.2
      · intro hsame
        exact Or.inl hsame.symm
    · rw [if_neg heq]
      constructor
      · intro hor
        cases hor with
        | inl hsame => exact absurd (hsame ▸ hid.symm) heq
        | inr hand => exact hand.1
      · intro hget
        exact Or.inr ⟨hget, Ne.symm heq⟩

omit [Collator] in
theorem shows_remove {store : ClientSpotStore} {view : Nat → Option BandMapSpot}
    (h : Shows store view) (id : Nat) :
    Shows (removeBandMapSpot store id) ((Change.drop id).apply view) := by
  rw [removeBandMapSpot]
  cases hget : store.spotsById[id]? with
  | none =>
      refine ⟨fun other => ?_, h.drawn⟩
      by_cases heq : other = id
      · rw [heq, Change.apply_drop_self, hget]
        rfl
      · rw [Change.apply_drop_of_ne _ heq]
        exact h.spots other
  | some removed =>
      refine ⟨fun other => ?_, fun spot => ?_⟩
      · rw [getElem?_erase_key]
        by_cases heq : other = id
        · rw [if_pos heq.symm, heq, Change.apply_drop_self]
          rfl
        · rw [if_neg (Ne.symm heq), Change.apply_drop_of_ne _ heq]
          exact h.spots other
      · rw [List.mem_filter, decide_eq_true_eq, getElem?_erase_key, h.drawn]
        by_cases heq : spot.id = id
        · rw [if_pos heq.symm]
          exact iff_of_false (fun hand => hand.2 heq) fun hnone => by cases hnone
        · rw [if_neg (Ne.symm heq)]
          exact and_iff_left heq

/-- A snapshot is shown spot by spot. -/
theorem shows_create {spots : List BandMapSpot} {view : Nat → Option BandMapSpot}
    (hspots : ∀ spot ∈ spots, view spot.id = some spot.timeless ∧ 0 < spot.frequencyHz)
    (hall : ∀ id, (view id).isSome → ∃ spot ∈ spots, spot.id = id) :
    Shows (createBandMapSpotStore spots) view := by
  suffices hfold : ∀ (spots : List BandMapSpot) (store : ClientSpotStore)
      (held : Nat → Option BandMapSpot), Shows store held →
      (∀ spot ∈ spots, view spot.id = some spot.timeless ∧ 0 < spot.frequencyHz) →
      Shows (spots.foldl addBandMapSpot store) fun id =>
        if id ∈ spots.map BandMapSpot.id then view id else held id by
    have hshows := hfold spots {} _ shows_empty hspots
    refine ⟨fun id => ?_, hshows.drawn⟩
    refine (hshows.spots id).trans (congrArg _ ?_)
    split
    · rfl
    · next hnot =>
        cases hview : view id with
        | none => rfl
        | some spot =>
            obtain ⟨found, hfound, rfl⟩ := hall id (Option.isSome_iff_exists.mpr ⟨spot, hview⟩)
            exact absurd (List.mem_map_of_mem hfound) hnot
  intro spots
  induction spots with
  | nil =>
      intro store held hshows _
      exact ⟨hshows.spots, hshows.drawn⟩
  | cons spot spots ih =>
      intro store held hshows hspots
      rw [List.forall_mem_cons] at hspots
      have hrest := ih _ _ (shows_add hshows hspots.1.2) hspots.2
      refine ⟨fun id => ?_, hrest.drawn⟩
      refine (hrest.spots id).trans (congrArg _ ?_)
      have hcons : id ∈ (spot :: spots).map BandMapSpot.id ↔
          id = spot.id ∨ id ∈ spots.map BandMapSpot.id := List.mem_cons
      by_cases hmem : id ∈ spots.map BandMapSpot.id
      · rw [if_pos hmem, if_pos (hcons.mpr (Or.inr hmem))]
      · rw [if_neg hmem]
        by_cases heq : id = spot.id
        · rw [if_pos (hcons.mpr (Or.inl heq)), heq, Change.apply_put_self, hspots.1.1]
        · rw [if_neg fun hin => (hcons.mp hin).elim heq hmem, Change.apply_put_of_ne _ _ heq]

end Shows

end Log73.Frontend
