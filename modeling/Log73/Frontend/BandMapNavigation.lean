import Log73.Frontend.SpotStore
import Log73.Library.Extremes
import Mathlib.Data.Int.ConditionallyCompleteOrder
import Mathlib.Data.Rat.Floor

/-!
The keys that take a radio to the next spot of the band map above or below its frequency
(`nextBandMapSpotAbove` and `nextBandMapSpotBelow` of `bandMap.js`), and when it is the nearest.
-/

namespace Log73.Frontend.SpotStore

open Collating

section Navigation

def isNavigableSpot (spot : StoredSpot) : Bool :=
  spot.spotType ≠ .cq && spot.spotType ≠ .inUse && !(trim spot.callDx).isEmpty

/-- `normalizedFrequencyHz` of the number that a spot is stored with. -/
def storedFrequencyHz (spot : StoredSpot) : ℚ :=
  if 0 < spot.frequencyHz then spot.frequencyHz else 0

/-- A spot to go to from a lower frequency. -/
def Above (frequencyHz : ℚ) (spot : StoredSpot) : Prop :=
  isNavigableSpot spot ∧ frequencyHz < spot.frequencyHz

/-- A spot to go to from a higher frequency. -/
def Below (frequencyHz : ℚ) (spot : StoredSpot) : Prop :=
  isNavigableSpot spot ∧ spot.frequencyHz < frequencyHz

instance instDecidableAbove (frequencyHz : ℚ) : DecidablePred (Above frequencyHz) :=
  fun _ => inferInstanceAs (Decidable (_ ∧ _))

instance instDecidableBelow (frequencyHz : ℚ) : DecidablePred (Below frequencyHz) :=
  fun _ => inferInstanceAs (Decidable (_ ∧ _))

/-- The nearest spot above a frequency, by its exact frequency, or nothing where there is none. -/
def NearestAbove (store : Store) (frequencyHz : ℚ) (found : Option StoredSpot) : Prop :=
  Nearest.Least StoredSpot.frequencyHz (Above frequencyHz) store.sortedSpots found

/-- The nearest spot below a frequency, by its exact frequency, or nothing where there is none. -/
def NearestBelow (store : Store) (frequencyHz : ℚ) (found : Option StoredSpot) : Prop :=
  Nearest.Least (fun spot => OrderDual.toDual spot.frequencyHz) (Below frequencyHz)
    store.sortedSpots found

/-- In the lowest 100 Hz that have a spot above the frequency, the first is the lowest. -/
def LowestFirst (store : Store) (frequencyHz : ℚ) : Prop :=
  Nearest.FirstIsLeast StoredSpot.frequencyTenthKhz StoredSpot.frequencyHz (Above frequencyHz)
    store.sortedSpots

/-- In the highest 100 Hz that have a spot below the frequency, the last is the highest. -/
def HighestLast (store : Store) (frequencyHz : ℚ) : Prop :=
  Nearest.FirstIsLeast (fun spot => OrderDual.toDual spot.frequencyTenthKhz)
    (fun spot => OrderDual.toDual spot.frequencyHz) (Below frequencyHz) store.sortedSpots.reverse

variable {frequencyHz : ℚ} {store : Store}

theorem above_iff (h : 0 < frequencyHz) (spot : StoredSpot) :
    isNavigableSpot spot ∧ frequencyHz < storedFrequencyHz spot ↔ Above frequencyHz spot := by
  refine and_congr_right fun _ => ?_
  rw [storedFrequencyHz]
  split
  · exact Iff.rfl
  · next hnot => exact iff_of_false h.asymm fun hlt => hnot (h.trans hlt)

theorem below_iff (h : 0 < frequencyHz) (spot : StoredSpot) :
    isNavigableSpot spot ∧ storedFrequencyHz spot < frequencyHz ↔ Below frequencyHz spot := by
  refine and_congr_right fun _ => ?_
  rw [storedFrequencyHz]
  split
  · exact Iff.rfl
  · next hnot => exact iff_of_true h ((not_lt.mp hnot).trans_lt h)

variable [SpotBrowser]

def nextBandMapSpotAbove (store : Store) (vfoFrequencyHz : Option Value) : Option StoredSpot :=
  let frequencyHz := normalizedFrequencyHz vfoFrequencyHz
  if frequencyHz = 0 then none
  else store.sortedSpots.find? fun spot =>
    isNavigableSpot spot ∧ frequencyHz < storedFrequencyHz spot

def nextBandMapSpotBelow (store : Store) (vfoFrequencyHz : Option Value) : Option StoredSpot :=
  let frequencyHz := normalizedFrequencyHz vfoFrequencyHz
  if frequencyHz = 0 then none
  else store.sortedSpots.reverse.find? fun spot =>
    isNavigableSpot spot ∧ storedFrequencyHz spot < frequencyHz

theorem normalizedFrequencyHz_nonneg (value : Option Value) : 0 ≤ normalizedFrequencyHz value := by
  rw [normalizedFrequencyHz]
  cases hparsed : (value.bind SpotBrowser.toNumber).filter (0 < ·) with
  | none => exact le_rfl
  | some parsed => exact (of_decide_eq_true (Option.filter_eq_some_iff.mp hparsed).2).le

variable {vfoFrequencyHz : Option Value}

theorem nextBandMapSpotAbove_eq (hvfo : normalizedFrequencyHz vfoFrequencyHz ≠ 0) :
    nextBandMapSpotAbove store vfoFrequencyHz =
      store.sortedSpots.find? (Above (normalizedFrequencyHz vfoFrequencyHz) ·) := by
  have hpos := (normalizedFrequencyHz_nonneg vfoFrequencyHz).lt_of_ne' hvfo
  rw [nextBandMapSpotAbove, if_neg hvfo]
  congr 1
  funext spot
  exact decide_eq_decide.mpr (above_iff hpos spot)

theorem nextBandMapSpotBelow_eq (hvfo : normalizedFrequencyHz vfoFrequencyHz ≠ 0) :
    nextBandMapSpotBelow store vfoFrequencyHz =
      store.sortedSpots.reverse.find? (Below (normalizedFrequencyHz vfoFrequencyHz) ·) := by
  have hpos := (normalizedFrequencyHz_nonneg vfoFrequencyHz).lt_of_ne' hvfo
  rw [nextBandMapSpotBelow, if_neg hvfo]
  congr 1
  funext spot
  exact decide_eq_decide.mpr (below_iff hpos spot)

end Navigation

section Bins

variable [Browser] [SpotBrowser] [Platform]

/-- Each spot is drawn at the 100 Hz of its frequency. -/
def Rounded (store : Store) : Prop :=
  ∀ spot ∈ store.sortedSpots, spot.frequencyTenthKhz = frequencyTenthKhz spot.frequencyHz

theorem rounded_normalizeBandMapSpot {rawSpot : Value} {spot : StoredSpot}
    (h : normalizeBandMapSpot rawSpot = some spot) :
    spot.frequencyTenthKhz = frequencyTenthKhz spot.frequencyHz := by
  rw [normalizeBandMapSpot] at h
  obtain ⟨fields, -, h⟩ := Option.bind_eq_some_iff.mp h
  obtain ⟨id, -, h⟩ := Option.bind_eq_some_iff.mp h
  dsimp only at h
  split at h
  · cases h
  · cases h
    rfl

theorem rounded_step (store : Store) (call : StoreCall) (h : Rounded store) :
    Rounded (step store call) := by
  cases call with
  | addBandMapSpot rawSpot =>
      rw [step, addBandMapSpot]
      cases hspot : normalizeBandMapSpot rawSpot with
      | none => exact h
      | some spot =>
          intro other hmem
          rcases List.eq_or_mem_of_mem_insertIdx hmem with rfl | hold
          · exact rounded_normalizeBandMapSpot hspot
          · exact h other (List.mem_of_mem_filter hold)
  | removeBandMapSpot id =>
      rw [step, removeBandMapSpot]
      cases store.spotsById[text id]? with
      | none => exact h
      | some removedSpot => exact fun other hmem => h other (List.mem_of_mem_filter hmem)

theorem pairwise_frequencyTenthKhz {spots : List StoredSpot} (h : Sorted compareSpots spots) :
    spots.Pairwise fun left right => left.frequencyTenthKhz ≤ right.frequencyTenthKhz := by
  refine h.imp fun {left right} hle => ?_
  have hor := andThen_le_iff.mp hle
  rw [compareFrequencies] at hor
  omega

end Bins

section Runs

variable [Browser] [SpotBrowser] [Platform]

/-- In the store that any calls lead to, the spot that is found above (below) a frequency is the
nearest one exactly when the lowest (highest) 100 Hz that have one show their lowest spot first
(their highest last). -/
theorem nearest_run_iff (horders : BrowserOrders) (hround : Monotone SpotBrowser.roundHundredth)
    (calls : List StoreCall) (vfoFrequencyHz : Option Value)
    (hvfo : normalizedFrequencyHz vfoFrequencyHz ≠ 0) :
    (NearestAbove (Runs.run step {} calls) (normalizedFrequencyHz vfoFrequencyHz)
        (nextBandMapSpotAbove (Runs.run step {} calls) vfoFrequencyHz) ↔
      LowestFirst (Runs.run step {} calls) (normalizedFrequencyHz vfoFrequencyHz))
    ∧ (NearestBelow (Runs.run step {} calls) (normalizedFrequencyHz vfoFrequencyHz)
        (nextBandMapSpotBelow (Runs.run step {} calls) vfoFrequencyHz) ↔
      HighestLast (Runs.run step {} calls) (normalizedFrequencyHz vfoFrequencyHz)) := by
  obtain ⟨hsorted, hheld⟩ := kept_run horders calls
  have hrounded : Rounded (Runs.run step {} calls) :=
    Runs.invariant_run_of_forall Rounded rounded_step (by simp [Rounded]) calls
  generalize Runs.run step {} calls = store at *
  have hbins := pairwise_frequencyTenthKhz hsorted
  have hmono (left : StoredSpot) (hleft : left ∈ store.sortedSpots) (right : StoredSpot)
      (hright : right ∈ store.sortedSpots) (hle : left.frequencyHz ≤ right.frequencyHz) :
      left.frequencyTenthKhz ≤ right.frequencyTenthKhz := by
    rw [hrounded left hleft, hrounded right hright]
    exact hround hle
  constructor
  · rw [nextBandMapSpotAbove_eq hvfo]
    exact Nearest.least_find?_iff hheld.once hbins hmono
  · rw [nextBandMapSpotBelow_eq hvfo, NearestBelow, ← Nearest.least_reverse]
    apply Nearest.least_find?_iff (List.nodup_reverse.mpr hheld.once)
    · exact List.pairwise_reverse.mpr hbins
    · intro left hleft right hright hle
      exact hmono right (List.mem_reverse.mp hright) left (List.mem_reverse.mp hleft) hle

end Runs

end Log73.Frontend.SpotStore

namespace Log73

attribute [local instance] asciiPlatform Frontend.plainBrowser Frontend.SpotStore.plainSpotBrowser

namespace Frontend.SpotStore

theorem monotone_roundHundredth_plain : Monotone SpotBrowser.roundHundredth := by
  intro left right hle
  have hhundredth : left / 100 + 1 / 2 ≤ right / 100 + 1 / 2 := by linarith
  exact Int.floor_mono hhundredth

def callSpot (id frequencyHz : Int) (call : String) : Value :=
  .object [("call_dx", .string call), ("frequency_hz", .ofInt frequencyHz), ("id", .ofInt id)]

/-- Two spots of one 100 Hz, the higher one with the callsign that comes first. -/
def crowdedSpots : List StoreCall :=
  [.addBandMapSpot (callSpot 1 14030020 "K1ABC"), .addBandMapSpot (callSpot 2 14030040 "AA1A")]

/-- From 14030.010 kHz the key goes up to 14030.040 kHz, past the spot at 14030.020 kHz. -/
theorem not_nearestAbove_crowdedSpots :
    BrowserOrders ∧ Monotone SpotBrowser.roundHundredth
      ∧ normalizedFrequencyHz (some (.ofInt 14030010)) ≠ 0
      ∧ ¬NearestAbove (Runs.run step {} crowdedSpots)
          (normalizedFrequencyHz (some (.ofInt 14030010)))
          (nextBandMapSpotAbove (Runs.run step {} crowdedSpots) (some (.ofInt 14030010))) := by
  refine ⟨browserOrders_plain, monotone_roundHundredth_plain, by decide +kernel, fun hnearest => ?_⟩
  have hfound : (nextBandMapSpotAbove (Runs.run step {} crowdedSpots)
      (some (.ofInt 14030010))).map StoredSpot.frequencyHz = some 14030040 := by
    decide +kernel
  have hlower : ∃ spot ∈ (Runs.run step {} crowdedSpots).sortedSpots,
      Above (normalizedFrequencyHz (some (.ofInt 14030010))) spot
        ∧ spot.frequencyHz = 14030020 := by
    decide +kernel
  obtain ⟨found, hget, hfrequency⟩ := Option.map_eq_some_iff.mp hfound
  obtain ⟨lower, hmem, habove, hlow⟩ := hlower
  have hle := hnearest.least found hget lower hmem habove
  rw [hfrequency, hlow] at hle
  norm_num at hle

theorem nearest_run_iff_crowdedSpots :
    (NearestAbove (Runs.run step {} crowdedSpots)
        (normalizedFrequencyHz (some (.ofInt 14030010)))
        (nextBandMapSpotAbove (Runs.run step {} crowdedSpots) (some (.ofInt 14030010))) ↔
      LowestFirst (Runs.run step {} crowdedSpots) (normalizedFrequencyHz (some (.ofInt 14030010))))
    ∧ (NearestBelow (Runs.run step {} crowdedSpots)
        (normalizedFrequencyHz (some (.ofInt 14030010)))
        (nextBandMapSpotBelow (Runs.run step {} crowdedSpots) (some (.ofInt 14030010))) ↔
      HighestLast (Runs.run step {} crowdedSpots)
        (normalizedFrequencyHz (some (.ofInt 14030010)))) :=
  nearest_run_iff browserOrders_plain monotone_roundHundredth_plain crowdedSpots
    (some (.ofInt 14030010)) (by decide +kernel)

end Frontend.SpotStore

end Log73
