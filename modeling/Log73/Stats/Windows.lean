import Log73.Library.TreeMap
import Log73.Stats.Incremental
import Mathlib.Data.List.Pairwise

/-!
What a snapshot is to show of the contacts of a log, and when it shows that: the differences of
times that it takes are 64-bit integers.
-/

namespace Log73

open Collating (take_searchIndex)

/-! ### The reference -/

section Reference

variable (entries : List StatsEntry) (now : Int)

/-- The times of the latest contacts not later than `now`, the latest first. -/
def latest (size : Nat) : List Int :=
  (((entries.map StatsEntry.epoch).filter (· ≤ now)).mergeSort (· ≥ ·)).take size

/-- From the earliest to the latest. -/
def timeSpan (epochs : List Int) : Int := epochs.head?.getD 0 - epochs.getLast?.getD 0

def lastContacts (size : Nat) : RateStat :=
  let epochs := latest entries now size
  let span := timeSpan epochs
  { qsoCount := epochs.length
    ratePerHour := if 0 < span then some ((epochs.length - 1 : ℚ) * 3600 / span) else none }

def contactsBetween (start finish : Int) : Nat :=
  (entries.filter fun entry => start ≤ entry.epoch ∧ entry.epoch ≤ finish).length

/-- When the hour of a time began. -/
def hourStart : Int := now / 3600 * 3600

def referenceWindows : LogWindowStats where
  last10Contacts := lastContacts entries now 10
  last100Contacts := lastContacts entries now 100
  movingHour :=
    let count := contactsBetween entries (now - 3600) now
    { qsoCount := count, ratePerHour := some count }
  clockHour :=
    let count := contactsBetween entries (hourStart now) now
    let elapsed := now - hourStart now
    { qsoCount := count
      ratePerHour := if 0 < elapsed then some ((count : ℚ) * 3600 / elapsed) else none }

def ofOperator (operator : String) : List StatsEntry :=
  entries.filter (·.operator = operator)

end Reference

/-- A snapshot is that of the contacts: overall, and for each operator they have. -/
structure LogStatsSnapshot.Reports (snapshot : LogStatsSnapshot) (entries : List StatsEntry)
    (now : Int) : Prop where
  generatedAt : snapshot.generatedAt = now
  overall : snapshot.overall = referenceWindows entries now
  byOperator : ∀ operator : String, snapshot.byOperator[operator]? =
    if operator.isEmpty ∨ ofOperator entries operator = [] then none
    else some (referenceWindows (ofOperator entries operator) now)

/-- The latest contacts are not too far apart, and an hour before `now` is still a time, or nothing
is counted there. -/
structure Measurable (build : Build) (entries : List StatsEntry) (now : Int) : Prop where
  span : timeSpan (latest entries now 100) ≤ i64Max
  hour : i64Min + 3600 ≤ now ∨ build = .release ∧ ∀ entry ∈ entries, now < entry.epoch

/-- All contacts, and those of each operator. -/
structure MeasurableThroughout (build : Build) (entries : List StatsEntry) (now : Int) : Prop where
  overall : Measurable build entries now
  byOperator : ∀ operator : String, ¬operator.isEmpty →
    Measurable build (ofOperator entries operator) now

/-! ### The reference is of a set of contacts -/

theorem pairwise_mergeSort_ge (epochs : List Int) :
    (epochs.mergeSort (· ≥ ·)).Pairwise fun a b => b ≤ a := by
  have htrans (a b c : Int) (hab : decide (a ≥ b) = true) (hbc : decide (b ≥ c) = true) :
      decide (a ≥ c) = true :=
    decide_eq_true ((of_decide_eq_true hbc).trans (of_decide_eq_true hab))
  have htotal (a b : Int) : (decide (a ≥ b) || decide (b ≥ a)) = true := by
    rw [Bool.or_eq_true, decide_eq_true_iff, decide_eq_true_iff]
    exact le_total b a
  exact (List.pairwise_mergeSort htrans htotal epochs).imp fun hle => of_decide_eq_true hle

section Permutations

variable {entries other : List StatsEntry} (h : entries.Perm other) (now : Int)
include h

theorem latest_congr (size : Nat) : latest entries now size = latest other now size := by
  have hepochs := (h.map StatsEntry.epoch).filter (· ≤ now)
  rw [latest, latest]
  congr 1
  exact List.Perm.eq_of_pairwise (fun a b _ _ hba hab => le_antisymm hab hba)
    (pairwise_mergeSort_ge _) (pairwise_mergeSort_ge _)
    ((List.mergeSort_perm _ _).trans (hepochs.trans (List.mergeSort_perm _ _).symm))

theorem referenceWindows_congr : referenceWindows entries now = referenceWindows other now := by
  have hlast (size : Nat) : lastContacts entries now size = lastContacts other now size := by
    rw [lastContacts, lastContacts, latest_congr h]
  have hcount (start : Int) : contactsBetween entries start now = contactsBetween other start now :=
    (h.filter _).length_eq
  simp only [referenceWindows, hlast, hcount]

theorem ofOperator_congr (operator : String) :
    (ofOperator entries operator).Perm (ofOperator other operator) :=
  h.filter _

theorem LogStatsSnapshot.Reports.congr {snapshot : LogStatsSnapshot}
    (hreports : snapshot.Reports entries now) : snapshot.Reports other now where
  generatedAt := hreports.generatedAt
  overall := hreports.overall.trans (referenceWindows_congr h now)
  byOperator := by
    intro operator
    have hnil : ofOperator entries operator = [] ↔ ofOperator other operator = [] := by
      rw [← List.length_eq_zero_iff, ← List.length_eq_zero_iff,
        (ofOperator_congr h operator).length_eq]
    rw [hreports.byOperator, referenceWindows_congr (ofOperator_congr h operator)]
    exact if_congr (or_congr_right hnil) rfl rfl

theorem Measurable.congr {build : Build} (hmeasurable : Measurable build entries now) :
    Measurable build other now where
  span := latest_congr h now 100 ▸ hmeasurable.span
  hour := hmeasurable.hour.imp_right fun hlater =>
    ⟨hlater.1, fun entry hentry => hlater.2 entry (h.mem_iff.mpr hentry)⟩

theorem MeasurableThroughout.congr {build : Build}
    (hmeasurable : MeasurableThroughout build entries now) :
    MeasurableThroughout build other now where
  overall := hmeasurable.overall.congr h now
  byOperator := fun operator hoperator =>
    (hmeasurable.byOperator operator hoperator).congr (ofOperator_congr h operator) now

end Permutations

/-! ### One group of entries -/

section Latest

variable {entries : List StatsEntry} {now : Int} {size : Nat}

theorem mem_latest {epoch : Int} (h : epoch ∈ latest entries now size) :
    ∃ entry ∈ entries, entry.epoch = epoch := by
  have hmem := List.mem_of_mem_take h
  rw [List.mem_mergeSort] at hmem
  exact List.mem_map.mp (List.mem_of_mem_filter hmem)

/-- The latest of them is the first and the earliest is the last. -/
theorem latest_bounds {epoch : Int} (h : epoch ∈ latest entries now size) :
    (latest entries now size).getLast?.getD 0 ≤ epoch ∧
      epoch ≤ (latest entries now size).head?.getD 0 := by
  have hsorted : (latest entries now size).Pairwise fun a b => b ≤ a :=
    (pairwise_mergeSort_ge _).take
  revert h hsorted
  generalize latest entries now size = epochs
  intro h hsorted
  constructor
  · have hne := List.ne_nil_of_mem h
    rw [List.getLast?_eq_some_getLast hne, Option.getD_some]
    exact hsorted.rel_getLast_of_rel_getLast_getLast h le_rfl
  · cases epochs with
    | nil => cases h
    | cons first epochs =>
        rw [List.head?_cons, Option.getD_some]
        rcases List.mem_cons.mp h with heq | hmem
        · exact heq.le
        · exact (List.pairwise_cons.mp hsorted).1 epoch hmem

theorem timeSpan_nonneg : 0 ≤ timeSpan (latest entries now size) := by
  have hbounds {epoch : Int} (h : epoch ∈ latest entries now size) := latest_bounds h
  rw [timeSpan]
  cases hlatest : latest entries now size with
  | nil => exact le_rfl
  | cons first epochs =>
      rw [hlatest] at hbounds
      have := hbounds List.mem_cons_self
      omega

/-- Fewer contacts are no further apart. -/
theorem timeSpan_mono {size' : Nat} (hpos : 0 < size) (hsize : size ≤ size') :
    timeSpan (latest entries now size) ≤ timeSpan (latest entries now size') := by
  have htake : latest entries now size = (latest entries now size').take size := by
    rw [latest, latest, List.take_take, Nat.min_eq_left hsize]
  have hhead : (latest entries now size).head? = (latest entries now size').head? := by
    rw [htake, List.head?_take, if_neg (by omega)]
  cases hlast : (latest entries now size).getLast? with
  | none =>
      rw [List.getLast?_eq_none_iff.mp hlast]
      exact timeSpan_nonneg
  | some earliest =>
      have hmem := List.mem_of_getLast? hlast
      rw [htake] at hmem
      have hle := (latest_bounds (List.mem_of_mem_take hmem)).1
      rw [timeSpan, timeSpan, hhead, hlast, Option.getD_some]
      omega

/-- One contact alone spans nothing. -/
theorem timeSpan_of_length_le (epochs : List Int) (h : epochs.length ≤ 1) :
    timeSpan epochs = 0 := by
  cases epochs with
  | nil => rfl
  | cons epoch epochs =>
      have hnil : epochs = [] := List.eq_nil_of_length_eq_zero (by simpa using h)
      rw [hnil]
      exact sub_self epoch

end Latest

section Subtraction

variable {build : Build} {a b : Int}

theorem subI64_eq (h : i64Min ≤ a - b ∧ a - b ≤ i64Max) : subI64 build a b = some (a - b) := by
  rw [subI64.eq_def, if_pos h]

/-- What is left of a difference that is not a 64-bit integer is on the other side of zero. -/
theorem subI64_of_overflow (ha : a ≤ i64Max) (hb : i64Min ≤ b) (h : i64Max < a - b)
    {difference : Int} (heq : subI64 build a b = some difference) : difference < 0 := by
  rw [subI64.eq_def, if_neg (by omega)] at heq
  cases build with
  | debug => cases heq
  | release =>
      dsimp only at heq
      rw [if_pos h, Option.some.injEq] at heq
      simp only [i64Min, i64Max, u64Max] at *
      omega

theorem subI64_of_underflow (h : a - b < i64Min) {difference : Int}
    (heq : subI64 build a b = some difference) :
    build = .release ∧ difference = a - b + (u64Max + 1) := by
  have hle : ¬i64Max < a - b := by
    simp only [i64Min, i64Max] at *
    omega
  rw [subI64.eq_def, if_neg (by omega)] at heq
  cases build with
  | debug => cases heq
  | release =>
      dsimp only at heq
      rw [if_neg hle, Option.some.injEq] at heq
      exact ⟨rfl, heq.symm⟩

end Subtraction

/-- Entries in order of time, with times of 64 bits. -/
structure Timed (entries : List StatsEntry) : Prop where
  sorted : entries.Pairwise fun left right => left.epoch ≤ right.epoch
  range : ∀ entry ∈ entries, i64Min ≤ entry.epoch ∧ entry.epoch ≤ i64Max

namespace Timed

variable {entries : List StatsEntry}

theorem filter (h : Timed entries) (p : StatsEntry → Bool) : Timed (entries.filter p) :=
  ⟨h.sorted.filter p, fun entry hentry => h.range entry (List.mem_of_mem_filter hentry)⟩

theorem eligible_eq (h : Timed entries) (now : Int) :
    entries.take (Collating.searchIndex (fun entry => entry.epoch ≤ now) entries) =
      entries.filter fun entry => entry.epoch ≤ now := by
  apply take_searchIndex
  exact h.sorted.imp fun hle hb => decide_eq_true (hle.trans (of_decide_eq_true hb))

/-- The latest are at the end. -/
theorem latest_eq (h : Timed entries) (now : Int) (size : Nat) :
    latest entries now size = (((entries.filter fun entry => entry.epoch ≤ now).map
      StatsEntry.epoch).reverse).take size := by
  have hepochs : (entries.map StatsEntry.epoch).filter (· ≤ now) =
      (entries.filter fun entry => entry.epoch ≤ now).map StatsEntry.epoch :=
    List.filter_map
  have hsorted : ((entries.filter fun entry => entry.epoch ≤ now).map
      StatsEntry.epoch).reverse.Pairwise fun a b => b ≤ a := by
    rw [List.pairwise_reverse, List.pairwise_map]
    exact (h.filter _).sorted
  rw [latest, hepochs]
  congr 1
  exact List.Perm.eq_of_pairwise (fun a b _ _ hba hab => le_antisymm hab hba)
    (pairwise_mergeSort_ge _) hsorted ((List.mergeSort_perm _ _).trans (List.reverse_perm _).symm)

end Timed

namespace Timed

variable {entries : List StatsEntry} {build : Build} {now : Int}

theorem latest_range (h : Timed entries) {size : Nat} {epoch : Int}
    (hmem : epoch ∈ latest entries now size) : i64Min ≤ epoch ∧ epoch ≤ i64Max := by
  obtain ⟨entry, hentry, rfl⟩ := mem_latest hmem
  exact h.range entry hentry

/-- The window of the code in terms of the latest contacts. -/
theorem contactWindowRate_eq (h : Timed entries) (build : Build) (now : Int) (size : Nat) :
    contactWindowRate build (entries.filter fun entry => entry.epoch ≤ now) size =
      if (latest entries now size).length ≤ 1 then
        some { qsoCount := (latest entries now size).length, ratePerHour := none }
      else
        (subI64 build ((latest entries now size).head?.getD 0)
            ((latest entries now size).getLast?.getD 0)).map fun span =>
          { qsoCount := (latest entries now size).length
            ratePerHour :=
              if 0 < span then some (((latest entries now size).length - 1 : ℚ) * 3600 / span)
              else none } := by
  rw [h.latest_eq]
  generalize entries.filter (fun entry => entry.epoch ≤ now) = eligible
  have hlength : (((eligible.map StatsEntry.epoch).reverse).take size).length =
      min eligible.length size := by
    rw [List.length_take, List.length_reverse, List.length_map, Nat.min_comm]
  rw [hlength, contactWindowRate]
  dsimp only
  by_cases hzero : min eligible.length size = 0
  · rw [if_pos hzero, if_pos (by omega), hzero]
  · rw [if_neg hzero]
    by_cases hone : min eligible.length size = 1
    · rw [if_pos hone, if_pos (by omega), hone]
    · rw [if_neg hone, if_neg (by omega)]
      have hwindow : ((eligible.map StatsEntry.epoch).reverse).take size =
          ((eligible.drop (eligible.length - min eligible.length size)).map
            StatsEntry.epoch).reverse := by
        rw [List.take_reverse, List.map_drop, List.length_map]
        congr 2
        omega
      rw [hwindow, List.head?_reverse, List.getLast?_reverse, List.getLast?_map, List.head?_map]
      rfl

/-- The rate of the latest contacts is right exactly when their span is a 64-bit integer. -/
theorem contactWindowRate_eq_iff (h : Timed entries) (build : Build) (now : Int) (size : Nat) :
    contactWindowRate build (entries.filter fun entry => entry.epoch ≤ now) size =
        some (lastContacts entries now size) ↔
      timeSpan (latest entries now size) ≤ i64Max := by
  have hrange {epoch : Int} (hmem : epoch ∈ latest entries now size) := h.latest_range hmem
  have hspan : 0 ≤ timeSpan (latest entries now size) := timeSpan_nonneg
  rw [h.contactWindowRate_eq, lastContacts]
  by_cases hone : (latest entries now size).length ≤ 1
  · rw [if_pos hone, timeSpan_of_length_le _ hone]
    exact iff_of_true rfl (by decide)
  · rw [if_neg hone]
    have hne : latest entries now size ≠ [] := by
      intro hnil
      rw [hnil] at hone
      exact hone (Nat.zero_le 1)
    obtain ⟨newest, hhead⟩ := Option.ne_none_iff_exists'.mp (mt List.head?_eq_none_iff.mp hne)
    obtain ⟨oldest, hlast⟩ := Option.ne_none_iff_exists'.mp (mt List.getLast?_eq_none_iff.mp hne)
    have hnewest := hrange (List.mem_of_head? hhead)
    have holdest := hrange (List.mem_of_getLast? hlast)
    rw [timeSpan, hhead, hlast, Option.getD_some, Option.getD_some] at hspan ⊢
    constructor
    · intro hrate
      by_contra hover
      obtain ⟨difference, hdifference, hrate⟩ := Option.map_eq_some_iff.mp hrate
      have hnegative := subI64_of_overflow hnewest.2 holdest.1 (not_le.mp hover) hdifference
      have hpos : 0 < newest - oldest := lt_trans (by decide) (not_le.mp hover)
      rw [if_neg (by omega), if_pos hpos] at hrate
      cases congrArg RateStat.ratePerHour hrate
    · intro hfits
      have hmin : i64Min ≤ newest - oldest := le_trans (by decide) hspan
      rw [subI64_eq ⟨hmin, hfits⟩, Option.map_some]

theorem entriesInTimeWindow_eligible (entries : List StatsEntry) (start now : Int) :
    entriesInTimeWindow (entries.filter fun entry => entry.epoch ≤ now) start now =
      contactsBetween entries start now := by
  rw [entriesInTimeWindow, contactsBetween, List.filter_filter]
  congr 1
  refine List.filter_congr fun entry _ => ?_
  rw [← Bool.decide_and]
  exact decide_eq_decide.mpr (and_iff_left_of_imp And.right)

theorem contactsBetween_eq_zero {start : Int}
    (h : now < start ∨ ∀ entry ∈ entries, now < entry.epoch) :
    contactsBetween entries start now = 0 := by
  rw [contactsBetween, List.length_eq_zero_iff, List.filter_eq_nil_iff]
  intro entry hentry hboth
  have hboth := of_decide_eq_true hboth
  rcases h with hstart | hlater
  · omega
  · have := hlater entry hentry
    omega

/-- The hours before a time that is not an hour after the first of all times are found only where
there is nothing to count. -/
theorem movingHourRate_eq_iff (h : Timed entries) (build : Build)
    (hnow : i64Min ≤ now ∧ now ≤ i64Max) :
    movingHourRate build (entries.filter fun entry => entry.epoch ≤ now) now =
        some (referenceWindows entries now).movingHour ↔
      i64Min + 3600 ≤ now ∨ build = .release ∧ ∀ entry ∈ entries, now < entry.epoch := by
  have hwindow (start : Int) := entriesInTimeWindow_eligible entries start now
  rw [movingHourRate, hourSeconds]
  by_cases hhour : i64Min + 3600 ≤ now
  · rw [subI64_eq ⟨by omega, by omega⟩, Option.map_some]
    simp only [hwindow, hhour, true_or, iff_true]
    rfl
  · rw [or_iff_right hhour]
    constructor
    · intro hrate
      obtain ⟨start, hstart, hrate⟩ := Option.map_eq_some_iff.mp hrate
      obtain ⟨hbuild, rfl⟩ := subI64_of_underflow (by omega) hstart
      have hcount := congrArg RateStat.qsoCount hrate
      dsimp only [referenceWindows] at hcount
      have hafter : now < now - 3600 + (u64Max + 1) := by
        simp only [u64Max]
        omega
      rw [hwindow, contactsBetween_eq_zero (.inl hafter)] at hcount
      refine ⟨hbuild, fun entry hentry => not_le.mp fun hle => ?_⟩
      have hnone := List.filter_eq_nil_iff.mp (List.length_eq_zero_iff.mp hcount.symm) entry hentry
      have hrange := h.range entry hentry
      exact hnone (decide_eq_true ⟨by omega, hle⟩)
    · rintro ⟨rfl, hlater⟩
      rw [subI64.eq_def, if_neg (by omega)]
      simp only [Option.map_some, hwindow, referenceWindows,
        contactsBetween_eq_zero (Or.inr hlater)]

theorem clockHourRate_eq (h : i64Min + 3600 ≤ now ∨
      build = .release ∧ ∀ entry ∈ entries, now < entry.epoch) (hnow : now ≤ i64Max) :
    clockHourRate build (entries.filter fun entry => entry.epoch ≤ now) now =
      some (referenceWindows entries now).clockHour := by
  have hwindow (start : Int) := entriesInTimeWindow_eligible entries start now
  have helapsed : now - hourStart now = now % 3600 := by
    rw [hourStart]
    omega
  have hstart : now - now % 3600 = hourStart now := by omega
  have hmod := Int.emod_nonneg now (by decide : (3600 : Int) ≠ 0)
  have hlt := Int.emod_lt_of_pos now (by decide : (0 : Int) < 3600)
  rw [clockHourRate, hourSeconds, referenceWindows]
  dsimp only
  rw [helapsed]
  by_cases hfits : i64Min ≤ now - now % 3600
  · rw [subI64_eq ⟨hfits, by omega⟩, Option.map_some, hstart]
    simp only [hwindow]
    rfl
  · -- nothing is counted, wherever the hour is taken to begin
    rcases h with hhour | ⟨rfl, hlater⟩
    · omega
    · rw [subI64.eq_def, if_neg (fun hboth => hfits hboth.1)]
      simp only [Option.map_some, hwindow, contactsBetween_eq_zero (Or.inr hlater)]
      rfl

theorem windowStats_eq_some_iff {windows : LogWindowStats} :
    windowStats build entries now = some windows ↔
      contactWindowRate build
          (entries.take (Collating.searchIndex (fun entry => entry.epoch ≤ now) entries)) 10 =
        some windows.last10Contacts ∧
      contactWindowRate build
          (entries.take (Collating.searchIndex (fun entry => entry.epoch ≤ now) entries)) 100 =
        some windows.last100Contacts ∧
      movingHourRate build
          (entries.take (Collating.searchIndex (fun entry => entry.epoch ≤ now) entries)) now =
        some windows.movingHour ∧
      clockHourRate build
          (entries.take (Collating.searchIndex (fun entry => entry.epoch ≤ now) entries)) now =
        some windows.clockHour := by
  rw [windowStats]
  constructor
  · intro h
    obtain ⟨last10, h10, h⟩ := Option.bind_eq_some_iff.mp h
    obtain ⟨last100, h100, h⟩ := Option.bind_eq_some_iff.mp h
    obtain ⟨moving, hmoving, h⟩ := Option.bind_eq_some_iff.mp h
    obtain ⟨clock, hclock, rfl⟩ := Option.map_eq_some_iff.mp h
    exact ⟨h10, h100, hmoving, hclock⟩
  · rintro ⟨h10, h100, hmoving, hclock⟩
    rw [h10, h100, hmoving, hclock]
    rfl

/-- The windows are those of the reference exactly when their differences are 64-bit integers. -/
theorem windowStats_eq_iff (h : Timed entries) (build : Build)
    (hnow : i64Min ≤ now ∧ now ≤ i64Max) :
    windowStats build entries now = some (referenceWindows entries now) ↔
      Measurable build entries now := by
  rw [windowStats_eq_some_iff, h.eligible_eq, h.movingHourRate_eq_iff build hnow]
  have hspan (size : Nat) := h.contactWindowRate_eq_iff build now size
  constructor
  · rintro ⟨-, h100, hmoving, -⟩
    exact ⟨(hspan 100).mp h100, hmoving⟩
  · rintro ⟨hfits, hmoving⟩
    have hshort : timeSpan (latest entries now 10) ≤ i64Max :=
      (timeSpan_mono (by decide) (by decide)).trans hfits
    exact ⟨(hspan 10).mpr hshort, (hspan 100).mpr hfits, hmoving,
      clockHourRate_eq hmoving hnow.2⟩

end Timed

/-! ### Every operator -/

namespace StatsLogState

variable {state : StatsLogState}

theorem getElem?_grouped (state : StatsLogState) (operator : String) :
    state.grouped[operator]? =
      if operator.isEmpty ∨ ofOperator state.contacts operator = [] then none
      else some (ofOperator state.contacts operator) := by
  rw [grouped]
  generalize state.contacts = entries
  induction entries using List.reverseRecOn with
  | nil => simp [ofOperator]
  | append_singleton entries entry ih =>
      have happend : ofOperator (entries ++ [entry]) operator =
          ofOperator entries operator ++ if entry.operator = operator then [entry] else [] := by
        rw [ofOperator, List.filter_append, List.filter_singleton, Bool.cond_decide]
        rfl
      rw [List.foldl_append, List.foldl_cons, List.foldl_nil, happend]
      split
      · next hempty =>
          by_cases heq : entry.operator = operator
          · subst heq
            rw [ih, if_pos (Or.inl hempty), if_pos (Or.inl hempty)]
          · rw [ih, if_neg heq, List.append_nil]
      · next hnonempty =>
          rw [TreeMap.getElem?_insert_key]
          by_cases heq : entry.operator = operator
          · subst heq
            have hsome : ¬(entry.operator.isEmpty = true ∨
                ofOperator entries entry.operator ++ [entry] = []) := by
              simp [hnonempty]
            rw [if_pos rfl, if_pos rfl, ih, if_neg hsome]
            congr 2
            split
            · next hnone =>
                rw [hnone.resolve_left hnonempty, Option.getD_none]
            · rfl
          · rw [if_neg heq, if_neg heq, List.append_nil, ih]

variable {build : Build} {now : Int}

theorem snapshot_eq_some_iff {snapshot : LogStatsSnapshot} :
    state.snapshot build now = some snapshot ↔
      snapshot.generatedAt = now ∧
      windowStats build state.contacts now = some snapshot.overall ∧
      ∀ operator : String, (state.grouped[operator]?).map (windowStats build · now) =
        (snapshot.byOperator[operator]?).map some := by
  have hgroups (operator : String) :
      (state.grouped.map fun _ entries => windowStats build entries now)[operator]? =
        (state.grouped[operator]?).map (windowStats build · now) :=
    Std.ExtTreeMap.getElem?_map
  have hsequence := TreeMap.sequence_eq_iff
    (state.grouped.map fun _ entries => windowStats build entries now) snapshot.byOperator
  simp only [hgroups] at hsequence
  rw [← hsequence, StatsLogState.snapshot, Option.bind_eq_some_iff]
  dsimp only
  constructor
  · rintro ⟨overall, hoverall, h⟩
    split at h
    · next hall =>
        obtain rfl := Option.some.inj h
        exact ⟨rfl, hoverall, hall, rfl⟩
    · cases h
  · rintro ⟨rfl, hoverall, hall, hbyOperator⟩
    refine ⟨_, hoverall, ?_⟩
    rw [if_pos hall, hbyOperator]

/-- A snapshot is that of the contacts exactly when their times can be measured. -/
theorem snapshot_reports_iff (h : Timed state.contacts) (build : Build)
    (hnow : i64Min ≤ now ∧ now ≤ i64Max) :
    (∃ snapshot, state.snapshot build now = some snapshot ∧
        snapshot.Reports state.contacts now) ↔
      MeasurableThroughout build state.contacts now := by
  have hwindows := h.windowStats_eq_iff build hnow
  have hgroup (operator : String) :=
    (h.filter fun entry => decide (entry.operator = operator)).windowStats_eq_iff build hnow
  constructor
  · rintro ⟨snapshot, hsnapshot, hreports⟩
    obtain ⟨-, hoverall, hbyOperator⟩ := snapshot_eq_some_iff.mp hsnapshot
    rw [hreports.overall] at hoverall
    have hmeasurable := hwindows.mp hoverall
    refine ⟨hmeasurable, fun operator hoperator => ?_⟩
    by_cases hnil : ofOperator state.contacts operator = []
    · refine ⟨?_, hmeasurable.hour.imp_right fun hlater => ⟨hlater.1, fun entry hentry => ?_⟩⟩
      · rw [hnil, timeSpan_of_length_le _ (by simp [latest])]
        decide
      · exact hlater.2 entry (List.mem_of_mem_filter hentry)
    · have hsome : ¬(operator.isEmpty = true ∨ ofOperator state.contacts operator = []) :=
        not_or.mpr ⟨hoperator, hnil⟩
      have hstats := hbyOperator operator
      rw [getElem?_grouped, hreports.byOperator, if_neg hsome, if_neg hsome, Option.map_some,
        Option.map_some, Option.some.injEq] at hstats
      exact (hgroup operator).mp hstats
  · rintro ⟨hmeasurable, hoperators⟩
    have hget (operator : String) :
        (state.grouped.map fun _ entries => referenceWindows entries now)[operator]? =
          (state.grouped[operator]?).map (referenceWindows · now) :=
      Std.ExtTreeMap.getElem?_map
    refine ⟨{ generatedAt := now, overall := referenceWindows state.contacts now
              byOperator := state.grouped.map fun _ entries => referenceWindows entries now },
      snapshot_eq_some_iff.mpr ⟨rfl, hwindows.mpr hmeasurable, fun operator => ?_⟩,
      rfl, rfl, fun operator => ?_⟩
    · rw [hget, getElem?_grouped]
      split
      · rfl
      · next hsome =>
          have hstats := (hgroup operator).mpr (hoperators operator (not_or.mp hsome).1)
          exact congrArg some hstats
    · rw [hget, getElem?_grouped]
      split
      · rfl
      · rfl

end StatsLogState

/-! ### Every run -/

section Runs

variable [Platform]

theorem timed_fromContacts (contacts : List Contact) :
    Timed (StatsLogState.fromContacts contacts).contacts where
  sorted := by
    refine (exact_fromContacts contacts).sorted.imp fun {left right} hle => ?_
    exact Prod.Lex.monotone_fst _ _ hle
  range := by
    intro entry hentry
    rw [(exact_fromContacts contacts).perm.mem_iff, List.mem_filterMap] at hentry
    obtain ⟨contact, -, hentry⟩ := hentry
    rw [statsEntry] at hentry
    obtain ⟨id, -, hentry⟩ := Option.bind_eq_some_iff.mp hentry
    obtain ⟨epoch, hepoch, rfl⟩ := Option.map_eq_some_iff.mp hentry
    obtain ⟨value, -, hvalue⟩ := Option.bind_eq_some_iff.mp hepoch
    cases value with
    | number number => exact number.asI64_range epoch hvalue
    | null | bool _ | string _ | array _ | object _ => cases hvalue

variable (database : DxccDatabase)

namespace TrackedLog

theorem Sound.run {log : TrackedLog} (h : log.Sound) (events : List StatsEvent) :
    (Runs.run (step database) log events).Sound := by
  induction events generalizing log with
  | nil => exact h
  | cons event events ih =>
      apply ih
      cases event with
      | load module stored => exact sound_load database module log.nextRevision stored
      | upsert committed => exact h.upsert committed
      | delete id => exact h.delete id

/-- The state is that of the contacts, and so is a snapshot of it where times can be measured. -/
theorem Sound.reports_iff {log : TrackedLog} (h : log.Sound) (build : Build) (now : Int64) :
    (∃ snapshot, log.stats.snapshot build now.toInt = some snapshot ∧
        snapshot.Reports (log.loaded.cached.contacts.filterMap statsEntry) now.toInt) ↔
      MeasurableThroughout build (log.loaded.cached.contacts.filterMap statsEntry) now.toInt := by
  have hnow : i64Min ≤ now.toInt ∧ now.toInt ≤ i64Max := by
    have hle := now.le_toInt
    have hlt := now.toInt_lt
    simp only [i64Min, i64Max]
    omega
  have htimed : Timed log.stats.contacts :=
    h.exact.eq_fromContacts h.consistent.distinct ▸ timed_fromContacts _
  have hiff := StatsLogState.snapshot_reports_iff htimed build hnow
  have hperm := h.exact.perm
  constructor
  · rintro ⟨snapshot, hsnapshot, hreports⟩
    exact (hiff.mp ⟨snapshot, hsnapshot, hreports.congr hperm.symm _⟩).congr hperm _
  · intro hmeasurable
    obtain ⟨snapshot, hsnapshot, hreports⟩ := hiff.mpr (hmeasurable.congr hperm.symm _)
    exact ⟨snapshot, hsnapshot, hreports.congr hperm _⟩

/-- After any loads, upserts and deletions the statistics are those of the contacts of the log, and
a snapshot shows them exactly when their times can be measured. -/
theorem stats_run (module : Arc ContestScoringModule) (revision : Nat) (stored : StoredContacts)
    (events : List StatsEvent) (build : Build) (now : Int64) :
    let log := afterEvents database module revision stored events
    log.stats = .fromContacts log.loaded.cached.contacts ∧
      ((∃ snapshot, log.stats.snapshot build now.toInt = some snapshot ∧
          snapshot.Reports (log.loaded.cached.contacts.filterMap statsEntry) now.toInt) ↔
        MeasurableThroughout build (log.loaded.cached.contacts.filterMap statsEntry)
          now.toInt) := by
  have hsound := (sound_load database module revision stored).run database events
  exact ⟨hsound.exact.eq_fromContacts hsound.consistent.distinct, hsound.reports_iff build now⟩

end TrackedLog

end Runs

section Examples

attribute [local instance] asciiPlatform

/-- Two contacts at times whose difference is not a 64-bit integer. -/
def farApart : StoredContacts where
  contacts := [stateContact 1 "K1ABC" "CA" (-9223372036854775808),
    stateContact 2 "W2XYZ" "NV" 1700000000]
  identified := by decide
  distinct := by decide

theorem not_reports_farApart :
    ¬∃ snapshot, (TrackedLog.afterEvents ⟨[], []⟩ ⟨0, .new stateContest .null⟩ 0 farApart
        []).stats.snapshot .release 1700000100 = some snapshot ∧
      snapshot.Reports ((TrackedLog.afterEvents ⟨[], []⟩ ⟨0, .new stateContest .null⟩ 0 farApart
        []).loaded.cached.contacts.filterMap statsEntry) 1700000100 := by
  have hsound := TrackedLog.sound_load ⟨[], []⟩ ⟨0, .new stateContest .null⟩ 0 farApart
  have hperm := TrackedLog.load_contacts_perm ⟨[], []⟩ ⟨0, .new stateContest .null⟩ 0 farApart
  have hentries : (enrichMissingDxcc ⟨[], []⟩ farApart.contacts).filterMap statsEntry =
      [⟨1, -9223372036854775808, ""⟩, ⟨2, 1700000000, ""⟩] := by decide +kernel
  have htimed : Timed [⟨1, -9223372036854775808, ""⟩, ⟨2, 1700000000, ""⟩] :=
    ⟨by decide, by decide⟩
  intro hreports
  have hspan := ((hsound.reports_iff .release 1700000100).mp hreports).overall.span
  rw [hentries] at hperm
  rw [latest_congr hperm, htimed.latest_eq] at hspan
  revert hspan
  decide +kernel

end Examples

end Log73
