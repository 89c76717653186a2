import Log73.BandMap.Store
import Log73.Library.Indexing
import Log73.Library.TreeMap

/-!
The index by time of the band map: it lists the stored spots in order, and a prune
relies on that. Every operation keeps it, but one that drops local spots of a log:
their ids stay behind.
-/

namespace Log73

open SortedAssoc TreeMap
open Std (ExtTreeMap)

namespace BandMapSpotStore

/-- The time and the id of a spot. -/
def timeKey (store : BandMapSpotStore) (id : Nat) : Nat ×ₗ Nat :=
  toLex (((store.spotsById[id]?).map fun spot => spot.receivedAt).getD 0, id)

/-- The ids of the stored spots, each once, in order of time and id. -/
structure TimeIndexed (store : BandMapSpotStore) : Prop where
  nodup : store.idsByTime.Nodup
  mem : ∀ id, id ∈ store.idsByTime ↔ (store.spotsById[id]?).isSome
  sorted : store.idsByTime.Pairwise fun a b => store.timeKey a ≤ store.timeKey b

/-- A prune drops the spots before the cutoff and no others. -/
def PrunesExactly (store : BandMapSpotStore) : Prop :=
  ∀ (now maxAge id : Nat), (store.prune now maxAge).1.spotsById[id]? =
    (store.spotsById[id]?).filter fun spot => cutoffTimestamp now maxAge ≤ spot.receivedAt

/-- The indexes by key agree with the stored spots, whose ids were given out. -/
structure Keyed (store : BandMapSpotStore) : Prop where
  ids : ∀ (id : Nat) (spot : BandMapSpot), store.spotsById[id]? = some spot → spot.id = id
  bounded : ∀ (id : Nat), (store.spotsById[id]?).isSome → id ≤ store.nextId
  keyById : ∀ (key : BandMapDedupeKey) (id : Nat),
    get? store.idByKey key = some id ↔ store.keyById[id]? = some key
  stored : ∀ (id : Nat), (store.keyById[id]?).isSome ↔ (store.spotsById[id]?).isSome

section Insert

variable {store : BandMapSpotStore}

/-- An id put at its place in a list of the other stored ids. -/
theorem insertIdByTime_timeIndexed {id : Nat} {spot : BandMapSpot}
    (hspot : store.spotsById[id]? = some spot) (hnodup : store.idsByTime.Nodup)
    (hmem : ∀ other, other ∈ store.idsByTime ↔ other ≠ id ∧ (store.spotsById[other]?).isSome)
    (hsorted : store.idsByTime.Pairwise fun a b => store.timeKey a ≤ store.timeKey b) :
    (store.insertIdByTime id).TimeIndexed := by
  have hpoint : store.partitionPoint spot.receivedAt id =
      (store.idsByTime.takeWhile fun other =>
        decide (OrderDual.toDual (store.timeKey id) ≤ OrderDual.toDual
          (store.timeKey other))).length := by
    refine congrArg List.length (Indexing.takeWhile_congr fun other hother => ?_)
    obtain ⟨found, hfound⟩ := Option.isSome_iff_exists.mp ((hmem other).mp hother).2
    simp only [timeKey, hfound, hspot, Option.any_some, Option.map_some, Option.getD_some,
      OrderDual.toDual_le_toDual]
  have hle : (store.idsByTime.takeWhile fun other =>
      decide (OrderDual.toDual (store.timeKey id) ≤ OrderDual.toDual
        (store.timeKey other))).length ≤
      store.idsByTime.length := (List.takeWhile_sublist _).length_le
  have hperm := List.perm_insertIdx id store.idsByTime hle
  rw [insertIdByTime, hspot]
  simp only
  rw [hpoint]
  refine ⟨?_, fun other => ?_, ?_⟩
  · rw [hperm.nodup_iff, List.nodup_cons]
    exact ⟨fun hin => ((hmem id).mp hin).1 rfl, hnodup⟩
  · rw [hperm.mem_iff, List.mem_cons, hmem]
    by_cases heq : other = id
    · simp [heq, hspot]
    · simp [heq]
  · have hdescending : Indexing.Descending (fun other => OrderDual.toDual (store.timeKey other))
        store.idsByTime := hsorted
    exact hdescending.insertIdx id

end Insert

section Upsert

variable {store : BandMapSpotStore}

/-- The spot of an id is written, and the id put at its place among the others. -/
theorem placed_timeIndexed (h : store.TimeIndexed) (id : Nat) (spot : BandMapSpot) (nextId : Nat)
    (idByKey : List (BandMapDedupeKey × Nat)) (keyById : ExtTreeMap Nat BandMapDedupeKey) :
    (insertIdByTime
      { store with
        nextId := nextId
        idsByTime := store.idsByTime.filter (· ≠ id)
        spotsById := store.spotsById.insert id spot
        idByKey := idByKey
        keyById := keyById } id).TimeIndexed := by
  have hothers : ∀ other, other ∈ store.idsByTime.filter (· ≠ id) ↔
      other ≠ id ∧ ((store.spotsById.insert id spot)[other]?).isSome := by
    intro other
    rw [List.mem_filter, decide_eq_true_eq, getElem?_insert_key, h.mem]
    by_cases heq : id = other
    · simp [heq]
    · rw [if_neg heq, and_comm]
  have hwritten : (store.spotsById.insert id spot)[id]? = some spot :=
    (getElem?_insert_key _ _ _ _).trans (if_pos rfl)
  refine insertIdByTime_timeIndexed hwritten (h.nodup.filter _) hothers ?_
  · refine (h.sorted.filter _).imp_of_mem fun {a b} ha hb hle => ?_
    have hne : ∀ {other : Nat}, other ∈ store.idsByTime.filter (· ≠ id) → id ≠ other :=
      fun hmem => Ne.symm ((hothers _).mp hmem).1
    simp only [timeKey, getElem?_insert_key, if_neg (hne ha), if_neg (hne hb)]
    exact hle

/-- Only the index by time changes. -/
theorem insertIdByTime_eq (store : BandMapSpotStore) (id : Nat) : store.insertIdByTime id =
    { store with idsByTime := (store.insertIdByTime id).idsByTime } := by
  rw [insertIdByTime]
  split <;> rfl

/-- An update of a known key, or an insertion under the next id. -/
theorem upsert_cases (hkeyed : store.Keyed) (key : BandMapDedupeKey)
    (candidate : BandMapSpotCandidate) :
    (∃ id old, get? store.idByKey key = some id ∧ store.spotsById[id]? = some old ∧
      store.upsert key candidate =
        (reinsertIdByTime
          { store with spotsById := store.spotsById.insert id (.mk candidate id) } id,
          if spotVisibleFieldsChanged old candidate then .updated (.mk candidate id)
          else .refreshed (.mk candidate id))) ∨
    (get? store.idByKey key = none ∧ store.upsert key candidate =
      (insertIdByTime
        { store with
          nextId := nextCounter store.nextId
          spotsById := store.spotsById.insert (nextCounter store.nextId)
            (.mk candidate (nextCounter store.nextId))
          idByKey := put store.idByKey key (nextCounter store.nextId)
          keyById := store.keyById.insert (nextCounter store.nextId) key }
          (nextCounter store.nextId),
        .inserted (.mk candidate (nextCounter store.nextId)))) := by
  rw [upsert]
  cases hid : get? store.idByKey key with
  | none => exact .inr ⟨rfl, rfl⟩
  | some id =>
      have hkey := (hkeyed.keyById key id).mp hid
      obtain ⟨old, hold⟩ := Option.isSome_iff_exists.mp ((hkeyed.stored id).mp (hkey ▸ rfl))
      refine .inl ⟨id, old, rfl, hold, ?_⟩
      rw [Option.bind_some, hold, Option.map_some]
      simp only [hkeyed.ids id old hold]

/-- There is room for more ids. -/
def Room (store : BandMapSpotStore) (count : Nat) : Prop := store.nextId + count < 2 ^ 64

theorem Room.nextCounter_eq {count : Nat} (h : store.Room (count + 1)) :
    nextCounter store.nextId = store.nextId + 1 := by
  rw [Room] at h
  rw [nextCounter]
  omega

theorem Keyed.fresh (h : store.Keyed) {count : Nat} (hroom : store.Room (count + 1)) :
    store.spotsById[nextCounter store.nextId]? = none := by
  cases hget : store.spotsById[nextCounter store.nextId]? with
  | none => rfl
  | some spot =>
      have hle := h.bounded _ (Option.isSome_iff_exists.mpr ⟨spot, hget⟩)
      rw [hroom.nextCounter_eq] at hle
      omega

theorem Keyed.withIds (h : store.Keyed) (ids : List Nat) :
    Keyed { store with idsByTime := ids } := ⟨h.ids, h.bounded, h.keyById, h.stored⟩

/-- The spot of an id is written anew. -/
theorem Keyed.update (h : store.Keyed) {id : Nat} (hsome : (store.spotsById[id]?).isSome)
    (candidate : BandMapSpotCandidate) :
    Keyed { store with spotsById := store.spotsById.insert id (.mk candidate id) } := by
  refine ⟨fun other spot hspot => ?_, fun other hother => ?_, h.keyById, fun other => ?_⟩
  · rw [getElem?_insert_key] at hspot
    split at hspot
    · next hsame => exact Option.some.inj hspot ▸ hsame
    · exact h.ids other spot hspot
  · rw [getElem?_insert_key] at hother
    split at hother
    · next hsame => exact h.bounded other (hsame ▸ hsome)
    · exact h.bounded other hother
  · rw [getElem?_insert_key, h.stored]
    split
    · next hsame =>
        rw [← hsame, hsome]
        rfl
    · rfl

/-- A spot comes in under a new key and the next id. -/
theorem Keyed.insertNew (h : store.Keyed) {count : Nat} (hroom : store.Room (count + 1))
    {key : BandMapDedupeKey} (hid : get? store.idByKey key = none)
    (candidate : BandMapSpotCandidate) :
    Keyed { store with
      nextId := nextCounter store.nextId
      spotsById := store.spotsById.insert (nextCounter store.nextId)
        (.mk candidate (nextCounter store.nextId))
      idByKey := put store.idByKey key (nextCounter store.nextId)
      keyById := store.keyById.insert (nextCounter store.nextId) key } := by
  have hfresh := h.fresh hroom
  have hunkeyed : store.keyById[nextCounter store.nextId]? = none := by
    rw [← Option.not_isSome_iff_eq_none, h.stored, hfresh]
    exact Bool.false_ne_true
  refine ⟨fun other spot hspot => ?_, fun other hsome => ?_, fun key' other => ?_, fun other => ?_⟩
  · rw [getElem?_insert_key] at hspot
    split at hspot
    · next hsame => exact Option.some.inj hspot ▸ hsame
    · exact h.ids other spot hspot
  · rw [getElem?_insert_key] at hsome
    split at hsome
    · next hsame => exact hsame.ge
    · have hle := h.bounded other hsome
      show other ≤ nextCounter store.nextId
      rw [hroom.nextCounter_eq]
      omega
  · rw [get?_put, getElem?_insert_key]
    by_cases hother : nextCounter store.nextId = other
    · subst hother
      rw [if_pos rfl, Option.some.injEq]
      split
      · next hkey => simp [hkey]
      · next hkey =>
          rw [h.keyById, hunkeyed]
          simp [hkey]
    · rw [if_neg hother, ← h.keyById]
      split
      · next hkey =>
          subst hkey
          rw [hid]
          simp [hother]
      · rfl
  · rw [getElem?_insert_key, getElem?_insert_key]
    split
    · rfl
    · exact h.stored other

theorem upsert_keyed (h : store.Keyed) {count : Nat} (hroom : store.Room (count + 1))
    (key : BandMapDedupeKey) (candidate : BandMapSpotCandidate) :
    (store.upsert key candidate).1.Keyed ∧ (store.upsert key candidate).1.Room count := by
  obtain ⟨id, old, hid, hold, heq⟩ | ⟨hid, heq⟩ := upsert_cases h key candidate
  · rw [heq, reinsertIdByTime, insertIdByTime_eq]
    refine ⟨(h.update (hold ▸ rfl) candidate).withIds _, ?_⟩
    rw [Room] at hroom ⊢
    show store.nextId + count < 2 ^ 64
    omega
  · rw [heq, insertIdByTime_eq]
    refine ⟨(h.insertNew hroom hid candidate).withIds _, ?_⟩
    show nextCounter store.nextId + count < 2 ^ 64
    rw [Room] at hroom
    rw [nextCounter]
    omega

theorem upsert_timeIndexed (h : store.TimeIndexed) (hkeyed : store.Keyed) {count : Nat}
    (hroom : store.Room (count + 1)) (key : BandMapDedupeKey) (candidate : BandMapSpotCandidate) :
    (store.upsert key candidate).1.TimeIndexed := by
  obtain ⟨id, old, -, -, heq⟩ | ⟨-, heq⟩ := upsert_cases hkeyed key candidate
  · rw [heq]
    exact placed_timeIndexed h id _ _ _ _
  · have hfresh := hkeyed.fresh hroom
    have hself : store.idsByTime.filter (· ≠ nextCounter store.nextId) = store.idsByTime := by
      refine List.filter_eq_self.mpr fun other hmem => decide_eq_true fun hsame => ?_
      have hsome := (h.mem other).mp hmem
      rw [hsame, hfresh] at hsome
      cases hsome
    have hplaced := placed_timeIndexed h (nextCounter store.nextId)
      (.mk candidate (nextCounter store.nextId)) (nextCounter store.nextId)
      (put store.idByKey key (nextCounter store.nextId))
        (store.keyById.insert (nextCounter store.nextId) key)
    rw [hself] at hplaced
    rw [heq]
    exact hplaced

end Upsert

section Remove

variable {store : BandMapSpotStore}

theorem removeById_eq {id : Nat} {key : BandMapDedupeKey}
    (hsome : (store.spotsById[id]?).isSome) (hkey : store.keyById[id]? = some key) :
    store.removeById id =
      ({ store with
          spotsById := store.spotsById.erase id
          idByKey := erase store.idByKey key
          keyById := store.keyById.erase id
          nextSequence := nextCounter store.nextSequence },
        [.spotDeleted (nextCounter store.nextSequence) id]) := by
  obtain ⟨spot, hspot⟩ := Option.isSome_iff_exists.mp hsome
  rw [removeById, hspot]
  simp only [hkey, Option.elim_some]

theorem Keyed.key (h : store.Keyed) {id : Nat} (hsome : (store.spotsById[id]?).isSome) :
    ∃ key, store.keyById[id]? = some key :=
  Option.isSome_iff_exists.mp ((h.stored id).mpr hsome)

theorem removeById_keyed (h : store.Keyed) (id : Nat) : (store.removeById id).1.Keyed := by
  cases hget : store.spotsById[id]? with
  | none =>
      rw [removeById, hget]
      exact h
  | some spot =>
      have hsome : (store.spotsById[id]?).isSome := Option.isSome_iff_exists.mpr ⟨spot, hget⟩
      obtain ⟨key, hkey⟩ := h.key hsome
      rw [removeById_eq hsome hkey]
      refine ⟨fun other found hfound => ?_, fun other hother => ?_, fun key' other => ?_,
        fun other => ?_⟩
      · rw [getElem?_erase_key] at hfound
        split at hfound
        · cases hfound
        · exact h.ids other found hfound
      · rw [getElem?_erase_key] at hother
        split at hother
        · cases hother
        · exact h.bounded other hother
      · rw [get?_erase, getElem?_erase_key]
        by_cases hsame : id = other
        · subst hsame
          rw [if_pos rfl]
          split
          · simp
          · next hne =>
              rw [h.keyById, hkey]
              simp [hne]
        · rw [if_neg hsame, ← h.keyById]
          split
          · next hsamekey =>
              subst hsamekey
              rw [(h.keyById key id).mpr hkey]
              simp [hsame]
          · rfl
      · rw [getElem?_erase_key, getElem?_erase_key]
        split
        · rfl
        · exact h.stored other

theorem removeById_withIds (ids : List Nat) (id : Nat) :
    (removeById { store with idsByTime := ids } id).1 =
      { (store.removeById id).1 with idsByTime := ids } := by
  rw [removeById, removeById]
  cases store.spotsById[id]? <;> rfl

theorem getElem?_removeById (id other : Nat) : (store.removeById id).1.spotsById[other]? =
    if id = other then none else store.spotsById[other]? := by
  rw [removeById]
  split
  · next hnone =>
      split
      · next hsame => exact hsame ▸ hnone
      · rfl
  · exact getElem?_erase_key _ _ _

theorem nextId_removeById (id : Nat) : (store.removeById id).1.nextId = store.nextId := by
  rw [removeById]
  split <;> rfl

theorem idByKey_removeById {id other : Nat} {key : BandMapDedupeKey}
    (hget : get? (store.removeById id).1.idByKey key = some other) :
    get? store.idByKey key = some other := by
  rw [removeById] at hget
  split at hget
  · exact hget
  · cases hkey : store.keyById[id]? with
    | none =>
        simp only [hkey, Option.elim_none] at hget
        exact hget
    | some old =>
        simp only [hkey, Option.elim_some] at hget
        rw [get?_erase] at hget
        split at hget
        · cases hget
        · exact hget

/-- A spot and its id in the index by time are dropped together. -/
theorem dropped_timeIndexed {id : Nat} {ids : List Nat}
    (hnodup : ids.Nodup) (hmem : ∀ other, other ∈ ids ↔
      other ≠ id ∧ (store.spotsById[other]?).isSome)
    (hsorted : ids.Pairwise fun a b => store.timeKey a ≤ store.timeKey b) :
    TimeIndexed { (store.removeById id).1 with idsByTime := ids } := by
  refine ⟨hnodup, fun other => ?_, ?_⟩
  · show other ∈ ids ↔ ((store.removeById id).1.spotsById[other]?).isSome
    rw [getElem?_removeById, hmem]
    by_cases heq : id = other
    · simp [heq]
    · simp [heq, Ne.symm heq]
  · refine hsorted.imp_of_mem fun {a b} ha hb hle => ?_
    have hne : ∀ {other : Nat}, other ∈ ids → id ≠ other := fun hin => Ne.symm ((hmem _).mp hin).1
    simp only [timeKey, getElem?_removeById, if_neg (hne ha), if_neg (hne hb)]
    exact hle

/-- What a prune leaves: the spots from the cutoff on, in an index that lists them. -/
structure PrunedTo (cutoff : Nat) (store pruned : BandMapSpotStore) : Prop where
  timeIndexed : pruned.TimeIndexed
  keyed : pruned.Keyed
  spots : ∀ id : Nat, pruned.spotsById[id]? =
    (store.spotsById[id]?).filter fun spot => cutoff ≤ spot.receivedAt
  nextId : pruned.nextId = store.nextId
  idByKey : ∀ key id, get? pruned.idByKey key = some id → get? store.idByKey key = some id

theorem pruneLoop_prunedTo (cutoff : Nat) (ids : List Nat)
    (h : TimeIndexed { store with idsByTime := ids }) (hkeyed : store.Keyed) :
    PrunedTo cutoff store (pruneLoop cutoff store ids).1 := by
  have hmem : ∀ id : Nat, id ∈ ids ↔ (store.spotsById[id]?).isSome := h.mem
  induction ids generalizing store with
  | nil =>
      refine ⟨h, hkeyed.withIds [], fun id => ?_, rfl, fun _ _ hget => hget⟩
      have hnone : store.spotsById[id]? = none := by
        rw [← Option.not_isSome_iff_eq_none, ← hmem]
        exact List.not_mem_nil
      exact hnone.trans (congrArg (Option.filter _) hnone).symm
  | cons id ids ih =>
      obtain ⟨spot, hspot⟩ := Option.isSome_iff_exists.mp ((hmem id).mp List.mem_cons_self)
      obtain ⟨hfirst, hsorted⟩ := List.pairwise_cons.mp h.sorted
      obtain ⟨hnew, hnodup⟩ := List.nodup_cons.mp h.nodup
      rw [pruneLoop, hspot]
      simp only
      split
      · next hle =>
          refine ⟨h, hkeyed.withIds _, fun other => ?_, rfl, fun _ _ hget => hget⟩
          show store.spotsById[other]? = _
          cases hother : store.spotsById[other]? with
          | none => rfl
          | some found =>
              -- the first id is the oldest, so nothing is before the cutoff
              have hlater : cutoff ≤ found.receivedAt := by
                cases List.mem_cons.mp
                  ((hmem other).mpr (Option.isSome_iff_exists.mpr ⟨found, hother⟩)) with
                | inl heq =>
                    subst heq
                    exact Option.some.inj (hspot.symm.trans hother) ▸ hle
                | inr hin =>
                    have hkey := Prod.Lex.monotone_fst _ _ (hfirst other hin)
                    simp only [timeKey, hspot, hother, Option.map_some, Option.getD_some,
                      ofLex_toLex] at hkey
                    exact hle.trans hkey
              rw [Option.filter_some, if_pos (decide_eq_true hlater)]
      · next hlt =>
          have hothers : ∀ other, other ∈ ids ↔ other ≠ id ∧ (store.spotsById[other]?).isSome := by
            intro other
            rw [← hmem, List.mem_cons]
            constructor
            · exact fun hin => ⟨fun heq => hnew (heq ▸ hin), .inr hin⟩
            · exact fun hboth => hboth.2.resolve_left hboth.1
          have hdropped := dropped_timeIndexed hnodup hothers hsorted
          have hpruned := ih hdropped (removeById_keyed hkeyed id) hdropped.mem
          refine ⟨hpruned.timeIndexed, hpruned.keyed, fun other => ?_,
            hpruned.nextId.trans (nextId_removeById id),
            fun key other hget => idByKey_removeById (hpruned.idByKey key other hget)⟩
          rw [hpruned.spots, getElem?_removeById]
          split
          · next heq =>
              subst heq
              rw [hspot, Option.filter_none, Option.filter_some, if_neg]
              rw [decide_eq_true_eq]
              exact hlt
          · rfl

theorem prune_prunedTo (h : store.TimeIndexed) (hkeyed : store.Keyed) (now maxAge : Nat) :
    PrunedTo (cutoffTimestamp now maxAge) store (store.prune now maxAge).1 :=
  pruneLoop_prunedTo _ _ h hkeyed

/-- A spot is removed with its id. -/
theorem remove_timeIndexed (h : store.TimeIndexed) (hkeyed : store.Keyed) (id : Nat) :
    (store.remove id).1.TimeIndexed ∧ (store.remove id).1.Keyed := by
  refine ⟨?_, removeById_keyed (hkeyed.withIds _) id⟩
  have hothers : ∀ other, other ∈ store.idsByTime.filter (· ≠ id) ↔
      other ≠ id ∧ (store.spotsById[other]?).isSome := by
    intro other
    rw [List.mem_filter, decide_eq_true_eq, h.mem, and_comm]
  have hdropped := dropped_timeIndexed (h.nodup.filter _) hothers (h.sorted.filter _)
  rw [remove, removeById_withIds]
  exact hdropped

end Remove

/-- What every operation keeps. -/
structure Ordered (store : BandMapSpotStore) : Prop where
  timeIndexed : store.TimeIndexed
  keyed : store.Keyed

section Operate

variable [Platform] {store : BandMapSpotStore}

omit [Platform] in
theorem announce_ordered {count : Nat} (h : store.Ordered) (hroom : store.Room count)
    (outcome : UpsertOutcome) :
    (store.announce outcome).1.Ordered ∧ (store.announce outcome).1.Room count := by
  have hsame : Ordered { store with nextSequence := nextCounter store.nextSequence } :=
    ⟨⟨h.timeIndexed.nodup, h.timeIndexed.mem, h.timeIndexed.sorted⟩,
      ⟨h.keyed.ids, h.keyed.bounded, h.keyed.keyById, h.keyed.stored⟩⟩
  cases outcome with
  | inserted spot => exact ⟨hsame, hroom⟩
  | updated spot => exact ⟨hsame, hroom⟩
  | refreshed spot => exact ⟨h, hroom⟩

omit [Platform] in
theorem upsertAnnounced_ordered {count : Nat} (h : store.Ordered) (hroom : store.Room (count + 1))
    (request : SpotRequest) :
    (store.upsertAnnounced request).1.Ordered ∧ (store.upsertAnnounced request).1.Room count := by
  obtain ⟨hkeyed, hleft⟩ := upsert_keyed h.keyed hroom request.1 request.2
  exact announce_ordered
    ⟨upsert_timeIndexed h.timeIndexed h.keyed hroom request.1 request.2, hkeyed⟩ hleft _

omit [Platform] in
theorem foldl_upsertAnnounced_ordered (requests : List SpotRequest) {events : List BandMapEvent}
    (h : store.Ordered) (hroom : store.Room requests.length) :
    (requests.foldl (fun state request => recordEvents state (upsertAnnounced · request))
      (store, events)).1.Ordered := by
  induction requests generalizing store events with
  | nil => exact h
  | cons request requests ih =>
      obtain ⟨hordered, hleft⟩ := upsertAnnounced_ordered h hroom request
      exact ih hordered hleft

omit [Platform] in
theorem prune_ordered {count : Nat} (h : store.Ordered) (hroom : store.Room count)
    (now maxAge : Nat) :
    (store.prune now maxAge).1.Ordered ∧ (store.prune now maxAge).1.Room count := by
  have hpruned := prune_prunedTo h.timeIndexed h.keyed now maxAge
  refine ⟨⟨hpruned.timeIndexed, hpruned.keyed⟩, ?_⟩
  rw [Room, hpruned.nextId]
  exact hroom

omit [Platform] in
theorem upsertCandidate_ordered (h : store.Ordered) (hroom : store.Room 1) (now maxAge : Nat)
    (request : SpotRequest) : (store.upsertCandidate now maxAge request).1.Ordered := by
  obtain ⟨hpruned, hleft⟩ := prune_ordered h hroom now maxAge
  exact (upsertAnnounced_ordered hpruned hleft request).1

/-- Every local spot of the log that is young enough to stay is asked for by one of its contacts. -/
def KeepsLocalSpots (store : BandMapSpotStore) (bands : List Band) (asked cutoff : Nat)
    (logId : Int)
    (contacts : List Contact) : Prop :=
  ∀ key id (spot : BandMapSpot), get? store.idByKey key = some id →
    store.spotsById[id]? = some spot → cutoff ≤ spot.receivedAt → key.isLocalFor logId →
      (get? (desiredSpots bands asked logId contacts) key).isSome

/-- A synchronisation that drops no local spot. -/
theorem syncLocalSpotsForLog_ordered (h : store.Ordered) (upsertOrder : IterationOrder SpotRequest)
    (removeOrder : IterationOrder BandMapDedupeKey) (bands : List Band) (asked now maxAge : Nat)
    (logId : Int) (contacts : List Contact)
    (hroom : store.Room (desiredSpots bands (cutoffTimestamp asked maxAge) logId contacts).length)
    (hkeeps : store.KeepsLocalSpots bands (cutoffTimestamp asked maxAge)
      (cutoffTimestamp now maxAge)
      logId contacts) :
    (store.syncLocalSpotsForLog upsertOrder removeOrder bands asked now maxAge logId
      contacts).1.Ordered := by
  have hpruned := prune_prunedTo h.timeIndexed h.keyed now maxAge
  obtain ⟨hordered, hleft⟩ := prune_ordered h hroom now maxAge
  have hnone : ((store.prune now maxAge).1.localKeysForLog logId).filter (fun key =>
      (get? (desiredSpots bands (cutoffTimestamp asked maxAge) logId contacts) key).isNone) =
        [] := by
    refine List.filter_eq_nil_iff.mpr fun key hkey hmissing => ?_
    obtain ⟨hmem, hlocal⟩ := List.mem_filter.mp hkey
    obtain ⟨id, hid⟩ := Option.isSome_iff_exists.mp ((isSome_get? _ key).mpr hmem)
    have hstored := (hpruned.keyed.stored id).mp ((hpruned.keyed.keyById key id).mp hid ▸ rfl)
    obtain ⟨spot, hspot⟩ := Option.isSome_iff_exists.mp hstored
    rw [hpruned.spots, Option.filter_eq_some_iff, decide_eq_true_eq] at hspot
    have hasked := hkeeps key id spot (hpruned.idByKey key id hid) hspot.1 hspot.2 hlocal
    rw [Option.isNone_iff_eq_none] at hmissing
    rw [hmissing] at hasked
    cases hasked
  have harrange : ∀ order : IterationOrder BandMapDedupeKey, order.arrange [] = [] :=
    fun order => (order.perm []).eq_nil
  rw [syncLocalSpotsForLog]
  simp only [hnone, harrange]
  refine foldl_upsertAnnounced_ordered _ hordered ?_
  rw [(upsertOrder.perm _).length_eq]
  exact hleft

/-- The condition on an operation: ids are left for its new spots, and a synchronisation drops
no local spot of the log but expired ones. -/
def OperationKeeps (store : BandMapSpotStore) : BandMapOperation → Prop
  | .syncLocalSpotsForLog _ _ bands asked now maxAge logId contacts =>
      store.Room (desiredSpots bands (cutoffTimestamp asked maxAge) logId contacts).length ∧
      store.KeepsLocalSpots bands (cutoffTimestamp asked maxAge) (cutoffTimestamp now maxAge) logId
        contacts
  | .upsertDxclusterSpot .. | .upsertLocalSpot .. | .upsertCq .. | .upsertInUse .. => store.Room 1
  | .deleteSpot _ | .deleteDxclusterSpot _ | .pruneOldSpots .. => True

theorem operate_ordered (h : store.Ordered) (operation : BandMapOperation)
    (hkeeps : store.OperationKeeps operation) : (store.operate operation).1.Ordered := by
  cases operation with
  | upsertDxclusterSpot bands now maxAge spot => exact upsertCandidate_ordered h hkeeps now maxAge _
  | upsertLocalSpot bands now maxAge input => exact upsertCandidate_ordered h hkeeps now maxAge _
  | upsertCq bands now maxAge frequencyHz radioId radioName =>
      rw [operate]
      split
      · exact h
      · exact upsertCandidate_ordered h hkeeps now maxAge _
  | upsertInUse bands now maxAge frequencyHz => exact upsertCandidate_ordered h hkeeps now maxAge _
  | syncLocalSpotsForLog upsertOrder removeOrder bands asked now maxAge logId contacts =>
      exact syncLocalSpotsForLog_ordered h upsertOrder removeOrder bands asked now maxAge logId
        contacts hkeeps.1 hkeeps.2
  | deleteSpot id =>
      obtain ⟨htime, hkeyed⟩ := remove_timeIndexed h.timeIndexed h.keyed id
      exact ⟨htime, hkeyed⟩
  | deleteDxclusterSpot sourceId =>
      rw [operate, removeClusterSourceSpot]
      split
      · exact h
      · next id _ =>
          obtain ⟨htime, hkeyed⟩ := remove_timeIndexed h.timeIndexed h.keyed id
          exact ⟨htime, hkeyed⟩
  | pruneOldSpots now maxAge =>
      have hpruned := prune_prunedTo h.timeIndexed h.keyed now maxAge
      exact ⟨hpruned.timeIndexed, hpruned.keyed⟩

end Operate

section Run

variable [Platform]

def run (store : BandMapSpotStore) (operations : List BandMapOperation) : BandMapSpotStore :=
  operations.foldl (fun store operation => (store.operate operation).1) store

/-- Every operation of a run meets its condition where it is made. -/
def RunKeeps : BandMapSpotStore → List BandMapOperation → Prop
  | _, [] => True
  | store, operation :: operations =>
      store.OperationKeeps operation ∧ RunKeeps (store.operate operation).1 operations

theorem run_ordered {store : BandMapSpotStore} (h : store.Ordered)
    (operations : List BandMapOperation) (hkeeps : store.RunKeeps operations) :
    (store.run operations).Ordered := by
  induction operations generalizing store with
  | nil => exact h
  | cons operation operations ih => exact ih (operate_ordered h operation hkeeps.1) hkeeps.2

omit [Platform] in
theorem ordered_empty : Ordered {} where
  timeIndexed :=
    { nodup := List.nodup_nil
      mem := by simp
      sorted := List.Pairwise.nil }
  keyed :=
    { ids := by simp
      bounded := by simp
      keyById := by simp
      stored := by simp }

/-- In a run whose synchronisations drop no local spot that is young enough, the index by time
lists the stored spots in order, and a prune drops exactly the expired ones. -/
theorem timeIndexed_of_runKeeps (operations : List BandMapOperation)
    (hkeeps : RunKeeps {} operations) :
    (run {} operations).TimeIndexed ∧ (run {} operations).PrunesExactly := by
  have hordered := run_ordered ordered_empty operations hkeeps
  exact ⟨hordered.timeIndexed, fun now maxAge id =>
    (prune_prunedTo hordered.timeIndexed hordered.keyed now maxAge).spots id⟩

end Run

end BandMapSpotStore

end Log73

namespace Log73

attribute [local instance] asciiPlatform

/-- A hash map gone through in the order it is held. -/
def IterationOrder.held (α : Type) : IterationOrder α where
  arrange entries := entries
  perm entries := .refl entries

/-- A contact of the log on 20 meters. -/
def workedContact : Contact :=
  buildContact [] [("CALL", .string "K1ABC"), ("BAND", .string "20m"),
    ("FREQ", .number (.int 14074000)), ("QSO_DATE_TIME_ON", .number (.int 1000))]

/-- The contacts of a log are synchronised. -/
def syncContacts (contacts : List Contact) : BandMapOperation :=
  .syncLocalSpotsForLog (.held _) (.held _) [] 1000 1000 600 1 contacts

namespace BandMapSpotStore

theorem timeIndexed_of_runKeeps_worked :
    (run {} [syncContacts [workedContact], .upsertInUse [] 1000 600 7000000]).TimeIndexed ∧
    (run {} [syncContacts [workedContact], .upsertInUse [] 1000 600 7000000]).PrunesExactly :=
  timeIndexed_of_runKeeps [syncContacts [workedContact], .upsertInUse [] 1000 600 7000000]
    ⟨⟨by rw [Room]; decide +kernel, fun key id spot hkey => by simp at hkey⟩,
      by rw [OperationKeeps, Room]; decide +kernel, trivial⟩

/-- The contact is deleted: its spot goes, but its id stays in the index by time. -/
theorem not_timeIndexed_deletedContact :
    ¬((run {} [syncContacts [workedContact], syncContacts []]).TimeIndexed ∧
      (run {} [syncContacts [workedContact], syncContacts []]).PrunesExactly) := by
  rintro ⟨htime, -⟩
  have hmem : 1 ∈ (run {} [syncContacts [workedContact], syncContacts []]).idsByTime := by
    decide +kernel
  have hsome := (htime.mem 1).mp hmem
  have hnone : ((run {} [syncContacts [workedContact], syncContacts []]).spotsById[1]?).isSome =
      false := by decide +kernel
  rw [hnone] at hsome
  cases hsome

end BandMapSpotStore

end Log73
