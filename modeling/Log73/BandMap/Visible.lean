import Log73.BandMap.TimeIndex
import Log73.Library.Histories

/-!
The spots of the band map that a log can see, against the numbered history of events: the
store holds what the events say, and each event takes the next number.
-/

namespace Log73

open SortedAssoc TreeMap Replica
open Std (ExtTreeMap)

/-- A spot without its time of arrival. -/
def BandMapSpot.timeless (spot : BandMapSpot) : BandMapSpot := { spot with receivedAt := 0 }

def BandMapEvent.sequence : BandMapEvent → Nat
  | .spotUpserted sequence _ => sequence
  | .spotDeleted sequence _ => sequence

/-- What an event changes for a client that shows a log. -/
def BandMapEvent.changeFor (logId : Option Int) : BandMapEvent → Change Nat BandMapSpot
  | .spotUpserted _ spot =>
      if spotVisibleForLog spot logId then .put spot.id spot.timeless else .keep
  | .spotDeleted _ id => .drop id

/-- The spots a log can see after the first events of a history. -/
def visibleAt (logId : Option Int) (history : List BandMapEvent) (count : Nat) :
    Nat → Option BandMapSpot :=
  viewAt (history.map (BandMapEvent.changeFor logId)) count

/-- Whether the spot under a key can be seen is settled by the key. -/
def BandMapDedupeKey.visibleForLog (key : BandMapDedupeKey) (logId : Option Int) : Bool :=
  match key with
  | .localBand spotLogId _ _ | .localUnknownBand spotLogId _ _ =>
      match spotLogId, logId with
      | some spotLogId, some requestedLogId => spotLogId = requestedLogId
      | some _, none => false
      | _, _ => true
  | _ => true

/-- A request under a key of its own log, at a frequency a client can show. -/
structure SpotRequest.Sound (logId : Option Int) (request : SpotRequest) : Prop where
  visible : ∀ id, spotVisibleForLog (.mk request.2 id) logId = request.1.visibleForLog logId
  frequency : 0 < request.2.frequencyHz

namespace BandMapSpotStore

/-- The spots a log can see, by id. -/
def view (store : BandMapSpotStore) (logId : Option Int) (id : Nat) : Option BandMapSpot :=
  ((store.spotsById[id]?).filter (spotVisibleForLog · logId)).map BandMapSpot.timeless

/-- The store is what its history says. The ids of the spots are listed, next to others. -/
structure Recorded (logId : Option Int) (store : BandMapSpotStore) (history : List BandMapEvent) :
    Prop where
  keyed : store.Keyed
  fitting : ∀ (id : Nat) (key : BandMapDedupeKey) (spot : BandMapSpot),
    store.keyById[id]? = some key → store.spotsById[id]? = some spot →
      spotVisibleForLog spot logId = key.visibleForLog logId
  frequencies : ∀ (id : Nat) (spot : BandMapSpot),
    store.spotsById[id]? = some spot → 0 < spot.frequencyHz
  ids : store.nextId ≤ store.nextSequence
  length : history.length = store.nextSequence
  numbered : ∀ (i : Nat) (event : BandMapEvent), history[i]? = some event → event.sequence = i + 1
  announced : ∀ (sequence : Nat) (spot : BandMapSpot),
    .spotUpserted sequence spot ∈ history → 0 < spot.frequencyHz
  view : store.view logId = visibleAt logId history history.length

/-- Every stored spot is found by time. -/
def Listed (store : BandMapSpotStore) : Prop :=
  ∀ id : Nat, (store.spotsById[id]?).isSome → id ∈ store.idsByTime

section Steps

variable {logId : Option Int} {store : BandMapSpotStore} {history : List BandMapEvent}

/-- The order by time plays no part. -/
theorem Recorded.withIds (h : store.Recorded logId history) (ids : List Nat) :
    Recorded logId { store with idsByTime := ids } history :=
  ⟨h.keyed.withIds ids, h.fitting, h.frequencies, h.ids, h.length, h.numbered, h.announced, h.view⟩

/-- There are numbers left, for a client too: it reads them as doubles. -/
def sequenceLimit : Nat := 2 ^ 53

theorem Recorded.room (h : store.Recorded logId history) (hlimit : history.length ≤ sequenceLimit) :
    store.Room 1 := by
  have hids := h.ids
  have hlength := h.length
  rw [sequenceLimit] at hlimit
  rw [Room]
  omega

theorem Recorded.nextCounter_eq (h : store.Recorded logId history)
    (hlimit : history.length + 1 ≤ sequenceLimit) :
    nextCounter store.nextSequence = history.length + 1 := by
  have hlength := h.length
  rw [sequenceLimit] at hlimit
  rw [nextCounter]
  omega

theorem numbered_concat {event : BandMapEvent}
    (h : ∀ (i : Nat) (event : BandMapEvent), history[i]? = some event → event.sequence = i + 1)
    (hevent : event.sequence = history.length + 1) :
    ∀ (i : Nat) (other : BandMapEvent), (history ++ [event])[i]? = some other →
      other.sequence = i + 1 := by
  intro i other hother
  rw [List.getElem?_append] at hother
  split at hother
  · exact h i other hother
  · next hge =>
      rw [List.getElem?_singleton] at hother
      split at hother
      · next hzero =>
          cases hother
          omega
      · cases hother

theorem visibleAt_concat (event : BandMapEvent) :
    visibleAt logId (history ++ [event]) (history ++ [event]).length =
      (event.changeFor logId).apply (visibleAt logId history history.length) := by
  have hmap : (history ++ [event]).map (BandMapEvent.changeFor logId) =
      history.map (BandMapEvent.changeFor logId) ++ [event.changeFor logId] := List.map_append
  have hlength : (history ++ [event]).length =
      (history.map (BandMapEvent.changeFor logId) ++ [event.changeFor logId]).length := by
    simp
  rw [visibleAt, hmap, hlength, viewAt_concat, List.length_map]
  rfl

/-- A spot leaves, and its event drops it. -/
theorem Recorded.removeById (h : store.Recorded logId history) (id : Nat)
    (hlimit : history.length + (store.removeById id).2.length ≤ sequenceLimit) :
    Recorded logId (store.removeById id).1 (history ++ (store.removeById id).2) := by
  cases hget : store.spotsById[id]? with
  | none =>
      rw [BandMapSpotStore.removeById, hget, List.append_nil]
      exact h
  | some spot =>
      have hsome : (store.spotsById[id]?).isSome := Option.isSome_iff_exists.mpr ⟨spot, hget⟩
      obtain ⟨key, hkey⟩ := h.keyed.key hsome
      have hkeyed := removeById_keyed h.keyed id
      have hremoved := removeById_eq hsome hkey
      rw [hremoved] at hlimit hkeyed ⊢
      have hnext := h.nextCounter_eq hlimit
      refine ⟨hkeyed, ?_, ?_, ?_, ?_, ?_, ?_, ?_⟩
      · intro other key' spot' hkey' hspot'
        rw [getElem?_erase_key] at hkey' hspot'
        split at hkey'
        · cases hkey'
        · next hne =>
            rw [if_neg hne] at hspot'
            exact h.fitting other key' spot' hkey' hspot'
      · intro other spot' hspot'
        rw [getElem?_erase_key] at hspot'
        split at hspot'
        · cases hspot'
        · exact h.frequencies other spot' hspot'
      · have hids := h.ids
        have hlength := h.length
        show store.nextId ≤ nextCounter store.nextSequence
        omega
      · rw [List.length_append, List.length_singleton]
        exact hnext.symm
      · exact numbered_concat h.numbered hnext
      · intro sequence spot' hmem
        cases List.mem_append.mp hmem with
        | inl hmem => exact h.announced sequence spot' hmem
        | inr hmem => cases List.mem_singleton.mp hmem
      · funext other
        rw [visibleAt_concat, ← h.view, BandMapEvent.changeFor, BandMapSpotStore.view]
        show ((store.spotsById.erase id)[other]?.filter _).map _ = _
        rw [getElem?_erase_key]
        by_cases heq : other = id
        · rw [if_pos heq.symm, heq, Change.apply_drop_self]
          rfl
        · rw [if_neg (Ne.symm heq), Change.apply_drop_of_ne _ heq]
          rfl

/-- A spot is written under its key, and its event says so. -/
theorem Recorded.upserted (h : store.Recorded logId history) {store' : BandMapSpotStore} {id : Nat}
    {key : BandMapDedupeKey} {spot : BandMapSpot} (hkeyed : store'.Keyed)
    (hspots : ∀ other : Nat, store'.spotsById[other]? =
      if id = other then some spot else store.spotsById[other]?)
    (hkeys : ∀ other : Nat, store'.keyById[other]? =
      if id = other then some key else store.keyById[other]?)
    (hfitting : spotVisibleForLog spot logId = key.visibleForLog logId)
    (hhidden : spotVisibleForLog spot logId = false → store.view logId id = none)
    (hfrequency : 0 < spot.frequencyHz) (hids : store'.nextId ≤ store'.nextSequence)
    (hsequence : store'.nextSequence = history.length + 1) :
    Recorded logId store' (history ++ [.spotUpserted (history.length + 1) spot]) := by
  have hid : spot.id = id := hkeyed.ids id spot (by rw [hspots, if_pos rfl])
  refine ⟨hkeyed, ?_, ?_, hids, ?_, numbered_concat h.numbered rfl, ?_, ?_⟩
  · intro other key' spot' hkey' hspot'
    rw [hkeys] at hkey'
    rw [hspots] at hspot'
    split at hkey'
    · next heq =>
        rw [if_pos heq] at hspot'
        cases hkey'
        cases hspot'
        exact hfitting
    · next hne =>
        rw [if_neg hne] at hspot'
        exact h.fitting other key' spot' hkey' hspot'
  · intro other spot' hspot'
    rw [hspots] at hspot'
    split at hspot'
    · cases hspot'
      exact hfrequency
    · exact h.frequencies other spot' hspot'
  · rw [List.length_append, List.length_singleton, hsequence]
  · intro sequence spot' hmem
    cases List.mem_append.mp hmem with
    | inl hmem => exact h.announced sequence spot' hmem
    | inr hmem =>
        cases List.mem_singleton.mp hmem
        exact hfrequency
  · funext other
    rw [visibleAt_concat, ← h.view, BandMapEvent.changeFor, hid, BandMapSpotStore.view, hspots]
    by_cases heq : id = other
    · subst heq
      rw [if_pos rfl, Option.filter_some]
      cases hvisible : spotVisibleForLog spot logId with
      | true =>
          rw [if_pos rfl, if_pos rfl, Change.apply_put_self]
          rfl
      | false =>
          rw [if_neg Bool.false_ne_true, if_neg Bool.false_ne_true]
          exact (hhidden hvisible).symm
    · rw [if_neg heq]
      split
      · rw [Change.apply_put_of_ne _ _ (Ne.symm heq)]
        rfl
      · rfl

theorem timeless_of_unchanged {old : BandMapSpot} {candidate : BandMapSpotCandidate} {id : Nat}
    (hid : old.id = id) (h : spotVisibleFieldsChanged old candidate = false) :
    BandMapSpot.timeless (.mk candidate id) = old.timeless := by
  rw [spotVisibleFieldsChanged, decide_eq_false_iff_not, not_not] at h
  rw [← hid, ← h]
  rfl

theorem view_eq_none {id : Nat} {old : BandMapSpot} (hold : store.spotsById[id]? = some old)
    (hhidden : spotVisibleForLog old logId = false) : store.view logId id = none := by
  rw [view, hold, Option.filter_some, hhidden]
  rfl

/-- A spot that only came in once more is announced to no one. -/
theorem Recorded.refreshed (h : store.Recorded logId history) {id : Nat} {old : BandMapSpot}
    {candidate : BandMapSpotCandidate} (hold : store.spotsById[id]? = some old)
    (hkeyed : Keyed { store with spotsById := store.spotsById.insert id (.mk candidate id) })
    (hvisible : spotVisibleForLog (.mk candidate id) logId = spotVisibleForLog old logId)
    (hfrequency : 0 < candidate.frequencyHz)
    (hunchanged : spotVisibleFieldsChanged old candidate = false) :
    Recorded logId { store with spotsById := store.spotsById.insert id (.mk candidate id) }
      history := by
  refine ⟨hkeyed, ?_, ?_, h.ids, h.length, h.numbered, h.announced, ?_⟩
  · intro other key spot hkey hspot
    rw [getElem?_insert_key] at hspot
    split at hspot
    · next heq =>
        cases hspot
        rw [hvisible]
        exact h.fitting id key old (heq ▸ hkey) hold
    · exact h.fitting other key spot hkey hspot
  · intro other spot hspot
    rw [getElem?_insert_key] at hspot
    split at hspot
    · cases hspot
      exact hfrequency
    · exact h.frequencies other spot hspot
  · rw [← h.view]
    funext other
    rw [BandMapSpotStore.view, BandMapSpotStore.view, getElem?_insert_key]
    split
    · next heq =>
        rw [← heq, hold, Option.filter_some, Option.filter_some, hvisible]
        split
        · rw [Option.map_some, Option.map_some,
            timeless_of_unchanged (h.keyed.ids id old hold) hunchanged]
        · rfl
    · rfl

theorem mem_insertIdByTime {id other : Nat} (hspot : (store.spotsById[id]?).isSome) :
    other ∈ (store.insertIdByTime id).idsByTime ↔ other = id ∨ other ∈ store.idsByTime := by
  obtain ⟨spot, hspot⟩ := Option.isSome_iff_exists.mp hspot
  have hle : store.partitionPoint spot.receivedAt id ≤ store.idsByTime.length :=
    (List.takeWhile_sublist _).length_le
  rw [insertIdByTime, hspot]
  exact (List.perm_insertIdx id _ hle).mem_iff.trans List.mem_cons

/-- What an upsert writes, and the ids it lists. -/
theorem upsert_spec (h : store.Keyed) (key : BandMapDedupeKey) (candidate : BandMapSpotCandidate) :
    (∃ id old ids, store.keyById[id]? = some key ∧ store.spotsById[id]? = some old ∧
      (∀ other, other ∈ ids ↔ other = id ∨ other ∈ store.idsByTime) ∧
      store.upsert key candidate =
        ({ store with idsByTime := ids, spotsById := store.spotsById.insert id (.mk candidate id) },
          if spotVisibleFieldsChanged old candidate then .updated (.mk candidate id)
          else .refreshed (.mk candidate id))) ∨
    ∃ ids, (∀ other, other ∈ ids ↔ other = nextCounter store.nextId ∨ other ∈ store.idsByTime) ∧
      store.upsert key candidate =
        ({ store with
            nextId := nextCounter store.nextId
            idsByTime := ids
            spotsById := store.spotsById.insert (nextCounter store.nextId)
              (.mk candidate (nextCounter store.nextId))
            idByKey := put store.idByKey key (nextCounter store.nextId)
            keyById := store.keyById.insert (nextCounter store.nextId) key },
          .inserted (.mk candidate (nextCounter store.nextId))) := by
  have hsome (id : Nat) : ((store.spotsById.insert id (.mk candidate id))[id]?).isSome := by
    rw [getElem?_insert_key, if_pos rfl]
    rfl
  cases upsert_cases h key candidate with
  | inl hupdate =>
      obtain ⟨id, old, hid, hold, heq⟩ := hupdate
      rw [reinsertIdByTime, insertIdByTime_eq] at heq
      refine Or.inl ⟨id, old, _, (h.keyById _ _).mp hid, hold, fun other => ?_, heq⟩
      rw [mem_insertIdByTime (hsome id)]
      dsimp only
      rw [List.mem_filter, decide_eq_true_eq]
      by_cases hsame : other = id
      · exact iff_of_true (Or.inl hsame) (Or.inl hsame)
      · exact or_congr_right (and_iff_left hsame)
  | inr hinsert =>
      obtain ⟨-, heq⟩ := hinsert
      rw [insertIdByTime_eq] at heq
      refine Or.inr ⟨_, fun other => ?_, heq⟩
      exact mem_insertIdByTime (hsome _)

/-- A request is written, and announced when a client can see a difference. -/
theorem Recorded.upsertAnnounced (h : store.Recorded logId history) (request : SpotRequest)
    (hsound : request.Sound logId)
    (hlimit : history.length + (store.upsertAnnounced request).2.length ≤ sequenceLimit) :
    Recorded logId (store.upsertAnnounced request).1
      (history ++ (store.upsertAnnounced request).2) := by
  have hroom := h.room ((Nat.le_add_right _ _).trans hlimit)
  have hkeyed := (upsert_keyed h.keyed hroom request.1 request.2).1
  have hids := h.ids
  have hlength := h.length
  rw [BandMapSpotStore.upsertAnnounced] at hlimit ⊢
  cases upsert_spec h.keyed request.1 request.2 with
  | inl hupdate =>
      obtain ⟨id, old, ids, hkey, hold, -, heq⟩ := hupdate
      have hfits := h.fitting id request.1 old hkey hold
      rw [heq] at hlimit hkeyed ⊢
      cases hchanged : spotVisibleFieldsChanged old request.2 with
      | false =>
          rw [if_neg Bool.false_ne_true]
          dsimp only [announce]
          rw [List.append_nil]
          have hwritten := h.refreshed hold
            ⟨hkeyed.ids, hkeyed.bounded, hkeyed.keyById, hkeyed.stored⟩
            ((hsound.visible id).trans hfits.symm) hsound.frequency hchanged
          exact hwritten.withIds ids
      | true =>
          rw [hchanged, if_pos rfl] at hlimit
          rw [if_pos rfl]
          dsimp only [announce] at hlimit ⊢
          have hnext := h.nextCounter_eq hlimit
          have hwritten : Keyed { store with
              nextSequence := history.length + 1
              idsByTime := ids
              spotsById := store.spotsById.insert id (.mk request.2 id) } :=
            ⟨hkeyed.ids, hkeyed.bounded, hkeyed.keyById, hkeyed.stored⟩
          rw [hnext]
          apply h.upserted hwritten (fun other => getElem?_insert_key _ id other _) _
            (hsound.visible id) _
            hsound.frequency _ rfl
          · intro other
            split
            · next hsame => exact hsame ▸ hkey
            · rfl
          · intro hhidden
            rw [hsound.visible, ← hfits] at hhidden
            exact view_eq_none hold hhidden
          · show store.nextId ≤ history.length + 1
            omega
  | inr hinsert =>
      obtain ⟨ids, -, heq⟩ := hinsert
      have hfresh := h.keyed.fresh hroom
      rw [heq] at hlimit hkeyed ⊢
      dsimp only [announce] at hlimit ⊢
      have hnext := h.nextCounter_eq hlimit
      have hwritten : Keyed { store with
          nextId := nextCounter store.nextId
          nextSequence := history.length + 1
          idsByTime := ids
          spotsById := store.spotsById.insert (nextCounter store.nextId)
            (.mk request.2 (nextCounter store.nextId))
          idByKey := put store.idByKey request.1 (nextCounter store.nextId)
          keyById := store.keyById.insert (nextCounter store.nextId) request.1 } :=
        ⟨hkeyed.ids, hkeyed.bounded, hkeyed.keyById, hkeyed.stored⟩
      rw [hnext]
      apply h.upserted hwritten (fun other => getElem?_insert_key _ _ other _)
        (fun other => getElem?_insert_key _ _ other _) (hsound.visible _) _ hsound.frequency _ rfl
      · intro _
        rw [BandMapSpotStore.view, hfresh]
        rfl
      · show nextCounter store.nextId ≤ history.length + 1
        rw [hroom.nextCounter_eq]
        omega

end Steps

end BandMapSpotStore

end Log73
