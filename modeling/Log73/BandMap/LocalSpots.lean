import Log73.BandMap.TimeIndex
import Log73.Library.Extremes
import Log73.Library.Runs

/-!
The spots of the band map by their keys: no two of them share one, and a synchronisation
leaves a log the spots its contacts ask for, and all others as they are.
-/

namespace Log73

open SortedAssoc TreeMap Extremes

section Requests

/-- The key of a local spot. -/
def BandMapSpotCandidate.localDedupeKey (candidate : BandMapSpotCandidate) : BandMapDedupeKey :=
  localKey candidate.logId candidate.bandName candidate.frequencyHz candidate.callDx

def BandMapSpotCandidate.IsLocalFor (candidate : BandMapSpotCandidate) (logId : Int) : Prop :=
  candidate.spotType = .localSpot ∧ candidate.logId = some logId

/-- Local spots have the keys of their log, and no others do. -/
structure SpotRequest.Named (request : SpotRequest) : Prop where
  localSpot : request.2.spotType = .localSpot → request.1 = request.2.localDedupeKey
  other : request.2.spotType ≠ .localSpot → ∀ logId, request.1.isLocalFor logId = false

theorem isLocalFor_localKey {spotLogId : Option Int} {bandName : Option String} {frequencyHz : Nat}
    {callDx : String} {logId : Int} :
    (localKey spotLogId bandName frequencyHz callDx).isLocalFor logId = true ↔
      spotLogId = some logId := by
  cases bandName <;> cases spotLogId <;> simp [localKey, BandMapDedupeKey.isLocalFor]

theorem SpotRequest.Named.isLocalFor_iff {request : SpotRequest} (h : request.Named) {logId : Int} :
    request.1.isLocalFor logId = true ↔ request.2.IsLocalFor logId := by
  by_cases hlocal : request.2.spotType = .localSpot
  · rw [h.localSpot hlocal, BandMapSpotCandidate.localDedupeKey, isLocalFor_localKey]
    exact (and_iff_right hlocal).symm
  · rw [h.other hlocal]
    exact iff_of_false Bool.false_ne_true fun hboth => hlocal hboth.1

variable (bands : List Band)

theorem named_dxcluster (spot : DxClusterSpot) : (dxclusterSpotRequest bands spot).Named := by
  have htype : (dxclusterSpotRequest bands spot).2.spotType ≠ .localSpot := by
    rw [dxclusterSpotRequest]
    dsimp only
    split <;> intro heq <;> cases heq
  exact ⟨fun heq => absurd heq htype, fun _ _ => rfl⟩

theorem named_cq {now frequencyHz : Nat} {radioId : Int} {radioName : String}
    {request : SpotRequest} (h : cqRequest bands now frequencyHz radioId radioName = some request) :
    request.Named := by
  obtain ⟨bandName, -, rfl⟩ := Option.map_eq_some_iff.mp h
  exact ⟨fun heq => (by cases heq), fun _ _ => rfl⟩

theorem named_inUse (now frequencyHz : Nat) : (inUseRequest bands now frequencyHz).Named :=
  ⟨fun heq => (by cases heq), fun _ _ => rfl⟩

variable [Platform]

theorem named_local (now : Nat) (input : LocalSpotInput) :
    (localSpotRequest bands now input).Named :=
  ⟨fun _ => rfl, fun hne => absurd rfl hne⟩

/-- The spots the contacts ask for under a key that are not too old, in the order of the
contacts. -/
def candidatesUnder (cutoff : Nat) (logId : Int) (contacts : List Contact)
    (key : BandMapDedupeKey) : List BandMapSpotCandidate :=
  (contacts.filterMap (localSpotCandidate bands logId)).filter fun candidate =>
    cutoff ≤ candidate.receivedAt ∧ candidate.localDedupeKey = key

/-- The first of the newest of them. -/
def newestUnder (cutoff : Nat) (logId : Int) (contacts : List Contact) (key : BandMapDedupeKey) :
    Option BandMapSpotCandidate :=
  (greatest BandMapSpotCandidate.receivedAt (candidatesUnder bands cutoff logId contacts key)).head?

variable {bands} {cutoff : Nat} {logId : Int}

theorem localSpotCandidate_local {contact : Contact} {candidate : BandMapSpotCandidate}
    (h : localSpotCandidate bands logId contact = some candidate) : candidate.IsLocalFor logId := by
  obtain ⟨adif, -, h⟩ := Option.bind_eq_some_iff.mp h
  obtain ⟨call, -, h⟩ := Option.bind_eq_some_iff.mp h
  dsimp only at h
  split at h
  · cases h
  · obtain ⟨frequencyHz, -, h⟩ := Option.bind_eq_some_iff.mp h
    split at h
    · cases h
    · obtain ⟨receivedAt, -, rfl⟩ := Option.map_eq_some_iff.mp h
      exact ⟨rfl, rfl⟩

theorem get?_desiredSpots (contacts : List Contact) (key : BandMapDedupeKey) :
    get? (desiredSpots bands cutoff logId contacts) key =
      newestUnder bands cutoff logId contacts key := by
  rw [newestUnder, ← foldl_keepFirst, desiredSpots]
  suffices hfold : ∀ desired : List SpotRequest, get? (contacts.foldl _ desired) key =
      (candidatesUnder bands cutoff logId contacts key).foldl
        (keepFirst BandMapSpotCandidate.receivedAt) (get? desired key) from hfold []
  induction contacts with
  | nil => exact fun _ => rfl
  | cons contact contacts ih =>
      intro desired
      rw [List.foldl_cons, ih, candidatesUnder, candidatesUnder, List.filterMap_cons]
      cases hcandidate : localSpotCandidate bands logId contact with
      | none => rfl
      | some candidate =>
          have hkey : candidate.localDedupeKey = localKey (some logId) candidate.bandName
              candidate.frequencyHz candidate.callDx := by
            rw [BandMapSpotCandidate.localDedupeKey, (localSpotCandidate_local hcandidate).2]
          dsimp only
          rw [List.filter_cons, ← hkey]
          by_cases hold : candidate.receivedAt < cutoff
          · rw [if_pos hold, if_neg (by simp [Nat.not_le.mpr hold])]
          · rw [if_neg hold]
            by_cases hsame : candidate.localDedupeKey = key
            · rw [if_pos (by simp [hsame, Nat.not_lt.mp hold]), List.foldl_cons, hsame]
              cases hexisting : get? desired key with
              | none =>
                  dsimp only
                  rw [get?_put, if_pos rfl]
                  rfl
              | some existing =>
                  dsimp only
                  rw [keepFirst]
                  by_cases hle : candidate.receivedAt ≤ existing.receivedAt
                  · rw [if_pos hle, if_neg (Nat.not_lt.mpr hle), hexisting]
                  · rw [if_neg hle, if_pos (Nat.not_le.mp hle), get?_put, if_pos rfl]
            · rw [if_neg (by simp [hsame])]
              cases hexisting : get? desired candidate.localDedupeKey with
              | none =>
                  dsimp only
                  rw [get?_put, if_neg hsame]
              | some existing =>
                  dsimp only
                  split
                  · rfl
                  · rw [get?_put, if_neg hsame]

theorem newestUnder_eq_some {contacts : List Contact} {key : BandMapDedupeKey}
    {candidate : BandMapSpotCandidate}
    (h : newestUnder bands cutoff logId contacts key = some candidate) :
    candidate.IsLocalFor logId ∧ candidate.localDedupeKey = key := by
  have hmem := (mem_greatest.mp (List.mem_of_head? h)).1
  obtain ⟨hmem, hkept⟩ := List.mem_filter.mp hmem
  obtain ⟨contact, -, hcontact⟩ := List.mem_filterMap.mp hmem
  exact ⟨localSpotCandidate_local hcontact, (of_decide_eq_true hkept).2⟩

/-- The requests of a synchronisation have keys of their own. -/
theorem nodup_desiredSpots (contacts : List Contact) :
    ((desiredSpots bands cutoff logId contacts).map Prod.fst).Nodup := by
  rw [desiredSpots]
  refine List.foldlRecOn (motive := fun desired : List SpotRequest =>
    (desired.map Prod.fst).Nodup) contacts _ List.nodup_nil fun desired hnodup contact _ => ?_
  have hput : ∀ (key : BandMapDedupeKey) (candidate : BandMapSpotCandidate),
      ((put desired key candidate).map Prod.fst).Nodup := by
    intro key candidate
    rw [put, List.map_cons, List.nodup_cons]
    refine ⟨?_, nodup_erase hnodup key⟩
    rw [← get?_eq_none, get?_erase, if_pos rfl]
  cases localSpotCandidate bands logId contact with
  | none => exact hnodup
  | some candidate =>
      dsimp only
      split
      · exact hnodup
      · split
        · split
          · exact hnodup
          · exact hput _ candidate
        · exact hput _ candidate

theorem named_desiredSpots {contacts : List Contact} {request : SpotRequest}
    (h : request ∈ desiredSpots bands cutoff logId contacts) : request.Named := by
  have hget : get? (desiredSpots bands cutoff logId contacts) request.1 = some request.2 :=
    get?_of_mem (nodup_desiredSpots contacts) h
  rw [get?_desiredSpots] at hget
  obtain ⟨hlocal, hkey⟩ := newestUnder_eq_some hget
  exact ⟨fun _ => hkey.symm, fun hne => absurd hlocal.1 hne⟩

end Requests

namespace BandMapSpotStore

/-- The spot a key leads to. -/
def spotUnder (store : BandMapSpotStore) (key : BandMapDedupeKey) : Option BandMapSpot :=
  (get? store.idByKey key).bind fun id => store.spotsById[id]?

/-- The indexes agree, and the spots are under keys of their kind. -/
structure Consistent (store : BandMapSpotStore) : Prop extends Keyed store where
  named : ∀ (key : BandMapDedupeKey) (spot : BandMapSpot), store.spotUnder key = some spot →
    SpotRequest.Named (key, spot.toBandMapSpotCandidate)

section Upsert

variable {store : BandMapSpotStore}

/-- The indexes by id and by key, whatever the one by time is. -/
theorem Consistent.withIds (h : store.Consistent) (ids : List Nat) :
    Consistent { store with idsByTime := ids } :=
  ⟨h.toKeyed.withIds ids, h.named⟩

theorem Keyed.isSome_spotUnder (h : store.Keyed) {key : BandMapDedupeKey} :
    (store.spotUnder key).isSome ↔ (get? store.idByKey key).isSome := by
  rw [spotUnder]
  cases hid : get? store.idByKey key with
  | none => exact Iff.rfl
  | some id =>
      have hstored := (h.stored id).mp ((h.keyById key id).mp hid ▸ rfl)
      exact iff_of_true hstored rfl

theorem Keyed.spotUnder_eq_some (h : store.Keyed) {key : BandMapDedupeKey} {spot : BandMapSpot} :
    store.spotUnder key = some spot ↔
      store.keyById[spot.id]? = some key ∧ store.spotsById[spot.id]? = some spot := by
  rw [spotUnder, Option.bind_eq_some_iff]
  constructor
  · rintro ⟨id, hid, hspot⟩
    obtain rfl := h.ids id spot hspot
    exact ⟨(h.keyById key _).mp hid, hspot⟩
  · intro hboth
    exact ⟨spot.id, (h.keyById key _).mpr hboth.1, hboth.2⟩

/-- What a request does: its spot is under its key, and under the other keys nothing changes. -/
structure Written (request : SpotRequest) (before after : BandMapSpotStore) : Prop where
  consistent : after.Consistent
  requested : ∃ id, after.spotUnder request.1 = some (.mk request.2 id)
  inserted : before.spotUnder request.1 = none →
    after.spotUnder request.1 = some (.mk request.2 after.nextId)
  others : ∀ key, key ≠ request.1 → after.spotUnder key = before.spotUnder key
  nextId : after.nextId =
    if (before.spotUnder request.1).isSome then before.nextId else before.nextId + 1

/-- Spots that are read alike keep the kinds of their keys. -/
theorem Keyed.consistent_of_written {after : BandMapSpotStore} (hkeyed : after.Keyed)
    (h : store.Consistent) {request : SpotRequest} (hnamed : request.Named)
    (hrequested : ∃ id, after.spotUnder request.1 = some (.mk request.2 id))
    (hothers : ∀ key, key ≠ request.1 → after.spotUnder key = store.spotUnder key) :
    after.Consistent := by
  refine ⟨hkeyed, fun key spot hspot => ?_⟩
  by_cases hsame : key = request.1
  · obtain ⟨id, hid⟩ := hrequested
    rw [hsame, hid] at hspot
    rw [hsame, ← Option.some.inj hspot]
    exact hnamed
  · rw [hothers key hsame] at hspot
    exact h.named key spot hspot

theorem upsert_written (h : store.Consistent) {request : SpotRequest} (hnamed : request.Named)
    (hroom : store.spotUnder request.1 = none → store.Room 1) :
    Written request store (store.upsert request.1 request.2).1 := by
  obtain ⟨id, old, hid, hold, heq⟩ | ⟨hid, heq⟩ := upsert_cases h.toKeyed request.1 request.2
  · rw [heq, reinsertIdByTime, insertIdByTime_eq]
    have hknown : (store.spotUnder request.1).isSome := h.isSome_spotUnder.mpr (hid ▸ rfl)
    have hrequested : spotUnder { store with
        spotsById := store.spotsById.insert id (.mk request.2 id) } request.1 =
          some (.mk request.2 id) := by
      rw [spotUnder, hid, Option.bind_some, getElem?_insert_key, if_pos rfl]
    have hothers : ∀ key, key ≠ request.1 → spotUnder { store with
        spotsById := store.spotsById.insert id (.mk request.2 id) } key = store.spotUnder key := by
      intro key hne
      refine Option.bind_congr fun other hother => ?_
      rw [getElem?_insert_key, if_neg]
      intro hsame
      subst hsame
      exact hne (Option.some.inj (((h.keyById key id).mp hother).symm.trans
        ((h.keyById request.1 id).mp hid)))
    have hkeyed := h.toKeyed.update (Option.isSome_iff_exists.mpr ⟨old, hold⟩) request.2
    exact ⟨(hkeyed.consistent_of_written h hnamed ⟨id, hrequested⟩ hothers).withIds _,
      ⟨id, hrequested⟩, fun hnone => absurd hknown (hnone ▸ Bool.false_ne_true), hothers,
      (if_pos hknown).symm⟩
  · have hnone : store.spotUnder request.1 = none := by rw [spotUnder, hid, Option.bind_none]
    have hleft := hroom hnone
    rw [heq, insertIdByTime_eq]
    have hrequested : spotUnder { store with
        nextId := nextCounter store.nextId
        spotsById := store.spotsById.insert (nextCounter store.nextId)
          (.mk request.2 (nextCounter store.nextId))
        idByKey := put store.idByKey request.1 (nextCounter store.nextId)
        keyById := store.keyById.insert (nextCounter store.nextId) request.1 } request.1 =
          some (.mk request.2 (nextCounter store.nextId)) := by
      rw [spotUnder, get?_put, if_pos rfl, Option.bind_some, getElem?_insert_key, if_pos rfl]
    have hothers : ∀ key, key ≠ request.1 → spotUnder { store with
        nextId := nextCounter store.nextId
        spotsById := store.spotsById.insert (nextCounter store.nextId)
          (.mk request.2 (nextCounter store.nextId))
        idByKey := put store.idByKey request.1 (nextCounter store.nextId)
        keyById := store.keyById.insert (nextCounter store.nextId) request.1 } key =
          store.spotUnder key := by
      intro key hne
      rw [spotUnder, get?_put, if_neg (Ne.symm hne)]
      refine Option.bind_congr fun other hother => ?_
      rw [getElem?_insert_key, if_neg]
      intro hsame
      -- the id that is given out is no one's yet
      have hstored := (h.stored other).mp ((h.keyById key other).mp hother ▸ rfl)
      rw [← hsame, h.fresh hleft] at hstored
      cases hstored
    have hkeyed := h.toKeyed.insertNew hleft hid request.2
    refine ⟨(hkeyed.consistent_of_written h hnamed ⟨_, hrequested⟩ hothers).withIds _,
      ⟨_, hrequested⟩, fun _ => hrequested, hothers, ?_⟩
    rw [hnone, Option.isSome_none, if_neg Bool.false_ne_true]
    exact hleft.nextCounter_eq

theorem idByKey_announce (outcome : UpsertOutcome) :
    (store.announce outcome).1.idByKey = store.idByKey := by
  cases outcome with
  | inserted spot => rfl
  | updated spot => rfl
  | refreshed spot => rfl

theorem announce_written {request : SpotRequest} {after : BandMapSpotStore}
    (h : Written request store after) (outcome : UpsertOutcome) :
    Written request store (after.announce outcome).1 := by
  have hsame : Written request store
      { after with nextSequence := nextCounter after.nextSequence } :=
    ⟨⟨⟨h.consistent.ids, h.consistent.bounded, h.consistent.keyById, h.consistent.stored⟩,
      h.consistent.named⟩, h.requested, h.inserted, h.others, h.nextId⟩
  cases outcome with
  | inserted spot => exact hsame
  | updated spot => exact hsame
  | refreshed spot => exact h

/-- Ids are left for the requests under new keys. -/
def RoomFor (store : BandMapSpotStore) (requests : List SpotRequest) : Prop :=
  store.Room (requests.filter fun request => (store.spotUnder request.1).isNone).length

theorem upsertAnnounced_written (h : store.Consistent) {request : SpotRequest}
    {requests : List SpotRequest} (hnamed : request.Named)
    (hroom : store.RoomFor (request :: requests)) :
    Written request store (store.upsertAnnounced request).1 := by
  refine announce_written (upsert_written h hnamed fun hnone => ?_) _
  rw [RoomFor, List.filter_cons_of_pos (by rw [hnone]; rfl), List.length_cons, Room] at hroom
  rw [Room]
  omega

/-- A request leaves the ids for those after it. -/
theorem Written.roomFor {request : SpotRequest} {requests : List SpotRequest}
    {after : BandMapSpotStore} (h : Written request store after)
    (hnodup : ((request :: requests).map Prod.fst).Nodup)
    (hroom : store.RoomFor (request :: requests)) : after.RoomFor requests := by
  have hfresh := (List.nodup_cons.mp hnodup).1
  have hsame : requests.filter (fun other => (after.spotUnder other.1).isNone) =
      requests.filter fun other => (store.spotUnder other.1).isNone := by
    refine List.filter_congr fun other hother => ?_
    rw [h.others other.1 fun heq => hfresh (heq ▸ List.mem_map_of_mem hother)]
  rw [RoomFor, hsame, Room, h.nextId]
  rw [RoomFor, List.filter_cons, Room] at hroom
  cases hspot : store.spotUnder request.1 with
  | none =>
      rw [hspot, Option.isNone_none, if_pos rfl, List.length_cons] at hroom
      rw [Option.isSome_none, if_neg Bool.false_ne_true]
      omega
  | some spot =>
      rw [hspot, Option.isNone_some, if_neg Bool.false_ne_true] at hroom
      rw [Option.isSome_some, if_pos rfl]
      exact hroom

/-- What requests under different keys do. -/
structure Requested (requests : List SpotRequest) (before after : BandMapSpotStore) : Prop where
  consistent : after.Consistent
  requested : ∀ key candidate, get? requests key = some candidate →
    ∃ id, after.spotUnder key = some (.mk candidate id)
  others : ∀ key, get? requests key = none → after.spotUnder key = before.spotUnder key

theorem foldl_upsertAnnounced_requested {requests : List SpotRequest} (events : List BandMapEvent)
    (h : store.Consistent) (hnodup : (requests.map Prod.fst).Nodup)
    (hnamed : ∀ request ∈ requests, request.Named) (hroom : store.RoomFor requests) :
    Requested requests store (requests.foldl (fun state request =>
      recordEvents state (upsertAnnounced · request)) (store, events)).1 := by
  induction requests generalizing store events with
  | nil => exact ⟨h, fun _ _ hget => (by cases hget), fun _ _ => rfl⟩
  | cons request requests ih =>
      have hfirst := upsertAnnounced_written h (hnamed request List.mem_cons_self) hroom
      have hrest := ih (events ++ (store.upsertAnnounced request).2) hfirst.consistent
        (List.nodup_cons.mp hnodup).2
        (fun other hother => hnamed other (List.mem_cons_of_mem _ hother))
        (hfirst.roomFor hnodup hroom)
      refine ⟨hrest.consistent, fun key candidate hget => ?_, fun key hget => ?_⟩
      · rw [get?_cons] at hget
        split at hget
        · next hsame =>
            subst hsame
            obtain rfl := Option.some.inj hget
            obtain ⟨id, hid⟩ := hfirst.requested
            have hlast := hrest.others request.1
              ((get?_eq_none _ _).mpr (List.nodup_cons.mp hnodup).1)
            exact ⟨id, hlast.trans hid⟩
        · exact hrest.requested key candidate hget
      · rw [get?_cons] at hget
        split at hget
        · cases hget
        · next hne => exact (hrest.others key hget).trans (hfirst.others key (Ne.symm hne))

end Upsert

section Remove

variable {store : BandMapSpotStore}

theorem removeById_spotUnder (h : store.Keyed) {id : Nat} {key : BandMapDedupeKey}
    (hid : get? store.idByKey key = some id) (other : BandMapDedupeKey) :
    (store.removeById id).1.spotUnder other =
      if key = other then none else store.spotUnder other := by
  have hkey := (h.keyById key id).mp hid
  rw [removeById_eq ((h.stored id).mp (hkey ▸ rfl)) hkey, spotUnder, get?_erase]
  by_cases hsame : key = other
  · rw [if_pos hsame, if_pos hsame, Option.bind_none]
  · rw [if_neg hsame, if_neg hsame]
    refine Option.bind_congr fun found hfound => ?_
    rw [getElem?_erase_key, if_neg]
    intro heq
    subst heq
    exact hsame (Option.some.inj (hkey.symm.trans ((h.keyById other id).mp hfound)))

/-- A store of spots that another one holds under the same keys. -/
theorem Keyed.consistent_of_sub {after : BandMapSpotStore} (hkeyed : after.Keyed)
    (h : store.Consistent) (hsub : ∀ key spot, after.spotUnder key = some spot →
      store.spotUnder key = some spot) : after.Consistent :=
  ⟨hkeyed, fun key spot hspot => h.named key spot (hsub key spot hspot)⟩

theorem removeById_consistent (h : store.Consistent) (id : Nat) :
    (store.removeById id).1.Consistent := by
  cases hkey : store.keyById[id]? with
  | none =>
      have hnone : store.spotsById[id]? = none := by
        rw [← Option.not_isSome_iff_eq_none, ← h.stored, hkey]
        exact Bool.false_ne_true
      rw [removeById, hnone]
      exact h
  | some key =>
      refine (removeById_keyed h.toKeyed id).consistent_of_sub h fun other spot hspot => ?_
      rw [removeById_spotUnder h.toKeyed ((h.keyById key id).mpr hkey)] at hspot
      split at hspot
      · cases hspot
      · exact hspot

theorem removeKey_spotUnder (h : store.Keyed) (key other : BandMapDedupeKey) :
    (store.removeKey key).1.spotUnder other =
      if key = other then none else store.spotUnder other := by
  rw [removeKey]
  cases hid : get? store.idByKey key with
  | none =>
      dsimp only
      split
      · next hsame =>
          subst hsame
          show store.spotUnder key = none
          rw [spotUnder, hid, Option.bind_none]
      · rfl
  | some id => exact removeById_spotUnder h hid other

theorem removeKey_consistent (h : store.Consistent) (key : BandMapDedupeKey) :
    (store.removeKey key).1.Consistent := by
  rw [removeKey]
  split
  · exact h
  · exact removeById_consistent h _

theorem foldl_removeKey (keys : List BandMapDedupeKey) (events : List BandMapEvent)
    (h : store.Consistent) :
    (keys.foldl (fun state key => recordEvents state (removeKey · key))
        (store, events)).1.Consistent ∧
      ∀ other, (keys.foldl (fun state key => recordEvents state (removeKey · key))
        (store, events)).1.spotUnder other =
          if other ∈ keys then none else store.spotUnder other := by
  induction keys generalizing store events with
  | nil => exact ⟨h, fun _ => rfl⟩
  | cons key keys ih =>
      obtain ⟨hconsistent, hspots⟩ := ih (events ++ (store.removeKey key).2)
        (removeKey_consistent h key)
      refine ⟨hconsistent, fun other => (hspots other).trans ?_⟩
      rw [removeKey_spotUnder h.toKeyed]
      by_cases hin : other ∈ keys
      · rw [if_pos hin, if_pos (List.mem_cons_of_mem _ hin)]
      · rw [if_neg hin]
        refine if_congr ?_ rfl rfl
        rw [List.mem_cons, or_iff_left hin, eq_comm]

/-- What a prune leaves, whatever the order of its index is: some spots are gone, but none that
is young enough. -/
structure PrunedSome (cutoff : Nat) (before after : BandMapSpotStore) : Prop where
  consistent : after.Consistent
  nextId : after.nextId = before.nextId
  kept : ∀ key spot, after.spotUnder key = some spot → before.spotUnder key = some spot
  dropped : ∀ key spot, before.spotUnder key = some spot →
    after.spotUnder key = some spot ∨ spot.receivedAt < cutoff

theorem PrunedSome.refl {cutoff : Nat} (h : store.Consistent) (ids : List Nat) :
    PrunedSome cutoff store { store with idsByTime := ids } :=
  ⟨h.withIds ids, rfl, fun _ _ hspot => hspot, fun _ _ hspot => .inl hspot⟩

theorem pruneLoop_prunedSome (cutoff : Nat) (ids : List Nat) (h : store.Consistent) :
    PrunedSome cutoff store (pruneLoop cutoff store ids).1 := by
  induction ids generalizing store with
  | nil => exact .refl h []
  | cons id ids ih =>
      rw [pruneLoop]
      cases hspot : store.spotsById[id]? with
      | none => exact ih h
      | some spot =>
          dsimp only
          split
          · exact .refl h _
          · next hold =>
              have hsome : (store.spotsById[id]?).isSome := hspot ▸ rfl
              obtain ⟨key, hkey⟩ := h.key hsome
              have hid := (h.keyById key id).mpr hkey
              have hrest := ih (removeById_consistent h id)
              have hremoved := removeById_spotUnder h.toKeyed hid
              refine ⟨hrest.consistent, hrest.nextId.trans (nextId_removeById id),
                fun other found hfound => ?_, fun other found hfound => ?_⟩
              · have hleft := hrest.kept other found hfound
                rw [hremoved] at hleft
                split at hleft
                · cases hleft
                · exact hleft
              · by_cases hsame : key = other
                · subst hsame
                  rw [spotUnder, hid, Option.bind_some, hspot] at hfound
                  exact .inr (Option.some.inj hfound ▸ Nat.not_le.mp hold)
                · exact hrest.dropped other found ((hremoved other).trans
                    ((if_neg hsame).trans hfound))

end Remove

section Operate

variable [Platform] {store : BandMapSpotStore}

omit [Platform] in
theorem prune_prunedSome (h : store.Consistent) (now maxAge : Nat) :
    PrunedSome (cutoffTimestamp now maxAge) store (store.prune now maxAge).1 :=
  pruneLoop_prunedSome _ _ h

/-- The local spots of a log are what its contacts ask for, and the other spots are those of
before, less some expired ones. -/
structure Synced (bands : List Band) (cutoff expiry : Nat) (logId : Int) (contacts : List Contact)
    (before after : BandMapSpotStore) : Prop where
  keyed : after.Keyed
  localSpots : ∀ key candidate,
    (∃ id, after.spotUnder key = some (.mk candidate id) ∧ candidate.IsLocalFor logId) ↔
      newestUnder bands cutoff logId contacts key = some candidate
  others : ∀ key (spot : BandMapSpot), ¬spot.IsLocalFor logId →
    (after.spotUnder key = some spot → before.spotUnder key = some spot) ∧
    (before.spotUnder key = some spot → after.spotUnder key = some spot ∨ spot.receivedAt < expiry)

/-- Ids are left for the spots an operation brings under new keys. -/
def HasRoom (store : BandMapSpotStore) : BandMapOperation → Prop
  | .upsertDxclusterSpot bands now maxAge spot =>
      (store.prune now maxAge).1.RoomFor [dxclusterSpotRequest bands spot]
  | .upsertLocalSpot bands now maxAge input =>
      (store.prune now maxAge).1.RoomFor [localSpotRequest bands now input]
  | .upsertCq bands now maxAge frequencyHz radioId radioName =>
      (store.prune now maxAge).1.RoomFor
        (cqRequest bands now frequencyHz radioId radioName).toList
  | .upsertInUse bands now maxAge frequencyHz =>
      (store.prune now maxAge).1.RoomFor [inUseRequest bands now frequencyHz]
  | .syncLocalSpotsForLog _ _ bands asked now maxAge logId contacts =>
      (store.prune now maxAge).1.RoomFor
        (desiredSpots bands (cutoffTimestamp asked maxAge) logId contacts)
  | .deleteSpot _ | .deleteDxclusterSpot _ | .pruneOldSpots .. => True

/-- What a synchronisation does after its prune, key by key. -/
theorem syncLocalSpotsForLog_spotUnder (h : store.Consistent)
    {upsertOrder : IterationOrder SpotRequest} {removeOrder : IterationOrder BandMapDedupeKey}
    {bands : List Band} {asked now maxAge : Nat} {logId : Int} {contacts : List Contact}
    (hroom : store.HasRoom
      (.syncLocalSpotsForLog upsertOrder removeOrder bands asked now maxAge logId contacts)) :
    let synced :=
      (store.syncLocalSpotsForLog upsertOrder removeOrder bands asked now maxAge logId contacts).1
    synced.Consistent ∧
      (∀ key candidate, newestUnder bands (cutoffTimestamp asked maxAge) logId contacts key =
          some candidate → ∃ id, synced.spotUnder key = some (.mk candidate id)) ∧
      ∀ key, newestUnder bands (cutoffTimestamp asked maxAge) logId contacts key = none →
        synced.spotUnder key =
          if key.isLocalFor logId then none else (store.prune now maxAge).1.spotUnder key := by
  intro synced
  have hpruned := prune_prunedSome h now maxAge
  have hperm := upsertOrder.perm
    (desiredSpots bands (cutoffTimestamp asked maxAge) logId contacts)
  have hnodup : ((upsertOrder.arrange (desiredSpots bands (cutoffTimestamp asked maxAge) logId
      contacts)).map Prod.fst).Nodup :=
    (hperm.map Prod.fst).nodup_iff.mpr (nodup_desiredSpots contacts)
  have hget : ∀ key, get? (upsertOrder.arrange (desiredSpots bands (cutoffTimestamp asked maxAge)
      logId contacts)) key =
        newestUnder bands (cutoffTimestamp asked maxAge) logId contacts key := fun key =>
    (get?_perm hnodup hperm key).trans (get?_desiredSpots contacts key)
  have hrequested := foldl_upsertAnnounced_requested (store.prune now maxAge).2
    hpruned.consistent hnodup
    (fun request hrequest => named_desiredSpots (hperm.mem_iff.mp hrequest))
    (by
      rw [RoomFor, (hperm.filter _).length_eq]
      exact hroom)
  obtain ⟨hconsistent, hspots⟩ := foldl_removeKey
    (removeOrder.arrange (((store.prune now maxAge).1.localKeysForLog logId).filter
      fun key => (get? (desiredSpots bands (cutoffTimestamp asked maxAge) logId contacts)
        key).isNone))
    _ hrequested.consistent
  have hgone : ∀ key, key ∈ removeOrder.arrange
      (((store.prune now maxAge).1.localKeysForLog logId).filter fun key =>
        (get? (desiredSpots bands (cutoffTimestamp asked maxAge) logId contacts) key).isNone) ↔
      ((store.prune now maxAge).1.spotUnder key).isSome ∧ key.isLocalFor logId ∧
        newestUnder bands (cutoffTimestamp asked maxAge) logId contacts key = none := by
    intro key
    rw [(removeOrder.perm _).mem_iff, List.mem_filter, localKeysForLog, List.mem_filter,
      get?_desiredSpots, Option.isNone_iff_eq_none, hpruned.consistent.isSome_spotUnder,
      isSome_get?, and_assoc]
  refine ⟨hconsistent, fun key candidate hnewest => ?_, fun key hnone => ?_⟩
  · obtain ⟨id, hid⟩ := hrequested.requested key candidate ((hget key).trans hnewest)
    refine ⟨id, (hspots key).trans ((if_neg fun hin => ?_).trans hid)⟩
    rw [hgone, hnewest] at hin
    cases hin.2.2
  · refine (hspots key).trans ?_
    rw [hrequested.others key ((hget key).trans hnone)]
    by_cases hlocal : key.isLocalFor logId = true
    · rw [if_pos hlocal]
      cases hspot : (store.prune now maxAge).1.spotUnder key with
      | none => exact ite_self none
      | some spot => exact if_pos ((hgone key).mpr ⟨hspot ▸ rfl, hlocal, hnone⟩)
    · rw [if_neg hlocal, if_neg fun hin => hlocal ((hgone key).mp hin).2.1]

theorem syncLocalSpotsForLog_synced (h : store.Consistent)
    {upsertOrder : IterationOrder SpotRequest} {removeOrder : IterationOrder BandMapDedupeKey}
    {bands : List Band} {asked now maxAge : Nat} {logId : Int} {contacts : List Contact}
    (hroom : store.HasRoom
      (.syncLocalSpotsForLog upsertOrder removeOrder bands asked now maxAge logId contacts)) :
    Synced bands (cutoffTimestamp asked maxAge) (cutoffTimestamp now maxAge) logId contacts store
      (store.syncLocalSpotsForLog upsertOrder removeOrder bands asked now maxAge logId
        contacts).1 := by
  have hpruned := prune_prunedSome h now maxAge
  obtain ⟨hconsistent, hasked, hothers⟩ := syncLocalSpotsForLog_spotUnder h hroom
  refine ⟨hconsistent.toKeyed, fun key candidate => ⟨?_, fun hnewest => ?_⟩,
    fun key spot hforeign => ?_⟩
  · rintro ⟨id, hspot, hlocal⟩
    have hkey := (hconsistent.named key _ hspot).isLocalFor_iff.mpr hlocal
    cases hnewest : newestUnder bands (cutoffTimestamp asked maxAge) logId contacts key with
    | none =>
        rw [hothers key hnewest, if_pos hkey] at hspot
        cases hspot
    | some newest =>
        obtain ⟨other, hother⟩ := hasked key newest hnewest
        cases hspot.symm.trans hother
        rfl
  · obtain ⟨id, hid⟩ := hasked key candidate hnewest
    exact ⟨id, hid, (newestUnder_eq_some hnewest).1⟩
  · -- the key of a spot of another kind is not one the contacts ask for
    have hsame : ∀ {found : BandMapSpotStore}, found.Consistent → found.spotUnder key = some spot →
        (store.syncLocalSpotsForLog upsertOrder removeOrder bands asked now maxAge logId
          contacts).1.spotUnder key = (store.prune now maxAge).1.spotUnder key := by
      intro found hfound hspot
      have hkey : ¬key.isLocalFor logId = true := fun hkey =>
        hforeign ((hfound.named key spot hspot).isLocalFor_iff.mp hkey)
      cases hnewest : newestUnder bands (cutoffTimestamp asked maxAge) logId contacts key with
      | none => rw [hothers key hnewest, if_neg hkey]
      | some newest =>
          obtain ⟨hlocal, rfl⟩ := newestUnder_eq_some hnewest
          rw [BandMapSpotCandidate.localDedupeKey, isLocalFor_localKey] at hkey
          exact absurd hlocal.2 hkey
    refine ⟨fun hspot => ?_, fun hspot => ?_⟩
    · rw [hsame hconsistent hspot] at hspot
      exact hpruned.kept key spot hspot
    · rw [hsame h hspot]
      exact hpruned.dropped key spot hspot

omit [Platform] in
theorem upsertCandidate_written (h : store.Consistent) {now maxAge : Nat} {request : SpotRequest}
    (hnamed : request.Named) (hroom : (store.prune now maxAge).1.RoomFor [request]) :
    Written request (store.prune now maxAge).1 (store.upsertCandidate now maxAge request).1 :=
  upsertAnnounced_written (prune_prunedSome h now maxAge).consistent hnamed hroom

omit [Platform] in
theorem remove_consistent (h : store.Consistent) (id : Nat) : (store.remove id).1.Consistent :=
  removeById_consistent (h.withIds _) id

omit [Platform] in
theorem remove_spotUnder (h : store.Keyed) {id : Nat} {key : BandMapDedupeKey}
    (hid : get? store.idByKey key = some id) (other : BandMapDedupeKey) :
    (store.remove id).1.spotUnder other = if key = other then none else store.spotUnder other :=
  removeById_spotUnder (h.withIds (store.idsByTime.filter (· ≠ id))) hid other

theorem operate_consistent (h : store.Consistent) (operation : BandMapOperation)
    (hroom : store.HasRoom operation) : (store.operate operation).1.Consistent := by
  cases operation with
  | upsertDxclusterSpot bands now maxAge spot =>
      exact (upsertCandidate_written h (named_dxcluster bands spot) hroom).consistent
  | upsertLocalSpot bands now maxAge input =>
      exact (upsertCandidate_written h (named_local bands now input) hroom).consistent
  | upsertCq bands now maxAge frequencyHz radioId radioName =>
      rw [HasRoom] at hroom
      rw [operate]
      cases hrequest : cqRequest bands now frequencyHz radioId radioName with
      | none => exact h
      | some request =>
          rw [hrequest, Option.toList_some] at hroom
          exact (upsertCandidate_written h (named_cq bands hrequest) hroom).consistent
  | upsertInUse bands now maxAge frequencyHz =>
      exact (upsertCandidate_written h (named_inUse bands now frequencyHz) hroom).consistent
  | syncLocalSpotsForLog upsertOrder removeOrder bands asked now maxAge logId contacts =>
      exact (syncLocalSpotsForLog_spotUnder h hroom).1
  | deleteSpot id => exact remove_consistent h id
  | deleteDxclusterSpot sourceId =>
      rw [operate, removeClusterSourceSpot]
      split
      · exact h
      · exact remove_consistent h _
  | pruneOldSpots now maxAge => exact (prune_prunedSome h now maxAge).consistent

end Operate

section Run

variable [Platform]

/-- An operation on a store whose index by time may be in any order afterwards: where a search
in one that is not sorted puts an id is not specified. -/
def operateUnsorted (store : BandMapSpotStore)
    (action : BandMapOperation × IterationOrder Nat) : BandMapSpotStore :=
  { (store.operate action.1).1 with
    idsByTime := action.2.arrange (store.operate action.1).1.idsByTime }

theorem Keyed.of_operateUnsorted {store : BandMapSpotStore}
    {action : BandMapOperation × IterationOrder Nat} (h : (store.operateUnsorted action).Keyed) :
    (store.operate action.1).1.Keyed :=
  h.withIds (store.operate action.1).1.idsByTime

/-- In a run that has an id for every new spot no two keys lead to one spot, and a synchronisation
leaves what the contacts ask for. -/
theorem synced_of_hasRoom (actions : List (BandMapOperation × IterationOrder Nat))
    (hroom : Runs.Keeps operateUnsorted (fun store action => store.HasRoom action.1) {} actions) :
    (Runs.run operateUnsorted {} actions).Keyed ∧
    ∀ upsertOrder removeOrder bands asked now maxAge logId contacts,
      (Runs.run operateUnsorted {} actions).HasRoom
        (.syncLocalSpotsForLog upsertOrder removeOrder bands asked now maxAge logId contacts) →
      Synced bands (cutoffTimestamp asked maxAge) (cutoffTimestamp now maxAge) logId contacts
        (Runs.run operateUnsorted {} actions)
        ((Runs.run operateUnsorted {} actions).syncLocalSpotsForLog upsertOrder removeOrder bands
          asked now maxAge logId contacts).1 := by
  have hempty : Consistent {} := ⟨ordered_empty.keyed, fun _ _ hspot => (by cases hspot)⟩
  have hconsistent : (Runs.run operateUnsorted {} actions).Consistent :=
    Runs.invariant_run Consistent
      (fun store action h hleft => (operate_consistent h action.1 hleft).withIds _) hempty hroom
  refine ⟨hconsistent.toKeyed, fun _ _ _ _ _ _ _ _ hleft => ?_⟩
  exact syncLocalSpotsForLog_synced hconsistent hleft

end Run

end BandMapSpotStore

section Examples

attribute [local instance] asciiPlatform

/-- A spot of the cluster that says nothing but its frequency. -/
def clusterSpot (id : Nat) : DxClusterSpot where
  id := id
  receivedAt := 0
  source := ""
  callDe := ""
  callDx := ""
  frequencyHz := 14074000
  utc := 0
  loc := none
  comment := none
  rbn := none

/-- A contact of the log with a time. -/
def loggedContact (callsign band : String) (frequencyHz time : Int) : Contact :=
  buildContact [] [("CALL", .string callsign), ("BAND", .string band),
    ("FREQ", .number (.int frequencyHz)), ("QSO_DATE_TIME_ON", .number (.int time))]

/-- A cluster spot, three contacts of the log, and a frequency in use. -/
def workedActions : List (BandMapOperation × IterationOrder Nat) :=
  [(.upsertDxclusterSpot [] 1000 600 { clusterSpot 7 with receivedAt := 900 }, .held _),
    (.syncLocalSpotsForLog (.held _) (.held _) [] 1000 1000 600 1
      [loggedContact "K1ABC" "20m" 14074000 980, loggedContact "W1AW" "40m" 7074000 990,
        loggedContact "N1AA" "20m" 14050000 1000], .held _),
    (.upsertInUse [] 1001 600 21074000, .held _)]

/-- One contact was made again, one was on another band, and one is gone. -/
def reloggedContacts : List Contact :=
  [loggedContact "K1ABC" "20m" 14080000 1005, loggedContact "W1AW" "20m" 14074000 990]

namespace BandMapSpotStore

theorem synced_of_hasRoom_worked :
    (Runs.run operateUnsorted {} workedActions).Keyed ∧
    Synced [] (cutoffTimestamp 1010 600) (cutoffTimestamp 1011 600) 1 reloggedContacts
      (Runs.run operateUnsorted {} workedActions)
      ((Runs.run operateUnsorted {} workedActions).syncLocalSpotsForLog (.held _) (.held _) [] 1010
        1011 600 1 reloggedContacts).1 := by
  have hroom : Runs.Keeps operateUnsorted (fun store action => store.HasRoom action.1) {}
      workedActions := by
    refine ⟨?_, ?_, ?_, trivial⟩ <;> dsimp only <;> rw [HasRoom, RoomFor, Room] <;> decide +kernel
  obtain ⟨hkeyed, hsynced⟩ := synced_of_hasRoom workedActions hroom
  exact ⟨hkeyed, hsynced (.held _) (.held _) [] 1010 1011 600 1 reloggedContacts
    (by rw [HasRoom, RoomFor, Room]; decide +kernel)⟩

end BandMapSpotStore

def upsertSpot (id : Nat) : BandMapOperation × IterationOrder Nat :=
  (.upsertDxclusterSpot [] 0 0 (clusterSpot id), .held _)

/-- A spot of the cluster comes and goes, as many times. -/
def comeAndGo (count : Nat) : List (BandMapOperation × IterationOrder Nat) :=
  (List.replicate count [upsertSpot 0, (.deleteDxclusterSpot 0, .held _)]).flatten

namespace BandMapSpotStore

/-- No spot is left, but ids were given out. -/
structure Blank (store : BandMapSpotStore) (count : Nat) : Prop where
  consistent : store.Consistent
  spots : ∀ key, store.spotUnder key = none
  nextId : store.nextId = count

theorem Blank.prune {store : BandMapSpotStore} {count : Nat} (h : store.Blank count) :
    (store.prune 0 0).1.Blank count := by
  have hpruned := prune_prunedSome h.consistent 0 0
  refine ⟨hpruned.consistent, fun key => ?_, hpruned.nextId.trans h.nextId⟩
  cases hspot : (store.prune 0 0).1.spotUnder key with
  | none => rfl
  | some spot =>
      exact absurd (hpruned.kept key spot hspot) (h.spots key ▸ Option.some_ne_none _ ∘ Eq.symm)

/-- A spot comes to a blank store. -/
theorem Blank.upsertSpot {store : BandMapSpotStore} {count : Nat} (h : store.Blank count)
    (hroom : count + 1 < 2 ^ 64) (id : Nat) :
    Written (dxclusterSpotRequest [] (clusterSpot id)) (store.prune 0 0).1
      (store.operateUnsorted (Log73.upsertSpot id)) := by
  have hleft : (store.prune 0 0).1.RoomFor [dxclusterSpotRequest [] (clusterSpot id)] := by
    rw [RoomFor, List.filter_cons_of_pos (by rw [h.prune.spots]; rfl), Room, h.prune.nextId]
    exact hroom
  have hwritten := upsertCandidate_written h.consistent
    (named_dxcluster [] (clusterSpot id)) hleft
  exact ⟨hwritten.consistent.withIds _, hwritten.requested, hwritten.inserted, hwritten.others,
    hwritten.nextId⟩

theorem Blank.comeAndGo {store : BandMapSpotStore} {count : Nat} (h : store.Blank count)
    (hroom : count + 1 < 2 ^ 64) :
    (Runs.run operateUnsorted store
      [Log73.upsertSpot 0, (.deleteDxclusterSpot 0, .held _)]).Blank (count + 1) := by
  have hwritten := h.upsertSpot hroom 0
  have hspot := hwritten.inserted (h.prune.spots _)
  obtain ⟨id, hid, -⟩ := Option.bind_eq_some_iff.mp hspot
  have hremoved : operate (store.operateUnsorted (Log73.upsertSpot 0)) (.deleteDxclusterSpot 0) =
      (store.operateUnsorted (Log73.upsertSpot 0)).remove id := by
    have hcluster : get? (store.operateUnsorted (Log73.upsertSpot 0)).idByKey (.cluster 0) =
        some id := hid
    rw [operate, removeClusterSourceSpot, hcluster]
  refine ⟨?_, fun key => ?_, ?_⟩
  · show Consistent { (operate _ _).1 with idsByTime := _ }
    rw [hremoved]
    exact (remove_consistent hwritten.consistent id).withIds _
  · show (operate (store.operateUnsorted (Log73.upsertSpot 0))
      (.deleteDxclusterSpot 0)).1.spotUnder key = none
    rw [hremoved, remove_spotUnder hwritten.consistent.toKeyed hid]
    split
    · rfl
    · next hne => exact (hwritten.others key (Ne.symm hne)).trans (h.prune.spots key)
  · show (operate (store.operateUnsorted (Log73.upsertSpot 0)) (.deleteDxclusterSpot 0)).1.nextId =
      count + 1
    rw [hremoved, remove, nextId_removeById]
    refine hwritten.nextId.trans ?_
    rw [h.prune.spots, Option.isSome_none, if_neg Bool.false_ne_true, h.prune.nextId]

theorem run_comeAndGo {count : Nat} (hroom : count < 2 ^ 64) :
    (Runs.run operateUnsorted {} (comeAndGo count)).Blank count := by
  induction count with
  | zero => exact ⟨⟨ordered_empty.keyed, fun _ _ hspot => (by cases hspot)⟩, fun _ => rfl, rfl⟩
  | succ count ih =>
      rw [comeAndGo, List.replicate_succ', List.flatten_append, List.flatten_singleton,
        Runs.run_append]
      exact (ih (by omega)).comeAndGo hroom

/-- Where the last id is taken, a request under a new key takes it again. -/
theorem not_keyed_of_full {store : BandMapSpotStore} (h : store.Consistent)
    (hfull : nextCounter store.nextId = store.nextId) {key : BandMapDedupeKey}
    {candidate : BandMapSpotCandidate}
    (hold : store.spotUnder key = some (.mk candidate store.nextId)) {request : SpotRequest}
    (hnew : store.spotUnder request.1 = none) :
    ¬(store.upsertAnnounced request).1.Keyed := by
  have hkey := (h.keyById key store.nextId).mpr (h.spotUnder_eq_some.mp hold).1
  have hne : request.1 ≠ key := by
    intro hsame
    rw [hsame, hold] at hnew
    cases hnew
  obtain ⟨id, -, hid, -, -⟩ | ⟨-, heq⟩ := upsert_cases h.toKeyed request.1 request.2
  · have hsome := h.isSome_spotUnder.mpr (Option.isSome_iff_exists.mpr ⟨id, hid⟩)
    rw [hnew] at hsome
    cases hsome
  · have hidByKey : (store.upsertAnnounced request).1.idByKey =
        put store.idByKey request.1 store.nextId := by
      rw [upsertAnnounced, idByKey_announce, heq, insertIdByTime_eq]
      dsimp only
      rw [hfull]
    intro hkeyed
    have hfirst : get? (store.upsertAnnounced request).1.idByKey key = some store.nextId := by
      rw [hidByKey, get?_put, if_neg hne, hkey]
    have hsecond : get? (store.upsertAnnounced request).1.idByKey request.1 =
        some store.nextId := by
      rw [hidByKey, get?_put, if_pos rfl]
    exact hne (Option.some.inj (((hkeyed.keyById request.1 _).mp hsecond).symm.trans
      ((hkeyed.keyById key _).mp hfirst)))

/-- The last id is given out twice, and two keys lead to it. -/
theorem not_keyed_exhausted :
    ¬(Runs.run operateUnsorted {}
      (comeAndGo (2 ^ 64 - 2) ++ [Log73.upsertSpot 0, Log73.upsertSpot 1])).Keyed := by
  have hblank : (Runs.run operateUnsorted {} (comeAndGo (2 ^ 64 - 2))).Blank (2 ^ 64 - 2) :=
    run_comeAndGo (by omega)
  rw [Runs.run_append]
  generalize Runs.run operateUnsorted {} (comeAndGo (2 ^ 64 - 2)) = store at hblank ⊢
  have hfirst := hblank.upsertSpot (by omega) 0
  have hpruned := prune_prunedSome hfirst.consistent 0 0
  have hlast : (store.operateUnsorted (Log73.upsertSpot 0)).nextId = 2 ^ 64 - 1 := by
    rw [hfirst.nextId, hblank.prune.spots, Option.isSome_none, if_neg Bool.false_ne_true,
      hblank.prune.nextId]
    omega
  have hspot := hfirst.inserted (hblank.prune.spots _)
  rw [← hpruned.nextId] at hspot
  have hold := (hpruned.dropped _ _ hspot).resolve_right (Nat.not_lt_zero _)
  have hnew : ((store.operateUnsorted (Log73.upsertSpot 0)).prune 0 0).1.spotUnder
      (dxclusterSpotRequest [] (clusterSpot 1)).1 = none := by
    cases hspot : ((store.operateUnsorted (Log73.upsertSpot 0)).prune 0 0).1.spotUnder
        (dxclusterSpotRequest [] (clusterSpot 1)).1 with
    | none => rfl
    | some spot =>
        have hbefore := hpruned.kept _ spot hspot
        rw [hfirst.others _ (by intro heq; cases heq), hblank.prune.spots] at hbefore
        cases hbefore
  have hfull : nextCounter ((store.operateUnsorted (Log73.upsertSpot 0)).prune 0 0).1.nextId =
      ((store.operateUnsorted (Log73.upsertSpot 0)).prune 0 0).1.nextId := by
    rw [hpruned.nextId, hlast, nextCounter]
    omega
  rw [Runs.run, List.foldl_cons, List.foldl_cons, List.foldl_nil]
  have hsecond : ∀ before : BandMapSpotStore, (before.operate (Log73.upsertSpot 1).1).1 =
      ((before.prune 0 0).1.upsertAnnounced (dxclusterSpotRequest [] (clusterSpot 1))).1 :=
    fun _ => rfl
  intro hkeyed
  have hoperated := Keyed.of_operateUnsorted hkeyed
  rw [hsecond] at hoperated
  exact not_keyed_of_full hpruned.consistent hfull hold hnew hoperated

end BandMapSpotStore

end Examples

end Log73
