import Log73.BandMap.Visible

/-!
Every operation of the band map extends the history by its events, and leaves the store that
the longer history says.
-/

namespace Log73

open SortedAssoc TreeMap Replica
open Std (ExtTreeMap)

/-- Every spot that is asked for has a frequency; the spots of contacts have one anyway. -/
def BandMapOperation.HasFrequencies : BandMapOperation → Prop
  | .upsertDxclusterSpot _ _ _ spot => 0 < spot.frequencyHz
  | .upsertLocalSpot _ _ _ input => 0 < input.frequencyHz
  | .upsertCq _ _ _ frequencyHz _ _ => 0 < frequencyHz
  | .upsertInUse _ _ _ frequencyHz => 0 < frequencyHz
  | .syncLocalSpotsForLog .. | .deleteSpot _ | .deleteDxclusterSpot _ | .pruneOldSpots .. => True

namespace BandMapSpotStore

/-- A result that continues any history of the store it started from. -/
def Extends (logId : Option Int) (store : BandMapSpotStore)
    (result : BandMapSpotStore × List BandMapEvent) : Prop :=
  ∀ history, store.Recorded logId history → store.Listed →
    history.length + result.2.length ≤ sequenceLimit →
      result.1.Recorded logId (history ++ result.2) ∧ result.1.Listed

section Operations

variable {logId : Option Int} {store : BandMapSpotStore}

theorem extends_nil : Extends logId store (store, []) := by
  intro history hrecorded hlisted _
  rw [List.append_nil]
  exact ⟨hrecorded, hlisted⟩

/-- One operation more, on the store the ones before left. -/
theorem Extends.recordEvents {state : BandMapSpotStore × List BandMapEvent}
    {operation : BandMapSpotStore → BandMapSpotStore × List BandMapEvent}
    (h : Extends logId store state) (hnext : Extends logId state.1 (operation state.1)) :
    Extends logId store (recordEvents state operation) := by
  intro history hrecorded hlisted hlimit
  have hlength : history.length + (state.2 ++ (operation state.1).2).length ≤ sequenceLimit :=
    hlimit
  rw [List.length_append] at hlength
  have hfirst := h history hrecorded hlisted (by omega)
  have hsecond := hnext _ hfirst.1 hfirst.2 (by rw [List.length_append]; omega)
  rw [List.append_assoc] at hsecond
  exact hsecond

theorem Extends.foldl {α : Type} {operation : α → BandMapSpotStore →
    BandMapSpotStore × List BandMapEvent}
    {entries : List α} (hstep : ∀ entry ∈ entries, ∀ store : BandMapSpotStore,
      Extends logId store (operation entry store))
    {state : BandMapSpotStore × List BandMapEvent} (h : Extends logId store state) :
    Extends logId store (entries.foldl (fun state entry =>
      Log73.recordEvents state (operation entry)) state) := by
  induction entries generalizing state with
  | nil => exact h
  | cons entry entries ih =>
      rw [List.forall_mem_cons] at hstep
      exact ih hstep.2 (h.recordEvents (hstep.1 _))

theorem upsertAnnounced_extends (request : SpotRequest) (hsound : request.Sound logId) :
    Extends logId store (store.upsertAnnounced request) := by
  intro history hrecorded hlisted hlimit
  refine ⟨hrecorded.upsertAnnounced request hsound hlimit, ?_⟩
  have hannounce (written : BandMapSpotStore) (outcome : UpsertOutcome)
      (hwritten : written.Listed) :
      (written.announce outcome).1.Listed := by
    cases outcome with
    | inserted _ | updated _ | refreshed _ => exact hwritten
  apply hannounce
  intro other hsome
  cases upsert_spec hrecorded.keyed request.1 request.2 with
  | inl hupdate =>
      obtain ⟨id, old, ids, -, hold, hids, heq⟩ := hupdate
      rw [heq] at hsome ⊢
      dsimp only at hsome ⊢
      rw [getElem?_insert_key] at hsome
      split at hsome
      · next hsame => exact (hids other).mpr (Or.inl hsame.symm)
      · exact (hids other).mpr (Or.inr (hlisted other hsome))
  | inr hinsert =>
      obtain ⟨ids, hids, heq⟩ := hinsert
      rw [heq] at hsome ⊢
      dsimp only at hsome ⊢
      rw [getElem?_insert_key] at hsome
      split at hsome
      · next hsame => exact (hids other).mpr (Or.inl hsame.symm)
      · exact (hids other).mpr (Or.inr (hlisted other hsome))

theorem idsByTime_removeById (id : Nat) :
    (store.removeById id).1.idsByTime = store.idsByTime := by
  rw [removeById]
  split <;> rfl

theorem removeById_extends (id : Nat) : Extends logId store (store.removeById id) := by
  intro history hrecorded hlisted hlimit
  refine ⟨hrecorded.removeById id hlimit, fun other hsome => ?_⟩
  rw [getElem?_removeById] at hsome
  rw [idsByTime_removeById]
  split at hsome
  · cases hsome
  · exact hlisted other hsome

theorem remove_extends (id : Nat) : Extends logId store (store.remove id) := by
  intro history hrecorded hlisted hlimit
  refine ⟨(hrecorded.withIds _).removeById id hlimit, fun other hsome => ?_⟩
  rw [remove, getElem?_removeById] at hsome
  rw [remove, idsByTime_removeById]
  split at hsome
  · cases hsome
  · next hne =>
      rw [List.mem_filter, decide_eq_true_eq]
      exact ⟨hlisted other hsome, Ne.symm hne⟩

theorem removeClusterSourceSpot_extends (sourceId : Nat) :
    Extends logId store (store.removeClusterSourceSpot sourceId) := by
  rw [removeClusterSourceSpot]
  split
  · exact extends_nil
  · exact remove_extends _

theorem removeKey_extends (key : BandMapDedupeKey) : Extends logId store (store.removeKey key) := by
  rw [removeKey]
  split
  · exact extends_nil
  · exact removeById_extends _

/-- The loop drops spots until the first one that stays; what it has not come to is listed. -/
theorem pruneLoop_extends (cutoff : Nat) (ids : List Nat) (history : List BandMapEvent)
    (hrecorded : store.Recorded logId history)
    (hids : ∀ id : Nat, (store.spotsById[id]?).isSome → id ∈ ids)
    (hlimit : history.length + (pruneLoop cutoff store ids).2.length ≤ sequenceLimit) :
    (pruneLoop cutoff store ids).1.Recorded logId (history ++ (pruneLoop cutoff store ids).2)
      ∧ (pruneLoop cutoff store ids).1.Listed := by
  induction ids generalizing store history with
  | nil =>
      rw [pruneLoop, List.append_nil]
      exact ⟨hrecorded.withIds [], hids⟩
  | cons id ids ih =>
      have hothers (hnot : store.spotsById[id]? = none) (other : Nat)
          (hsome : (store.spotsById[other]?).isSome) : other ∈ ids := by
        cases hids other hsome with
        | head =>
            rw [hnot] at hsome
            cases hsome
        | tail _ hmem => exact hmem
      cases hspot : store.spotsById[id]? with
      | none =>
          rw [pruneLoop, hspot] at hlimit ⊢
          exact ih history hrecorded (hothers hspot) hlimit
      | some spot =>
          rw [pruneLoop, hspot] at hlimit ⊢
          dsimp only at hlimit ⊢
          by_cases hrecent : cutoff ≤ spot.receivedAt
          · rw [if_pos hrecent, List.append_nil]
            exact ⟨hrecorded.withIds _, hids⟩
          · rw [if_neg hrecent] at hlimit ⊢
            rw [List.length_append] at hlimit
            have hremoved := hrecorded.removeById id (by omega)
            have hleft (other : Nat)
                (hsome : ((store.removeById id).1.spotsById[other]?).isSome) : other ∈ ids := by
              rw [getElem?_removeById] at hsome
              split at hsome
              · cases hsome
              · next hne =>
                  cases hids other hsome with
                  | head => exact absurd rfl hne
                  | tail _ hmem => exact hmem
            have hrest := ih _ hremoved hleft (by rw [List.length_append]; omega)
            rw [List.append_assoc] at hrest
            exact hrest

theorem prune_extends (now maxAge : Nat) : Extends logId store (store.prune now maxAge) :=
  fun history hrecorded hlisted hlimit => pruneLoop_extends _ _ history hrecorded hlisted hlimit

theorem upsertCandidate_extends (now maxAge : Nat) (request : SpotRequest)
    (hsound : request.Sound logId) :
    Extends logId store (store.upsertCandidate now maxAge request) :=
  (prune_extends now maxAge).recordEvents (upsertAnnounced_extends request hsound)

end Operations

section Requests

variable {logId : Option Int}

theorem visibleForLog_localKey (spotLogId : Option Int) (bandName : Option String)
    (frequencyHz : Nat) (callDx : String) {candidate : BandMapSpotCandidate}
    (htype : candidate.spotType = .localSpot) (hlog : candidate.logId = spotLogId) (id : Nat) :
    spotVisibleForLog (.mk candidate id) logId =
      (localKey spotLogId bandName frequencyHz callDx).visibleForLog logId := by
  unfold spotVisibleForLog
  rw [if_neg (not_not.mpr htype)]
  dsimp only
  rw [hlog]
  cases bandName <;> rfl

theorem dxclusterSpotRequest_sound (bands : List Band) {spot : DxClusterSpot}
    (h : 0 < spot.frequencyHz) : (dxclusterSpotRequest bands spot).Sound logId := by
  refine ⟨fun id => ?_, h⟩
  unfold spotVisibleForLog
  rw [if_pos]
  · rfl
  · rw [dxclusterSpotRequest]
    dsimp only
    split <;> decide

theorem cqRequest_sound {bands : List Band} {now frequencyHz : Nat} {radioId : Int}
    {radioName : String} {request : SpotRequest} (h : 0 < frequencyHz)
    (hrequest : cqRequest bands now frequencyHz radioId radioName = some request) :
    request.Sound logId := by
  obtain ⟨bandName, -, rfl⟩ := Option.map_eq_some_iff.mp hrequest
  exact ⟨fun _ => rfl, h⟩

theorem inUseRequest_sound (bands : List Band) (now : Nat) {frequencyHz : Nat}
    (h : 0 < frequencyHz) : (inUseRequest bands now frequencyHz).Sound logId :=
  ⟨fun _ => rfl, h⟩

variable [Platform]

theorem localSpotRequest_sound (bands : List Band) (now : Nat) {input : LocalSpotInput}
    (h : 0 < input.frequencyHz) : (localSpotRequest bands now input).Sound logId :=
  ⟨visibleForLog_localKey _ _ _ _ rfl rfl, h⟩

/-- The spot of a contact belongs to its log, and has a frequency. -/
theorem localSpotCandidate_spec {bands : List Band} {contactLogId : Int} {contact : Contact}
    {candidate : BandMapSpotCandidate}
    (h : localSpotCandidate bands contactLogId contact = some candidate) :
    candidate.spotType = .localSpot ∧ candidate.logId = some contactLogId
      ∧ 0 < candidate.frequencyHz := by
  obtain ⟨adif, -, h⟩ := Option.bind_eq_some_iff.mp h
  obtain ⟨call, -, h⟩ := Option.bind_eq_some_iff.mp h
  dsimp only at h
  split at h
  · cases h
  · obtain ⟨frequencyHz, -, h⟩ := Option.bind_eq_some_iff.mp h
    split at h
    · cases h
    · next hne =>
        obtain ⟨receivedAt, -, rfl⟩ := Option.map_eq_some_iff.mp h
        exact ⟨rfl, rfl, Nat.pos_of_ne_zero hne⟩

theorem desiredSpots_sound (bands : List Band) (cutoff : Nat) (contactLogId : Int)
    (contacts : List Contact) :
    ∀ request ∈ desiredSpots bands cutoff contactLogId contacts, request.Sound logId := by
  have hput {desired : List SpotRequest} (hdesired : ∀ request ∈ desired, request.Sound logId)
      {contact : Contact} {candidate : BandMapSpotCandidate}
      (hcandidate : localSpotCandidate bands contactLogId contact = some candidate) :
      ∀ request ∈ put desired (localKey (some contactLogId) candidate.bandName candidate.frequencyHz
        candidate.callDx) candidate, SpotRequest.Sound logId request := by
    have hspec := localSpotCandidate_spec hcandidate
    intro request hmem
    cases List.mem_cons.mp hmem with
    | inl heq =>
        rw [heq]
        exact ⟨visibleForLog_localKey _ _ _ _ hspec.1 hspec.2.1, hspec.2.2⟩
    | inr hold => exact hdesired request (List.mem_of_mem_filter hold)
  rw [desiredSpots]
  refine List.foldlRecOn (motive := fun desired : List SpotRequest =>
    ∀ request ∈ desired, request.Sound logId) contacts _
    (fun _ hmem => absurd hmem List.not_mem_nil) fun desired hdesired contact _ => ?_
  dsimp only
  split
  · exact hdesired
  · next candidate hcandidate =>
      split
      · exact hdesired
      · split
        · split
          · exact hdesired
          · exact hput hdesired hcandidate
        · exact hput hdesired hcandidate

end Requests

section Operate

variable [Platform] {logId : Option Int} {store : BandMapSpotStore}

theorem syncLocalSpotsForLog_extends (upsertOrder : IterationOrder SpotRequest)
    (removeOrder : IterationOrder BandMapDedupeKey) (bands : List Band) (asked now maxAge : Nat)
    (contactLogId : Int) (contacts : List Contact) :
    Extends logId store
      (store.syncLocalSpotsForLog upsertOrder removeOrder bands asked now maxAge contactLogId
        contacts) := by
  rw [syncLocalSpotsForLog]
  apply Extends.foldl (fun key _ store => removeKey_extends key)
  refine Extends.foldl (fun request hmem store => upsertAnnounced_extends request ?_)
    (prune_extends now maxAge)
  exact desiredSpots_sound _ _ _ _ request ((upsertOrder.perm _).mem_iff.mp hmem)

theorem operate_extends (operation : BandMapOperation) (h : operation.HasFrequencies) :
    Extends logId store (store.operate operation) := by
  cases operation with
  | upsertDxclusterSpot bands now maxAge spot =>
      exact upsertCandidate_extends now maxAge _ (dxclusterSpotRequest_sound bands h)
  | upsertLocalSpot bands now maxAge input =>
      exact upsertCandidate_extends now maxAge _ (localSpotRequest_sound bands now h)
  | upsertCq bands now maxAge frequencyHz radioId radioName =>
      rw [operate]
      split
      · exact extends_nil
      · next request hrequest =>
          exact upsertCandidate_extends now maxAge _ (cqRequest_sound h hrequest)
  | upsertInUse bands now maxAge frequencyHz =>
      exact upsertCandidate_extends now maxAge _ (inUseRequest_sound bands now h)
  | syncLocalSpotsForLog upsertOrder removeOrder bands asked now maxAge contactLogId contacts =>
      exact syncLocalSpotsForLog_extends upsertOrder removeOrder bands asked now maxAge contactLogId
        contacts
  | deleteSpot id => exact remove_extends id
  | deleteDxclusterSpot sourceId => exact removeClusterSourceSpot_extends sourceId
  | pruneOldSpots now maxAge => exact prune_extends now maxAge

omit [Platform] in
theorem recorded_empty : Recorded logId {} [] where
  keyed := {
    ids := fun _ _ h => by simp at h
    bounded := fun _ h => by simp at h
    keyById := fun _ _ => by simp [get?]
    stored := fun _ => by simp }
  fitting := fun _ _ _ h => by simp at h
  frequencies := fun _ _ h => by simp at h
  ids := Nat.le_refl 0
  length := rfl
  numbered := fun _ _ h => by simp at h
  announced := fun _ _ h => by cases h
  view := funext fun id => by
    rw [BandMapSpotStore.view, visibleAt, List.map_nil]
    simp [viewAt]

omit [Platform] in
theorem listed_empty : Listed {} := fun _ h => by simp at h

omit [Platform] in
/-- The spots that are listed are those that can be seen. -/
theorem mem_spots {history : List BandMapEvent} (h : store.Recorded logId history)
    (hlisted : store.Listed) (spot : BandMapSpot) :
    spot ∈ store.spots logId ↔
      store.spotsById[spot.id]? = some spot ∧ spotVisibleForLog spot logId = true := by
  rw [spots, List.mem_filter, List.mem_filterMap]
  refine and_congr_left fun _ => ⟨?_, ?_⟩
  · intro hmem
    obtain ⟨id, -, hspot⟩ := hmem
    rw [h.keyed.ids id spot hspot]
    exact hspot
  · intro hspot
    exact ⟨spot.id, hlisted spot.id (Option.isSome_iff_exists.mpr ⟨spot, hspot⟩), hspot⟩

end Operate

end BandMapSpotStore

end Log73
