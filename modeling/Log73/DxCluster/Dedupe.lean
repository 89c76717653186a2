import Log73.DxCluster.Spots
import Log73.Library.TreeMap

/-!
The indexes of the spot store agree with its spots, and no two spots of a callsign are
within the tolerance of each other, as long as every new spot is near one stored spot
at most.
-/

namespace Log73

open SortedAssoc TreeMap
open Std (ExtTreeMap ExtTreeSet)

variable [Platform]

/-- Uppercase text stays as it is. -/
def UppercaseStable : Prop := ∀ s, toUppercase (toUppercase s) = toUppercase s

namespace DxClusterSpotStore

/-- Every index lists the stored spots, under what they carry. -/
structure Indexed (store : DxClusterSpotStore) : Prop where
  ids : ∀ (id : Nat) (spot : DxClusterSpot), store.spotsById[id]? = some spot → spot.id = id
  canonical : ∀ (id : Nat) (spot : DxClusterSpot), store.spotsById[id]? = some spot →
    toUppercase spot.callDx = spot.callDx
  timeNodup : store.idsByTime.Nodup
  byTime : ∀ id : Nat, id ∈ store.idsByTime ↔ (store.spotsById[id]?).isSome
  byCallsign : ∀ (call : String) (id : Nat), id ∈ store.idsByCallsign[call]?.getD ∅ ↔
    ∃ spot : DxClusterSpot, store.spotsById[id]? = some spot ∧ spot.callDx = call
  callsignNonempty : ∀ call : String, store.idsByCallsign[call]? ≠ some ∅
  byDedupeKey : ∀ key id, get? store.idsByDedupeKey key = some id ↔
    ∃ spot : DxClusterSpot, store.spotsById[id]? = some spot ∧ spot.key = key

/-- Two spots of a callsign are more than the tolerance apart. -/
def Separated (store : DxClusterSpotStore) : Prop :=
  ∀ (id id' : Nat) (spot spot' : DxClusterSpot), store.spotsById[id]? = some spot →
    store.spotsById[id']? = some spot' →
    spot.callDx = spot'.callDx → spot.key.near spot'.key → id = id'

structure Sound (store : DxClusterSpotStore) : Prop where
  indexed : store.Indexed
  separated : store.Separated

/-- The stored spots of the callsign of a new one that are within the tolerance of it. -/
def IsNear (store : DxClusterSpotStore) (dx : Dx) (id : Nat) : Prop :=
  ∃ spot : DxClusterSpot, store.spotsById[id]? = some spot ∧
    spot.callDx = toUppercase (trim dx.callDx) ∧
    spot.key.near (dedupeKey dx.freq (toUppercase (trim dx.callDx)))

/-- At most one stored spot is near the new one, and the id of a new spot is free. -/
structure Admits (store : DxClusterSpotStore) (dx : Dx) : Prop where
  unique : ∀ id id', store.IsNear dx id → store.IsNear dx id' → id = id'
  free : (∀ id, ¬store.IsNear dx id) → store.spotsById[nextCounter store.nextId]? = none

section Near

omit [Platform] in
theorem near_comm (key key' : DxClusterDedupeKey) : key.near key' = key'.near key :=
  Bool.and_comm _ _

omit [Platform] in
theorem near_self (key : DxClusterDedupeKey) : key.near key := by
  simp [DxClusterDedupeKey.near]

variable {store : DxClusterSpotStore} {dx : Dx}

/-- The search over the ids of the callsign finds a near spot, if there is one. -/
theorem findDuplicateId_eq_some (hupper : UppercaseStable) (h : store.Indexed) {id : Nat}
    (hfound : store.findDuplicateId (dedupeKey dx.freq (toUppercase (trim dx.callDx))) = some id) :
    store.IsNear dx id := by
  obtain ⟨ids, hids, hfind⟩ := Option.bind_eq_some_iff.mp hfound
  have hmem := List.mem_of_find?_eq_some hfind
  rw [ExtTreeSet.mem_toList] at hmem
  have hcall : id ∈ store.idsByCallsign[(dedupeKey dx.freq
      (toUppercase (trim dx.callDx))).callDx]?.getD ∅ := by
    rw [hids]
    exact hmem
  obtain ⟨spot, hspot, hdx⟩ := (h.byCallsign _ id).mp hcall
  refine ⟨spot, hspot, hdx.trans (hupper _), ?_⟩
  have hnear := List.find?_some hfind
  rwa [hspot] at hnear

theorem findDuplicateId_eq_none (hupper : UppercaseStable) (h : store.Indexed)
    (hnone : store.findDuplicateId (dedupeKey dx.freq (toUppercase (trim dx.callDx))) = none)
    (id : Nat) : ¬store.IsNear dx id := by
  rintro ⟨spot, hspot, hdx, hnear⟩
  have hmem := (h.byCallsign spot.callDx id).mpr ⟨spot, hspot, rfl⟩
  rw [hdx, ← hupper] at hmem
  rw [findDuplicateId] at hnone
  cases hids : store.idsByCallsign[toUppercase (toUppercase (trim dx.callDx))]? with
  | none =>
      rw [hids] at hmem
      exact ExtTreeSet.not_mem_empty hmem
  | some ids =>
      rw [hids] at hmem
      have hall := List.find?_eq_none.mp ((Option.bind_some ..).symm.trans (hids ▸ hnone)) id
        (ExtTreeSet.mem_toList.mpr hmem)
      rw [hspot] at hall
      exact hall hnear

end Near

section Add

variable (parseRbn : String → Option DxClusterRbnSpot) (now : Nat) (store : DxClusterSpotStore)
  (dx : Dx)

/-- A stored spot that takes the place of the new one. -/
def moved (id : Nat) (old : DxClusterSpot) : DxClusterSpotStore :=
  { store with
    idsByTime := store.idsByTime.filter (· ≠ id) ++ [id]
    idsByDedupeKey := put (erase store.idsByDedupeKey old.key)
      (dedupeKey dx.freq (toUppercase (trim dx.callDx))) id
    spotsById := store.spotsById.insert id (dxSpot parseRbn now dx id) }

def inserted : DxClusterSpotStore :=
  { nextId := nextCounter store.nextId
    idsByTime := store.idsByTime ++ [nextCounter store.nextId]
    idsByCallsign := store.idsByCallsign.insert (toUppercase (trim dx.callDx))
      ((store.idsByCallsign[toUppercase (trim dx.callDx)]?.getD ∅).insert
        (nextCounter store.nextId))
    idsByDedupeKey := put store.idsByDedupeKey
      (dedupeKey dx.freq (toUppercase (trim dx.callDx))) (nextCounter store.nextId)
    spotsById := store.spotsById.insert (nextCounter store.nextId)
      (dxSpot parseRbn now dx (nextCounter store.nextId)) }

variable {store dx}

/-- A new spot moves a near one, or is inserted when none is near. -/
theorem add_cases (hupper : UppercaseStable) (h : store.Indexed) :
    (∃ id old, store.spotsById[id]? = some old ∧ store.IsNear dx id ∧
      (store.add parseRbn now dx).1 = store.moved parseRbn now dx id old) ∨
    ((∀ id, ¬store.IsNear dx id) ∧
      (store.add parseRbn now dx).1 = store.inserted parseRbn now dx) := by
  rw [add]
  cases hfound : store.findDuplicateId (dedupeKey dx.freq (toUppercase (trim dx.callDx))) with
  | none =>
      right
      exact ⟨findDuplicateId_eq_none hupper h hfound, rfl⟩
  | some id =>
      have hnear := findDuplicateId_eq_some hupper h hfound
      have hstored := hnear
      obtain ⟨old, hold, -, -⟩ := hstored
      left
      refine ⟨id, old, hold, hnear, ?_⟩
      rw [Option.bind_some, hold]
      rfl

variable {parseRbn now}

/-- The spots of a store whose keys are told apart. -/
theorem Sound.eq_of_key (h : store.Sound) {id id' : Nat} {spot spot' : DxClusterSpot}
    (hspot : store.spotsById[id]? = some spot) (hspot' : store.spotsById[id']? = some spot')
    (hkey : spot.key = spot'.key) : id = id' := by
  refine h.separated id id' spot spot' hspot hspot' ?_ (hkey ▸ near_self _)
  rw [← h.indexed.canonical id spot hspot, ← h.indexed.canonical id' spot' hspot']
  exact congrArg DxClusterDedupeKey.callDx hkey

/-- A stored spot under the key of the new one is near it. -/
theorem isNear_of_key (hupper : UppercaseStable) (h : store.Indexed) {id : Nat}
    {spot : DxClusterSpot} (hspot : store.spotsById[id]? = some spot)
    (hkey : spot.key = dedupeKey dx.freq (toUppercase (trim dx.callDx))) : store.IsNear dx id := by
  refine ⟨spot, hspot, ?_, hkey ▸ near_self _⟩
  have hcall : toUppercase spot.callDx = toUppercase (toUppercase (trim dx.callDx)) :=
    congrArg DxClusterDedupeKey.callDx hkey
  rw [← h.canonical id spot hspot, hcall, hupper]

theorem spotsById_moved (id other : Nat) (old : DxClusterSpot) :
    (store.moved parseRbn now dx id old).spotsById[other]? =
      if id = other then some (dxSpot parseRbn now dx id) else store.spotsById[other]? :=
  getElem?_insert_key _ _ _ _

/-- The key of the spot that moved goes with it. -/
theorem Sound.byDedupeKey_moved (hupper : UppercaseStable) (h : store.Sound) {id : Nat}
    {old : DxClusterSpot} (hold : store.spotsById[id]? = some old)
    (hunique : ∀ other, store.IsNear dx other → other = id) (key : DxClusterDedupeKey)
    (other : Nat) :
    get? (store.moved parseRbn now dx id old).idsByDedupeKey key = some other ↔
      ∃ spot : DxClusterSpot, (store.moved parseRbn now dx id old).spotsById[other]? = some spot ∧
        spot.key = key := by
  rw [spotsById_moved]
  show get? (put (erase store.idsByDedupeKey old.key) _ id) key = some other ↔ _
  rw [get?_put, get?_erase]
  by_cases heq : id = other
  · subst heq
    rw [if_pos rfl]
    constructor
    · intro hget
      split at hget
      · next hkey => exact ⟨_, rfl, hkey⟩
      · split at hget
        · cases hget
        · next hne =>
            obtain ⟨spot, hspot, hkey⟩ := (h.indexed.byDedupeKey key id).mp hget
            obtain rfl := Option.some.inj (hold.symm.trans hspot)
            exact absurd hkey hne
    · rintro ⟨spot, hspot, hkey⟩
      obtain rfl := Option.some.inj hspot
      exact if_pos hkey
  · rw [if_neg heq]
    constructor
    · intro hget
      split at hget
      · exact absurd (Option.some.inj hget) heq
      · split at hget
        · cases hget
        · exact (h.indexed.byDedupeKey key other).mp hget
    · rintro ⟨spot, hspot, hkey⟩
      rw [if_neg, if_neg]
      · exact (h.indexed.byDedupeKey key other).mpr ⟨spot, hspot, hkey⟩
      · exact fun hc => heq (h.eq_of_key hold hspot (hc.trans hkey.symm))
      · exact fun hc => heq (hunique other
          (isNear_of_key hupper h.indexed hspot (hkey.trans hc.symm))).symm

theorem Sound.indexed_moved (hupper : UppercaseStable) (h : store.Sound) {id : Nat}
    {old : DxClusterSpot} (hold : store.spotsById[id]? = some old) (hnear : store.IsNear dx id)
    (hunique : ∀ other, store.IsNear dx other → other = id) :
    (store.moved parseRbn now dx id old).Indexed := by
  have hcall : old.callDx = toUppercase (trim dx.callDx) := by
    obtain ⟨spot, hspot, hcall, -⟩ := hnear
    exact Option.some.inj (hold.symm.trans hspot) ▸ hcall
  have hin : id ∈ store.idsByTime := (h.indexed.byTime id).mpr (hold ▸ rfl)
  refine ⟨fun other found hfound => ?_, fun other found hfound => ?_, ?_, fun other => ?_,
    fun call other => ?_, h.indexed.callsignNonempty, h.byDedupeKey_moved hupper hold hunique⟩
  · rw [spotsById_moved] at hfound
    split at hfound
    · next heq => exact Option.some.inj hfound ▸ heq
    · exact h.indexed.ids other found hfound
  · rw [spotsById_moved] at hfound
    split at hfound
    · exact Option.some.inj hfound ▸ hupper _
    · exact h.indexed.canonical other found hfound
  · refine List.Nodup.append (h.indexed.timeNodup.filter _) (List.nodup_singleton id) ?_
    intro other hmem hlast
    rw [List.mem_singleton] at hlast
    exact of_decide_eq_true (List.mem_filter.mp hmem).2 hlast
  · rw [spotsById_moved]
    show other ∈ store.idsByTime.filter (· ≠ id) ++ [id] ↔ _
    rw [List.mem_append, List.mem_filter, List.mem_singleton, decide_eq_true_eq]
    by_cases heq : id = other
    · simp [heq]
    · rw [if_neg heq, ← h.indexed.byTime]
      simp [Ne.symm heq]
  · rw [spotsById_moved]
    refine (h.indexed.byCallsign call other).trans ?_
    by_cases heq : id = other
    · subst heq
      rw [if_pos rfl, hold]
      simp [dxSpot, hcall]
    · rw [if_neg heq]

theorem moved_sound (hupper : UppercaseStable) (h : store.Sound) {id : Nat} {old : DxClusterSpot}
    (hold : store.spotsById[id]? = some old) (hnear : store.IsNear dx id)
    (hunique : ∀ other, store.IsNear dx other → other = id) :
    (store.moved parseRbn now dx id old).Sound := by
  refine ⟨h.indexed_moved hupper hold hnear hunique, ?_⟩
  intro a b spot spot' ha hb hcalls hclose
  rw [spotsById_moved] at ha hb
  split at ha <;> split at hb
  · next heqa heqb => exact heqa.symm.trans heqb
  · next heqa _ =>
      obtain rfl := Option.some.inj ha
      have hother := hunique b ⟨spot', hb, hcalls.symm, near_comm _ _ ▸ hclose⟩
      exact heqa.symm.trans hother.symm
  · next _ heqb =>
      obtain rfl := Option.some.inj hb
      exact (hunique a ⟨spot, ha, hcalls, hclose⟩).trans heqb
  · exact h.separated a b spot spot' ha hb hcalls hclose

theorem spotsById_inserted (other : Nat) :
    (store.inserted parseRbn now dx).spotsById[other]? =
      if nextCounter store.nextId = other then
        some (dxSpot parseRbn now dx (nextCounter store.nextId))
      else store.spotsById[other]? :=
  getElem?_insert_key _ _ _ _

theorem Indexed.byCallsign_inserted (h : store.Indexed)
    (hfree : store.spotsById[nextCounter store.nextId]? = none) (call : String) (other : Nat) :
    other ∈ (store.inserted parseRbn now dx).idsByCallsign[call]?.getD ∅ ↔
      ∃ spot : DxClusterSpot, (store.inserted parseRbn now dx).spotsById[other]? = some spot ∧
        spot.callDx = call := by
  rw [spotsById_inserted]
  show other ∈ (ExtTreeMap.insert store.idsByCallsign (toUppercase (trim dx.callDx)) _)[call]?.getD
    ∅ ↔ _
  rw [ExtTreeMap.getElem?_insert]
  by_cases hcall : toUppercase (trim dx.callDx) = call
  · subst hcall
    rw [if_pos Std.ReflCmp.compare_self, Option.getD_some, ExtTreeSet.mem_insert,
      h.byCallsign, Std.compare_eq_iff_eq]
    by_cases heq : nextCounter store.nextId = other
    · simp [heq, dxSpot]
    · simp [heq]
  · rw [if_neg fun hc => hcall (Std.compare_eq_iff_eq.mp hc), h.byCallsign]
    by_cases heq : nextCounter store.nextId = other
    · subst heq
      rw [if_pos rfl, hfree]
      simp [dxSpot, hcall]
    · rw [if_neg heq]

theorem Indexed.callsignNonempty_inserted (h : store.Indexed) (call : String) :
    (store.inserted parseRbn now dx).idsByCallsign[call]? ≠ some ∅ := by
  intro hempty
  have hcallsign : (ExtTreeMap.insert store.idsByCallsign (toUppercase (trim dx.callDx))
      ((store.idsByCallsign[toUppercase (trim dx.callDx)]?.getD ∅).insert
        (nextCounter store.nextId)))[call]? = some ∅ := hempty
  rw [ExtTreeMap.getElem?_insert] at hcallsign
  split at hcallsign
  · have hmem : nextCounter store.nextId ∈
        (store.idsByCallsign[toUppercase (trim dx.callDx)]?.getD ∅).insert
          (nextCounter store.nextId) := ExtTreeSet.mem_insert_self
    rw [Option.some.inj hcallsign] at hmem
    exact ExtTreeSet.not_mem_empty hmem
  · exact h.callsignNonempty call hcallsign

theorem Indexed.byDedupeKey_inserted (hupper : UppercaseStable) (h : store.Indexed)
    (hnone : ∀ id, ¬store.IsNear dx id)
    (hfree : store.spotsById[nextCounter store.nextId]? = none) (key : DxClusterDedupeKey)
    (other : Nat) :
    get? (store.inserted parseRbn now dx).idsByDedupeKey key = some other ↔
      ∃ spot : DxClusterSpot, (store.inserted parseRbn now dx).spotsById[other]? = some spot ∧
        spot.key = key := by
  rw [spotsById_inserted]
  show get? (put store.idsByDedupeKey _ (nextCounter store.nextId)) key = some other ↔ _
  rw [get?_put]
  by_cases heq : nextCounter store.nextId = other
  · subst heq
    rw [if_pos rfl]
    constructor
    · intro hget
      split at hget
      · next hkey => exact ⟨_, rfl, hkey⟩
      · obtain ⟨spot, hspot, -⟩ := (h.byDedupeKey key _).mp hget
        rw [hfree] at hspot
        cases hspot
    · rintro ⟨spot, hspot, hkey⟩
      obtain rfl := Option.some.inj hspot
      exact if_pos hkey
  · rw [if_neg heq]
    constructor
    · intro hget
      split at hget
      · exact absurd (Option.some.inj hget) heq
      · exact (h.byDedupeKey key other).mp hget
    · rintro ⟨spot, hspot, hkey⟩
      rw [if_neg]
      · exact (h.byDedupeKey key other).mpr ⟨spot, hspot, hkey⟩
      · exact fun hc => hnone other (isNear_of_key hupper h hspot (hkey.trans hc.symm))

theorem Indexed.inserted (hupper : UppercaseStable) (h : store.Indexed)
    (hnone : ∀ id, ¬store.IsNear dx id)
    (hfree : store.spotsById[nextCounter store.nextId]? = none) :
    (store.inserted parseRbn now dx).Indexed := by
  have hnew : nextCounter store.nextId ∉ store.idsByTime := by
    rw [h.byTime, hfree]
    exact Bool.false_ne_true
  refine ⟨fun other found hfound => ?_, fun other found hfound => ?_, ?_, fun other => ?_,
    h.byCallsign_inserted hfree, h.callsignNonempty_inserted,
    h.byDedupeKey_inserted hupper hnone hfree⟩
  · rw [spotsById_inserted] at hfound
    split at hfound
    · next heq => exact Option.some.inj hfound ▸ heq
    · exact h.ids other found hfound
  · rw [spotsById_inserted] at hfound
    split at hfound
    · exact Option.some.inj hfound ▸ hupper _
    · exact h.canonical other found hfound
  · refine List.Nodup.append h.timeNodup (List.nodup_singleton _) ?_
    intro other hmem hlast
    rw [List.mem_singleton] at hlast
    exact hnew (hlast ▸ hmem)
  · rw [spotsById_inserted]
    show other ∈ store.idsByTime ++ [nextCounter store.nextId] ↔ _
    rw [List.mem_append, List.mem_singleton, h.byTime]
    by_cases heq : nextCounter store.nextId = other
    · simp [heq]
    · simp [heq, Ne.symm heq]

theorem inserted_sound (hupper : UppercaseStable) (h : store.Sound)
    (hnone : ∀ id, ¬store.IsNear dx id)
    (hfree : store.spotsById[nextCounter store.nextId]? = none) :
    (store.inserted parseRbn now dx).Sound := by
  refine ⟨h.indexed.inserted hupper hnone hfree, ?_⟩
  intro a b spot spot' ha hb hcalls hclose
  rw [spotsById_inserted] at ha hb
  split at ha <;> split at hb
  · next heqa heqb => exact heqa.symm.trans heqb
  · obtain rfl := Option.some.inj ha
    exact absurd ⟨spot', hb, hcalls.symm, near_comm _ _ ▸ hclose⟩ (hnone b)
  · obtain rfl := Option.some.inj hb
    exact absurd ⟨spot, ha, hcalls, hclose⟩ (hnone a)
  · exact h.separated a b spot spot' ha hb hcalls hclose

/-- A new spot leaves the store sound exactly when it is near one stored spot at most and, near
none, gets an id of its own. -/
theorem add_sound_iff (hupper : UppercaseStable) (h : store.Sound) :
    (store.add parseRbn now dx).1.Sound ↔ store.Admits dx := by
  obtain ⟨id, old, hold, hnear, hadd⟩ | ⟨hnone, hadd⟩ := add_cases parseRbn now hupper h.indexed
  · rw [hadd]
    constructor
    · intro hsound
      have hother : ∀ other, store.IsNear dx other → other = id := by
        rintro other ⟨spot, hspot, hcall, hclose⟩
        by_contra hne
        refine hne (hsound.separated other id spot (dxSpot parseRbn now dx id) ?_ ?_ hcall hclose)
        · exact (getElem?_insert_key _ _ _ _).trans ((if_neg (Ne.symm hne)).trans hspot)
        · exact (getElem?_insert_key _ _ _ _).trans (if_pos rfl)
      exact ⟨fun a b ha hb => (hother a ha).trans (hother b hb).symm,
        fun hnone => absurd hnear (hnone id)⟩
    · exact fun hadmits => moved_sound hupper h hold hnear fun other hother =>
        hadmits.unique other id hother hnear
  · rw [hadd]
    constructor
    · intro hsound
      refine ⟨fun a _ ha => absurd ha (hnone a), fun _ => ?_⟩
      by_contra htaken
      have hmem := (h.indexed.byTime (nextCounter store.nextId)).mpr
        (Option.isSome_iff_ne_none.mpr htaken)
      have hnodup : (store.idsByTime ++ [nextCounter store.nextId]).Nodup :=
        hsound.indexed.timeNodup
      exact (List.nodup_append.mp hnodup).2.2 _ hmem _ (List.mem_singleton_self _) rfl
    · exact fun hadmits => inserted_sound hupper h hnone (hadmits.free hnone)

end Add

section Remove

omit [Platform] in
theorem mem_callsignWithout (index : KeyMap (ExtTreeSet Nat)) (call other : String) (id id' : Nat) :
    id' ∈ (callsignWithout index call id)[other]?.getD ∅ ↔
      id' ∈ index[other]?.getD ∅ ∧ ¬(call = other ∧ id = id') := by
  rw [callsignWithout]
  split
  · next hnone =>
      refine ⟨fun hmem => ⟨hmem, fun hboth => ?_⟩, And.left⟩
      rw [← hboth.1, hnone] at hmem
      exact ExtTreeSet.not_mem_empty hmem
  · next ids hids =>
      by_cases hcall : call = other
      · subst hcall
        have hrest : id' ∈ ids.erase id ↔ id' ∈ ids ∧ ¬id = id' := by
          rw [ExtTreeSet.mem_erase, ne_eq, Std.compare_eq_iff_eq, and_comm]
        rw [hids, Option.getD_some]
        split
        · next hempty =>
            rw [ExtTreeMap.getElem?_erase_self, Option.getD_none]
            rw [ExtTreeSet.isEmpty_iff.mp hempty] at hrest
            simpa using hrest
        · rw [ExtTreeMap.getElem?_insert_self, Option.getD_some, hrest]
          simp
      · have hne : ¬compare call other = .eq := fun hc => hcall (Std.compare_eq_iff_eq.mp hc)
        have hsame : (if (ids.erase id).isEmpty then index.erase call
            else index.insert call (ids.erase id))[other]? = index[other]? := by
          split
          · rw [ExtTreeMap.getElem?_erase, if_neg hne]
          · rw [ExtTreeMap.getElem?_insert, if_neg hne]
        rw [hsame]
        simp [hcall]

omit [Platform] in
theorem callsignWithout_nonempty {index : KeyMap (ExtTreeSet Nat)}
    (h : ∀ call : String, index[call]? ≠ some ∅) (call other : String) (id : Nat) :
    (callsignWithout index call id)[other]? ≠ some ∅ := by
  rw [callsignWithout]
  split
  · exact h other
  · next ids hids =>
      split
      · rw [ExtTreeMap.getElem?_erase]
        split
        · simp
        · exact h other
      · next hne =>
          rw [ExtTreeMap.getElem?_insert]
          split
          · exact fun hempty => hne (ExtTreeSet.isEmpty_iff.mpr (Option.some.inj hempty))
          · exact h other

variable {store : DxClusterSpotStore}

/-- The oldest spot leaves every index. -/
theorem removeById_sound {id : Nat} {ids : List Nat}
    (h : Sound { store with idsByTime := id :: ids }) :
    Sound { store.removeById id with idsByTime := ids } := by
  obtain ⟨hnew, hnodup⟩ := List.nodup_cons.mp h.indexed.timeNodup
  have htime : ∀ other : Nat, other ∈ id :: ids ↔ (store.spotsById[other]?).isSome :=
    h.indexed.byTime
  obtain ⟨spot, hspot⟩ := Option.isSome_iff_exists.mp ((htime id).mp List.mem_cons_self)
  have hremoved : { store.removeById id with idsByTime := ids } =
      { store with
        spotsById := store.spotsById.erase id
        idsByTime := ids
        idsByCallsign := callsignWithout store.idsByCallsign spot.callDx id
        idsByDedupeKey := erase store.idsByDedupeKey spot.key } := by
    rw [removeById, hspot]
  rw [hremoved]
  have hstored : ∀ other : Nat, (store.spotsById.erase id)[other]? =
      if id = other then none else store.spotsById[other]? := fun other => getElem?_erase_key _ _ _
  have hkept : ∀ {other : Nat} {found : DxClusterSpot},
      (store.spotsById.erase id)[other]? = some found →
        id ≠ other ∧ store.spotsById[other]? = some found := by
    intro other found hfound
    rw [hstored] at hfound
    split at hfound
    · cases hfound
    · next hne => exact ⟨hne, hfound⟩
  refine ⟨⟨fun other found hfound => h.indexed.ids other found (hkept hfound).2,
    fun other found hfound => h.indexed.canonical other found (hkept hfound).2, hnodup,
    fun other => ?_, fun call other => ?_,
    fun call => callsignWithout_nonempty h.indexed.callsignNonempty spot.callDx call id,
    fun key other => ?_⟩,
    fun a b spot spot' ha hb hcalls hclose =>
      h.separated a b spot spot' (hkept ha).2 (hkept hb).2 hcalls hclose⟩
  · rw [hstored]
    by_cases heq : id = other
    · subst heq
      simpa using hnew
    · rw [if_neg heq, ← htime, List.mem_cons]
      exact ⟨.inr, fun hmem => hmem.resolve_left (Ne.symm heq)⟩
  · rw [mem_callsignWithout]
    constructor
    · rintro ⟨hmem, hother⟩
      obtain ⟨found, hfound, hcall⟩ := (h.indexed.byCallsign call other).mp hmem
      refine ⟨found, (hstored other).trans ((if_neg fun heq => hother ⟨?_, heq⟩).trans hfound),
        hcall⟩
      subst heq
      rw [Option.some.inj (hspot.symm.trans hfound), hcall]
    · rintro ⟨found, hfound, hcall⟩
      exact ⟨(h.indexed.byCallsign call other).mpr ⟨found, (hkept hfound).2, hcall⟩,
        fun hboth => (hkept hfound).1 hboth.2⟩
  · rw [get?_erase]
    constructor
    · intro hget
      split at hget
      · cases hget
      · next hne =>
          obtain ⟨found, hfound, hkey⟩ := (h.indexed.byDedupeKey key other).mp hget
          refine ⟨found, (hstored other).trans ((if_neg fun heq => hne ?_).trans hfound), hkey⟩
          subst heq
          rw [Option.some.inj (hspot.symm.trans hfound), hkey]
    · rintro ⟨found, hfound, hkey⟩
      rw [if_neg]
      · exact (h.indexed.byDedupeKey key other).mpr ⟨found, (hkept hfound).2, hkey⟩
      · exact fun hc => (hkept hfound).1 (h.eq_of_key hspot (hkept hfound).2 (hc.trans hkey.symm))

theorem pruneLoop_sound (cutoff : Nat) (ids : List Nat)
    (h : Sound { store with idsByTime := ids }) : (pruneLoop cutoff store ids).1.Sound := by
  induction ids generalizing store with
  | nil => exact h
  | cons id ids ih =>
      have htime : id ∈ id :: ids ↔ (store.spotsById[id]?).isSome := h.indexed.byTime id
      obtain ⟨spot, hspot⟩ := Option.isSome_iff_exists.mp (htime.mp List.mem_cons_self)
      rw [pruneLoop, hspot]
      simp only
      split
      · exact h
      · exact ih (removeById_sound h)

theorem clear_sound (store : DxClusterSpotStore) : store.clear.1.Sound where
  indexed :=
    { ids := by simp [clear]
      canonical := by simp [clear]
      timeNodup := List.nodup_nil
      byTime := by simp [clear]
      byCallsign := by simp [clear]
      callsignNonempty := by simp [clear]
      byDedupeKey := by simp [clear] }
  separated := by simp [clear, Separated]

end Remove

end DxClusterSpotStore

/-- What happens to the store: spots arrive, old ones are pruned, all are cleared. -/
inductive DxClusterOp where
  | add (now : Nat) (dx : Dx)
  | prune (now maxAge : Nat)
  | clear

namespace DxClusterSpotStore

variable (parseRbn : String → Option DxClusterRbnSpot)

def step (store : DxClusterSpotStore) : DxClusterOp → DxClusterSpotStore
  | .add now dx => (store.add parseRbn now dx).1
  | .prune now maxAge => (store.prune now maxAge).1
  | .clear => store.clear.1

/-- The condition on one step. -/
def StepAdmitted (store : DxClusterSpotStore) : DxClusterOp → Prop
  | .add _ dx => store.Admits dx
  | .prune _ _ => True
  | .clear => True

/-- Every step of a run is admitted where it is taken. -/
def Admitted : DxClusterSpotStore → List DxClusterOp → Prop
  | _, [] => True
  | store, op :: ops => store.StepAdmitted op ∧ Admitted (store.step parseRbn op) ops

/-- Every state of a run is sound. -/
def StaysSound : DxClusterSpotStore → List DxClusterOp → Prop
  | store, [] => store.Sound
  | store, op :: ops => store.Sound ∧ StaysSound (store.step parseRbn op) ops

theorem step_sound_iff (hupper : UppercaseStable) {store : DxClusterSpotStore} (h : store.Sound)
    (op : DxClusterOp) : (store.step parseRbn op).Sound ↔ store.StepAdmitted op := by
  cases op with
  | add now dx => exact add_sound_iff hupper h
  | prune now maxAge => exact iff_of_true (pruneLoop_sound _ _ h) trivial
  | clear => exact iff_of_true (clear_sound store) trivial

theorem StaysSound.sound {store : DxClusterSpotStore} {ops : List DxClusterOp}
    (h : store.StaysSound parseRbn ops) : store.Sound := by
  cases ops with
  | nil => exact h
  | cons op ops => exact h.1

theorem staysSound_iff (hupper : UppercaseStable) {store : DxClusterSpotStore} (h : store.Sound)
    (ops : List DxClusterOp) : store.StaysSound parseRbn ops ↔ store.Admitted parseRbn ops := by
  induction ops generalizing store with
  | nil => exact iff_of_true h trivial
  | cons op ops ih =>
      constructor
      · intro hstays
        have hstep := (step_sound_iff parseRbn hupper h op).mp hstays.2.sound
        exact ⟨hstep, (ih hstays.2.sound).mp hstays.2⟩
      · intro hadmitted
        have hsound := (step_sound_iff parseRbn hupper h op).mpr hadmitted.1
        exact ⟨h, (ih hsound).mpr hadmitted.2⟩

/-- From an empty store, the indexes agree and the spots stay apart in every state of a run
exactly when every new spot of the run is near one stored spot at most. -/
theorem dedupe_iff_admitted (hupper : UppercaseStable) (ops : List DxClusterOp) :
    StaysSound parseRbn {} ops ↔ Admitted parseRbn {} ops :=
  staysSound_iff parseRbn hupper (clear_sound {}) ops

end DxClusterSpotStore

end Log73

namespace Log73

attribute [local instance] asciiPlatform

theorem uppercaseStable_ascii : UppercaseStable := by
  intro s
  have hupper : ∀ c, upperChar c = [if c.toNat < 128 then c.toUpper else c] := by
    intro c
    rw [upperChar]
    split <;> rfl
  have hidem : ∀ c : Char, (if (if c.toNat < 128 then c.toUpper else c).toNat < 128 then
      (if c.toNat < 128 then c.toUpper else c).toUpper
      else if c.toNat < 128 then c.toUpper else c) =
      if c.toNat < 128 then c.toUpper else c := by
    intro c
    by_cases hascii : c.toNat < 128
    · simp only [if_pos hascii, toUpper_toUpper, ite_self]
    · simp only [if_neg hascii]
  simp only [toUppercase, String.toList_ofList, funext hupper, ← List.map_eq_flatMap, List.map_map]
  congr 1
  exact List.map_congr_left fun c _ => hidem c

namespace DxClusterSpotStore

/-- A message on a callsign. -/
def heard (frequencyHz : Nat) : Dx where
  callDe := "W3LPL"
  callDx := "K1ABC"
  freq := frequencyHz
  utc := 1200
  loc := none
  comment := none

/-- Two spots two steps apart, then one between them. -/
def crowding : List DxClusterOp :=
  [.add 100 (heard 14000000), .add 101 (heard 14000200), .add 102 (heard 14000100)]

/-- Two spots that are apart, and the first is heard again. -/
def apart : List DxClusterOp :=
  [.add 100 (heard 14000000), .add 101 (heard 14000200), .add 102 (heard 13999900),
    .prune 200 30]

theorem dedupe_iff_admitted_apart :
    StaysSound (fun _ => none) {} apart ↔ Admitted (fun _ => none) {} apart :=
  dedupe_iff_admitted (fun _ => none) uppercaseStable_ascii apart

/-- The spot between is taken for the first one, which comes next to the second. -/
theorem not_staysSound_crowding : ¬StaysSound (fun _ => none) {} crowding := by
  intro hstays
  have hsound := hstays.2.2.2
  have hclose := hsound.separated 1 2 (dxSpot (fun _ => none) 102 (heard 14000100) 1)
    (dxSpot (fun _ => none) 101 (heard 14000200) 2)
    (by decide +kernel) (by decide +kernel) (by decide +kernel) (by decide +kernel)
  exact absurd hclose (by decide)

end DxClusterSpotStore

end Log73
