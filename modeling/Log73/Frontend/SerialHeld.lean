import Log73.Frontend.SerialAllocator
import Log73.Library.Slices

/-!
Where the serials of one page are: in its storage, with its active manager, on their way to it, or
consumed; and never in two of the last three.
-/

namespace Log73.Frontend

open SortedAssoc
open Slices (pairwise_set mem_set)

variable [Browser]

/-- The answer is a reservation, and is read as this serial. -/
def AllocatorRequest.Brings (request : AllocatorRequest) (serial : Int) : Prop :=
  request.call = .reservation ∧ ∃ allocation, request.answer = some (.reserved allocation) ∧
    positiveInteger (some (.ofInt allocation.serial)) = some serial

namespace SerialClient

/-- The serials of a page, among those that were handed out to it; with those that are finished
consumed. -/
structure Sound (client : SerialClient) (handed finished : AllocatorKey → Int → Prop) : Prop where
  stored : ∀ key serial, get? client.storage key = some serial →
    handed key serial ∧ (key, serial) ∉ client.consumed
  held : ∀ key serial, client.next = some (key, serial) →
    handed key serial ∧ (key, serial) ∉ client.consumed
  consumed : ∀ key serial, (key, serial) ∈ client.consumed → handed key serial
  answered : ∀ request ∈ client.requests, ∀ serial, request.Brings serial →
    handed request.key serial ∧ (request.key, serial) ∉ client.consumed ∧
      get? client.storage request.key ≠ some serial ∧ client.next ≠ some (request.key, serial)
  apart : client.requests.Pairwise fun request other => ∀ serial,
    request.Brings serial → other.key = request.key → ¬ other.Brings serial
  keyed : ∀ request ∈ client.requests,
    (client.managers.map Manager.key)[request.manager]? = some request.key
  done : ∀ key serial, finished key serial → (key, serial) ∈ client.consumed

variable {client client' : SerialClient} {handed handed' finished : AllocatorKey → Int → Prop}

theorem sound_empty : Sound {} handed fun _ _ => False where
  stored _ _ h := nomatch h
  held _ _ h := nomatch h
  consumed _ _ h := nomatch h
  answered _ h := nomatch h
  apart := .nil
  keyed _ h := nomatch h
  done _ _ h := h.elim

theorem Sound.mono (h : client.Sound handed finished) (himp : ∀ key serial, handed key serial →
    handed' key serial) : client.Sound handed' finished where
  stored key serial hget := (h.stored key serial hget).imp_left (himp key serial)
  held key serial hnext := (h.held key serial hnext).imp_left (himp key serial)
  consumed key serial hmem := himp key serial (h.consumed key serial hmem)
  answered request hmem serial hbrings :=
    (h.answered request hmem serial hbrings).imp_left (himp request.key serial)
  apart := h.apart
  keyed := h.keyed
  done := h.done

/-- What was consumed is finished. -/
theorem Sound.finish (h : client.Sound handed finished) {finished' : AllocatorKey → Int → Prop}
    (hdone : ∀ key serial, finished' key serial →
      finished key serial ∨ (key, serial) ∈ client.consumed) : client.Sound handed finished' :=
  { h with done := fun key serial hfinished =>
    (hdone key serial hfinished).elim (h.done key serial) id }

/-- What is stored and held was stored or held before, and the answers are among those before. -/
theorem Sound.of_less (h : client.Sound handed finished)
    (hstored : ∀ key serial, get? client'.storage key = some serial →
      get? client.storage key = some serial)
    (hnext : ∀ key serial, client'.next = some (key, serial) →
      client.next = some (key, serial) ∨ get? client.storage key = some serial)
    (hrequests : client'.requests.Sublist client.requests)
    (hconsumed : client'.consumed = client.consumed)
    (hkeyed : ∀ request ∈ client'.requests,
      (client'.managers.map Manager.key)[request.manager]? = some request.key) :
    client'.Sound handed finished where
  stored key serial hget := by
    rw [hconsumed]
    exact h.stored key serial (hstored key serial hget)
  held key serial hheld := by
    rw [hconsumed]
    exact (hnext key serial hheld).elim (h.held key serial) (h.stored key serial)
  consumed := hconsumed ▸ h.consumed
  answered request hmem serial hbrings := by
    obtain ⟨hhanded, hnot, hout, hfree⟩ :=
      h.answered request (hrequests.subset hmem) serial hbrings
    rw [hconsumed]
    refine ⟨hhanded, hnot, fun hget => hout (hstored _ _ hget), fun hheld => ?_⟩
    exact (hnext _ _ hheld).elim hfree hout
  apart := h.apart.sublist hrequests
  keyed := hkeyed
  done := hconsumed ▸ h.done

omit [Browser] in
theorem keys_modifyManager (client : SerialClient) (index : Nat) {change : Manager → Manager}
    (hkey : ∀ manager, (change manager).key = manager.key) :
    (client.modifyManager index change).managers.map Manager.key =
      client.managers.map Manager.key := by
  refine List.ext_getElem? fun place => ?_
  rw [List.getElem?_map, List.getElem?_map, modifyManager, List.getElem?_modify]
  cases client.managers[place]? with
  | none => rfl
  | some manager =>
      split
      · exact congrArg some (hkey manager)
      · rfl

omit [Browser] in
/-- The serial that is held after a manager changed. -/
theorem next_modifyManager (client : SerialClient) (index : Nat) (change : Manager → Manager) :
    (client.modifyManager index change).next =
      if client.active = some index then client.managers[index]?.bind fun manager =>
        (change manager).held
      else client.next := by
  rw [next, next, modifyManager]
  cases hactive : client.active with
  | none => rfl
  | some other =>
      simp only [Option.bind_some, List.getElem?_modify]
      split
      · next hsame =>
          rw [hsame, if_pos rfl]
          cases client.managers[other]? with
          | none => rfl
          | some manager => rfl
      · next hne =>
          rw [if_neg fun hsame => hne (Option.some.inj hsame).symm]
          cases client.managers[other]? with
          | none => rfl
          | some manager => rfl

/-- A manager that changes holds what it held, or what is stored. -/
theorem Sound.modifyManager (h : client.Sound handed finished)
    (index : Nat) {change : Manager → Manager}
    (hkey : ∀ manager, (change manager).key = manager.key)
    (hchange : client.active = some index → ∀ manager, client.managers[index]? = some manager →
      ∀ key serial, (change manager).held = some (key, serial) →
        manager.held = some (key, serial) ∨ get? client.storage key = some serial) :
    (client.modifyManager index change).Sound handed finished := by
  refine h.of_less (fun _ _ hget => hget) (fun key serial hnext => ?_) (.refl _) rfl ?_
  · rw [next_modifyManager] at hnext
    split at hnext
    · next hactive =>
        obtain ⟨manager, hget, hheld⟩ := Option.bind_eq_some_iff.mp hnext
        refine (hchange hactive manager hget key serial hheld).imp_left fun hbefore => ?_
        rw [next, hactive, Option.bind_some, hget, Option.bind_some]
        exact hbefore
    · exact Or.inl hnext
  · rw [keys_modifyManager client index hkey]
    exact h.keyed

/-- A change that leaves the state of the manager as it is. -/
theorem Sound.modifyManager_same (h : client.Sound handed finished) (index : Nat)
    (change : Manager → Manager)
    (hkey : ∀ manager, (change manager).key = manager.key)
    (hsame : ∀ manager, (change manager).held = manager.held) :
    (client.modifyManager index change).Sound handed finished :=
  h.modifyManager index hkey fun _ manager _ _ _ hheld => Or.inl (hsame manager ▸ hheld)

theorem Sound.persistNone (h : client.Sound handed finished) (key : AllocatorKey) :
    (client.persistUnused key none).Sound handed finished := by
  refine h.of_less (fun other serial hget => ?_) (fun _ _ => Or.inl) (.refl _) rfl h.keyed
  rw [persistUnused, Option.elim_none, get?_erase] at hget
  split at hget
  · cases hget
  · exact hget

theorem Sound.dropRequest (h : client.Sound handed finished) (place : Nat) :
    (client.dropRequest place).Sound handed finished :=
  h.of_less (fun _ _ hget => hget) (fun _ _ => Or.inl) (List.eraseIdx_sublist _ _) rfl
    fun request hmem => h.keyed request ((List.eraseIdx_sublist _ _).subset hmem)

/-- A request that was not answered brings nothing. -/
theorem Sound.request (h : client.Sound handed finished) (index : Nat) (call : AllocatorCall) :
    (client.request index call).Sound handed finished := by
  rw [SerialClient.request]
  split
  · exact h
  · next manager hget =>
      split
      · exact h
      · have hmodified := h.modifyManager_same index (fun manager =>
          { manager with retry := none, requestInFlight := true }) (fun _ => rfl) fun _ => rfl
        have hnothing : ∀ {serial}, ¬ AllocatorRequest.Brings
            { manager := index, call := call, key := manager.key } serial := by
          rintro serial ⟨-, allocation, hanswer, -⟩
          cases hanswer
        refine ⟨hmodified.stored, hmodified.held, hmodified.consumed,
          fun request hmem serial hbrings => ?_, ?_, fun request hmem => ?_, hmodified.done⟩
        · cases List.mem_append.mp hmem with
          | inl hold => exact hmodified.answered request hold serial hbrings
          | inr hnew =>
              rw [List.mem_singleton.mp hnew] at hbrings
              exact absurd hbrings hnothing
        · refine List.pairwise_append.mpr
            ⟨hmodified.apart, List.pairwise_singleton _ _, fun request _ other hother _ _ _ => ?_⟩
          rw [List.mem_singleton.mp hother]
          exact hnothing
        · cases List.mem_append.mp hmem with
          | inl hold => exact hmodified.keyed request hold
          | inr hnew =>
              rw [List.mem_singleton.mp hnew]
              change ((client.modifyManager index _).managers.map Manager.key)[index]? = _
              rw [keys_modifyManager, List.getElem?_map, hget]
              · rfl
              · exact fun _ => rfl

omit [Browser] in
theorem consumed_request (client : SerialClient) (index : Nat) (call : AllocatorCall) :
    (client.request index call).consumed = client.consumed := by
  rw [SerialClient.request]
  split
  · rfl
  · split
    · rfl
    · rfl

theorem Sound.scheduleRetry (h : client.Sound handed finished) (index : Nat)
    (call : AllocatorCall) :
    (client.scheduleRetry index call).Sound handed finished := by
  rw [SerialClient.scheduleRetry]
  split
  · exact h
  · exact h.modifyManager_same index _ (fun _ => rfl) fun _ => rfl

omit [Browser] in
/-- What the active manager holds. -/
theorem next_of_active {index : Nat} {manager : Manager} (hactive : client.active = some index)
    (hget : client.managers[index]? = some manager) : client.next = manager.held := by
  rw [next, hactive, Option.bind_some, hget, Option.bind_some]

omit [Browser] in
theorem next_modifyManager_none (client : SerialClient) {index : Nat} {change : Manager → Manager}
    (hactive : client.active = some index) (hnone : ∀ manager, (change manager).held = none) :
    (client.modifyManager index change).next = none := by
  rw [next_modifyManager, if_pos hactive]
  cases client.managers[index]? with
  | none => rfl
  | some manager => exact hnone manager

omit [Browser] in
theorem held_next_none (manager : Manager) (state : AllocatorState) :
    Manager.held { manager with state := some { state with next := none } } = none := by
  refine Option.eq_none_iff_forall_ne_some.mpr fun ⟨key, serial⟩ hheld => ?_
  obtain ⟨other, hother, -, hserial, -⟩ := Manager.held_eq_some.mp hheld
  obtain rfl := Option.some.inj hother
  cases (currentSerial_eq_some.mp hserial).2.1

/-- The serial of the active manager is consumed, its storage is cleared, and it holds none. -/
theorem Sound.giveUp (h : client.Sound handed finished) {index : Nat} {manager : Manager}
    {state : AllocatorState} (hget : client.managers[index]? = some manager)
    (hstate : manager.state = some state) (hrequired : state.reservationRequired) :
    (((client.consume index manager.key state).persistUnused manager.key none).modifyManager index
      fun manager => { manager with state := some { state with next := none } }).Sound handed
        finished := by
  by_cases hactive : client.active = some index
  · have hheld : client.next = (currentSerial state).map fun serial => (manager.key, serial) := by
      rw [next_of_active hactive hget, Manager.held, hstate, Option.filter_some, if_pos hrequired,
        Option.bind_some]
    have hconsumed : ∀ {entry}, entry ∈
        client.consumed ++ ((currentSerial state).map fun serial => (manager.key, serial)).toList ↔
          entry ∈ client.consumed ∨ client.next = some entry := by
      intro entry
      rw [List.mem_append, Option.mem_toList, hheld]
    have hstored : ∀ {key serial}, get? (erase client.storage manager.key) key = some serial →
        manager.key ≠ key ∧ get? client.storage key = some serial := by
      intro key serial hstored
      rw [get?_erase] at hstored
      split at hstored
      · cases hstored
      · next hne => exact ⟨hne, hstored⟩
    have hnone : ∀ held, (((client.consume index manager.key state).persistUnused manager.key
        none).modifyManager index fun manager =>
          { manager with state := some { state with next := none } }).next ≠ some held := by
      intro held hnext
      rw [next_modifyManager_none _ ?_ fun manager => held_next_none manager state] at hnext
      · cases hnext
      · rw [consume, if_pos hactive]
        exact hactive
    rw [consume, if_pos hactive] at hnone ⊢
    refine ⟨fun key serial hget => ?_, fun key serial hnext => absurd hnext (hnone _),
      fun key serial hmem => ?_, fun request hmem serial hbrings => ?_, h.apart, ?_,
      fun key serial hfinished => hconsumed.mpr (Or.inl (h.done key serial hfinished))⟩
    · obtain ⟨hne, hbefore⟩ := hstored hget
      obtain ⟨hhanded, hnot⟩ := h.stored key serial hbefore
      refine ⟨hhanded, fun hmem => ?_⟩
      cases hconsumed.mp hmem with
      | inl hold => exact hnot hold
      | inr hnext =>
          rw [hheld] at hnext
          obtain ⟨_, _, hentry⟩ := Option.map_eq_some_iff.mp hnext
          exact hne (congrArg Prod.fst hentry)
    · exact (hconsumed.mp hmem).elim (h.consumed key serial) fun hnext =>
        (h.held key serial hnext).1
    · obtain ⟨hhanded, hnot, hout, hfree⟩ := h.answered request hmem serial hbrings
      refine ⟨hhanded, fun hin => ?_, fun hget => hout (hstored hget).2, hnone _⟩
      exact (hconsumed.mp hin).elim hnot hfree
    · rw [keys_modifyManager]
      · exact h.keyed
      · exact fun _ => rfl
  · rw [consume, if_neg hactive]
    exact (h.persistNone manager.key).modifyManager index (fun _ => rfl)
      fun hthis => absurd hthis hactive

theorem Sound.observeContact (h : client.Sound handed finished) (index : Nat) (adif : Map) :
    (client.observeContact index adif).Sound handed finished := by
  rw [SerialClient.observeContact]
  split
  · exact h
  · next manager hget =>
      split
      · exact h.modifyManager_same index _ (fun _ => rfl) fun _ => rfl
      · split
        · exact h
        · next state hstate =>
            split
            · exact h
            · next nextState hafter =>
                split
                · next hrequired =>
                    exact (h.giveUp hget hstate hrequired).request index .reservation
                · next hnot =>
                    refine h.modifyManager index (fun _ => rfl) fun _ found hfound key
                      serial hheld => ?_
                    have hnext : nextState.reservationRequired = state.reservationRequired := by
                      rw [serialStateAfterContact] at hafter
                      split at hafter
                      · cases hafter
                      · obtain ⟨serial, -, hafter⟩ := Option.bind_eq_some_iff.mp hafter
                        split at hafter
                        · cases hafter
                        · obtain rfl := Option.some.inj hafter
                          rfl
                    obtain ⟨held, hstate, hrequired, -⟩ := Manager.held_eq_some.mp hheld
                    obtain rfl := Option.some.inj hstate
                    rw [hnext] at hrequired
                    exact absurd hrequired hnot

theorem Sound.settleInitialization (h : client.Sound handed finished) (index : Nat) :
    (client.settleInitialization index).Sound handed finished := by
  have hsettled := h.modifyManager_same index
    (fun manager => { manager with requestInFlight := false }) (fun _ => rfl) fun _ => rfl
  rw [SerialClient.settleInitialization]
  split
  · exact hsettled
  · split
    · exact hsettled.request index .reservation
    · exact hsettled

/-- A manager that is set up holds what is stored, if serials are reserved. -/
theorem Sound.takeState (h : client.Sound handed finished) {index : Nat} {manager : Manager}
    (hget : client.managers[index]? = some manager) (backend : SerialState) :
    (client.takeState index manager backend).Sound handed finished := by
  rw [SerialClient.takeState]
  split
  · refine h.modifyManager index (fun _ => rfl) fun _ found hfound key serial hheld => Or.inr ?_
    rw [hget] at hfound
    obtain rfl := Option.some.inj hfound
    obtain ⟨state, hstate, -, hserial, rfl⟩ := Manager.held_eq_some.mp hheld
    obtain rfl := Option.some.inj hstate
    exact (Option.filter_eq_some_iff.mp (currentSerial_eq_some.mp hserial).2.1).1
  · next hnot =>
      refine Sound.persistNone ?_ manager.key
      refine h.modifyManager index (fun _ => rfl) fun _ found _ key serial hheld => ?_
      obtain ⟨state, hstate, hrequired, -⟩ := Manager.held_eq_some.mp hheld
      obtain rfl := Option.some.inj hstate
      exact absurd hrequired hnot

theorem Sound.observeAll (h : client.Sound handed finished) (index : Nat) (contacts : List Map) :
    (contacts.foldl (fun client adif => client.observeContact index adif) client).Sound handed
      finished := by
  induction contacts generalizing client with
  | nil => exact h
  | cons adif contacts ih => exact ih (h.observeContact index adif)

theorem Sound.initialized (h : client.Sound handed finished) (index : Nat) (backend : SerialState) :
    (client.initialized index backend).Sound handed finished := by
  rw [SerialClient.initialized]
  split
  · exact h
  · next manager hget =>
      refine Sound.settleInitialization ?_ index
      have htaken := (h.takeState hget backend).modifyManager_same index
        (fun manager => { manager with pendingContacts := [] }) (fun _ => rfl) fun _ => rfl
      exact htaken.observeAll index manager.pendingContacts

theorem Sound.reservationFailed (h : client.Sound handed finished) (index : Nat) :
    (client.reservationFailed index).Sound handed finished :=
  (h.scheduleRetry index .reservation).modifyManager_same index _ (fun _ => rfl) fun _ => rfl

theorem Sound.initializationFailed (h : client.Sound handed finished) (index : Nat) :
    (client.initializationFailed index).Sound handed finished :=
  (h.scheduleRetry index .initialization).settleInitialization index

theorem Sound.fail (h : client.Sound handed finished) (place : Nat) :
    (client.fail place).Sound handed finished := by
  rw [SerialClient.fail]
  split
  · exact h
  · next request _ =>
      split
      · exact (h.dropRequest place).reservationFailed request.manager
      · exact (h.dropRequest place).initializationFailed request.manager

/-- No other answer brings the serial that an answer brings. -/
theorem Sound.not_brings (h : client.Sound handed finished) {place : Nat}
    {request other : AllocatorRequest}
    {serial : Int} (hget : client.requests[place]? = some request) (hbrings : request.Brings serial)
    (hother : other ∈ client.requests.eraseIdx place) (hkey : other.key = request.key) :
    ¬ other.Brings serial := by
  obtain ⟨index, hne, hindex⟩ := List.mem_eraseIdx_iff_getElem?.mp hother
  obtain ⟨hlt, hrequest⟩ := List.getElem?_eq_some_iff.mp hget
  obtain ⟨hlt', hthis⟩ := List.getElem?_eq_some_iff.mp hindex
  have hpairs := List.pairwise_iff_getElem.mp h.apart
  rcases Nat.lt_or_gt_of_ne hne with hbefore | hafter
  · have happart := hpairs index place hlt' hlt hbefore serial
    rw [hthis, hrequest] at happart
    exact fun hbringsOther => happart hbringsOther hkey.symm hbrings
  · have happart := hpairs place index hlt hlt' hafter serial
    rw [hthis, hrequest] at happart
    exact happart hbrings hkey

omit [Browser] in
theorem next_reserved {request : AllocatorRequest}
    (hkey : (client.managers.map Manager.key)[request.manager]? = some request.key) (place : Nat)
    (serial : Int) (key : AllocatorKey) (found : Int)
    (hnext : ((client.dropRequest place).reserved request.manager request.key serial).next =
      some (key, found)) :
    key = request.key ∧ found = serial ∨ client.next = some (key, found) := by
  rw [reserved, next_modifyManager] at hnext
  split at hnext
  · next hactive =>
      obtain ⟨changed, hchanged, hheld⟩ := Option.bind_eq_some_iff.mp hnext
      have hmodified : (client.managers.modify request.manager fun manager =>
          { manager with
            state := manager.state.map fun state =>
              { state with next := some serial } })[request.manager]? =
          some changed := hchanged
      rw [List.getElem?_modify] at hmodified
      obtain ⟨manager, hmanager, hchange⟩ := Option.map_eq_some_iff.mp hmodified
      rw [List.getElem?_map, hmanager] at hkey
      rw [if_pos rfl] at hchange
      obtain rfl := hchange.symm
      obtain ⟨state, hstate, -, hserial, hmanagerKey⟩ := Manager.held_eq_some.mp hheld
      obtain ⟨before, -, rfl⟩ := Option.map_eq_some_iff.mp hstate
      refine Or.inl ⟨hmanagerKey.symm.trans (Option.some.inj hkey), ?_⟩
      exact (Option.some.inj (currentSerial_eq_some.mp hserial).2.1).symm
  · next hactive =>
      have hsame := next_modifyManager (client.dropRequest place) request.manager fun manager =>
        { manager with state := manager.state.map fun state => { state with next := some serial } }
      have hinactive : (client.dropRequest place).active ≠ some request.manager := hactive
      rw [if_neg hinactive] at hsame
      exact Or.inr (hsame.symm.trans hnext)

/-- A serial that comes is stored, and held where its manager is the active one. -/
theorem Sound.reserved (h : client.Sound handed finished) {place : Nat} {request : AllocatorRequest}
    {serial : Int} (hget : client.requests[place]? = some request)
    (hbrings : request.Brings serial) :
    ((client.dropRequest place).reserved request.manager request.key serial).Sound handed
      finished := by
  have hmem := List.mem_of_getElem? hget
  obtain ⟨hhanded, hnot, -, -⟩ := h.answered request hmem serial hbrings
  have hother : ∀ {other}, other ∈ client.requests.eraseIdx place → other ∈ client.requests :=
    fun hin => (List.eraseIdx_sublist _ _).subset hin
  have hnext := next_reserved (h.keyed request hmem) place serial
  have hstored : ∀ key, get? ((client.dropRequest place).reserved request.manager request.key
      serial).storage key = if request.key = key then some serial else get? client.storage key :=
    fun key => get?_put _ _ _ _
  refine ⟨fun key found hfound => ?_, fun key found hfound => ?_, h.consumed,
    fun other hin found hfound => ?_, h.apart.sublist (List.eraseIdx_sublist _ _), ?_, h.done⟩
  · rw [hstored] at hfound
    split at hfound
    · next hsame =>
        obtain rfl := Option.some.inj hfound
        exact hsame ▸ ⟨hhanded, hnot⟩
    · exact h.stored key found hfound
  · cases hnext key found hfound with
    | inl hthis =>
        obtain ⟨rfl, rfl⟩ := hthis
        exact ⟨hhanded, hnot⟩
    | inr hbefore => exact h.held key found hbefore
  · obtain ⟨hfoundHanded, hfoundNot, hout, hfree⟩ := h.answered other (hother hin) found hfound
    have hne : other.key = request.key → found ≠ serial := by
      rintro hkey rfl
      exact h.not_brings hget hbrings hin hkey hfound
    refine ⟨hfoundHanded, hfoundNot, fun hget => ?_, fun hheld => ?_⟩
    · rw [hstored] at hget
      split at hget
      · next hkey => exact hne hkey.symm (Option.some.inj hget).symm
      · exact hout hget
    · cases hnext _ _ hheld with
      | inl hthis => exact hne hthis.1 hthis.2
      | inr hbefore => exact hfree hbefore
  · intro other hin
    have hkeys : ((client.dropRequest place).reserved request.manager request.key
        serial).managers.map Manager.key = client.managers.map Manager.key := by
      rw [SerialClient.reserved, keys_modifyManager]
      · exact keys_modifyManager _ _ fun _ => rfl
      · exact fun _ => rfl
    rw [hkeys]
    exact h.keyed other (hother hin)

theorem Sound.respond (h : client.Sound handed finished) (place : Nat) :
    (client.respond place).Sound handed finished := by
  rw [SerialClient.respond]
  split
  · exact h
  · next request hget =>
      split
      · next allocation hcall hanswer =>
          split
          · next serial hserial => exact h.reserved hget ⟨hcall, allocation, hanswer, hserial⟩
          · exact h.fail place
      · exact (h.dropRequest place).initialized request.manager _
      · exact h.fail place
      · exact h

theorem Sound.openAllocator (h : client.Sound handed finished) (key : AllocatorKey) :
    (client.openAllocator key).Sound handed finished := by
  have hopened : SerialClient.Sound { client with
      managers := client.managers ++ [{ key := key }]
      active := some client.managers.length } handed finished := by
    refine h.of_less (fun _ _ hget => hget) (fun key serial hnext => ?_) (.refl _) rfl
      fun request hmem => ?_
    · rw [next, Option.bind_some, List.getElem?_append_right (Nat.le_refl _), Nat.sub_self] at hnext
      cases hnext
    · have hkey := h.keyed request hmem
      rw [List.map_append]
      rw [List.getElem?_append_left (List.getElem?_eq_some_iff.mp hkey).1]
      exact hkey
  exact hopened.request client.managers.length .initialization

theorem Sound.closeAllocator (h : client.Sound handed finished) :
    client.closeAllocator.Sound handed finished :=
  h.of_less (fun _ _ hget => hget) (fun _ _ hnext => nomatch hnext) (.refl _) rfl h.keyed

theorem Sound.reload (h : client.Sound handed finished) : client.reload.Sound handed finished :=
  h.of_less (fun _ _ hget => hget) (fun _ _ hnext => nomatch hnext) (List.nil_sublist _) rfl
    fun _ hmem => nomatch hmem

theorem Sound.onActive (h : client.Sound handed finished) {act : SerialClient → Nat → SerialClient}
    (hact : ∀ index, (act client index).Sound handed finished) :
    (client.onActive act).Sound handed finished := by
  rw [SerialClient.onActive]
  cases client.active with
  | none => exact h
  | some index => exact hact index

theorem Sound.runRetry (h : client.Sound handed finished) :
    client.runRetry.Sound handed finished := by
  refine h.onActive fun index => ?_
  split
  · exact h
  · next call _ =>
      exact (h.modifyManager_same index (fun manager => { manager with retry := none })
        (fun _ => rfl) fun _ => rfl).request index call

theorem Sound.act (h : client.Sound handed finished) (action : ClientAction) :
    (client.act action).Sound handed finished := by
  cases action with
  | openAllocator key => exact h.openAllocator key
  | closeAllocator => exact h.closeAllocator
  | reload => exact h.reload
  | refresh => exact h.onActive fun index => h.request index .initialization
  | retry => exact h.runRetry
  | observe adif =>
      rw [SerialClient.act]
      refine h.onActive fun index => ?_
      exact h.observeContact index adif
  | respond place => exact h.respond place
  | fail place => exact h.fail place

/-- A contact is logged with the serial that is held, which is consumed. -/
theorem loggedWith_spec {adif : Map} {key : AllocatorKey} {serial : Int}
    (hlogged : client.loggedWith adif = some (key, serial)) :
    client.next = some (key, serial) ∧ (key, serial) ∈ (client.act (.observe adif)).consumed := by
  rw [loggedWith] at hlogged
  obtain ⟨manager, hmanager, hlogged⟩ := Option.bind_eq_some_iff.mp hlogged
  obtain ⟨index, hactive, hget⟩ := Option.bind_eq_some_iff.mp hmanager
  obtain ⟨hheld, hreads⟩ := Option.filter_eq_some_iff.mp hlogged
  obtain ⟨state, hstate, hrequired, hserial, rfl⟩ := Manager.held_eq_some.mp hheld
  obtain ⟨hscope, hnext, hpos⟩ := currentSerial_eq_some.mp hserial
  rw [hstate, Option.any_some, Bool.and_eq_true, decide_eq_true_eq, Bool.not_eq_true'] at hreads
  refine ⟨(next_of_active hactive hget).trans hheld, ?_⟩
  have hafter : serialStateAfterContact state adif =
      some { state with next := some (toDouble (serial + 1)) } := by
    rw [serialStateAfterContact, if_neg (by simp [hreads.1, hscope]), hreads.2, Option.bind_some,
      hnext, Option.filter_some, if_pos (decide_eq_true hpos), Option.getD_some,
      if_neg (lt_irrefl serial)]
  have hobserved : client.act (.observe adif) = (((client.consume index manager.key
      state).persistUnused manager.key none).modifyManager index fun manager =>
        { manager with state := some { state with next := none } }).requestReservation index := by
    rw [act, onActive, hactive, Option.elim_some, observeContact, hget]
    dsimp only
    rw [Manager.initialized, hstate]
    dsimp only [Option.isSome_some, Bool.not_true]
    rw [hafter]
    dsimp only
    rw [if_pos hrequired]
    rfl
  have hconsumed : (client.act (.observe adif)).consumed =
      client.consumed ++ [(manager.key, serial)] := by
    rw [hobserved, requestReservation, consumed_request]
    change (client.consume index manager.key state).consumed = _
    rw [consume, if_pos hactive, hserial]
    rfl
  rw [hconsumed]
  exact List.mem_append_right _ (List.mem_singleton_self _)

/-- The server comes to an answer, which brings a serial that was not handed out before. -/
theorem Sound.answer (h : client.Sound handed finished) {place : Nat} {request : AllocatorRequest}
    (hget : client.requests[place]? = some request)
    (answer : AllocatorAnswer) (hkeeps : ∀ key serial, handed key serial → handed' key serial)
    (hbrings : ∀ serial, AllocatorRequest.Brings { request with answer := some answer } serial →
      handed' request.key serial ∧ ¬ handed request.key serial) :
    (client.answer place request answer).Sound handed' finished := by
  have hmem := List.mem_of_getElem? hget
  have hmono := h.mono hkeeps
  refine ⟨hmono.stored, hmono.held, hmono.consumed, fun other hother serial hserial => ?_, ?_,
    fun other hother => ?_, h.done⟩
  · obtain rfl | ⟨index, -, hindex⟩ := mem_set hother
    · obtain ⟨hnew, hfresh⟩ := hbrings serial hserial
      exact ⟨hnew, fun hin => hfresh (h.consumed _ _ hin), fun hin => hfresh (h.stored _ _ hin).1,
        fun hin => hfresh (h.held _ _ hin).1⟩
    · exact hmono.answered other (List.mem_of_getElem? hindex) serial hserial
  · refine pairwise_set h.apart hget (fun other hother _ serial hserial hkey hthis => ?_)
      fun other hother _ serial hthis hkey hserial => ?_
    · refine (hbrings serial hthis).2 ?_
      have hhanded := (h.answered other hother serial hserial).1
      rw [← hkey] at hhanded
      exact hhanded
    · refine (hbrings serial hthis).2 ?_
      have hhanded := (h.answered other hother serial hserial).1
      rw [hkey] at hhanded
      exact hhanded
  · obtain rfl | ⟨index, -, hindex⟩ := mem_set hother
    · exact h.keyed request hmem
    · exact h.keyed other (List.mem_of_getElem? hindex)

end SerialClient

end Log73.Frontend
