import Log73.ClientRadios.Registry

/-! The registry answers as the book of leases says, whatever was called before. -/

namespace Log73.ClientRadios

open Std (ExtTreeMap)

namespace LeaseBook

variable {book : LeaseBook} {now later : Nat} {radioId : Int64}
  {clientInstanceId leaseId : String} {lease : ClientRadioLease}

theorem current_eq_some :
    book.current now radioId = some lease ↔ book radioId = some lease ∧ now < lease.deadline := by
  simp [current, Option.filter_eq_some_iff]

theorem current_earlier (htime : now ≤ later) (hcurrent : book.current later radioId = some lease) :
    book.current now radioId = some lease := by
  obtain ⟨hlease, hlater⟩ := current_eq_some.mp hcurrent
  exact current_eq_some.mpr ⟨hlease, Nat.lt_of_le_of_lt htime hlater⟩

theorem Names.earlier (htime : now ≤ later) :
    book.Names later radioId clientInstanceId leaseId →
      book.Names now radioId clientInstanceId leaseId
  | ⟨deadline, hcurrent⟩ => ⟨deadline, current_earlier htime hcurrent⟩

theorem Holds.earlier (htime : now ≤ later) : book.Holds later leaseId → book.Holds now leaseId
  | ⟨radioId, clientInstanceId, hnames⟩ => ⟨radioId, clientInstanceId, hnames.earlier htime⟩

theorem names_iff :
    book.Names now radioId clientInstanceId leaseId ↔
      ∃ lease, book.current now radioId = some lease ∧
        lease.clientInstanceId = clientInstanceId ∧ lease.leaseId = leaseId := by
  constructor
  · rintro ⟨deadline, hcurrent⟩
    exact ⟨_, hcurrent, rfl, rfl⟩
  · rintro ⟨⟨_, _, deadline⟩, hcurrent, rfl, rfl⟩
    exact ⟨deadline, hcurrent⟩

end LeaseBook

/-- The lease id that a call gives. -/
def LeaseCall.given : LeaseCall → Option String
  | .register _ _ leaseId => some leaseId
  | _ => none

/-- A lease that is current after a call was so before, or the call has given it. -/
theorem LeaseBook.Holds.of_enter {book : LeaseBook} {now later : Nat} {call : LeaseCall}
    {leaseId : String} (htime : now ≤ later) (hholds : (book.enter now call).Holds later leaseId) :
    book.Holds now leaseId ∨ call.given = some leaseId := by
  obtain ⟨radioId, clientInstanceId, deadline, hcurrent⟩ := hholds
  obtain ⟨hlease, hlater⟩ := current_eq_some.mp hcurrent
  have hkept : book radioId = some ⟨clientInstanceId, leaseId, deadline⟩ →
      book.Holds now leaseId := fun hbook =>
    ⟨radioId, clientInstanceId, deadline,
      current_eq_some.mpr ⟨hbook, Nat.lt_of_le_of_lt htime hlater⟩⟩
  cases call with
  | register given client id =>
      rw [enter, Function.update_apply] at hlease
      split at hlease
      · cases hlease
        exact .inr rfl
      · exact .inl (hkept (Option.filter_eq_some_iff.mp hlease).1)
  | heartbeat given client id =>
      rw [enter] at hlease
      split at hlease
      · next hnames =>
          rw [Function.update_apply] at hlease
          split at hlease
          · cases hlease
            exact .inl ⟨given, _, hnames⟩
          · exact .inl (hkept hlease)
      · exact .inl (hkept hlease)
  | offline given client id =>
      rw [enter] at hlease
      split at hlease
      · rw [Function.update_apply] at hlease
        split at hlease
        · cases hlease
        · exact .inl (hkept hlease)
      · exact .inl (hkept hlease)
  | isOnline given => exact .inl (hkept hlease)
  | expire => exact .inl (hkept hlease)

/-- The lease ids that calls have given. -/
def givenIds (calls : List (Nat × LeaseCall)) : List String :=
  calls.filterMap fun call => call.2.given

/-- A lease that is not current comes back by being given again only. -/
theorem LeaseBook.Holds.of_foldl {book : LeaseBook} {now later : Nat} {leaseId : String}
    (calls : List (Nat × LeaseCall)) (htimes : (calls.map Prod.fst).Pairwise (· ≤ ·))
    (hnow : ∀ call ∈ calls, now ≤ call.1) (hlater : ∀ call ∈ calls, call.1 ≤ later)
    (htime : now ≤ later)
    (hholds : (calls.foldl (fun book call => book.enter call.1 call.2) book).Holds later leaseId) :
    book.Holds now leaseId ∨ leaseId ∈ givenIds calls := by
  induction calls generalizing book now with
  | nil => exact .inl (hholds.earlier htime)
  | cons call calls ih =>
      rw [List.map_cons, List.pairwise_cons] at htimes
      have hfirst : ∀ next ∈ calls, call.1 ≤ next.1 := fun next hnext =>
        htimes.1 _ (List.mem_map_of_mem hnext)
      obtain hheld | hgiven := ih htimes.2 hfirst
        (fun next hnext => hlater next (List.mem_cons_of_mem _ hnext))
        (hlater call List.mem_cons_self) hholds
      · obtain hheld | hgiven := hheld.of_enter (Nat.le_refl _)
        · exact .inl (hheld.earlier (hnow call List.mem_cons_self))
        · exact .inr (List.mem_filterMap.mpr ⟨call, List.mem_cons_self, hgiven⟩)
      · obtain ⟨next, hnext, hgiven⟩ := List.mem_filterMap.mp hgiven
        exact .inr (List.mem_filterMap.mpr ⟨next, List.mem_cons_of_mem _ hnext, hgiven⟩)

namespace ClientRadioRegistry

variable {leases : ClientRadioRegistry} {book : LeaseBook} {now later : Nat}

theorem getElem?_foldl_erase (leases : ClientRadioRegistry) (radioIds : List Int64)
    (radioId : Int64) :
    (radioIds.foldl ExtTreeMap.erase leases)[radioId]? =
      if radioId ∈ radioIds then none else leases[radioId]? := by
  induction radioIds generalizing leases with
  | nil => simp
  | cons erased radioIds ih =>
      rw [List.foldl_cons, ih, TreeMap.getElem?_erase_key]
      rcases eq_or_ne erased radioId with rfl | hne
      · simp
      · simp [hne, hne.symm]

theorem getElem?_expire (radioId : Int64) :
    (leases.expire now).1[radioId]? = leases[radioId]?.filter (now < ·.deadline) := by
  rw [expire, getElem?_foldl_erase]
  have hmem : radioId ∈ (leases.toList.filterMap fun entry =>
      if entry.2.deadline ≤ now then some entry.1 else none) ↔
        ∃ lease, leases[radioId]? = some lease ∧ lease.deadline ≤ now := by
    simp only [List.mem_filterMap, Option.ite_none_right_eq_some, Option.some.injEq]
    constructor
    · rintro ⟨⟨_, lease⟩, hentry, hover, rfl⟩
      exact ⟨lease, ExtTreeMap.mem_toList_iff_getElem?_eq_some.mp hentry, hover⟩
    · rintro ⟨lease, hlease, hover⟩
      exact ⟨(radioId, lease), ExtTreeMap.mem_toList_iff_getElem?_eq_some.mpr hlease, hover, rfl⟩
  rw [if_congr hmem rfl rfl]
  cases hlease : leases[radioId]? with
  | none => simp
  | some lease => by_cases hover : lease.deadline ≤ now <;> simp [Option.filter_some, hover]

/-- From now on the registry has the leases of the book that are not over. -/
def Reflects (leases : ClientRadioRegistry) (book : LeaseBook) (now : Nat) : Prop :=
  ∀ later, now ≤ later → ∀ radioId : Int64,
    leases[radioId]?.filter (later < ·.deadline) = book.current later radioId

theorem Reflects.at_later (hreflects : leases.Reflects book now) (htime : now ≤ later) :
    leases.Reflects book later :=
  fun time hlater => hreflects time (Nat.le_trans htime hlater)

/-- A lease that is over is as good as none. -/
theorem Reflects.erase (hreflects : leases.Reflects book now) {radioId : Int64}
    {lease : ClientRadioLease} (hlease : leases[radioId]? = some lease)
    (hover : lease.deadline ≤ now) :
    Reflects (leases.erase radioId) book now := by
  intro later hlater other
  rw [← hreflects later hlater other, TreeMap.getElem?_erase_key]
  split
  · next heq =>
      subst heq
      simp [hlease, Option.filter_some, Nat.le_trans hover hlater]
  · rfl

theorem Reflects.expire (hreflects : leases.Reflects book now) :
    (leases.expire now).1.Reflects book now := by
  intro later hlater radioId
  rw [← hreflects later hlater radioId, getElem?_expire, Option.filter_filter]
  congr 1
  funext lease
  have : later < lease.deadline → now < lease.deadline := Nat.lt_of_le_of_lt hlater
  grind

theorem Reflects.isOnline (hreflects : leases.Reflects book now) (radioId : Int64) :
    (leases.isOnline now radioId).1.Reflects book now ∧
      ((leases.isOnline now radioId).2 = true ↔
        ∃ lease, book.current now radioId = some lease) := by
  have hcurrent := hreflects now (Nat.le_refl _) radioId
  rw [ClientRadioRegistry.isOnline, ← hcurrent]
  cases hlease : leases[radioId]? with
  | none => exact ⟨hreflects, by simp⟩
  | some lease =>
      by_cases hover : now < lease.deadline
      · simpa [hover, Option.filter_some] using hreflects
      · simpa [hover, Option.filter_some] using hreflects.erase hlease (Nat.le_of_not_lt hover)

theorem Reflects.register (hreflects : leases.Reflects book now) (radioId : Int64)
    (clientInstanceId leaseId : String) :
    (leases.register now radioId clientInstanceId leaseId).Reflects
      (book.enter now (.register radioId clientInstanceId leaseId)) now := by
  intro later hlater other
  rw [ClientRadioRegistry.register, LeaseBook.enter, LeaseBook.current, Function.update_apply,
    TreeMap.getElem?_insert_key, ExtTreeMap.getElem?_filter']
  rcases eq_or_ne radioId other with rfl | hne
  · simp
  · have hkept := hreflects later hlater other
    rw [LeaseBook.current] at hkept
    rw [if_neg hne, if_neg hne.symm, Option.filter_filter, Option.filter_filter]
    simp only [Bool.and_comm (decide (ClientRadioLease.clientInstanceId _ ≠ _))]
    rw [← Option.filter_filter, hkept, Option.filter_filter]

theorem Reflects.insert (hreflects : leases.Reflects book now) (radioId : Int64)
    (lease : ClientRadioLease) :
    Reflects (leases.insert radioId lease) (Function.update book radioId (some lease)) now := by
  intro later hlater other
  rw [LeaseBook.current, Function.update_apply, TreeMap.getElem?_insert_key]
  rcases eq_or_ne radioId other with rfl | hne
  · simp
  · rw [if_neg hne, if_neg hne.symm]
    exact hreflects later hlater other

theorem Reflects.takeBack (hreflects : leases.Reflects book now) (radioId : Int64) :
    Reflects (leases.erase radioId) (Function.update book radioId none) now := by
  intro later hlater other
  rw [LeaseBook.current, Function.update_apply, TreeMap.getElem?_erase_key]
  rcases eq_or_ne radioId other with rfl | hne
  · simp
  · rw [if_neg hne, if_neg hne.symm]
    exact hreflects later hlater other

section OnLease

variable {radioId : Int64} {clientInstanceId leaseId : String}
  {granted : ClientRadioLease → ClientRadioRegistry} {settled : LeaseBook}

/-- A request is granted to the lease it names if that is the current one, and to no other. -/
theorem Reflects.onLease (hreflects : leases.Reflects book now)
    (hgranted : ∀ lease, lease.clientInstanceId = clientInstanceId → lease.leaseId = leaseId →
      (granted lease).Reflects settled now) :
    (leases.onLease now radioId clientInstanceId leaseId granted).1.Reflects
        (if book.Names now radioId clientInstanceId leaseId then settled else book) now ∧
      ((leases.onLease now radioId clientInstanceId leaseId granted).2 = .ok () ↔
        book.Names now radioId clientInstanceId leaseId) := by
  have hcurrent := hreflects now (Nat.le_refl _) radioId
  rw [ClientRadioRegistry.onLease]
  cases hlease : leases[radioId]? with
  | none =>
      have hnames : ¬book.Names now radioId clientInstanceId leaseId := by
        simp [LeaseBook.names_iff, ← hcurrent, hlease]
      simpa [hnames] using hreflects
  | some lease =>
      by_cases hover : lease.deadline ≤ now
      · have hnames : ¬book.Names now radioId clientInstanceId leaseId := by
          simp [LeaseBook.names_iff, ← hcurrent, hlease, Option.filter_some, Nat.not_lt.mpr hover]
        simpa [hnames, hover] using hreflects.erase hlease hover
      · have hnames : book.Names now radioId clientInstanceId leaseId ↔
            lease.clientInstanceId = clientInstanceId ∧ lease.leaseId = leaseId := by
          simp [LeaseBook.names_iff, ← hcurrent, hlease, Option.filter_some,
            Nat.lt_of_not_le hover]
        by_cases hsame : lease.clientInstanceId = clientInstanceId ∧ lease.leaseId = leaseId
        · simpa [hnames, hover, hsame] using hgranted lease hsame.1 hsame.2
        · have hother := not_and_or.mp hsame
          simpa [hnames, hover, hsame, hother] using hreflects

/-- The holder of the current lease prolongs it. -/
theorem Reflects.heartbeat (hreflects : leases.Reflects book now) :
    (leases.heartbeat now radioId clientInstanceId leaseId).1.Reflects
        (book.enter now (.heartbeat radioId clientInstanceId leaseId)) now ∧
      ((leases.heartbeat now radioId clientInstanceId leaseId).2 = .ok () ↔
        book.Names now radioId clientInstanceId leaseId) := by
  refine hreflects.onLease ?_
  rintro lease rfl rfl
  exact hreflects.insert radioId _

/-- The holder of the current lease gives it back. -/
theorem Reflects.offline (hreflects : leases.Reflects book now) :
    (leases.offline now radioId clientInstanceId leaseId).1.Reflects
        (book.enter now (.offline radioId clientInstanceId leaseId)) now ∧
      ((leases.offline now radioId clientInstanceId leaseId).2 = .ok () ↔
        book.Names now radioId clientInstanceId leaseId) :=
  hreflects.onLease fun _ _ _ => hreflects.takeBack radioId

end OnLease

/-- One call. -/
theorem Reflects.handle (hreflects : leases.Reflects book now) (call : LeaseCall) :
    (leases.handle now call).1.Reflects (book.enter now call) now := by
  cases call with
  | register radioId clientInstanceId leaseId =>
      exact hreflects.register radioId clientInstanceId leaseId
  | heartbeat radioId clientInstanceId leaseId => exact hreflects.heartbeat.1
  | offline radioId clientInstanceId leaseId => exact hreflects.offline.1
  | isOnline radioId => exact (hreflects.isOnline radioId).1
  | expire => exact hreflects.expire

/-- A run of calls at times that do not decrease. -/
theorem Reflects.foldl (hreflects : leases.Reflects book now) (calls : List (Nat × LeaseCall))
    (htimes : (calls.map Prod.fst).Pairwise (· ≤ ·)) (hnow : ∀ call ∈ calls, now ≤ call.1)
    (hlater : ∀ call ∈ calls, call.1 ≤ later) (htime : now ≤ later) :
    Reflects (calls.foldl (fun leases call => (leases.handle call.1 call.2).1) leases)
      (calls.foldl (fun book call => book.enter call.1 call.2) book) later := by
  induction calls generalizing leases book now with
  | nil => exact hreflects.at_later htime
  | cons call calls ih =>
      rw [List.map_cons, List.pairwise_cons] at htimes
      exact ih ((hreflects.at_later (hnow call List.mem_cons_self)).handle call.2) htimes.2
        (fun next hnext => htimes.1 _ (List.mem_map_of_mem hnext))
        (fun next hnext => hlater next (List.mem_cons_of_mem _ hnext))
        (hlater call List.mem_cons_self)

theorem reflects_run (calls : List (Nat × LeaseCall))
    (htimes : (calls.map Prod.fst).Pairwise (· ≤ ·)) (hlater : ∀ call ∈ calls, call.1 ≤ later) :
    (run ∅ calls).Reflects (LeaseBook.after calls) later :=
  have hempty : Reflects ∅ (fun _ => none) 0 := fun _ _ _ => by simp [LeaseBook.current]
  hempty.foldl calls htimes (fun _ _ => Nat.zero_le _) hlater (Nat.zero_le _)

/-- A client instance has at most one lease. -/
def OnePerClient (leases : ClientRadioRegistry) : Prop :=
  ∀ (radioId other : Int64) (lease lease' : ClientRadioLease), leases[radioId]? = some lease →
    leases[other]? = some lease' → lease.clientInstanceId = lease'.clientInstanceId →
      radioId = other

/-- Leases may go, and what stays keeps its client instance. -/
theorem OnePerClient.shrink {left : ClientRadioRegistry} (hone : leases.OnePerClient)
    (hkept : ∀ (radioId : Int64) lease, left[radioId]? = some lease →
      ∃ lease', leases[radioId]? = some lease' ∧
        lease'.clientInstanceId = lease.clientInstanceId) : left.OnePerClient := by
  intro radioId other lease lease' hlease hlease' hsame
  obtain ⟨was, hwas, hclient⟩ := hkept radioId lease hlease
  obtain ⟨was', hwas', hclient'⟩ := hkept other lease' hlease'
  exact hone radioId other was was' hwas hwas' (by rw [hclient, hclient', hsame])

theorem OnePerClient.erase (hone : leases.OnePerClient) (radioId : Int64) :
    OnePerClient (leases.erase radioId) := by
  refine hone.shrink fun other lease hlease => ⟨lease, ?_, rfl⟩
  rw [TreeMap.getElem?_erase_key] at hlease
  exact (Option.ite_none_left_eq_some.mp hlease).2

theorem OnePerClient.onLease (hone : leases.OnePerClient) {radioId : Int64}
    {clientInstanceId leaseId : String} {granted : ClientRadioLease → ClientRadioRegistry}
    (hgranted : ∀ lease, leases[radioId]? = some lease → (granted lease).OnePerClient) :
    (leases.onLease now radioId clientInstanceId leaseId granted).1.OnePerClient := by
  rw [ClientRadioRegistry.onLease]
  split
  · exact hone
  · next lease hlease =>
      split
      · exact hone.erase radioId
      · split
        · exact hone
        · exact hgranted lease hlease

theorem OnePerClient.handle (hone : leases.OnePerClient) (call : LeaseCall) :
    (leases.handle now call).1.OnePerClient := by
  cases call with
  | register given client id =>
      intro radioId other lease lease' hlease hlease' hsame
      simp only [ClientRadioRegistry.handle, register, TreeMap.getElem?_insert_key,
        ExtTreeMap.getElem?_filter'] at hlease hlease'
      grind [hone radioId other lease lease']
  | heartbeat given client id =>
      refine hone.onLease fun lease hlease => hone.shrink fun radioId new hnew => ?_
      rw [TreeMap.getElem?_insert_key] at hnew
      split at hnew
      · next heq =>
          cases heq
          cases hnew
          exact ⟨lease, hlease, rfl⟩
      · exact ⟨new, hnew, rfl⟩
  | offline given client id => exact hone.onLease fun _ _ => hone.erase given
  | isOnline given =>
      simp only [ClientRadioRegistry.handle, ClientRadioRegistry.isOnline]
      split
      · split
        · exact hone
        · exact hone.erase given
      · exact hone
  | expire =>
      refine hone.shrink fun radioId lease hlease => ⟨lease, ?_, rfl⟩
      rw [ClientRadioRegistry.handle, getElem?_expire] at hlease
      exact (Option.filter_eq_some_iff.mp hlease).1

theorem onePerClient_run (calls : List (Nat × LeaseCall)) : (run ∅ calls).OnePerClient := by
  have hempty : OnePerClient ∅ := fun _ _ _ _ hlease => by simp at hlease
  exact List.foldlRecOn calls _ hempty fun _ hone call _ => hone.handle call.2

end ClientRadioRegistry

open ClientRadioRegistry

/-- What the registry answers in a run, by the lease that each radio was given last. -/
structure LeasesKept (calls : List (Nat × LeaseCall)) : Prop where
  one_per_client : (run ∅ calls).OnePerClient
  heartbeat_iff : ∀ earlier now radioId clientInstanceId leaseId later,
    calls = earlier ++ (now, .heartbeat radioId clientInstanceId leaseId) :: later →
      (((run ∅ earlier).heartbeat now radioId clientInstanceId leaseId).2 = .ok () ↔
        (LeaseBook.after earlier).Names now radioId clientInstanceId leaseId)
  offline_iff : ∀ earlier now radioId clientInstanceId leaseId later,
    calls = earlier ++ (now, .offline radioId clientInstanceId leaseId) :: later →
      (((run ∅ earlier).offline now radioId clientInstanceId leaseId).2 = .ok () ↔
        (LeaseBook.after earlier).Names now radioId clientInstanceId leaseId)
  isOnline_iff : ∀ earlier now radioId later,
    calls = earlier ++ (now, .isOnline radioId) :: later →
      (((run ∅ earlier).isOnline now radioId).2 = true ↔
        ∃ lease, (LeaseBook.after earlier).current now radioId = some lease)
  /-- A lease id that was given and does not hold at some time names no lease from then on. -/
  retired : ∀ earlier time between now call later leaseId,
    calls = earlier ++ between ++ (now, call) :: later → leaseId ∈ givenIds earlier →
      (∀ before ∈ earlier, before.1 ≤ time) → (∀ next ∈ between, time ≤ next.1) → time ≤ now →
        ¬(LeaseBook.after earlier).Holds time leaseId → ∀ radioId clientInstanceId,
          ((run ∅ (earlier ++ between)).heartbeat now radioId clientInstanceId leaseId).2 ≠ .ok () ∧
          ((run ∅ (earlier ++ between)).offline now radioId clientInstanceId leaseId).2 ≠ .ok ()

theorem leases_kept (calls : List (Nat × LeaseCall))
    (htimes : (calls.map Prod.fst).Pairwise (· ≤ ·)) (hids : (givenIds calls).Nodup) :
    LeasesKept calls := by
  have hreflects : ∀ earlier now call later, calls = earlier ++ (now, call) :: later →
      (run ∅ earlier).Reflects (LeaseBook.after earlier) now := by
    rintro earlier now call later rfl
    rw [List.map_append, List.pairwise_append] at htimes
    exact reflects_run earlier htimes.1 fun before hbefore =>
      htimes.2.2 _ (List.mem_map_of_mem hbefore) _ List.mem_cons_self
  constructor
  case one_per_client => exact onePerClient_run calls
  case heartbeat_iff =>
    intro earlier now radioId clientInstanceId leaseId later hcalls
    exact (hreflects earlier now _ later hcalls).heartbeat.2
  case offline_iff =>
    intro earlier now radioId clientInstanceId leaseId later hcalls
    exact (hreflects earlier now _ later hcalls).offline.2
  case isOnline_iff =>
    intro earlier now radioId later hcalls
    exact ((hreflects earlier now _ later hcalls).isOnline radioId).2
  case retired =>
    intro earlier time between now call later leaseId hcalls hgiven hearlier hbetween htime
      hretired radioId clientInstanceId
    have hnow := hreflects (earlier ++ between) now call later hcalls
    have hnever : ¬(LeaseBook.after (earlier ++ between)).Names now radioId clientInstanceId
        leaseId := by
      intro hnames
      subst hcalls
      rw [List.map_append, List.map_append, List.pairwise_append, List.pairwise_append] at htimes
      have hbefore : ∀ next ∈ between, next.1 ≤ now := fun next hnext =>
        htimes.2.2 _ (List.mem_append_right _ (List.mem_map_of_mem hnext)) _ List.mem_cons_self
      have hholds : (LeaseBook.after (earlier ++ between)).Holds now leaseId :=
        ⟨radioId, clientInstanceId, hnames⟩
      rw [LeaseBook.after, List.foldl_append] at hholds
      obtain hheld | hagain := hholds.of_foldl between htimes.1.2.1 hbetween hbefore htime
      · exact hretired hheld
      · rw [givenIds, List.filterMap_append, List.filterMap_append, List.append_assoc] at hids
        exact (List.nodup_append.mp hids).2.2 _ hgiven _ (List.mem_append_left _ hagain) rfl
    exact ⟨mt hnow.heartbeat.2.mp hnever, mt hnow.offline.2.mp hnever⟩

/-- The second client takes over the radio of the first, whose late heartbeat comes too late. -/
theorem leases_kept_takeOver :
    LeasesKept [(0, .register 7 "a" "first"), (5, .register 7 "b" "second"),
      (6, .heartbeat 7 "a" "first"), (9, .isOnline 7)] :=
  leases_kept _ (by decide) (by decide)

end Log73.ClientRadios
