import Log73.Frontend.OutboxCommits

/-!
A contact is created once while every answer comes to the page that waits for it, and meets the
entry it is for: the client ids of the contacts without an id are distinct, and those that were
created are gone from them.
-/

namespace Log73.Frontend

open SortedAssoc
open Slices (mem_set mem_set_of_mem mem_eraseIdx_of_mem)

theorem nodup_of_subperm {α : Type} {l l' : List α} (h : l.Subperm l') (hnodup : l'.Nodup) :
    l.Nodup := by
  obtain ⟨between, hperm, hsublist⟩ := h
  exact hperm.nodup_iff.mp (hsublist.nodup hnodup)

namespace OutboxSystem

/-- The commit sends a contact without an id, under this client id. -/
def CommitRequest.Creates (request : CommitRequest) (clientId : String) : Prop :=
  request.contact.id = none ∧ request.contact.clientKey = some clientId

structure Once (system : OutboxSystem) : Prop where
  commits : system.Commits
  key : ∀ request ∈ system.requests, ∀ clientId, CommitRequest.Creates request clientId →
    request.key = .client clientId ∧ clientId ∈ system.logged
  unanswered : ∀ request ∈ system.requests, request.waiting → request.answer = none →
    ∀ clientId, CommitRequest.Creates request clientId → clientId ∉ system.created.map Prod.fst
  created : (system.created.map Prod.fst).Nodup
  known : ∀ clientId ∈ system.created.map Prod.fst, clientId ∈ system.logged
  entries : (localIds system.allContacts).Nodup
  logged : ∀ clientId ∈ localIds system.allContacts, clientId ∈ system.logged
  done : ∀ clientId ∈ system.created.map Prod.fst, clientId ∈ localIds system.allContacts →
    ∃ request ∈ system.requests, request.waiting ∧ request.answer.isSome ∧
      CommitRequest.Creates request clientId

variable {system system' : OutboxSystem}

/-- A step that only takes contacts without an id out of the list. -/
theorem Once.of_subperm (h : system.Once)
    (hlocal : (localIds system'.allContacts).Subperm (localIds system.allContacts))
    (hrequests : system'.requests = system.requests)
    (hcommitting : system'.committingContactIds = system.committingContactIds)
    (hlogged : ∀ clientId ∈ system.logged, clientId ∈ system'.logged)
    (hcreated : system'.created = system.created) : system'.Once where
  commits := h.commits.of_same hrequests hcommitting
  key request hmem clientId hcreates := by
    rw [hrequests] at hmem
    obtain ⟨hkey, hin⟩ := h.key request hmem clientId hcreates
    exact ⟨hkey, hlogged clientId hin⟩
  unanswered := by
    rw [hrequests, hcreated]
    exact h.unanswered
  created := hcreated ▸ h.created
  known clientId hmem := by
    rw [hcreated] at hmem
    exact hlogged clientId (h.known clientId hmem)
  entries := nodup_of_subperm hlocal h.entries
  logged clientId hmem := hlogged clientId (h.logged clientId (hlocal.subset hmem))
  done clientId hmem hlocal' := by
    rw [hcreated] at hmem
    rw [hrequests]
    exact h.done clientId hmem (hlocal.subset hlocal')

/-- A contact that is logged for the first time. -/
theorem Once.append (h : system.Once) {contact : OutboxContact} {clientId : String}
    (hcontact : Loggable contact) (hkey : contact.clientKey = some clientId)
    (hnew : clientId ∉ system.logged)
    (hcontacts : system'.allContacts = sortContacts (system.allContacts ++ [contact]))
    (hrequests : system'.requests = system.requests)
    (hcommitting : system'.committingContactIds = system.committingContactIds)
    (hlogged : system'.logged = system.logged ++ [clientId])
    (hcreated : system'.created = system.created) : system'.Once := by
  have hthis : localIds [contact] = [clientId] := by
    rw [localIds, List.filterMap_cons, hcontact.1, hkey]
    rfl
  have hlocal : (localIds system'.allContacts).Perm
      (localIds system.allContacts ++ [clientId]) := by
    rw [hcontacts, ← hthis, ← localIds_append]
    exact localIds_sortContacts _
  exact {
    commits := h.commits.of_same hrequests hcommitting
    key := by
      intro request hmem other hcreates
      rw [hrequests] at hmem
      rw [hlogged]
      obtain ⟨hkey, hin⟩ := h.key request hmem other hcreates
      exact ⟨hkey, List.mem_append_left _ hin⟩
    unanswered := by
      rw [hrequests, hcreated]
      exact h.unanswered
    created := hcreated ▸ h.created
    known := by
      intro other hmem
      rw [hcreated] at hmem
      rw [hlogged]
      exact List.mem_append_left _ (h.known other hmem)
    entries := by
      rw [hlocal.nodup_iff, List.nodup_append]
      refine ⟨h.entries, List.nodup_singleton _, fun other hmem new hnewMem heq => ?_⟩
      rw [List.mem_singleton.mp hnewMem] at heq
      exact hnew (heq ▸ h.logged other hmem)
    logged := by
      intro other hmem
      rw [hlocal.mem_iff, List.mem_append] at hmem
      rw [hlogged, List.mem_append]
      exact hmem.imp_left (h.logged other)
    done := by
      intro other hmem hin
      rw [hcreated] at hmem
      rw [hrequests]
      rw [hlocal.mem_iff, List.mem_append, List.mem_singleton] at hin
      cases hin with
      | inl hold => exact h.done other hmem hold
      | inr heq => exact absurd (h.known other hmem) (heq ▸ hnew) }

/-- What a step must not do for a contact to be created once: a lost answer, an answer that meets
another entry first, an event of WSJT-X whose contact is known under its id, and an effect that
runs on contacts that an answer has changed since. -/
def StepOnce [Platform] [Browser] (system : OutboxSystem) : OutboxAction → Prop
  | .wsjtxLogged contact => ∀ clientId ∈ system.logged, contact.clientKey = some clientId →
      ∃ current ∈ system.allContacts, current.clientId = some clientId
  | .commit => ∀ contact, nextContactToCommit system.rendered system.committingContactIds =
      some contact → contact.id = none → ∀ clientId, contact.clientKey = some clientId →
        clientId ∈ localIds system.allContacts
  | .store index _ _ => ∀ request, system.requests[index]? = some request → request.waiting
  | .fail index => ∀ request, system.requests[index]? = some request → request.answer = none
  | .respond index => ∀ request answer clientId, system.requests[index]? = some request →
      request.answer = some answer → CommitRequest.Creates request clientId →
      callsignPrefixMatches answer system.callsignPrefix → ∀ current,
        system.allContacts.find? (fun current => OutboxContact.contactMatches current
          { answer with clientId := request.contact.clientId }) = some current →
        current.id.isSome → clientId ∉ localIds system.allContacts
  | _ => True

theorem Once.log (h : system.Once) (contact : OutboxContact) : (system.log contact).Once := by
  rw [OutboxSystem.log]
  split
  · exact h
  · next clientId hkey =>
      split
      · exact h
      · next hallowed =>
          rw [not_or, not_not] at hallowed
          exact h.append hallowed.1 hkey hallowed.2 rfl rfl rfl rfl rfl

theorem Once.wsjtxLogged [Platform] [Browser] (h : system.Once) (contact : OutboxContact)
    (hkeeps : system.StepOnce (.wsjtxLogged contact)) : (system.wsjtxLogged contact).Once := by
  rw [OutboxSystem.wsjtxLogged]
  split
  · exact h
  · next clientId hkey =>
      split
      · exact h
      · next hallowed =>
          rw [not_not] at hallowed
          have hclient : contact.clientId = some clientId := (Option.filter_eq_some_iff.mp hkey).1
          cases hany : system.allContacts.any (·.clientId = contact.clientId) with
          | true =>
              have hsame : appendPendingContact system.allContacts contact =
                  system.allContacts := by
                rw [appendPendingContact, hkey, Option.isSome_some, hany, Bool.true_and, if_pos rfl]
              refine h.of_subperm ?_ rfl rfl (fun other hmem => List.mem_append_left _ hmem) rfl
              exact (List.Perm.of_eq (congrArg localIds hsame)).subperm
          | false =>
              have hnew : clientId ∉ system.logged := by
                intro hmem
                obtain ⟨current, hcurrent, hsame⟩ := hkeeps clientId hmem hkey
                rw [List.any_eq_false] at hany
                exact hany current hcurrent (by simp [hsame, hclient])
              have happended : appendPendingContact system.allContacts contact =
                  sortContacts (system.allContacts ++ [contact]) := by
                rw [appendPendingContact, hany, Bool.and_false, if_neg (by decide)]
              exact h.append hallowed hkey hnew happended rfl rfl rfl rfl

theorem mem_commitKey {contact : OutboxContact} {key : CommitKey} {clientId : String}
    (hkey : commitKey contact = some key) (hid : contact.id = none)
    (hclient : contact.clientKey = some clientId) : key = .client clientId := by
  rw [commitKey, hid, hclient] at hkey
  split at hkey
  · exact (Option.some.inj hkey).symm
  · exact (Option.some.inj hkey).symm
  · cases hkey

theorem Once.commit [Platform] [Browser] (h : system.Once) (hkeeps : system.StepOnce .commit) :
    system.commit.Once := by
  have hcommits := h.commits.commit
  revert hcommits
  rw [OutboxSystem.commit]
  split
  · exact fun _ => h
  · next contact hnext =>
      cases hcommit : commitKey contact with
      | none => exact fun _ => h
      | some key =>
          intro hcommits
          have hfree : key ∉ system.committingContactIds := by
            have hfound := List.find?_some hnext
            rw [hcommit] at hfound
            simpa using hfound
          have hcreates : ∀ clientId,
              CommitRequest.Creates { key := key, contact := contact } clientId →
              key = .client clientId ∧ clientId ∈ localIds system.allContacts :=
            fun clientId hcreates => ⟨mem_commitKey hcommit hcreates.1 hcreates.2,
              hkeeps contact hnext hcreates.1 clientId hcreates.2⟩
          refine ⟨hcommits, fun request hmem clientId hrequest => ?_,
            fun request hmem hwaiting hanswer clientId hrequest => ?_, h.created,
              h.known, h.entries,
            h.logged, fun clientId hmem hin => ?_⟩
          · cases List.mem_append.mp hmem with
            | inl hold => exact h.key request hold clientId hrequest
            | inr hnew =>
                obtain rfl := List.mem_singleton.mp hnew
                obtain ⟨hkey, hin⟩ := hcreates clientId hrequest
                exact ⟨hkey, h.logged clientId hin⟩
          · cases List.mem_append.mp hmem with
            | inl hold => exact h.unanswered request hold hwaiting hanswer clientId hrequest
            | inr hnew =>
                obtain rfl := List.mem_singleton.mp hnew
                obtain ⟨hkey, hin⟩ := hcreates clientId hrequest
                intro hcreated
                -- A contact that was created and is still listed has its answer on the way.
                obtain ⟨other, hother, hotherWaiting, -, hotherCreates⟩ :=
                  h.done clientId hcreated hin
                refine hfree ?_
                rw [hkey, ← (h.key other hother clientId hotherCreates).1]
                exact h.commits.committing other hother hotherWaiting
          · obtain ⟨request, hrequest, hrest⟩ := h.done clientId hmem hin
            exact ⟨request, List.mem_append_left _ hrequest, hrest⟩

theorem mem_creation {request : CommitRequest} {id : Int} {clientId : String} :
    clientId ∈ (creation request id).map Prod.fst ↔ CommitRequest.Creates request clientId := by
  rw [creation, CommitRequest.Creates]
  cases request.contact.id with
  | none =>
      cases request.contact.clientKey with
      | none => simp
      | some key => simp [eq_comm]
  | some _ => simp

theorem nodup_creation (request : CommitRequest) (id : Int) :
    ((creation request id).map Prod.fst).Nodup := by
  rw [creation]
  split
  · cases request.contact.clientKey with
    | none => exact List.nodup_nil
    | some key => exact List.nodup_singleton key
  · exact List.nodup_nil

theorem Once.store [Platform] [Browser] (h : system.Once) (index : Nat) (id : Int)
    (answer : OutboxContact) (hkeeps : system.StepOnce (.store index id answer)) :
    (system.store index id answer).Once := by
  have hcommits := h.commits.store index id answer
  revert hcommits
  rw [OutboxSystem.store]
  split
  · exact fun _ => h
  · next request hget =>
      split
      · next hstorable =>
          intro hcommits
          obtain ⟨hunanswered, -⟩ := hstorable
          have hnone := Option.isNone_iff_eq_none.mp hunanswered
          have hwaiting := hkeeps request hget
          have hmem := List.mem_of_getElem? hget
          have hnew : ∀ clientId, clientId ∈ (system.created ++ creation request id).map Prod.fst ↔
              clientId ∈ system.created.map Prod.fst ∨ CommitRequest.Creates request clientId := by
            intro clientId
            rw [List.map_append, List.mem_append, mem_creation]
          refine ⟨hcommits, fun other hother clientId hcreates => ?_,
            fun other hother hotherWaiting hotherNone clientId hcreates => ?_, ?_,
            fun clientId hin => ?_, h.entries, h.logged, fun clientId hin hlocal => ?_⟩
          · obtain rfl | ⟨place, -, hplace⟩ := mem_set hother
            · exact h.key request hmem clientId hcreates
            · exact h.key other (List.mem_of_getElem? hplace) clientId hcreates
          · obtain rfl | ⟨place, hne, hplace⟩ := mem_set hother
            · cases hotherNone
            · rw [hnew, not_or]
              have hin := List.mem_of_getElem? hplace
              refine ⟨h.unanswered other hin hotherWaiting hotherNone clientId hcreates, ?_⟩
              intro hrequest
              have hkey := (h.key other hin clientId hcreates).1.trans
                (h.key request hmem clientId hrequest).1.symm
              exact hne (h.commits.eq_of_key hplace hget hotherWaiting hwaiting hkey)
          · rw [List.map_append, List.nodup_append]
            refine ⟨h.created, nodup_creation request id, fun clientId hin other hother heq => ?_⟩
            exact h.unanswered request hmem hwaiting hnone other
              (mem_creation.mp hother) (heq ▸ hin)
          · cases (hnew clientId).mp hin with
            | inl hbefore => exact h.known clientId hbefore
            | inr hcreates => exact (h.key request hmem clientId hcreates).2
          · have hset : { request with answer := some answer } ∈
                system.requests.set index { request with answer := some answer } := by
              obtain ⟨hlt, -⟩ := List.getElem?_eq_some_iff.mp hget
              exact List.mem_set hlt _
            cases (hnew clientId).mp hin with
            | inr hcreates => exact ⟨_, hset, hwaiting, rfl, hcreates⟩
            | inl hbefore =>
                obtain ⟨other, hother, hotherWaiting, hsome, hcreates⟩ :=
                  h.done clientId hbefore hlocal
                have hne : other ≠ request := fun heq => by
                  rw [heq, hnone] at hsome
                  cases hsome
                exact ⟨other, mem_set_of_mem _ hget hother hne, hotherWaiting, hsome, hcreates⟩
      · exact fun _ => h

theorem Once.fail [Platform] [Browser] (h : system.Once) (index : Nat)
    (hkeeps : system.StepOnce (.fail index)) : (system.fail index).Once := by
  have hcommits := h.commits.fail index
  revert hcommits
  rw [OutboxSystem.fail]
  split
  · exact fun _ => h
  · next request hget =>
      split
      · exact fun _ => h
      · next hwaits =>
          intro hcommits
          have hwaiting : request.waiting = true := by simpa using hwaits
          have hnone := hkeeps request hget
          have hmem := List.mem_of_getElem? hget
          refine ⟨hcommits, fun other hother clientId hcreates => ?_,
            fun other hother hotherWaiting hotherNone clientId hcreates => ?_, h.created, h.known,
            h.entries, h.logged, fun clientId hin hlocal => ?_⟩
          · obtain rfl | ⟨place, -, hplace⟩ := mem_set hother
            · exact h.key request hmem clientId hcreates
            · exact h.key other (List.mem_of_getElem? hplace) clientId hcreates
          · obtain rfl | ⟨place, -, hplace⟩ := mem_set hother
            · cases hotherWaiting
            · exact h.unanswered other (List.mem_of_getElem? hplace) hotherWaiting
                hotherNone clientId
                hcreates
          · obtain ⟨other, hother, hotherWaiting, hsome, hcreates⟩ := h.done clientId hin hlocal
            have hne : other ≠ request := fun heq => by
              rw [heq, hnone] at hsome
              cases hsome
            exact ⟨other, mem_set_of_mem _ hget hother hne, hotherWaiting, hsome, hcreates⟩

section Responses

variable [BrowserNumbers] [Platform] [Browser]

theorem Once.respond (h : system.Once) (index : Nat) (hkeeps : system.StepOnce (.respond index)) :
    (system.respond index).Once := by
  have hcommits := h.commits.respond index
  revert hcommits
  rw [OutboxSystem.respond]
  split
  · exact fun _ => h
  · next request hget =>
      split
      · exact fun _ => h
      · next answer hanswer =>
          split
          · exact fun _ => h
          · next hwaits =>
              intro hcommits
              have hwaiting : request.waiting = true := by simpa using hwaits
              have hmem := List.mem_of_getElem? hget
              have hid := (h.commits.answered request hmem answer hanswer).1.1
              have hlocal := localIds_applyCommitResponse system.allContacts system.callsignPrefix
                request.contact hid
              have hother : ∀ other ∈ system.requests.eraseIdx index, other ∈ system.requests :=
                fun other hin => (List.eraseIdx_sublist _ _).subset hin
              refine ⟨hcommits, fun other hin => h.key other (hother other hin),
                fun other hin => h.unanswered other (hother other hin), h.created, h.known,
                nodup_of_subperm hlocal h.entries,
                fun clientId hin => h.logged clientId (hlocal.subset hin),
                  fun clientId hin hleft => ?_⟩
              · obtain ⟨other, hin', hotherWaiting, hsome, hcreates⟩ :=
                  h.done clientId hin (hlocal.subset hleft)
                have hne : other ≠ request := by
                  intro heq
                  rw [heq] at hcreates
                  -- The answer took the entry of its contact out of those without an id.
                  refine not_mem_applyCommitResponse hcreates.2 hid h.entries ?_ hleft
                  exact hkeeps request answer clientId hget hanswer hcreates
                exact ⟨other, mem_eraseIdx_of_mem hget hin' hne, hotherWaiting, hsome, hcreates⟩

theorem Once.step (h : system.Once) (action : OutboxAction) (hkeeps : system.StepOnce action) :
    (system.step action).Once := by
  have hsame : ∀ clientId ∈ system.logged, clientId ∈ system.logged := fun _ => id
  cases action with
  | log contact => exact h.log contact
  | wsjtxLogged contact => exact h.wsjtxLogged contact hkeeps
  | edit identifiers field value =>
      exact h.of_subperm (localIds_updateContacts _ identifiers field value).subperm rfl
        rfl hsame rfl
  | delete identifiers => exact h.of_subperm (localIds_filter _ _).subperm rfl rfl hsame rfl
  | render => exact h.of_subperm (List.Subperm.refl _) rfl rfl hsame rfl
  | commit => exact h.commit hkeeps
  | store index id answer => exact h.store index id answer hkeeps
  | respond index => exact h.respond index hkeeps
  | fail index => exact h.fail index hkeeps
  | retry => exact h.of_subperm (localIds_sortContacts _).subperm rfl rfl hsame rfl
  | setCallsignPrefix callsignPrefix =>
      exact h.of_subperm (List.Subperm.refl _) rfl rfl hsame rfl
  | page reset contacts =>
      rw [OutboxSystem.step, OutboxSystem.page]
      split
      · exact h
      · next hserved =>
          rw [not_not] at hserved
          refine h.of_subperm ?_ rfl rfl hsame rfl
          dsimp only
          split
          · exact localIds_mergeResetCommittedPage _ fun contact hmem => (hserved contact hmem).1
          · refine localIds_mergeCommittedPage _ fun contact hmem => ?_
            obtain ⟨other, hother, rfl⟩ := List.mem_map.mp hmem
            exact (hserved other hother).1
  | remoteContact contact =>
      rw [OutboxSystem.step, OutboxSystem.remoteContact]
      split
      · exact h
      · next hserved =>
          rw [not_not] at hserved
          refine h.of_subperm ?_ rfl rfl hsame rfl
          dsimp only
          rw [upsertRemoteContact]
          split
          · exact localIds_mergeContact hserved.1 _
          · exact List.Subperm.refl _
  | remoteContactDeleted id => exact h.of_subperm (localIds_filter _ _).subperm rfl rfl hsame rfl
  | serverCommit id adif => exact h.of_subperm (List.Subperm.refl _) rfl rfl hsame rfl
  | serverDelete id => exact h.of_subperm (List.Subperm.refl _) rfl rfl hsame rfl

omit [BrowserNumbers] [Platform] [Browser] in
theorem once_empty : Once {} where
  commits := commits_empty
  key _ hmem := nomatch hmem
  unanswered _ hmem := nomatch hmem
  created := .nil
  known _ hmem := nomatch hmem
  entries := .nil
  logged _ hmem := nomatch hmem
  done _ hmem := nomatch hmem

/-- No client id led to two contacts of the server. -/
def AtMostOnce (system : OutboxSystem) : Prop := ∀ (clientId : String) (id other : Int),
  (clientId, id) ∈ system.created → (clientId, other) ∈ system.created →
    id ∈ system.serverIds → other ∈ system.serverIds → id = other

/-- Every contact of the page leads to one contact of the server at most, in every run in which
no answer is lost, each one meets the entry it is for, WSJT-X names no contact again that is known
under its id, and the effect commits contacts of the list. -/
theorem commits_atMostOnce (actions : List OutboxAction)
    (hkeeps : Runs.Keeps (fun system action => step system action) StepOnce {} actions) :
    (run {} actions).AtMostOnce := by
  have honce : (run {} actions).Once :=
    Runs.invariant_run Once (fun _ action h hallowed => h.step action hallowed) once_empty hkeeps
  intro clientId id other hid hother _ _
  exact congrArg Prod.snd (List.inj_on_of_nodup_map honce.created hid hother rfl)

end Responses

end OutboxSystem

section Examples

attribute [local instance] plainNumbers plainBrowser asciiPlatform

def loggedContact : OutboxContact :=
  { clientId := some "c1"
    status := some .pending
    adif := [("CALL", .string "K1ABC"), ("QSO_DATE_TIME_ON", .ofInt 100)] }

def loggedAnswer (id : Int) : OutboxContact :=
  { loggedContact with id := some id, clientId := none, status := some .committed }

namespace OutboxSystem

def committedActions : List OutboxAction :=
  [.log loggedContact, .render, .commit, .store 0 1 (loggedAnswer 1), .respond 0]

/-- A contact that is logged, stored and answered. -/
theorem commits_atMostOnce_committed : (run {} committedActions).AtMostOnce := by
  refine commits_atMostOnce committedActions ⟨trivial, trivial, ?_, ?_, ?_, trivial⟩
  · intro contact hnext _ clientId hkey
    obtain rfl : contact = loggedContact := (Option.some.inj hnext).symm
    obtain rfl : clientId = "c1" := (Option.some.inj hkey).symm
    decide
  · intro request hrequest
    obtain rfl := Option.some.inj hrequest
    rfl
  · intro request answer clientId hrequest hanswer _ _ current hfind hid
    obtain rfl := Option.some.inj hrequest
    obtain rfl := Option.some.inj hanswer
    obtain rfl : current = loggedContact := (Option.some.inj hfind).symm
    cases hid

/-- The answer to a commit is lost after the server stored the contact. -/
def lostAnswerActions : List OutboxAction :=
  [.log loggedContact, .render, .commit, .store 0 1 (loggedAnswer 1), .fail 0, .retry, .render,
    .commit, .store 1 2 (loggedAnswer 2)]

/-- The contact is committed again, and is in the log twice. -/
theorem not_atMostOnce_lostAnswer : ¬ (run {} lostAnswerActions).AtMostOnce := by
  intro h
  have hsame := h "c1" 1 2 (by decide) (by decide) (by decide) (by decide)
  cases hsame

end OutboxSystem

end Examples

end Log73.Frontend
