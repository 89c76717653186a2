import Log73.Frontend.OutboxEdits

/-!
The answers, pages and events that come to what was entered: what waits under another identifier
stays, and what was sent as it was entered is at the server.
-/

namespace Log73.Frontend

open SortedAssoc

namespace OutboxSystem

variable [Platform] {system system' : OutboxSystem} {server : LogServer}

section Responses

variable [BrowserNumbers] [Browser]

omit [Platform] [BrowserNumbers] [Browser] in
/-- What was entered for the contact that is answered. -/
theorem settled_cases (entered : ContactIdentifier → Option Map) (contacts : List OutboxContact)
    {contact answer : OutboxContact} {id : Int} {sent : ContactIdentifier}
    (hsent : contact.contactIdentifier = some sent) (hid : answer.id = some id) :
    settled entered contacts contact answer = entered ∧
        ((∃ current ∈ contacts, current.shouldPersistLocally ∧
          current.contactIdentifier = some sent) ∨
          entered sent = none) ∨
      (¬ ∃ current ∈ contacts, current.shouldPersistLocally ∧
        current.contactIdentifier = some sent) ∧
        ∃ values, entered sent = some values ∧ settled entered contacts contact answer =
          Function.update (Function.update entered sent none) (.id id)
            (some values) := by
  have hany : (contacts.any fun current => current.shouldPersistLocally &&
      current.contactIdentifier = some sent) ↔
      ∃ current ∈ contacts, current.shouldPersistLocally ∧
        current.contactIdentifier = some sent := by
    simp only [List.any_eq_true, Bool.and_eq_true, decide_eq_true_eq]
  rw [settled, hsent, hid]
  dsimp only
  split
  · next hwaits => exact Or.inl ⟨rfl, Or.inl (hany.mp hwaits)⟩
  · next hgone =>
      cases hvalues : entered sent with
      | none => exact Or.inl ⟨rfl, Or.inr rfl⟩
      | some values => exact Or.inr ⟨fun hwaits => hgone (hany.mpr hwaits), values, rfl, rfl⟩

/-- An answer that comes to the page, with the identifier and the id of its contact. -/
structure Answering (system : OutboxSystem) (server : LogServer) (index : Nat)
    (request : CommitRequest) (answer : OutboxContact) (id : Int) (sent : ContactIdentifier) :
    Prop where
  get : system.requests[index]? = some request
  waiting : request.waiting
  answered : request.answer = some answer
  identified : answer.id = some id
  identifier : request.contact.contactIdentifier = some sent
  meets : system.AnswerMeets server request answer id

section Answer

variable {index : Nat} {request : CommitRequest} {answer : OutboxContact} {id : Int}
  {sent : ContactIdentifier}

omit [BrowserNumbers] in
theorem Answering.mem (ha : system.Answering server index request answer id sent) :
    request ∈ system.requests := List.mem_of_getElem? ha.get

omit [BrowserNumbers] in
theorem Answering.served (ha : system.Answering server index request answer id sent)
    (h : system.Kept server) :
    Served answer := (h.answered request ha.mem answer ha.answered).served

/-- The entries that wait after an answer waited before it. -/
theorem Answering.before (ha : system.Answering server index request answer id sent)
    (h : system.Kept server)
    {contact : OutboxContact} (hmem : contact ∈
      applyCommitResponse system.allContacts system.callsignPrefix request.contact answer)
    (hretained : contact.shouldPersistLocally) : contact ∈ system.allContacts := by
  refine (mem_or_committed_applyCommitResponse (ha.served h).2.2 hmem).resolve_right
    fun hstatus => ?_
  exact not_shouldPersistLocally hstatus hretained

/-- An entry under another identifier stays. -/
theorem Answering.stays (ha : system.Answering server index request answer id sent)
    {contact : OutboxContact} (hmem : contact ∈ system.allContacts)
    (hretained : contact.shouldPersistLocally) (hne : contact.contactIdentifier ≠ some sent) :
    contact ∈ applyCommitResponse system.allContacts system.callsignPrefix request.contact
      answer := by
  refine mem_applyCommitResponse hmem fun hmet => hne ?_
  rw [← ha.identifier]
  exact (ha.meets.unedited contact hmet hretained).1

omit [BrowserNumbers] in
/-- No other commit that is waited for sends a contact under this identifier. -/
theorem Answering.apart (ha : system.Answering server index request answer id sent)
    (h : system.Kept server)
    {other : CommitRequest} (hmem : other ∈ system.requests.eraseIdx index)
    (hwaiting : other.waiting) : other.contact.contactIdentifier ≠ some sent := by
  intro hsame
  obtain ⟨place, hne, hplace⟩ := List.mem_eraseIdx_iff_getElem?.mp hmem
  have hkey := h.key_eq (List.mem_of_getElem? hplace) ha.mem (hsame.trans ha.identifier.symm)
  exact hne (h.commits.eq_of_key hplace ha.get hwaiting ha.waiting hkey)

omit [BrowserNumbers] in
/-- A contact that was sent with an id is answered with it. -/
theorem Answering.sent_eq (ha : system.Answering server index request answer id sent)
    (h : system.Kept server)
    (hsome : request.contact.id ≠ none) : sent = .id id := by
  obtain ⟨old, hold⟩ := Option.ne_none_iff_exists'.mp hsome
  have hanswered := (h.commits.answered request ha.mem answer ha.answered).2 old hold
  have hsent := ha.identifier
  rw [OutboxContact.contactIdentifier, hold] at hsent
  rw [ha.identified] at hanswered
  rw [Option.some.inj hanswered]
  exact (Option.some.inj hsent).symm

/-- Once nothing waits under the identifier, the contact was sent as it was entered. -/
theorem Answering.contains (ha : system.Answering server index request answer id sent)
    (h : system.Kept server)
    (hgone : ¬ ∃ contact ∈ applyCommitResponse system.allContacts system.callsignPrefix
      request.contact answer, contact.shouldPersistLocally ∧ contact.contactIdentifier = some sent)
    {values : Map} (hvalues : system.entered sent = some values) :
    Contains request.contact.adif values := by
  cases h.safe sent values hvalues with
  | inr hanswered =>
      obtain ⟨_, _, _, hapart⟩ := hanswered
      exact absurd ha.identifier (hapart request ha.mem ha.waiting)
  | inl hheld =>
      obtain ⟨contact, hmem, hretained, hidentifier, hcontains⟩ := hheld
      by_cases hmet : contact ∈ metByAnswer system.allContacts system.callsignPrefix
          request.contact answer
      · rw [← (ha.meets.unedited contact hmet hretained).2]
        exact hcontains
      · exact absurd ⟨contact, mem_applyCommitResponse hmem hmet, hretained, hidentifier⟩ hgone

/-- The server keeps what was entered and sent. -/
theorem Answering.storedAs (ha : system.Answering server index request answer id sent)
    (h : system.Kept server)
    (hgone : ¬ ∃ contact ∈ applyCommitResponse system.allContacts system.callsignPrefix
      request.contact answer, contact.shouldPersistLocally ∧ contact.contactIdentifier = some sent)
    {values : Map} (hvalues : system.entered sent = some values) : system.StoredAs id values := by
  obtain ⟨adif, hadif, hkept⟩ := ha.meets.stored
  refine ⟨adif, hadif, fun field value hvalue => ?_⟩
  have hentered : system.EnteredField request.contact field := by
    refine ⟨sent, values, ha.identifier, hvalues, ?_⟩
    rw [hvalue]
    rfl
  obtain ⟨held, hheld, hsame⟩ := ha.contains h hgone hvalues field value hvalue
  have hlasting := ha.meets.lasting field hentered held hheld
  obtain ⟨kept, hform, hkeptSame⟩ := hsame.keptForm hlasting
  refine ⟨kept, ?_, hkeptSame⟩
  rw [hkept field hentered,
    (h.answered request ha.mem answer ha.answered).get?_adif hlasting, hform]

/-- Nothing waits under the id of the answer any more. -/
theorem Answering.unclaimed (ha : system.Answering server index request answer id sent)
    (h : system.Kept server)
    (hgone : ¬ ∃ contact ∈ applyCommitResponse system.allContacts system.callsignPrefix
      request.contact answer, contact.shouldPersistLocally ∧
        contact.contactIdentifier = some sent) :
    (¬ ∃ contact ∈ applyCommitResponse system.allContacts system.callsignPrefix
        request.contact answer, contact.shouldPersistLocally ∧
          contact.contactIdentifier = some (.id id)) ∧
      ∀ other ∈ system.requests.eraseIdx index, other.waiting →
        other.contact.contactIdentifier ≠ some (.id id) := by
  by_cases hnone : request.contact.id = none
  · obtain ⟨hwaits, hother⟩ := ha.meets.unclaimed hnone
    refine ⟨fun hafter => hwaits ?_, fun other hmem => ?_⟩
    · obtain ⟨contact, hmem, hretained, hidentifier⟩ := hafter
      exact ⟨contact, ha.before h hmem hretained, hretained, hidentifier⟩
    · exact hother other ((List.eraseIdx_sublist _ _).subset hmem)
  · rw [← ha.sent_eq h hnone]
    exact ⟨hgone, fun other hmem => ha.apart h hmem⟩

theorem Answering.respond_eq (ha : system.Answering server index request answer id sent) :
    system.respond index =
      { system with
        allContacts := applyCommitResponse system.allContacts system.callsignPrefix request.contact
          answer
        requests := system.requests.eraseIdx index
        committingContactIds := system.committingContactIds.filter (· ≠ request.key)
        entered := settled system.entered (applyCommitResponse system.allContacts
          system.callsignPrefix request.contact answer) request.contact answer } := by
  rw [OutboxSystem.respond, ha.get]
  dsimp only
  rw [ha.answered]
  dsimp only
  rw [ha.waiting]
  rfl

/-- What was entered under another identifier. -/
theorem Answering.safe (ha : system.Answering server index request answer id sent)
    (h : system.Kept server)
    {identifier : ContactIdentifier} {values : Map} (hne : identifier ≠ sent)
    (hvalues : system.entered identifier = some values) :
    (system.respond index).HeldLocally identifier values ∨
      (system.respond index).Answered identifier values := by
  rw [ha.respond_eq]
  refine (h.safe identifier values hvalues).imp (fun hheld => ?_) fun hanswered => ?_
  · obtain ⟨contact, hmem, hretained, hidentifier, hcontains⟩ := hheld
    refine ⟨contact, ha.stays hmem hretained fun hsame => hne ?_, hretained, hidentifier, hcontains⟩
    rw [hidentifier] at hsame
    exact Option.some.inj hsame
  · exact hanswered.of_same rfl fun other hmem _ => (List.eraseIdx_sublist _ _).subset hmem

theorem Kept.respond_of_answering (h : system.Kept server)
    (ha : system.Answering server index request answer id sent) :
    (system.respond index).Kept server := by
  have hcommits := h.commits.respond index
  have hserved := ha.served h
  have hsafe : ∀ {identifier values}, identifier ≠ sent →
      system.entered identifier = some values →
      (system.respond index).HeldLocally identifier values ∨
        (system.respond index).Answered identifier values := fun hne => ha.safe h hne
  rw [ha.respond_eq] at hcommits hsafe ⊢
  have hplaced : ∀ contact ∈ applyCommitResponse system.allContacts system.callsignPrefix
      request.contact answer, Placed contact := fun contact hmem =>
    (mem_or_committed_applyCommitResponse hserved.2.2 hmem).elim (h.placed contact)
      placed_of_committed
  have hlogged : ∀ clientId ∈ localIds (applyCommitResponse system.allContacts
      system.callsignPrefix request.contact answer), clientId ∈ system.logged :=
        fun clientId hmem =>
    h.logged clientId ((localIds_applyCommitResponse _ _ request.contact hserved.1).subset hmem)
  have hsent : ∀ other ∈ system.requests.eraseIdx index, Placed other.contact := fun other hmem =>
    h.sent other ((List.eraseIdx_sublist _ _).subset hmem)
  have hanswered : ∀ other ∈ system.requests.eraseIdx index, ∀ held, other.answer = some held →
      server.Answers other.contact held := fun other hmem =>
    h.answered other ((List.eraseIdx_sublist _ _).subset hmem)
  have hcases := settled_cases system.entered (applyCommitResponse system.allContacts
    system.callsignPrefix request.contact answer) ha.identifier ha.identified
  rcases hcases with ⟨hsame, hremains⟩ | ⟨hgone, values, hvalues, hmoved⟩
  · rw [hsame] at hsafe ⊢
    refine ⟨hcommits.of_same rfl rfl, hanswered, hplaced, h.rendered, hsent, hlogged,
      h.stored, h.entered,
      fun contact hmem hretained => h.shown contact (ha.before h hmem hretained) hretained,
      fun identifier found hfound => ?_⟩
    by_cases hthis : identifier = sent
    · subst hthis
      cases hremains with
      | inr hnone =>
          rw [hnone] at hfound
          cases hfound
      | inl hremains =>
          obtain ⟨contact, hmem, hretained, hidentifier⟩ := hremains
          exact Or.inl ⟨contact, hmem, hretained, hidentifier, h.shown contact
            (ha.before h hmem hretained) hretained identifier found hidentifier hfound⟩
    · exact hsafe hthis hfound
  · obtain ⟨hout, hother⟩ := ha.unclaimed h hgone
    have hlookup : ∀ identifier found, Function.update (Function.update system.entered sent none)
        (.id id) (some values) identifier = some found →
        identifier = .id id ∧ found = values ∨
          identifier ≠ .id id ∧ identifier ≠ sent ∧ system.entered identifier = some found := by
      intro identifier found hfound
      by_cases hid : identifier = .id id
      · rw [hid, Function.update_self] at hfound
        exact Or.inl ⟨hid, (Option.some.inj hfound).symm⟩
      · rw [Function.update_of_ne hid] at hfound
        by_cases hthis : identifier = sent
        · rw [hthis, Function.update_self] at hfound
          cases hfound
        · rw [Function.update_of_ne hthis] at hfound
          exact Or.inr ⟨hid, hthis, hfound⟩
    rw [hmoved] at hsafe ⊢
    refine ⟨hcommits.of_same rfl rfl, hanswered, hplaced, h.rendered, hsent, hlogged, h.stored,
      fun other hsome => ?_, fun contact hmem hretained identifier found hidentifier hfound => ?_,
      fun identifier found hfound => ?_⟩
    · obtain ⟨found, hfound⟩ := Option.isSome_iff_exists.mp hsome
      rcases hlookup _ _ hfound with ⟨hid, -⟩ | ⟨-, -, hold⟩
      · cases hid
        obtain ⟨adif, hadif, -⟩ := ha.meets.stored
        exact h.stored id (by rw [hadif]; rfl)
      · exact h.entered other (by rw [hold]; rfl)
    · rcases hlookup _ _ hfound with ⟨hid, -⟩ | ⟨-, -, hold⟩
      · subst hid
        exact absurd ⟨contact, hmem, hretained, hidentifier⟩ hout
      · exact h.shown contact (ha.before h hmem hretained) hretained identifier found
          hidentifier hold
    · rcases hlookup _ _ hfound with ⟨rfl, rfl⟩ | ⟨-, hne, hold⟩
      · exact Or.inr ⟨id, rfl, ha.storedAs h hgone hvalues, hother⟩
      · exact hsafe hne hold

end Answer

theorem Kept.respond (h : system.Kept server) (index : Nat)
    (hsafe : system.StepSafe server (.respond index)) :
    (system.respond index).Kept server := by
  cases hget : system.requests[index]? with
  | none =>
      rw [OutboxSystem.respond, hget]
      exact h
  | some request =>
      have hmem := List.mem_of_getElem? hget
      cases hanswer : request.answer with
      | none =>
          rw [OutboxSystem.respond, hget]
          dsimp only
          rw [hanswer]
          exact h
      | some answer =>
          cases hwaiting : request.waiting with
          | false =>
              rw [OutboxSystem.respond, hget]
              dsimp only
              rw [hanswer]
              dsimp only
              rw [hwaiting]
              exact h
          | true =>
              have hserved := (h.answered request hmem answer hanswer).served
              obtain ⟨id, hid⟩ := Option.isSome_iff_exists.mp hserved.1
              have hkey := commitKey_of_identifier (h.sent request hmem)
                  (h.commits.sent request hmem)
              obtain ⟨sent, hsent, -⟩ := Option.map_eq_some_iff.mp hkey
              exact h.respond_of_answering ⟨hget, hwaiting, hanswer, hid, hsent,
                hsafe request answer id hget hwaiting hanswer hid⟩

omit [Browser] in
theorem Kept.page (h : system.Kept server) (reset : Bool) (contacts : List OutboxContact) :
    (system.page reset contacts).Kept server := by
  rw [OutboxSystem.page]
  split
  · exact h
  · next hserved =>
      rw [not_not] at hserved
      have huncommitted : ∀ {contact : OutboxContact}, contact.shouldPersistLocally →
          contact.uncommitted := by
        intro contact hretained
        refine decide_eq_true fun hstatus => ?_
        exact not_shouldPersistLocally hstatus hretained
      cases reset with
      | true =>
          refine h.of_list (fun contact hmem => ?_) (fun contact hmem hretained _ _ _ _ => ?_)
            (fun clientId hmem => ?_) h.rendered rfl rfl rfl (fun _ hmem => hmem) rfl rfl
          · exact mem_or_committed_mergeResetCommittedPage
              (fun contact hmem => (hserved contact hmem).2.2) hmem
          · exact mem_mergeResetCommittedPage hmem (huncommitted hretained)
          · exact (localIds_mergeResetCommittedPage _
              fun contact hmem => (hserved contact hmem).1).subset hmem
      | false =>
          refine h.of_list (fun contact hmem => ?_) (fun contact hmem hretained _ _ _ _ => ?_)
            (fun clientId hmem => ?_) h.rendered rfl rfl rfl (fun _ hmem => hmem) rfl rfl
          · exact mem_or_committed_mergeCommittedPage hmem
          · exact mem_mergeCommittedPage hmem (huncommitted hretained)
          · refine (localIds_mergeCommittedPage _ fun contact hmem => ?_).subset hmem
            obtain ⟨other, hother, rfl⟩ := List.mem_map.mp hmem
            exact (hserved other hother).1

theorem Kept.remoteContact (h : system.Kept server) (contact : OutboxContact)
    (hsafe : system.StepSafe server (.remoteContact contact)) :
    (system.remoteContact contact).Kept server := by
  rw [OutboxSystem.remoteContact]
  split
  · exact h
  · next hserved =>
      rw [not_not] at hserved
      rw [upsertRemoteContact]
      split
      · next hmatches =>
          refine h.of_list (fun current hmem => ?_) (fun current hmem hretained _ _ _ _ => ?_)
            (fun clientId hmem => ?_) h.rendered rfl rfl rfl (fun _ hmem => hmem) rfl rfl
          · exact mem_or_committed_mergeContact hserved.2.2 hmem
          · refine mem_mergeContact hmem fun hfind => ?_
            rw [hsafe hmatches current hfind] at hretained
            cases hretained
          · exact (localIds_mergeContact hserved.1 system.allContacts).subset hmem
      · exact h

theorem Kept.serverDelete (h : system.Kept server) (id : Int)
    (hscope : system.InScope server (.serverDelete id)) :
    (system.step (.serverDelete id)).Kept server := by
  have hnot : ∀ {other values}, system.entered (.id other) = some values → other ≠ id := by
    intro other values hvalues hsame
    refine hscope (Or.inl ?_)
    rw [← hsame, hvalues]
    rfl
  have hstored : ∀ other, get? (system.step (.serverDelete id)).stored other =
      if id = other then none else get? system.stored other := get?_erase system.stored id
  have hserver : ∀ other ∈ system.serverIds, other ≠ id →
      other ∈ (system.step (.serverDelete id)).serverIds :=
    fun other hmem hne => List.mem_filter.mpr ⟨hmem, decide_eq_true hne⟩
  refine ⟨h.commits.of_same rfl rfl, h.answered, h.placed, h.rendered, h.sent, h.logged,
    fun other hsome => ?_,
    fun other hsome => ?_, h.shown, fun identifier values hvalues => ?_⟩
  · rw [hstored] at hsome
    split at hsome
    · cases hsome
    · next hne => exact hserver other (h.stored other hsome) (Ne.symm hne)
  · obtain ⟨values, hvalues⟩ := Option.isSome_iff_exists.mp hsome
    exact hserver other (h.entered other hsome) (hnot hvalues)
  · refine (h.safe identifier values hvalues).imp (fun hheld => hheld) fun hanswered => ?_
    obtain ⟨other, rfl, ⟨adif, hadif, hcontains⟩, hapart⟩ := hanswered
    refine ⟨other, rfl, ⟨adif, ?_, hcontains⟩, hapart⟩
    rw [hstored, if_neg (hnot hvalues).symm]
    exact hadif

theorem Kept.step (h : system.Kept server) (action : OutboxAction)
    (hscope : system.InScope server action)
    (hsafe : system.StepSafe server action) : (system.step action).Kept server := by
  have hsame : ∀ contact ∈ system.allContacts, contact.shouldPersistLocally → ∀ identifier values,
      contact.contactIdentifier = some identifier → system.entered identifier = some values →
        contact ∈ system.allContacts := fun _ hmem _ _ _ _ _ => hmem
  cases action with
  | log contact => exact h.log contact
  | wsjtxLogged contact => exact h.wsjtxLogged contact
  | edit identifiers field value => exact h.edit identifiers field value hscope hsafe
  | delete identifiers => exact h.delete identifiers
  | render =>
      exact h.of_list (fun _ => Or.inl) hsame (fun _ hmem => hmem) h.placed rfl rfl rfl
        (fun _ hmem => hmem) rfl rfl
  | commit => exact h.commit hsafe
  | store index id answer => exact h.store index id answer hscope hsafe
  | respond index => exact h.respond index hsafe
  | fail index => exact h.fail index
  | retry =>
      refine h.of_list (fun contact hmem => ?_) (fun contact hmem _ _ _ _ _ => ?_)
        (localIds_sortContacts _).subset h.rendered rfl rfl rfl (fun _ hmem => hmem) rfl rfl
      · exact Or.inl ((sortContacts_perm _).mem_iff.mp hmem)
      · exact (sortContacts_perm _).mem_iff.mpr hmem
  | setCallsignPrefix callsignPrefix =>
      exact h.of_list (fun _ => Or.inl) hsame (fun _ hmem => hmem) h.rendered rfl rfl rfl
        (fun _ hmem => hmem) rfl rfl
  | page reset contacts => exact h.page reset contacts
  | remoteContact contact => exact h.remoteContact contact hsafe
  | remoteContactDeleted id =>
      refine h.of_list (fun contact hmem => Or.inl (List.mem_filter.mp hmem).1)
        (fun contact hmem _ identifier values hidentifier hvalues => ?_)
        (localIds_filter _ _).subset h.rendered rfl rfl rfl (fun _ hmem => hmem) rfl rfl
      refine List.mem_filter.mpr ⟨hmem, decide_eq_true fun hid => hscope (Or.inl ?_)⟩
      rw [OutboxContact.contactIdentifier, hid] at hidentifier
      cases hidentifier
      rw [hvalues]
      rfl
  | serverCommit id adif => exact h.serverCommit id adif hsafe
  | serverDelete id => exact h.serverDelete id hscope

omit [BrowserNumbers] [Browser] in
theorem kept_empty : Kept {} server where
  commits := commits_empty
  answered _ hmem := nomatch hmem
  placed _ hmem := nomatch hmem
  rendered _ hmem := nomatch hmem
  sent _ hmem := nomatch hmem
  logged _ hmem := nomatch hmem
  stored _ hsome := nomatch hsome
  entered _ hsome := nomatch hsome
  shown _ hmem := nomatch hmem
  safe _ _ hvalues := nomatch hvalues

/-- No edit is lost at any moment of a run in which every answer meets what it was sent from as it
was sent, no event meets an entry that waits, and edits are made to what shows the ones before. -/
theorem edits_kept (server : LogServer) (actions : List OutboxAction)
    (hkeeps : Runs.Keeps (fun system action => step system action)
      (fun system action => system.InScope server action ∧
        system.StepSafe server action) {} actions)
    (earlier : List OutboxAction) (hearlier : earlier <+: actions) :
    (run {} earlier).NoEditLost := by
  have hkept : (run {} earlier).Kept server :=
    Runs.invariant_run (Kept · server)
      (fun _ action h hallowed => h.step action hallowed.1 hallowed.2)
      kept_empty (hkeeps.of_prefix hearlier)
  exact hkept.noEditLost

end Responses

end OutboxSystem

section Examples

attribute [local instance] plainNumbers plainBrowser asciiPlatform

namespace OutboxSystem

/-- A server that knows no countries. -/
def plainServer : LogServer where
  database := { entities := [], rules := [] }
  logId := 1
  contestId := "STATES"

def editedContact : OutboxContact :=
  { clientId := some "c1"
    status := some .pending
    adif := [("BAND", .string "20m"), ("CALL", .string "K1ABC"), ("FREQ", .ofInt 14074000),
      ("MODE", .string "CW"), ("QSO_DATE_TIME_ON", .ofInt 100),
      ("STATION_CALLSIGN", .string "N0CALL")] }

/-- What the server answers for it. -/
def editedAnswer (call : String) : OutboxContact :=
  { id := some 1
    status := some .committed
    details := [("logId", .ofI64 1)]
    adif := [("BAND", .string "20m"), ("CALL", .string call), ("CONTEST_ID", .string "STATES"),
      ("FREQ", .ofI64 14074000), ("MODE", .string "CW"), ("QSO_DATE_TIME_ON", .ofI64 100),
      ("STATION_CALLSIGN", .string "N0CALL"), ("WARNINGS_JSON", .string "[]")] }

def correctedContact : OutboxContact :=
  { editedContact with adif := insert editedContact.adif "CALL" (.string "K1ABD") }

/-- The operator corrects the call before the contact is committed; another client commits one of
its own. -/
def correctedActions : List OutboxAction :=
  [.log editedContact, .edit [.client "c1"] "CALL" (.string "K1ABD"), .render, .commit,
    .serverCommit 2 editedContact.adif, .store 0 1 (editedAnswer "K1ABD"), .respond 0]

theorem edits_kept_corrected : (run {} correctedActions).NoEditLost := by
  have hanswers : plainServer.Answers correctedContact (editedAnswer "K1ABD") :=
    LogServer.Answers.of_stored 1 [] (by decide +kernel)
  have hlasting : ∀ field value, get? correctedContact.adif field = some value →
      plainServer.Lasting correctedContact field value := by
    have hnormal : normalizeContactAdif correctedContact.adif = correctedContact.adif := by
      decide +kernel
    have hplain : ∀ entry ∈ correctedContact.adif, normalizeAdifFieldName entry.1 = entry.1 ∧
        (entry.1 ≠ "ID" ∧ entry.1 ≠ "WARNINGS_JSON") ∧ entry.1 ∉ enrichedFields ∧
        entry.1 ≠ "CONTEST_ID" ∧ (keptForm entry.1 entry.2).isSome := by decide +kernel
    intro field value hvalue
    obtain ⟨hname, hown, henriched, hcontest, hform⟩ := hplain _ (mem_of_get? hvalue)
    exact .of_not_enriched hname hown henriched hcontest (hnormal ▸ hvalue) hform
  refine edits_kept plainServer correctedActions ⟨⟨trivial, trivial⟩, ⟨fun id hlisted => ?_, ?_⟩,
    ⟨trivial, trivial⟩, ⟨trivial, ?_⟩, ⟨trivial, ?_⟩, ⟨?_, ?_⟩, ⟨trivial, ?_⟩, trivial⟩
    correctedActions (List.prefix_refl _)
  · have hnone : ContactIdentifier.id id ∉ [.client "c1"] := by simp
    exact absurd (mem_listed.mp hlisted).1 hnone
  · intro contact hmem identifier hin _ values hvalues
    obtain rfl := List.mem_singleton.mp hin
    obtain rfl : contact = editedContact := List.mem_singleton.mp hmem
    obtain rfl : values = editedContact.adif := (Option.some.inj hvalues).symm
    exact contains_self editedContact.adif
  · intro contact hnext identifier hidentifier
    obtain rfl := Option.some.inj hnext
    obtain rfl := Option.some.inj hidentifier
    exact ⟨_, List.mem_singleton_self _, rfl, rfl⟩
  · exact fun values hvalues => nomatch hvalues
  · intro request hget
    obtain rfl := Option.some.inj hget
    exact hanswers
  · intro request hget
    obtain rfl := Option.some.inj hget
    exact Or.inl rfl
  · intro request answer id hget _ hanswer hid
    obtain rfl := Option.some.inj hget
    obtain rfl := Option.some.inj hanswer
    obtain rfl := Option.some.inj hid
    refine ⟨fun current hmet _ => ?_, fun field _ value => hlasting field value,
      ⟨_, rfl, fun _ _ => rfl⟩, fun _ => ⟨fun hwaits => ?_, fun other hother _ => ?_⟩⟩
    · obtain rfl := List.mem_singleton.mp hmet
      exact ⟨rfl, rfl⟩
    · obtain ⟨current, hcurrent, -, hidentifier⟩ := hwaits
      obtain rfl := List.mem_singleton.mp hcurrent
      cases hidentifier
    · obtain rfl := List.mem_singleton.mp hother
      exact nofun

/-- The operator corrects the call while the contact is on its way. -/
def editedInFlight : List OutboxAction :=
  [.log editedContact, .render, .commit, .store 0 1 (editedAnswer "K1ABC"),
    .edit [.client "c1"] "CALL" (.string "K1ABD"), .respond 0]

/-- The answer takes the call back, and the entry is committed. -/
theorem not_noEditLost_inFlight :
    Runs.Keeps (fun system action => step system action)
        (fun system action => system.InScope plainServer action) {} editedInFlight ∧
      ¬ (run {} editedInFlight).NoEditLost := by
  have hanswers : plainServer.Answers editedContact (editedAnswer "K1ABC") :=
    LogServer.Answers.of_stored 1 [] (by decide +kernel)
  have hnone : ∀ id, ContactIdentifier.id id ∉ [.client "c1"] := by simp
  have hcommitted : (run {} editedInFlight).allContacts.all
      (fun contact => !contact.shouldPersistLocally) := by decide +kernel
  refine ⟨⟨trivial, trivial, trivial, fun request hget => ?_, fun id hlisted => ?_, trivial,
    trivial⟩, fun h => ?_⟩
  · obtain rfl := Option.some.inj hget
    exact hanswers
  · exact absurd (mem_listed.mp hlisted).1 (hnone id)
  · cases h (.id 1) correctedContact.adif rfl with
    | inl hheld =>
        obtain ⟨contact, hmem, hretained, -⟩ := hheld
        have hnot := List.all_eq_true.mp hcommitted contact hmem
        rw [hretained] at hnot
        cases hnot
    | inr hstored =>
        obtain ⟨adif, hadif, hcontains⟩ := hstored
        obtain rfl := Option.some.inj hadif
        obtain ⟨held, hheld, hsame⟩ := hcontains "CALL" (.string "K1ABD") rfl
        obtain rfl := Option.some.inj hheld
        have hother : ¬ ((Value.string "K1ABC" : Value) = .string "K1ABD" ∨
            keptForm "CALL" (.string "K1ABD") = some (.string "K1ABC")) := by decide +kernel
        exact hother hsame

end OutboxSystem

end Examples

end Log73.Frontend
