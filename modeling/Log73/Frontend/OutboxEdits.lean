import Log73.Frontend.OutboxCommits

/-!
No edit is lost while every answer meets the entries it was sent from as they were sent, and the
events of other sessions meet no entry that waits: what was entered is in the list until it is
answered, and in the contact of the server from then on.
-/

namespace Log73.Frontend

open SortedAssoc
open Slices (mem_set)
open OutboxContact (contactMatches)

variable [Platform]

/-- A value as it was entered, or in the form the database gives it. -/
def SameField (field : String) (value held : Value) : Prop :=
  held = value ∨ keptForm field value = some held

/-- The fields have every value that was entered. -/
def Contains (adif values : Map) : Prop :=
  ∀ field value, get? values field = some value →
    ∃ held, get? adif field = some held ∧ SameField field value held

theorem contains_self (values : Map) : Contains values values :=
  fun _ value hvalue => ⟨value, hvalue, Or.inl rfl⟩

theorem Contains.insert {adif values : Map} (h : Contains adif values) (field : String)
    (value : Value) : Contains (insert adif field value) (insert values field value) := by
  intro key entered hentered
  rw [get?_insert] at hentered ⊢
  split at hentered
  · next hsame =>
      rw [if_pos hsame]
      exact ⟨entered, hentered, Or.inl rfl⟩
  · next hne =>
      rw [if_neg hne]
      exact h key entered hentered

theorem contains_nil (adif : Map) : Contains adif [] := fun _ _ h => nomatch h

/-- What the database made of a value is the form it gives to what it made. -/
theorem SameField.keptForm {server : LogServer} {contact : OutboxContact} {field : String}
    {value held : Value} (h : SameField field value held)
    (hlasting : server.Lasting contact field held) :
    ∃ kept, keptForm field held = some kept ∧ SameField field value kept := by
  obtain ⟨kept, hkept⟩ := Option.isSome_iff_exists.mp hlasting.form
  refine ⟨kept, hkept, Or.inr ?_⟩
  cases h with
  | inl hsame =>
      rw [← hsame]
      exact hkept
  | inr hform =>
      have hown : normalizeAdifFieldName field ≠ "WARNINGS_JSON" := by
        rw [hlasting.name]
        exact hlasting.own.2
      rw [keptForm_idem hown hform] at hkept
      rw [hform, hkept]

namespace OutboxSystem

/-- An entry that waits to be committed is listed under the identifier. -/
def Waits (system : OutboxSystem) (identifier : ContactIdentifier) : Prop :=
  ∃ contact ∈ system.allContacts,
    contact.shouldPersistLocally ∧ contact.contactIdentifier = some identifier

/-- The page holds what was entered, in an entry that is not committed. -/
def HeldLocally (system : OutboxSystem) (identifier : ContactIdentifier) (values : Map) : Prop :=
  ∃ contact ∈ system.allContacts, contact.shouldPersistLocally ∧
    contact.contactIdentifier = some identifier ∧ Contains contact.adif values

def StoredAs (system : OutboxSystem) (id : Int) (values : Map) : Prop :=
  ∃ adif, get? system.stored id = some adif ∧ Contains adif values

/-- The contact of the server has what was entered. -/
def HeldByServer (system : OutboxSystem) : ContactIdentifier → Map → Prop
  | .id id, values => system.StoredAs id values
  | .client clientId, values => ∃ id, (clientId, id) ∈ system.created ∧ system.StoredAs id values

def NoEditLost (system : OutboxSystem) : Prop :=
  ∀ identifier values, system.entered identifier = some values →
    system.HeldLocally identifier values ∨ system.HeldByServer identifier values

/-- The contact of the server was logged or edited by this page. -/
def EnteredHere (system : OutboxSystem) (id : Int) : Prop :=
  (system.entered (.id id)).isSome ∨
    ∃ clientId, (clientId, id) ∈ system.created ∧ (system.entered (.client clientId)).isSome

/-- A field that was entered in the contact. -/
def EnteredField (system : OutboxSystem) (contact : OutboxContact) (field : String) : Prop :=
  ∃ identifier values, contact.contactIdentifier = some identifier ∧
    system.entered identifier = some values ∧ (get? values field).isSome

/-- Contacts of the server are edited, those are deleted elsewhere that were neither logged nor
edited here, and a commit is answered by what the server wrote for it. -/
def InScope (system : OutboxSystem) (server : LogServer) : OutboxAction → Prop
  | .edit identifiers _ _ => ∀ id, .id id ∈ system.listed identifiers → id ∈ system.serverIds
  | .remoteContactDeleted id | .serverDelete id => ¬ system.EnteredHere id
  | .store index _ answer => ∀ request, system.requests[index]? = some request →
      server.Answers request.contact answer
  | _ => True

section Responses

variable [BrowserNumbers] [Browser]

/-- The answer meets what it was sent from, the server keeps what was sent and still has what it
answered, and nothing else waits under the id that a new contact was given. -/
structure AnswerMeets (system : OutboxSystem) (server : LogServer) (request : CommitRequest)
    (answer : OutboxContact) (id : Int) : Prop where
  unedited : ∀ current ∈ metByAnswer system.allContacts system.callsignPrefix
    request.contact answer,
    current.shouldPersistLocally →
      current.contactIdentifier = request.contact.contactIdentifier ∧
        current.adif = request.contact.adif
  lasting : ∀ field, system.EnteredField request.contact field → ∀ value,
    get? request.contact.adif field = some value → server.Lasting request.contact field value
  stored : ∃ adif, get? system.stored id = some adif ∧
    ∀ field, system.EnteredField request.contact field → get? adif field = get? answer.adif field
  unclaimed : request.contact.id = none → ¬ system.Waits (.id id) ∧
    ∀ other ∈ system.requests, other.waiting → other.contact.contactIdentifier ≠ some (.id id)

/-- What a step must not do for an edit to be kept. -/
def StepSafe (system : OutboxSystem) (server : LogServer) : OutboxAction → Prop
  | .edit identifiers _ _ => ∀ contact ∈ system.allContacts, ∀ identifier ∈ identifiers,
      contact.contactIdentifier = some identifier → ∀ values,
        system.entered identifier = some values → Contains contact.adif values
  | .commit => ∀ contact, nextContactToCommit system.rendered system.committingContactIds =
      some contact → ∀ identifier, contact.contactIdentifier = some identifier →
        system.Waits identifier
  | .store index _ _ => ∀ request, system.requests[index]? = some request → request.waiting ∨
      ∀ id, request.contact.id = some id → system.Waits (.id id)
  | .respond index => ∀ request answer id, system.requests[index]? = some request →
      request.waiting → request.answer = some answer → answer.id = some id →
        system.AnswerMeets server request answer id
  | .remoteContact contact => callsignPrefixMatches contact system.callsignPrefix → ∀ current,
      system.allContacts.find? (fun current => contactMatches current contact) = some current →
        current.shouldPersistLocally = false
  | .serverCommit id adif => ∀ values, system.entered (.id id) = some values →
      system.Waits (.id id) ∨ Contains adif values
  | _ => True

end Responses

/-- What was entered is in the contact of the server, and no commit of it is under way. -/
def Answered (system : OutboxSystem) (identifier : ContactIdentifier) (values : Map) : Prop :=
  ∃ id, identifier = .id id ∧ system.StoredAs id values ∧
    ∀ request ∈ system.requests, request.waiting →
      request.contact.contactIdentifier ≠ some identifier

structure Kept (system : OutboxSystem) (server : LogServer) : Prop where
  commits : system.Commits
  answered : ∀ request ∈ system.requests, ∀ answer, request.answer = some answer →
    server.Answers request.contact answer
  placed : ∀ contact ∈ system.allContacts, Placed contact
  rendered : ∀ contact ∈ system.rendered, Placed contact
  sent : ∀ request ∈ system.requests, Placed request.contact
  logged : ∀ clientId ∈ localIds system.allContacts, clientId ∈ system.logged
  stored : ∀ id, (get? system.stored id).isSome → id ∈ system.serverIds
  entered : ∀ id, (system.entered (.id id)).isSome → id ∈ system.serverIds
  shown : ∀ contact ∈ system.allContacts, contact.shouldPersistLocally → ∀ identifier values,
    contact.contactIdentifier = some identifier → system.entered identifier = some values →
      Contains contact.adif values
  safe : ∀ identifier values, system.entered identifier = some values →
    system.HeldLocally identifier values ∨ system.Answered identifier values

variable {system system' : OutboxSystem} {server : LogServer}

theorem Kept.noEditLost (h : system.Kept server) : system.NoEditLost := by
  intro identifier values hentered
  cases h.safe identifier values hentered with
  | inl hheld => exact Or.inl hheld
  | inr hanswered =>
      obtain ⟨id, rfl, hstored, -⟩ := hanswered
      exact Or.inr hstored

/-- Where an entry waits, what was entered is in it. -/
theorem Kept.heldLocally (h : system.Kept server) {identifier : ContactIdentifier} {values : Map}
    (hwaits : system.Waits identifier) (hentered : system.entered identifier = some values) :
    system.HeldLocally identifier values := by
  obtain ⟨contact, hmem, hretained, hidentifier⟩ := hwaits
  exact ⟨contact, hmem, hretained, hidentifier,
    h.shown contact hmem hretained identifier values hidentifier hentered⟩

theorem Answered.of_same {identifier : ContactIdentifier} {values : Map}
    (h : system.Answered identifier values) (hstored : system'.stored = system.stored)
    (hrequests : ∀ request ∈ system'.requests, request.waiting → request ∈ system.requests) :
    system'.Answered identifier values := by
  obtain ⟨id, hid, hcontains, hapart⟩ := h
  refine ⟨id, hid, ?_, fun request hmem hwaiting => ?_⟩
  · rw [StoredAs, hstored]
    exact hcontains
  · exact hapart request (hrequests request hmem hwaiting) hwaiting

/-- A step that brings in committed entries alone, and takes out no entry of what was entered. -/
theorem Kept.of_list (h : system.Kept server)
    (hin : ∀ contact ∈ system'.allContacts,
      contact ∈ system.allContacts ∨ contact.status = some .committed)
    (hstays : ∀ contact ∈ system.allContacts, contact.shouldPersistLocally →
      ∀ identifier values, contact.contactIdentifier = some identifier →
        system.entered identifier = some values → contact ∈ system'.allContacts)
    (hlocal : localIds system'.allContacts ⊆ localIds system.allContacts)
    (hrendered : ∀ contact ∈ system'.rendered, Placed contact)
    (hrequests : system'.requests = system.requests)
    (hcommitting : system'.committingContactIds = system.committingContactIds)
    (hlogged : system'.logged = system.logged) (hserver : system.serverIds ⊆ system'.serverIds)
    (hstored : system'.stored = system.stored) (hentered : system'.entered = system.entered) :
    system'.Kept server where
  commits := h.commits.of_same hrequests hcommitting
  answered := hrequests ▸ h.answered
  placed contact hmem := (hin contact hmem).elim (h.placed contact) placed_of_committed
  rendered := hrendered
  sent := hrequests ▸ h.sent
  logged clientId hmem := by
    rw [hlogged]
    exact h.logged clientId (hlocal hmem)
  stored id hsome := by
    rw [hstored] at hsome
    exact hserver (h.stored id hsome)
  entered id hsome := by
    rw [hentered] at hsome
    exact hserver (h.entered id hsome)
  shown contact hmem hretained identifier values hidentifier hvalues := by
    rw [hentered] at hvalues
    cases hin contact hmem with
    | inl hold => exact h.shown contact hold hretained identifier values hidentifier hvalues
    | inr hstatus => exact absurd hretained (not_shouldPersistLocally hstatus)
  safe identifier values hvalues := by
    rw [hentered] at hvalues
    cases h.safe identifier values hvalues with
    | inl hheld =>
        obtain ⟨contact, hmem, hretained, hidentifier, hcontains⟩ := hheld
        exact Or.inl ⟨contact, hstays contact hmem hretained identifier values hidentifier hvalues,
          hretained, hidentifier, hcontains⟩
    | inr hanswered =>
        exact Or.inr (hanswered.of_same hstored fun request hmem _ => hrequests ▸ hmem)

/-- A contact that is logged for the first time. -/
theorem Kept.append (h : system.Kept server) {contact : OutboxContact} {clientId : String}
    (hcontact : Loggable contact) (hkey : contact.clientKey = some clientId)
    (hnew : clientId ∉ localIds system.allContacts)
    (hcontacts : system'.allContacts = sortContacts (system.allContacts ++ [contact]))
    (hrendered : system'.rendered = system.rendered)
    (hrequests : system'.requests = system.requests)
    (hcommitting : system'.committingContactIds = system.committingContactIds)
    (hlogged : system'.logged = system.logged ++ [clientId])
    (hserver : system'.serverIds = system.serverIds) (hstored : system'.stored = system.stored)
    (hentered : system'.entered =
      Function.update system.entered (.client clientId) (some contact.adif)) :
        system'.Kept server := by
  have hmem : ∀ {current}, current ∈ system'.allContacts ↔
      current ∈ system.allContacts ∨ current = contact := by
    intro current
    rw [hcontacts, (sortContacts_perm _).mem_iff, List.mem_append, List.mem_singleton]
  have hidentifier : contact.contactIdentifier = some (.client clientId) := by
    rw [OutboxContact.contactIdentifier, hcontact.1, hkey]
    rfl
  have hretained : contact.shouldPersistLocally := by
    rw [OutboxContact.shouldPersistLocally, hcontact.2.1]
    rfl
  exact {
    commits := h.commits.of_same hrequests hcommitting
    answered := hrequests ▸ h.answered
    placed := by
      intro current hcurrent
      cases hmem.mp hcurrent with
      | inl hold => exact h.placed current hold
      | inr hthis =>
          intro hid
          rw [hthis, hcontact.1] at hid
          cases hid
    rendered := hrendered ▸ h.rendered
    sent := hrequests ▸ h.sent
    logged := by
      intro other hother
      rw [hlogged, List.mem_append, List.mem_singleton]
      obtain ⟨current, hcurrent, hid, hclient⟩ := mem_localIds.mp hother
      cases hmem.mp hcurrent with
      | inl hold => exact Or.inl (h.logged other (mem_localIds.mpr ⟨current, hold, hid, hclient⟩))
      | inr hthis =>
          rw [hthis, hkey] at hclient
          exact Or.inr (Option.some.inj hclient).symm
    stored := by
      rw [hstored, hserver]
      exact h.stored
    entered := by
      intro id hsome
      have hne : ContactIdentifier.id id ≠ .client clientId := by
        intro heq
        cases heq
      rw [hentered, Function.update_of_ne hne] at hsome
      rw [hserver]
      exact h.entered id hsome
    shown := by
      intro current hcurrent hcurrentRetained identifier values hcurrentIdentifier hvalues
      rw [hentered] at hvalues
      cases hmem.mp hcurrent with
      | inr hthis =>
          rw [hthis, hidentifier] at hcurrentIdentifier
          rw [← Option.some.inj hcurrentIdentifier, Function.update_self] at hvalues
          rw [hthis, Option.some.inj hvalues]
          exact contains_self values
      | inl hold =>
          have hne : identifier ≠ .client clientId := by
            intro hsame
            rw [hsame] at hcurrentIdentifier
            exact hnew (mem_localIds_of_identifier hold hcurrentIdentifier)
          rw [Function.update_of_ne hne] at hvalues
          exact h.shown current hold hcurrentRetained identifier values hcurrentIdentifier hvalues
    safe := by
      intro identifier values hvalues
      rw [hentered] at hvalues
      by_cases hsame : identifier = .client clientId
      · rw [hsame, Function.update_self] at hvalues
        refine Or.inl ⟨contact, hmem.mpr (Or.inr rfl), hretained, ?_, ?_⟩
        · rw [hsame]
          exact hidentifier
        · rw [Option.some.inj hvalues]
          exact contains_self values
      · rw [Function.update_of_ne hsame] at hvalues
        refine (h.safe identifier values hvalues).imp (fun hheld => ?_) fun hanswered => ?_
        · obtain ⟨current, hcurrent, hrest⟩ := hheld
          exact ⟨current, hmem.mpr (Or.inl hcurrent), hrest⟩
        · exact hanswered.of_same hstored fun request hrequest _ => hrequests ▸ hrequest }

theorem Kept.log (h : system.Kept server) (contact : OutboxContact) :
    (system.log contact).Kept server := by
  rw [OutboxSystem.log]
  split
  · exact h
  · next clientId hkey =>
      split
      · exact h
      · next hallowed =>
          rw [not_or, not_not] at hallowed
          have hnew : clientId ∉ localIds system.allContacts :=
            fun hmem => hallowed.2 (h.logged clientId hmem)
          exact h.append hallowed.1 hkey hnew rfl rfl rfl rfl rfl rfl rfl rfl

theorem Kept.wsjtxLogged (h : system.Kept server) (contact : OutboxContact) :
    (system.wsjtxLogged contact).Kept server := by
  rw [OutboxSystem.wsjtxLogged]
  split
  · exact h
  · next clientId hkey =>
      split
      · exact h
      · next hallowed =>
          rw [not_not] at hallowed
          have hclient : contact.clientId = some clientId := (Option.filter_eq_some_iff.mp hkey).1
          cases hany : system.allContacts.any (·.clientId = contact.clientId) with
          | true =>
              have hsame : appendPendingContact system.allContacts contact =
                  system.allContacts := by
                rw [appendPendingContact, hkey, Option.isSome_some, hany, Bool.true_and, if_pos rfl]
              rw [hsame]
              exact {
                h with
                commits := h.commits.of_same rfl rfl
                logged := fun other hmem => List.mem_append_left _ (h.logged other hmem) }
          | false =>
              have hnew : clientId ∉ localIds system.allContacts := by
                intro hmem
                obtain ⟨current, hcurrent, -, hcurrentKey⟩ := mem_localIds.mp hmem
                have hsame := (Option.filter_eq_some_iff.mp hcurrentKey).1
                rw [List.any_eq_false] at hany
                exact hany current hcurrent (by simp [hsame, hclient])
              have happended : appendPendingContact system.allContacts contact =
                  sortContacts (system.allContacts ++ [contact]) := by
                rw [appendPendingContact, hany, Bool.and_false]
                rfl
              exact h.append hallowed hkey hnew happended rfl rfl rfl rfl rfl rfl rfl

omit [Platform] in
theorem mem_listed {identifiers : List ContactIdentifier} {identifier : ContactIdentifier} :
    identifier ∈ system.listed identifiers ↔ identifier ∈ identifiers ∧
      ∃ contact ∈ system.allContacts, contact.contactIdentifier = some identifier := by
  rw [listed, List.mem_filter, List.any_eq_true]
  simp only [decide_eq_true_eq]

omit [Platform] in
/-- What was entered after an edit. -/
theorem entered_edit (identifiers : List ContactIdentifier) (field : String) (value : Value)
    (identifier : ContactIdentifier) :
    (system.edit identifiers field value).entered identifier =
      if identifier ∈ system.listed identifiers then
        some (insert ((system.entered identifier).getD []) field value)
      else system.entered identifier := rfl

theorem Kept.edit [Browser] (h : system.Kept server) (identifiers : List ContactIdentifier)
    (field : String) (value : Value)
    (hscope : system.InScope server (.edit identifiers field value))
    (hsafe : system.StepSafe server (.edit identifiers field value)) :
    (system.edit identifiers field value).Kept server := by
  have hselected : ∀ {contact : OutboxContact} {identifier},
      contact.contactIdentifier = some identifier →
      (contact.contactIdentifier.any identifiers.contains ↔ identifier ∈ identifiers) := by
    intro contact identifier hidentifier
    rw [hidentifier, Option.any_some, List.contains_iff_mem]
  -- An entry under an identifier that is edited shows what was entered before.
  have hbefore : ∀ contact ∈ system.allContacts, ∀ identifier ∈ identifiers,
      contact.contactIdentifier = some identifier →
      Contains contact.adif ((system.entered identifier).getD []) := by
    intro contact hmem identifier hin hidentifier
    cases hvalues : system.entered identifier with
    | none => exact contains_nil contact.adif
    | some values => exact hsafe contact hmem identifier hin hidentifier values hvalues
  refine ⟨h.commits.of_same rfl rfl, h.answered, fun current hmem => ?_, h.rendered, h.sent,
    fun clientId hmem => ?_, h.stored, fun id hsome => ?_,
    fun current hmem hretained identifier values hidentifier hvalues => ?_,
    fun identifier values hvalues => ?_⟩
  · cases mem_updateContacts hmem with
    | inl hold => exact h.placed current hold.1
    | inr hedited =>
        obtain ⟨_, _, _, _, _, hplaced⟩ := hedited
        exact hplaced
  · exact h.logged clientId
      ((localIds_updateContacts system.allContacts identifiers field value).subset hmem)
  · rw [entered_edit] at hsome
    split at hsome
    · next hlisted => exact hscope id hlisted
    · exact h.entered id hsome
  · rw [entered_edit] at hvalues
    cases mem_updateContacts hmem with
    | inl hold =>
        have hout : identifier ∉ system.listed identifiers := by
          intro hlisted
          have hin := (hselected hidentifier).mpr (mem_listed.mp hlisted).1
          rw [hold.2] at hin
          cases hin
        rw [if_neg hout] at hvalues
        exact h.shown current hold.1 hretained identifier values hidentifier hvalues
    | inr hedited =>
        obtain ⟨contact, hcontact, hin, hsame, hadif, -⟩ := hedited
        rw [hsame] at hidentifier
        have hidentified := (hselected hidentifier).mp hin
        rw [if_pos (mem_listed.mpr ⟨hidentified, contact, hcontact, hidentifier⟩)] at hvalues
        rw [hadif, ← Option.some.inj hvalues]
        exact (hbefore contact hcontact identifier hidentified hidentifier).insert field value
  · rw [entered_edit] at hvalues
    split at hvalues
    · next hlisted =>
        obtain ⟨hin, contact, hcontact, hidentifier⟩ := mem_listed.mp hlisted
        obtain ⟨current, hcurrent, hretained, hsame, hadif⟩ :=
          (mem_updateContacts_of_mem field value hcontact).2 ((hselected hidentifier).mpr hin)
        refine Or.inl ⟨current, hcurrent, hretained, hsame.trans hidentifier, ?_⟩
        rw [hadif, ← Option.some.inj hvalues]
        exact (hbefore contact hcontact identifier hin hidentifier).insert field value
    · next hout =>
        refine (h.safe identifier values hvalues).imp (fun hheld => ?_) fun hanswered => ?_
        · obtain ⟨contact, hcontact, hretained, hidentifier, hcontains⟩ := hheld
          refine ⟨contact, ?_, hretained, hidentifier, hcontains⟩
          refine (mem_updateContacts_of_mem field value hcontact).1
            (Bool.eq_false_iff.mpr fun hin => ?_)
          exact hout (mem_listed.mpr ⟨(hselected hidentifier).mp hin, contact, hcontact,
            hidentifier⟩)
        · exact hanswered.of_same rfl fun request hmem _ => hmem

theorem Kept.delete (h : system.Kept server) (identifiers : List ContactIdentifier) :
    (system.delete identifiers).Kept server := by
  have hstored : ∀ id, get? (system.delete identifiers).stored id =
      if .id id ∉ identifiers then get? system.stored id else none := by
    intro id
    refine (get?_filter system.stored (fun id => decide (.id id ∉ identifiers)) id).trans ?_
    simp only [decide_eq_true_eq]
  have hentered : ∀ identifier, (system.delete identifiers).entered identifier =
      if identifier ∈ identifiers then none else system.entered identifier := fun _ => rfl
  have hserver : ∀ id ∈ system.serverIds, .id id ∉ identifiers →
      id ∈ (system.delete identifiers).serverIds :=
    fun id hmem hout => List.mem_filter.mpr ⟨hmem, decide_eq_true hout⟩
  have hold : ∀ {contact}, contact ∈ (system.delete identifiers).allContacts →
      contact ∈ system.allContacts := fun hmem => (List.mem_filter.mp hmem).1
  refine ⟨h.commits.of_same rfl rfl, h.answered, fun contact hmem =>
    h.placed contact (hold hmem), h.rendered,
    h.sent, fun clientId hmem => h.logged clientId ((localIds_filter _ _).subset hmem),
    fun id hsome => ?_, fun id hsome => ?_,
    fun contact hmem hretained identifier values hidentifier hvalues => ?_,
    fun identifier values hvalues => ?_⟩
  · rw [hstored] at hsome
    split at hsome
    · next hout => exact hserver id (h.stored id hsome) hout
    · cases hsome
  · rw [hentered] at hsome
    split at hsome
    · cases hsome
    · next hout => exact hserver id (h.entered id hsome) hout
  · rw [hentered] at hvalues
    split at hvalues
    · cases hvalues
    · exact h.shown contact (hold hmem) hretained identifier values hidentifier hvalues
  · rw [hentered] at hvalues
    split at hvalues
    · cases hvalues
    · next hout =>
        refine (h.safe identifier values hvalues).imp (fun hheld => ?_) fun hanswered => ?_
        · obtain ⟨contact, hcontact, hretained, hidentifier, hcontains⟩ := hheld
          refine ⟨contact, List.mem_filter.mpr ⟨hcontact, ?_⟩, hretained, hidentifier, hcontains⟩
          rw [hidentifier, Option.any_some, Bool.not_eq_true', Bool.eq_false_iff, ne_eq,
            List.contains_iff_mem]
          exact hout
        · obtain ⟨id, rfl, ⟨adif, hadif, hcontains⟩, hapart⟩ := hanswered
          refine ⟨id, rfl, ⟨adif, ?_, hcontains⟩, hapart⟩
          rw [hstored, if_pos hout]
          exact hadif

/-- Commits that send contacts under one identifier have one key. -/
theorem Kept.key_eq (h : system.Kept server) {request other : CommitRequest}
    (hmem : request ∈ system.requests) (hother : other ∈ system.requests)
    (hsame : request.contact.contactIdentifier = other.contact.contactIdentifier) :
    request.key = other.key := by
  have hkey := commitKey_of_identifier (h.sent request hmem) (h.commits.sent request hmem)
  have hotherKey := commitKey_of_identifier (h.sent other hother) (h.commits.sent other hother)
  rw [hsame, hotherKey] at hkey
  exact (Option.some.inj hkey).symm

theorem Kept.commit [Browser] (h : system.Kept server) (hsafe : system.StepSafe server .commit) :
    system.commit.Kept server := by
  have hcommits := h.commits.commit
  revert hcommits
  rw [OutboxSystem.commit]
  split
  · exact fun _ => h
  · next contact hnext =>
      cases hcommit : commitKey contact with
      | none => exact fun _ => h
      | some key =>
          intro hcommits
          refine ⟨hcommits, fun request hmem answer hanswer => ?_, h.placed, h.rendered,
            fun request hmem => ?_, h.logged, h.stored, h.entered, h.shown,
            fun identifier values hvalues => ?_⟩
          · cases List.mem_append.mp hmem with
            | inl hold => exact h.answered request hold answer hanswer
            | inr hnew =>
                rw [List.mem_singleton.mp hnew] at hanswer
                cases hanswer
          · cases List.mem_append.mp hmem with
            | inl hold => exact h.sent request hold
            | inr hnew =>
                rw [List.mem_singleton.mp hnew]
                exact h.rendered contact (List.mem_of_find?_eq_some hnext)
          · by_cases hwaits : contact.contactIdentifier = some identifier
            · exact Or.inl (h.heldLocally (hsafe contact hnext identifier hwaits) hvalues)
            · refine (h.safe identifier values hvalues).imp id fun hanswered => ?_
              obtain ⟨id, hid, hstored, hapart⟩ := hanswered
              refine ⟨id, hid, hstored, fun request hmem hwaiting => ?_⟩
              cases List.mem_append.mp hmem with
              | inl hold => exact hapart request hold hwaiting
              | inr hnew =>
                  rw [List.mem_singleton.mp hnew]
                  exact hwaits

theorem Kept.store [Browser] (h : system.Kept server) (index : Nat) (id : Int)
    (answer : OutboxContact) (hscope : system.InScope server (.store index id answer))
    (hsafe : system.StepSafe server (.store index id answer)) :
    (system.store index id answer).Kept server := by
  have hcommits := h.commits.store index id answer
  revert hcommits
  rw [OutboxSystem.store]
  split
  · exact fun _ => h
  · next request hget =>
      split
      · next hstorable =>
          intro hcommits
          obtain ⟨-, -, -, hid⟩ := hstorable
          have hmem := List.mem_of_getElem? hget
          have hserver : ∀ other, other ∈ system.serverIds ∨ other = id →
              other ∈ (if id ∈ system.serverIds then system.serverIds else system.serverIds ++
                [id]) := by
            intro other hother
            split
            · next hin => exact hother.elim (fun h => h) (fun hsame => hsame ▸ hin)
            · exact List.mem_append.mpr (hother.imp_right List.mem_singleton.mpr)
          -- What was entered under the id that is stored waits in the list.
          have hheld : ∀ values, system.entered (.id id) = some values →
              system.HeldLocally (.id id) values := by
            intro values hvalues
            cases hcontact : request.contact.id with
            | none =>
                rw [hcontact] at hid
                exact absurd (h.entered id (by rw [hvalues]; rfl)) hid
            | some old =>
                rw [hcontact] at hid
                have hsent : request.contact.id = some id := hcontact.trans hid
                cases hsafe request hget with
                | inr hwaits => exact h.heldLocally (hwaits id hsent) hvalues
                | inl hwaiting =>
                    cases h.safe (.id id) values hvalues with
                    | inl hheld => exact hheld
                    | inr hanswered =>
                        obtain ⟨_, _, _, hapart⟩ := hanswered
                        refine absurd ?_ (hapart request hmem hwaiting)
                        rw [OutboxContact.contactIdentifier, hsent]
                        rfl
          refine ⟨hcommits, fun other hother held hheldAnswer => ?_, h.placed, h.rendered,
            fun other hother => ?_, h.logged, fun other hsome => ?_,
            fun other hsome => hserver other (Or.inl (h.entered other hsome)), h.shown,
            fun identifier values hvalues => ?_⟩
          · obtain rfl | ⟨place, -, hplace⟩ := mem_set hother
            · rw [← Option.some.inj hheldAnswer]
              exact hscope request hget
            · exact h.answered other (List.mem_of_getElem? hplace) held hheldAnswer
          · obtain rfl | ⟨place, -, hplace⟩ := mem_set hother
            · exact h.sent request hmem
            · exact h.sent other (List.mem_of_getElem? hplace)
          · rw [get?_put] at hsome
            split at hsome
            · next hsame => exact hserver other (Or.inr hsame.symm)
            · exact hserver other (Or.inl (h.stored other hsome))
          · by_cases hsame : identifier = .id id
            · rw [hsame] at hvalues ⊢
              exact Or.inl (hheld values hvalues)
            · refine (h.safe identifier values hvalues).imp (fun hheld => hheld) fun hanswered => ?_
              obtain ⟨other, rfl, ⟨adif, hadif, hcontains⟩, hapart⟩ := hanswered
              have hne : id ≠ other := fun heq => hsame (by rw [heq])
              refine ⟨other, rfl, ⟨adif, ?_, hcontains⟩, fun found hfound hwaiting => ?_⟩
              · rw [get?_put, if_neg hne]
                exact hadif
              · obtain rfl | ⟨place, -, hplace⟩ := mem_set hfound
                · exact hapart request hmem hwaiting
                · exact hapart found (List.mem_of_getElem? hplace) hwaiting
      · exact fun _ => h

theorem Kept.fail (h : system.Kept server) (index : Nat) : (system.fail index).Kept server := by
  have hcommits := h.commits.fail index
  revert hcommits
  rw [OutboxSystem.fail]
  split
  · exact fun _ => h
  · next request hget =>
      split
      · exact fun _ => h
      · intro hcommits
        have hmem := List.mem_of_getElem? hget
        refine ⟨hcommits, fun other hother answer hanswer => ?_, h.placed, h.rendered,
          fun other hother => ?_, h.logged, h.stored, h.entered, h.shown,
          fun identifier values hvalues => ?_⟩
        · obtain rfl | ⟨place, -, hplace⟩ := mem_set hother
          · exact h.answered request hmem answer hanswer
          · exact h.answered other (List.mem_of_getElem? hplace) answer hanswer
        · obtain rfl | ⟨place, -, hplace⟩ := mem_set hother
          · exact h.sent request hmem
          · exact h.sent other (List.mem_of_getElem? hplace)
        · refine (h.safe identifier values hvalues).imp (fun hheld => hheld) fun hanswered => ?_
          refine hanswered.of_same rfl fun other hother hwaiting => ?_
          obtain rfl | ⟨place, -, hplace⟩ := mem_set hother
          · cases hwaiting
          · exact List.mem_of_getElem? hplace

/-- What another client commits leaves what was entered where it is. -/
theorem Kept.serverCommit [BrowserNumbers] [Browser] (h : system.Kept server) (id : Int)
    (adif : Map)
    (hsafe : system.StepSafe server (.serverCommit id adif)) :
    (system.step (.serverCommit id adif)).Kept server := by
  have hserver : ∀ other, other ∈ system.serverIds ∨ other = id →
      other ∈ (system.step (.serverCommit id adif)).serverIds := by
    intro other hother
    dsimp only [OutboxSystem.step]
    split
    · next hin => exact hother.elim (fun hold => hold) (fun hsame => hsame ▸ hin)
    · exact List.mem_append.mpr (hother.imp_right List.mem_singleton.mpr)
  have hstored : ∀ other, get? (system.step (.serverCommit id adif)).stored other =
      if id = other then some adif else get? system.stored other := get?_put system.stored id adif
  refine ⟨h.commits.of_same rfl rfl, h.answered, h.placed, h.rendered, h.sent, h.logged,
    fun other hsome => ?_, fun other hsome =>
      hserver other (Or.inl (h.entered other hsome)), h.shown,
    fun identifier values hvalues => ?_⟩
  · rw [hstored] at hsome
    split at hsome
    · next hsame => exact hserver other (Or.inr hsame.symm)
    · exact hserver other (Or.inl (h.stored other hsome))
  · cases h.safe identifier values hvalues with
    | inl hheld => exact Or.inl hheld
    | inr hanswered =>
        obtain ⟨other, rfl, ⟨held, hheld, hcontains⟩, hapart⟩ := hanswered
        by_cases hsame : id = other
        · subst hsame
          refine (hsafe values hvalues).imp (fun hwaits => h.heldLocally hwaits hvalues)
            fun hcommitted => ⟨id, rfl, ⟨adif, ?_, hcommitted⟩, hapart⟩
          rw [hstored, if_pos rfl]
        · refine Or.inr ⟨other, rfl, ⟨held, ?_, hcontains⟩, hapart⟩
          rw [hstored, if_neg hsame]
          exact hheld

end OutboxSystem

end Log73.Frontend
