import Log73.Db.RoundTrip
import Log73.Frontend.Outbox
import Log73.Library.Runs
import Log73.LogCache.Enrich

/-!
The outbox of one logger screen and the server: contacts are logged, edited and committed, and
pages and events of the server come in between. A commit is a request that the server may store
before or after the page gave it up; other clients commit contacts as well.
-/

namespace Log73.Frontend

open SortedAssoc

/-- A commit that is under way, with the contact it sent and the answer once it is stored. -/
structure CommitRequest where
  key : CommitKey
  contact : OutboxContact
  answer : Option OutboxContact := none
  waiting : Bool := true

/-- The effect that commits runs on the contacts that were rendered. The contacts of the server are
held as they were sent and answered. No part of the program reads what was logged, what each commit
created, and what the operator entered last. -/
structure OutboxSystem where
  allContacts : List OutboxContact := []
  rendered : List OutboxContact := []
  committingContactIds : List CommitKey := []
  callsignPrefix : String := ""
  requests : List CommitRequest := []
  serverIds : List Int := []
  stored : List (Int × Map) := []
  logged : List String := []
  created : List (String × Int) := []
  entered : ContactIdentifier → Option Map := fun _ => none

inductive OutboxAction where
  | log (contact : OutboxContact)
  | wsjtxLogged (contact : OutboxContact)
  | edit (identifiers : List ContactIdentifier) (field : String) (value : Value)
  | delete (identifiers : List ContactIdentifier)
  | render
  | commit
  | store (index : Nat) (id : Int) (answer : OutboxContact)
  | respond (index : Nat)
  | fail (index : Nat)
  | retry
  | setCallsignPrefix (callsignPrefix : String)
  | page (reset : Bool) (contacts : List OutboxContact)
  | remoteContact (contact : OutboxContact)
  | remoteContactDeleted (id : Int)
  | serverCommit (id : Int) (adif : Map)
  | serverDelete (id : Int)

/-- A contact that an operator or WSJT-X logs. -/
def Loggable (contact : OutboxContact) : Prop :=
  contact.id = none ∧ contact.status = some .pending ∧ contact.clientKey.isSome

instance (contact : OutboxContact) : Decidable (Loggable contact) :=
  inferInstanceAs (Decidable (_ ∧ _ ∧ _))

/-- A contact as the server sends it: columns, enrichment and scores give the rest of it. -/
def Served (contact : OutboxContact) : Prop :=
  contact.id.isSome ∧ contact.clientId = none ∧ contact.status = some .committed

instance (contact : OutboxContact) : Decidable (Served contact) :=
  inferInstanceAs (Decidable (_ ∧ _ ∧ _))

section Backend

variable [Platform]

/-- Every row of the database is read back so. -/
theorem served_rowToContact (row : QsoRow) : Served (ofBackend (rowToContact row)) := by
  have hclient : contactMetaValue (rowToContact row) "clientId" = none :=
    contactMetaValue_rowToContact_of_not_mem row (by decide)
  refine ⟨?_, ?_, ?_⟩
  · rw [ofBackend, contactId_rowToContact]
    rfl
  · rw [ofBackend, hclient]
    rfl
  · rw [ofBackend, status_rowToContact]
    rfl

/-- What the server knows of the log. -/
structure LogServer where
  database : DxccDatabase
  logId : Int64
  contestId : String

namespace LogServer

variable (server : LogServer)

/-- What the server fills in before it writes a contact. -/
def prepared (contact : Contact) : Contact :=
  preparedContact server.logId.toInt server.contestId (enrichContact server.database contact)

/-- The row that is written for a contact of the page. Of the metadata that the handler leaves to
it, the warnings go into the row. -/
def Writes (contact : OutboxContact) (row : QsoRow) : Prop :=
  ∃ metaFields, storedRow row.id (server.prepared (buildContact metaFields contact.adif)) = some row

/-- The answer to a commit is the row that was written, read back. Where the log was loaded again in
between, it has been enriched once more. -/
def Answers (contact answer : OutboxContact) : Prop :=
  ∃ row held, server.Writes contact row ∧
    (held = rowToContact row ∨ held = enrichContact server.database (rowToContact row)) ∧
    answer = { ofBackend held with details := answer.details }

/-- The server takes a field of a contact as it is sent: it is under its own name, nothing else is
filled in when the contact is written or loaded again, and there is a form of it in the database. -/
structure Lasting (contact : OutboxContact) (field : String) (value : Value) : Prop where
  name : normalizeAdifFieldName field = field
  own : field ≠ "ID" ∧ field ≠ "WARNINGS_JSON"
  written : ∀ metaFields,
    contactAdifValue (server.prepared (buildContact metaFields contact.adif)) field = some value
  loaded : ∀ row, server.Writes contact row →
    contactAdifValue (enrichContact server.database (rowToContact row)) field =
      contactAdifValue (rowToContact row) field
  form : (keptForm field value).isSome

variable {server}

theorem Answers.of_stored {contact answer : OutboxContact} (id : Int64) (metaFields : Map)
    (h : (storedRow id (server.prepared (buildContact metaFields contact.adif))).map
      (fun row => ofBackend (rowToContact row)) = some answer) : server.Answers contact answer := by
  obtain ⟨row, hrow, hanswer⟩ := Option.map_eq_some_iff.mp h
  refine ⟨row, rowToContact row, ⟨metaFields, ?_⟩, Or.inl rfl, ?_⟩
  · have hid : row.id = id := congrArg QsoRow.id (storedRow_eq hrow)
    rw [hid]
    exact hrow
  · rw [← hanswer]

theorem Answers.served {contact answer : OutboxContact} (h : server.Answers contact answer) :
    Served answer := by
  obtain ⟨row, held, -, hheld, hanswer⟩ := h
  have hserved := served_rowToContact row
  rw [hanswer]
  cases hheld with
  | inl hrow =>
      rw [hrow]
      exact hserved
  | inr hloaded =>
      rw [hloaded]
      simpa [Served, ofBackend] using hserved

variable (server) in
theorem canonicalContact_prepared {contact : Contact} (h : CanonicalContact contact) :
    CanonicalContact (server.prepared contact) := by
  apply CanonicalContact.preparedContact
  exact enrichContact_keeps server.database contact
    (fun _ field value h => h.setContactAdif field value) h

/-- A field that lasts comes back in the form of its column. -/
theorem Answers.get?_adif {contact answer : OutboxContact} (h : server.Answers contact answer)
    {field : String} {value : Value} (hlasting : server.Lasting contact field value) :
    get? answer.adif field = keptForm field value := by
  obtain ⟨row, held, hwrites, hheld, hanswer⟩ := h
  have hsame : contactAdifValue held field = contactAdifValue (rowToContact row) field := by
    cases hheld with
    | inl hrow => rw [hrow]
    | inr hloaded => rw [hloaded, hlasting.loaded row hwrites]
  obtain ⟨metaFields, hrow⟩ := hwrites
  obtain ⟨adif, hprepared, hcanonical⟩ := canonicalContact_prepared server
    (canonicalContact_buildContact metaFields contact.adif)
  have hid : normalizeAdifFieldName field ≠ "ID" := by
    rw [hlasting.name]
    exact hlasting.own.1
  have hback := contactAdifValue_readBack hprepared hcanonical hrow hid
  rw [canonicalField_eq_keptForm (by rw [hlasting.name]; exact hlasting.own.2)
    (hlasting.written metaFields)] at hback
  rw [← hback, ← hsame, hanswer, contactAdifValue, hlasting.name, ofBackend]
  cases contactAdif held with
  | none => rfl
  | some _ => rfl

/-- A field the server does not fill in lasts under its own name. -/
theorem Lasting.of_not_enriched {contact : OutboxContact} {field : String} {value : Value}
    (hname : normalizeAdifFieldName field = field) (hown : field ≠ "ID" ∧ field ≠ "WARNINGS_JSON")
    (henriched : field ∉ enrichedFields) (hcontest : field ≠ "CONTEST_ID")
    (hvalue : get? (normalizeContactAdif contact.adif) field = some value)
    (hform : (keptForm field value).isSome) : server.Lasting contact field value := by
  have hunfilled : ∀ held : Contact, contactAdifValue (enrichContact server.database held) field =
      contactAdifValue held field := by
    intro held
    apply contactAdifValue_enrichContact
    rw [hname]
    exact henriched
  refine ⟨hname, hown, fun metaFields => ?_, fun row _ => hunfilled (rowToContact row), hform⟩
  rw [prepared, contactAdifValue_preparedContact_of_ne, hunfilled, contactAdifValue,
    contactAdif_buildContact, Option.bind_some, hname, hvalue]
  rw [hname]
  exact hcontest

end LogServer

end Backend

namespace OutboxSystem

variable (system : OutboxSystem)

/-- The identifiers a contact of the list has. -/
def listed (identifiers : List ContactIdentifier) : List ContactIdentifier :=
  identifiers.filter fun identifier =>
    system.allContacts.any fun contact => contact.contactIdentifier = some identifier

/-- A client id is drawn at random, and never a second time. -/
def log (contact : OutboxContact) : OutboxSystem :=
  match contact.clientKey with
  | none => system
  | some clientId =>
      if ¬ Loggable contact ∨ clientId ∈ system.logged then system
      else
        { system with
          allContacts := sortContacts (system.allContacts ++ [contact])
          logged := system.logged ++ [clientId]
          entered := Function.update system.entered (.client clientId) (some contact.adif) }

/-- WSJT-X names its events, and may send one again. -/
def wsjtxLogged (contact : OutboxContact) : OutboxSystem :=
  match contact.clientKey with
  | none => system
  | some clientId =>
      if ¬ Loggable contact then system
      else
        { system with
          allContacts := appendPendingContact system.allContacts contact
          logged := system.logged ++ [clientId]
          entered :=
            if system.allContacts.any (·.clientId = contact.clientId) then system.entered
            else Function.update system.entered (.client clientId) (some contact.adif) }

def edit (identifiers : List ContactIdentifier) (field : String) (value : Value) : OutboxSystem :=
  { system with
    allContacts := updateContacts system.allContacts identifiers field value
    entered := fun identifier =>
      if identifier ∈ system.listed identifiers then
        some (insert ((system.entered identifier).getD []) field value)
      else system.entered identifier }

/-- The operator deletes contacts, the committed ones of the server with them. -/
def delete (identifiers : List ContactIdentifier) : OutboxSystem :=
  { system with
    allContacts := removeContacts system.allContacts identifiers
    serverIds := system.serverIds.filter fun id => .id id ∉ identifiers
    stored := system.stored.filter fun entry => .id entry.1 ∉ identifiers
    entered := fun identifier =>
      if identifier ∈ identifiers then none else system.entered identifier }

/-- The effect of the contacts that were rendered. -/
def commit : OutboxSystem :=
  match nextContactToCommit system.rendered system.committingContactIds with
  | none => system
  | some contact =>
      (commitKey contact).elim system fun key =>
        { system with
          committingContactIds := system.committingContactIds ++ [key]
          requests := system.requests ++ [{ key := key, contact := contact }] }

/-- The request has not been stored, and this may be its answer. -/
def Storable (request : CommitRequest) (id : Int) (answer : OutboxContact) : Prop :=
  request.answer.isNone ∧ Served answer ∧ answer.id = some id ∧
    (if request.contact.id.isNone then id ∉ system.serverIds else request.contact.id = some id)

instance (request : CommitRequest) (id : Int) (answer : OutboxContact) :
    Decidable (system.Storable request id answer) :=
  inferInstanceAs (Decidable (_ ∧ _ ∧ _ ∧ ite _ _ _))

/-- What a commit creates: a contact of the server for a client id. -/
def creation (request : CommitRequest) (id : Int) : List (String × Int) :=
  if request.contact.id.isNone then (request.contact.clientKey.map (·, id)).toList else []

/-- The server stores the contact, under a new id if it has none. It never looks at client ids. -/
def store (index : Nat) (id : Int) (answer : OutboxContact) : OutboxSystem :=
  match system.requests[index]? with
  | none => system
  | some request =>
      if system.Storable request id answer then
        { system with
          requests := system.requests.set index { request with answer := some answer }
          serverIds := if id ∈ system.serverIds then system.serverIds else system.serverIds ++ [id]
          stored := put system.stored id answer.adif
          created := system.created ++ creation request id }
      else system

/-- Once no entry waits for the answer any more, what was entered is known under its id. -/
def settled (entered : ContactIdentifier → Option Map) (contacts : List OutboxContact)
    (contact answer : OutboxContact) : ContactIdentifier → Option Map :=
  match contact.contactIdentifier, answer.id with
  | some identifier, some id =>
      if contacts.any fun current => current.shouldPersistLocally &&
          current.contactIdentifier = some identifier then entered
      else
        (entered identifier).elim entered fun values =>
          Function.update (Function.update entered identifier none) (.id id) (some values)
  | _, _ => entered

/-- The page gets no answer, or gives up. -/
def fail (index : Nat) : OutboxSystem :=
  match system.requests[index]? with
  | none => system
  | some request =>
      if !request.waiting then system
      else
        { system with
          requests := system.requests.set index { request with waiting := false }
          committingContactIds := system.committingContactIds.filter (· ≠ request.key) }

section Responses

variable [BrowserNumbers] [Platform] [Browser]

def respond (index : Nat) : OutboxSystem :=
  match system.requests[index]? with
  | none => system
  | some request =>
      match request.answer with
      | none => system
      | some answer =>
          if !request.waiting then system
          else
            let contacts := applyCommitResponse system.allContacts system.callsignPrefix
              request.contact answer
            { system with
              allContacts := contacts
              requests := system.requests.eraseIdx index
              committingContactIds := system.committingContactIds.filter (· ≠ request.key)
              entered := settled system.entered contacts request.contact answer }

def page (reset : Bool) (contacts : List OutboxContact) : OutboxSystem :=
  if ¬ ∀ contact ∈ contacts, Served contact then system
  else
    { system with
      allContacts :=
        if reset then mergeResetCommittedPage system.allContacts contacts
        else mergeCommittedPage system.allContacts (contacts.map committedBackendContact) }

def remoteContact (contact : OutboxContact) : OutboxSystem :=
  if ¬ Served contact then system
  else
    { system with
      allContacts := upsertRemoteContact system.allContacts system.callsignPrefix contact }

def step (system : OutboxSystem) : OutboxAction → OutboxSystem
  | .log contact => system.log contact
  | .wsjtxLogged contact => system.wsjtxLogged contact
  | .edit identifiers field value => system.edit identifiers field value
  | .delete identifiers => system.delete identifiers
  | .render => { system with rendered := system.allContacts }
  | .commit => system.commit
  | .store index id answer => system.store index id answer
  | .respond index => system.respond index
  | .fail index => system.fail index
  | .retry => { system with allContacts := sortContacts system.allContacts }
  | .setCallsignPrefix callsignPrefix => { system with callsignPrefix := callsignPrefix }
  | .page reset contacts => system.page reset contacts
  | .remoteContact contact => system.remoteContact contact
  | .remoteContactDeleted id =>
      { system with allContacts := removeRemoteContact system.allContacts id }
  | .serverCommit id adif =>
      { system with
        serverIds := if id ∈ system.serverIds then system.serverIds else system.serverIds ++ [id]
        stored := put system.stored id adif }
  | .serverDelete id =>
      { system with
        serverIds := system.serverIds.filter (· ≠ id)
        stored := erase system.stored id }

def run (system : OutboxSystem) (actions : List OutboxAction) : OutboxSystem :=
  Runs.run step system actions

end Responses

end OutboxSystem

end Log73.Frontend
