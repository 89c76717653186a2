import Mathlib.Algebra.Order.Ring.Rat
import Log73.Contact
import Log73.Frontend.Dupes
import Log73.Library.Indexing

/-!
The contacts of the logger screen (`loggerScreenHelpers.js`, `contactsOutboxState.js`,
`useContactsOutbox.js`): the list, what is merged into it, and what is committed next. A
property that is set to `undefined` is one that is not there.
-/

namespace Log73.Frontend

open SortedAssoc

/-- The hertz `Math.round` makes of the number a value reads as; one below a million counts as
megahertz. -/
class BrowserNumbers where
  roundedHertz : Value → Option Int

/-- A browser that reads no number. -/
@[reducible] def plainNumbers : BrowserNumbers where
  roundedHertz _ := none

inductive ContactStatus where
  | pending
  | updating
  | failed
  | committed
  deriving DecidableEq

/-- A contact of the list: the metadata the outbox goes by, the rest of them, and the fields. -/
structure OutboxContact where
  id : Option Int := none
  clientId : Option String := none
  status : Option ContactStatus := none
  details : Map := []
  adif : Map := []
  deriving DecidableEq

/-- What an operator selects contacts by. -/
inductive ContactIdentifier where
  | id (id : Int)
  | client (clientId : String)
  deriving DecidableEq

/-- A member of `committingContactIds`. -/
inductive CommitKey where
  | id (id : Int)
  | client (clientId : String)
  deriving DecidableEq

/-- `{...left, ...right}`. -/
def spread (left right : Map) : Map := insertAll left right

namespace OutboxContact

variable (contact : OutboxContact)

/-- A client id that is not empty. -/
def clientKey : Option String := contact.clientId.filter (· ≠ "")

def contactSortValue : ℚ :=
  match get? contact.adif "QSO_DATE_TIME_ON" with
  | some (.number (.int value)) => value
  | some (.number (.float value)) => value
  | _ => 0

def contactIdentifier : Option ContactIdentifier :=
  (contact.id.map .id).or (contact.clientKey.map .client)

def contactMatches (left right : OutboxContact) : Bool :=
  match left.id, right.id with
  | some leftId, some rightId => leftId = rightId
  | _, _ =>
      match left.clientKey, right.clientKey with
      | some leftClientId, some rightClientId => leftClientId = rightClientId
      | _, _ => false

def uncommitted : Bool := contact.status ≠ some .committed

/-- What the page keeps when it is closed. -/
def shouldPersistLocally : Bool :=
  contact.status = some .pending || contact.status = some .updating || contact.status = some .failed

end OutboxContact

open OutboxContact (contactSortValue contactMatches)

def sortContacts (contacts : List OutboxContact) : List OutboxContact :=
  Indexing.sortDescending contactSortValue contacts

section Normalize

variable [BrowserNumbers]

def normalizeContact (contact : OutboxContact) : OutboxContact :=
  { contact with
    clientId :=
      if contact.status = some .committed then (contact.id.map toString).or contact.clientId
      else contact.clientId
    adif :=
      if ((get? contact.details "source").bind Value.asStr) = some "wsjtx" then contact.adif
      else
        match (get? contact.adif "FREQ").bind BrowserNumbers.roundedHertz with
        | some hertz => insert contact.adif "FREQ" (.ofInt hertz)
        | none => contact.adif }

def committedBackendContact (contact : OutboxContact) : OutboxContact :=
  let normalized := normalizeContact contact
  let normalized := { normalized with status := normalized.status.or (some .committed) }
  { normalized with
    clientId :=
      if normalized.status = some .committed then
        (normalized.id.map toString).or normalized.clientId
      else normalized.clientId }

/-- The properties of the second contact over those of the first one. -/
def mergedContact (current committed : OutboxContact) : OutboxContact :=
  { id := committed.id.or current.id
    clientId := committed.clientId.or current.clientId
    status := committed.status.or current.status
    details := spread current.details committed.details
    adif := spread current.adif committed.adif }

/-- The entry that a contact of the backend is merged into. -/
def mergedEntry (contact current : OutboxContact) : OutboxContact :=
  let merged := mergedContact current (committedBackendContact contact)
  let details := erase merged.details "error"
  { merged with
    details := if merged.status = some .committed then erase details "force" else details }

def mergeContact (contacts : List OutboxContact) (contact : OutboxContact) : List OutboxContact :=
  match contacts.findIdx? fun current => contactMatches current contact with
  | none => sortContacts (contacts ++ [committedBackendContact contact])
  | some index => sortContacts (contacts.modify index (mergedEntry contact))

end Normalize

/-- `Map.set` for a text key: a value that is there keeps its place. -/
def setById (byId : List (Int × OutboxContact)) (id : Int) (contact : OutboxContact) :
    List (Int × OutboxContact) :=
  if byId.any (·.1 = id) then
    byId.map fun entry => if entry.1 = id then (id, contact) else entry
  else byId ++ [(id, contact)]

/-- The committed contacts of the list, by id. -/
def committedById (currentContacts : List OutboxContact) : List (Int × OutboxContact) :=
  currentContacts.foldl (fun byId contact =>
    if contact.uncommitted then byId
    else contact.id.elim byId fun id => setById byId id contact) []

def localUncommitted (currentContacts : List OutboxContact) : List OutboxContact :=
  currentContacts.filter fun contact => contact.uncommitted || contact.id.isNone

/-- A contact of a page over the one that is there under its id. -/
def setCommitted (byId : List (Int × OutboxContact)) (contact : OutboxContact) :
    List (Int × OutboxContact) :=
  contact.id.elim byId fun id =>
    setById byId id
      (match byId.find? (·.1 = id) with
        | some existing => { mergedContact existing.2 contact with status := some .committed }
        | none => { contact with status := some .committed })

def mergeCommittedPage (currentContacts committedPage : List OutboxContact) : List OutboxContact :=
  sortContacts (((committedPage.foldl setCommitted (committedById currentContacts)).map (·.2)) ++
    localUncommitted currentContacts)

def mergeResetCommittedPage [BrowserNumbers] (currentContacts page : List OutboxContact) :
    List OutboxContact :=
  sortContacts (page.map committedBackendContact ++ currentContacts.filter (·.uncommitted))

/-- The key under which a contact is committed, if it is to be. -/
def commitKey (contact : OutboxContact) : Option CommitKey :=
  match contact.status with
  | some .pending => contact.clientKey.map .client
  | some .updating => (contact.id.map .id).or (contact.clientKey.map .client)
  | _ => none

def nextContactToCommit (allContacts : List OutboxContact) (committingIds : List CommitKey) :
    Option OutboxContact :=
  allContacts.find? fun contact =>
    (commitKey contact).any fun key => !committingIds.contains key

def appendPendingContact (currentContacts : List OutboxContact) (contact : OutboxContact) :
    List OutboxContact :=
  if contact.clientKey.isSome && currentContacts.any (·.clientId = contact.clientId) then
    currentContacts
  else sortContacts (currentContacts ++ [contact])

/-- `updateContacts` of the logger screen: a field of the contacts under the identifiers. -/
def updateContacts (currentContacts : List OutboxContact) (identifiers : List ContactIdentifier)
    (field : String) (value : Value) : List OutboxContact :=
  if identifiers.isEmpty then currentContacts
  else
    sortContacts (currentContacts.map fun contact =>
      if contact.contactIdentifier.any identifiers.contains then
        { contact with
          status := some (if contact.id.isNone then .pending else .updating)
          details := erase contact.details "error"
          adif := insert contact.adif field value }
      else contact)

/-- The contacts under the identifiers are gone. -/
def removeContacts (currentContacts : List OutboxContact) (identifiers : List ContactIdentifier) :
    List OutboxContact :=
  currentContacts.filter fun contact => !contact.contactIdentifier.any identifiers.contains

/-- `removeRemoteContact`. -/
def removeRemoteContact (currentContacts : List OutboxContact) (id : Int) : List OutboxContact :=
  currentContacts.filter fun contact => contact.id ≠ some id

/-- `callsignPrefixMatches`: whether a call begins with the prefix the list is filtered by. -/
def callsignPrefixMatches [Platform] [Browser] (contact : OutboxContact) (callsignPrefix : String) :
    Bool :=
  callsignPrefix.isEmpty ||
    startsWith (toUpperCase (trim ((jsonString (get? contact.adif "CALL")).getD ""))) callsignPrefix

/-- What the page does with the answer to a commit. -/
def applyCommitResponse [BrowserNumbers] [Platform] [Browser] (currentContacts : List OutboxContact)
    (callsignPrefix : String) (contact response : OutboxContact) : List OutboxContact :=
  if callsignPrefixMatches response callsignPrefix then
    mergeContact currentContacts { response with clientId := contact.clientId }
  else currentContacts.filter fun current => current.clientId ≠ contact.clientId

/-- `upsertRemoteContact`, for a contact of another session or of none. -/
def upsertRemoteContact [BrowserNumbers] [Platform] [Browser] (currentContacts : List OutboxContact)
    (callsignPrefix : String) (contact : OutboxContact) : List OutboxContact :=
  if callsignPrefixMatches contact callsignPrefix then mergeContact currentContacts contact
  else currentContacts

section Backend

def statusOfText (text : String) : Option ContactStatus :=
  if text = "Pending" then some .pending
  else if text = "Updating" then some .updating
  else if text = "Failed" then some .failed
  else if text = "Committed" then some .committed
  else none

/-- A contact of the backend as the frontend reads it. -/
def ofBackend (contact : Contact) : OutboxContact where
  id := contactId contact
  clientId := (contactMetaValue contact "clientId").bind Value.asStr
  status := ((contactMetaValue contact "status").bind Value.asStr).bind statusOfText
  details := ((contactMeta contact).getD []).filter fun entry =>
    entry.1 ∉ ["id", "clientId", "status"]
  adif := (contactAdif contact).getD []

end Backend

end Log73.Frontend
