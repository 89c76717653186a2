import Mathlib.Data.List.Perm.Subperm
import Log73.Frontend.Outbox

/-!
What a merge, a page and an edit leave of the list: which contacts without an id, and which
that the page keeps for itself.
-/

namespace Log73.Frontend

open SortedAssoc
open OutboxContact (contactMatches)

/-- The client ids of the contacts that have no id yet. -/
def localIds (contacts : List OutboxContact) : List String :=
  contacts.filterMap fun contact => if contact.id.isNone then contact.clientKey else none

theorem sortContacts_perm (contacts : List OutboxContact) :
    (sortContacts contacts).Perm contacts :=
  Indexing.sortDescending_perm contacts

theorem localIds_perm {contacts contacts' : List OutboxContact} (h : contacts.Perm contacts') :
    (localIds contacts).Perm (localIds contacts') :=
  h.filterMap _

theorem localIds_sortContacts (contacts : List OutboxContact) :
    (localIds (sortContacts contacts)).Perm (localIds contacts) :=
  localIds_perm (sortContacts_perm contacts)

theorem localIds_append (contacts contacts' : List OutboxContact) :
    localIds (contacts ++ contacts') = localIds contacts ++ localIds contacts' :=
  List.filterMap_append

theorem localIds_filter (contacts : List OutboxContact) (keep : OutboxContact → Bool) :
    (localIds (contacts.filter keep)).Sublist (localIds contacts) :=
  List.filter_sublist.filterMap _

theorem localIds_eq_nil {contacts : List OutboxContact}
    (h : ∀ contact ∈ contacts, contact.id.isSome) :
    localIds contacts = [] := by
  refine List.filterMap_eq_nil_iff.mpr fun contact hmem => ?_
  have hsome := h contact hmem
  rw [Option.isSome_iff_ne_none] at hsome
  rw [if_neg (by simpa using hsome)]

theorem localIds_map {contacts : List OutboxContact} {change : OutboxContact → OutboxContact}
    (hid : ∀ contact, (change contact).id = contact.id)
    (hclient : ∀ contact, (change contact).clientId = contact.clientId) :
    localIds (contacts.map change) = localIds contacts := by
  rw [localIds, localIds, List.filterMap_map]
  congr 1
  funext contact
  rw [Function.comp, hid, OutboxContact.clientKey, OutboxContact.clientKey, hclient]

theorem mem_localIds {contacts : List OutboxContact} {clientId : String} :
    clientId ∈ localIds contacts ↔
      ∃ contact ∈ contacts, contact.id = none ∧ contact.clientKey = some clientId := by
  rw [localIds, List.mem_filterMap]
  constructor
  · rintro ⟨contact, hmem, hkey⟩
    split at hkey
    · next hnone => exact ⟨contact, hmem, Option.isNone_iff_eq_none.mp hnone, hkey⟩
    · cases hkey
  · rintro ⟨contact, hmem, hnone, hkey⟩
    exact ⟨contact, hmem, by rw [hnone]; exact hkey⟩

section Merges

variable [BrowserNumbers]

omit [BrowserNumbers] in
/-- The entry at an index, and the others. -/
theorem localIds_modify {contacts : List OutboxContact} {index : Nat} {current : OutboxContact}
    (hget : contacts[index]? = some current) {change : OutboxContact → OutboxContact}
    (hid : (change current).id.isSome) :
    localIds (contacts.modify index change) =
        localIds (contacts.take index) ++ localIds (contacts.drop (index + 1)) ∧
      localIds contacts = localIds (contacts.take index) ++
        (localIds [current] ++ localIds (contacts.drop (index + 1))) := by
  obtain ⟨hlt, hcurrent⟩ := List.getElem?_eq_some_iff.mp hget
  constructor
  · have hchanged : localIds [change current] = [] := by
      refine localIds_eq_nil fun contact hmem => ?_
      rw [List.mem_singleton.mp hmem]
      exact hid
    rw [List.modify_eq_take_cons_drop hlt, hcurrent, localIds_append, ← List.singleton_append,
      localIds_append, hchanged, List.nil_append]
  · have hsplit : contacts = contacts.take index ++ ([current] ++ contacts.drop (index + 1)) := by
      rw [← hcurrent, List.singleton_append, List.getElem_cons_drop, List.take_append_drop]
    conv_lhs => rw [hsplit, localIds_append, localIds_append]

theorem isSome_id_mergedEntry {contact : OutboxContact} (hid : contact.id.isSome)
    (current : OutboxContact) : (mergedEntry contact current).id.isSome := by
  have hmerged : (mergedEntry contact current).id = contact.id.or current.id := rfl
  rw [hmerged, Option.isSome_or, hid, Bool.true_or]

/-- A merge takes no client id in, and out the one of the entry it changes. -/
theorem localIds_mergeContact {contact : OutboxContact} (hid : contact.id.isSome)
    (contacts : List OutboxContact) :
    (localIds (mergeContact contacts contact)).Subperm (localIds contacts) := by
  rw [mergeContact]
  split
  · refine (localIds_sortContacts _).subperm.trans ?_
    have hcommitted : ∀ other ∈ [committedBackendContact contact], other.id.isSome := by
      intro other hmem
      rw [List.mem_singleton.mp hmem]
      exact hid
    rw [localIds_append, localIds_eq_nil hcommitted, List.append_nil]
  · next index hindex =>
      have hlt := (List.findIdx?_eq_some_iff_getElem.mp hindex).1
      refine (localIds_sortContacts _).subperm.trans ?_
      obtain ⟨hmodified, hall⟩ := localIds_modify (List.getElem?_eq_getElem hlt)
        (isSome_id_mergedEntry hid contacts[index])
      rw [hmodified, hall]
      exact ((List.Sublist.refl _).append (List.sublist_append_right _ _)).subperm

theorem localIds_mergeResetCommittedPage (contacts : List OutboxContact)
    {page : List OutboxContact} (hpage : ∀ contact ∈ page, contact.id.isSome) :
    (localIds (mergeResetCommittedPage contacts page)).Subperm (localIds contacts) := by
  refine (localIds_sortContacts _).subperm.trans ?_
  have hcommitted : ∀ contact ∈ page.map committedBackendContact, contact.id.isSome := by
    intro contact hmem
    obtain ⟨other, hother, rfl⟩ := List.mem_map.mp hmem
    exact hpage other hother
  rw [localIds_append, localIds_eq_nil hcommitted, List.nil_append]
  exact (localIds_filter contacts _).subperm

end Merges

/-- What holds of a contact that is set, and of those that are kept. -/
theorem forall_setById (P : OutboxContact → Prop) {byId : List (Int × OutboxContact)}
    (h : ∀ entry ∈ byId, P entry.2) (id : Int) {contact : OutboxContact} (hcontact : P contact) :
    ∀ entry ∈ setById byId id contact, P entry.2 := by
  rw [Frontend.setById]
  intro entry hmem
  split at hmem
  · obtain ⟨other, hother, rfl⟩ := List.mem_map.mp hmem
    split
    · exact hcontact
    · exact h other hother
  · cases List.mem_append.mp hmem with
    | inl hold => exact h entry hold
    | inr hnew =>
        rw [List.mem_singleton.mp hnew]
        exact hcontact

/-- Every contact that is kept by its id has one. -/
def Identified (byId : List (Int × OutboxContact)) : Prop := ∀ entry ∈ byId, entry.2.id.isSome

theorem isSome_id_mergedContact {committed : OutboxContact} (hid : committed.id.isSome)
    (current : OutboxContact) : (mergedContact current committed).id.isSome := by
  rw [mergedContact, Option.isSome_or, hid, Bool.true_or]

theorem Identified.setCommitted {byId : List (Int × OutboxContact)} (h : Identified byId)
    {contact : OutboxContact} (hid : contact.id.isSome) :
    Identified (setCommitted byId contact) := by
  rw [Frontend.setCommitted]
  cases hcontact : contact.id with
  | none => exact h
  | some id =>
      refine forall_setById (fun contact => contact.id.isSome) h id ?_
      split
      · exact isSome_id_mergedContact hid _
      · rfl

theorem identified_committedById (contacts : List OutboxContact) :
    Identified (committedById contacts) := by
  refine List.foldlRecOn contacts _ (fun _ hmem => nomatch hmem) fun byId h contact _ => ?_
  split
  · exact h
  · cases hcontact : contact.id with
    | none => exact h
    | some id =>
        refine forall_setById (fun contact => contact.id.isSome) h id ?_
        rw [hcontact]
        rfl

theorem localIds_mergeCommittedPage (contacts : List OutboxContact)
    {page : List OutboxContact} (hpage : ∀ contact ∈ page, contact.id.isSome) :
    (localIds (mergeCommittedPage contacts page)).Subperm (localIds contacts) := by
  have hcommitted : Identified (page.foldl setCommitted (committedById contacts)) :=
    List.foldlRecOn page _ (identified_committedById contacts)
      fun _ h contact hmem => h.setCommitted (hpage contact hmem)
  refine (localIds_sortContacts _).subperm.trans ?_
  have hnil : localIds ((page.foldl setCommitted (committedById contacts)).map (·.2)) = [] := by
    refine localIds_eq_nil fun contact hmem => ?_
    obtain ⟨entry, hentry, rfl⟩ := List.mem_map.mp hmem
    exact hcommitted entry hentry
  rw [localIds_append, hnil, List.nil_append]
  exact (localIds_filter contacts _).subperm

theorem localIds_updateContacts (contacts : List OutboxContact)
    (identifiers : List ContactIdentifier) (field : String) (value : Value) :
    (localIds (updateContacts contacts identifiers field value)).Perm (localIds contacts) := by
  rw [updateContacts]
  split
  · exact .refl _
  · refine (localIds_sortContacts _).trans
      (.of_eq (localIds_map (fun contact => ?_) fun contact => ?_))
    · split
      · rfl
      · rfl
    · split
      · rfl
      · rfl

section Responses

variable [BrowserNumbers] [Platform] [Browser]

theorem localIds_applyCommitResponse (contacts : List OutboxContact) (callsignPrefix : String)
    (contact : OutboxContact) {answer : OutboxContact} (hid : answer.id.isSome) :
    (localIds (applyCommitResponse contacts callsignPrefix contact answer)).Subperm
      (localIds contacts) := by
  rw [applyCommitResponse]
  split
  · exact @localIds_mergeContact _ { answer with clientId := contact.clientId } hid contacts
  · exact (localIds_filter contacts _).subperm

omit [BrowserNumbers] [Platform] [Browser] in
/-- An entry without an id meets the answer for its client id. -/
theorem contactMatches_answer {current response : OutboxContact} {clientId : String}
    (hid : current.id = none) (hresponse : response.clientKey = some clientId) :
    OutboxContact.contactMatches current response ↔ current.clientKey = some clientId := by
  rw [OutboxContact.contactMatches, hid, hresponse]
  cases current.clientKey with
  | none => simp
  | some other => simp

omit [Platform] [Browser] in
/-- After a merge there is no entry left without an id, unless the merge met one that has one. -/
theorem not_mem_mergeContact {contacts : List OutboxContact} {contact : OutboxContact}
    {clientId : String} (hkey : contact.clientKey = some clientId) (hid : contact.id.isSome)
    (hnodup : (localIds contacts).Nodup)
    (hfirst : ∀ current,
      contacts.find? (fun current => OutboxContact.contactMatches current contact) = some current →
      current.id.isSome → clientId ∉ localIds contacts) :
    clientId ∉ localIds (mergeContact contacts contact) := by
  rw [mergeContact]
  split
  · next hnone =>
      rw [List.findIdx?_eq_none_iff] at hnone
      have hcommitted : localIds [committedBackendContact contact] = [] := by
        refine localIds_eq_nil fun other hmem => ?_
        rw [List.mem_singleton.mp hmem]
        exact hid
      rw [(localIds_sortContacts _).mem_iff, localIds_append, hcommitted, List.append_nil]
      intro hmem
      obtain ⟨other, hother, hno, hotherKey⟩ := mem_localIds.mp hmem
      have hmatches := (contactMatches_answer hno hkey).mpr hotherKey
      rw [hnone other hother] at hmatches
      cases hmatches
  · next index hindex =>
      obtain ⟨hlt, hmatches, hbefore⟩ := List.findIdx?_eq_some_iff_getElem.mp hindex
      rw [(localIds_sortContacts _).mem_iff]
      obtain ⟨hmodified, hall⟩ := localIds_modify (List.getElem?_eq_getElem hlt)
        (isSome_id_mergedEntry hid contacts[index])
      rw [hmodified]
      cases hcurrent : contacts[index].id with
      | some id =>
          have hfind : contacts.find? (fun current =>
              OutboxContact.contactMatches current contact) = some contacts[index] :=
            List.find?_eq_some_iff_getElem.mpr
              ⟨hmatches, index, hlt, rfl,
                fun earlier hearlier => by simpa using hbefore earlier hearlier⟩
          have hout := hfirst _ hfind (by rw [hcurrent]; rfl)
          rw [hall] at hout
          intro hmem
          refine hout ?_
          rw [List.mem_append] at hmem ⊢
          exact hmem.imp_right (List.mem_append_right _)
      | none =>
          have hthis : localIds [contacts[index]] = [clientId] := by
            rw [localIds, List.filterMap_cons, hcurrent,
              (contactMatches_answer hcurrent hkey).mp hmatches]
            rfl
          rw [hall, hthis] at hnodup
          intro hmem
          rw [List.mem_append] at hmem
          obtain ⟨hleft, hright, hapart⟩ := List.nodup_append.mp hnodup
          cases hmem with
          | inl hin => exact hapart clientId hin clientId (List.mem_cons_self) rfl
          | inr hin => exact (List.nodup_cons.mp hright).1 hin

/-- After its answer a contact has no entry without an id. -/
theorem not_mem_applyCommitResponse {contacts : List OutboxContact} {callsignPrefix : String}
    {contact answer : OutboxContact} {clientId : String}
    (hcontact : contact.clientKey = some clientId)
    (hid : answer.id.isSome) (hnodup : (localIds contacts).Nodup)
    (hfirst : callsignPrefixMatches answer callsignPrefix → ∀ current,
      contacts.find? (fun current => OutboxContact.contactMatches current
        { answer with clientId := contact.clientId }) = some current →
      current.id.isSome → clientId ∉ localIds contacts) :
    clientId ∉ localIds (applyCommitResponse contacts callsignPrefix contact answer) := by
  rw [applyCommitResponse]
  split
  · next hmatches => exact not_mem_mergeContact hcontact hid hnodup (hfirst hmatches)
  · intro hmem
    obtain ⟨other, hother, -, hkey⟩ := mem_localIds.mp hmem
    have hclient : contact.clientId = some clientId := (Option.filter_eq_some_iff.mp hcontact).1
    have hsame : other.clientId = some clientId := (Option.filter_eq_some_iff.mp hkey).1
    rw [List.mem_filter, hsame, hclient] at hother
    simp at hother

end Responses

/-! What a merge and a page do to the entries that the page keeps for itself. -/

section Entries

variable [BrowserNumbers]

theorem status_committedBackendContact {contact : OutboxContact}
    (hstatus : contact.status = some .committed) :
    (committedBackendContact contact).status = some .committed := by
  change contact.status.or (some .committed) = some .committed
  rw [hstatus]
  rfl

theorem status_mergedEntry {contact : OutboxContact} (hstatus : contact.status = some .committed)
    (current : OutboxContact) : (mergedEntry contact current).status = some .committed := by
  change (committedBackendContact contact).status.or current.status = some .committed
  rw [status_committedBackendContact hstatus]
  rfl

/-- A merge brings committed entries in, and no others. -/
theorem mem_or_committed_mergeContact {contacts : List OutboxContact}
    {contact current : OutboxContact}
    (hstatus : contact.status = some .committed) (h : current ∈ mergeContact contacts contact) :
    current ∈ contacts ∨ current.status = some .committed := by
  rw [mergeContact] at h
  split at h
  · rw [(sortContacts_perm _).mem_iff, List.mem_append, List.mem_singleton] at h
    cases h with
    | inl hold => exact Or.inl hold
    | inr hnew =>
        rw [hnew]
        exact Or.inr (status_committedBackendContact hstatus)
  · rw [(sortContacts_perm _).mem_iff] at h
    obtain ⟨place, hplace⟩ := List.mem_iff_getElem?.mp h
    rw [List.getElem?_modify] at hplace
    obtain ⟨old, hold, hcurrent⟩ := Option.map_eq_some_iff.mp hplace
    split at hcurrent
    · rw [← hcurrent]
      exact Or.inr (status_mergedEntry hstatus old)
    · rw [← hcurrent]
      exact Or.inl (List.mem_of_getElem? hold)

/-- The entries that a merge does not meet stay. -/
theorem mem_mergeContact {contacts : List OutboxContact} {contact current : OutboxContact}
    (h : current ∈ contacts)
    (hmet : contacts.find? (fun current => contactMatches current contact) ≠ some current) :
    current ∈ mergeContact contacts contact := by
  rw [mergeContact]
  split
  · rw [(sortContacts_perm _).mem_iff]
    exact List.mem_append_left _ h
  · next index hindex =>
      obtain ⟨hlt, hmatches, hbefore⟩ := List.findIdx?_eq_some_iff_getElem.mp hindex
      rw [(sortContacts_perm _).mem_iff]
      obtain ⟨place, hplace⟩ := List.mem_iff_getElem?.mp h
      have hne : index ≠ place := by
        intro hsame
        subst hsame
        obtain ⟨_, hget⟩ := List.getElem?_eq_some_iff.mp hplace
        refine hmet (List.find?_eq_some_iff_getElem.mpr ⟨?_, index, hlt, hget,
          fun earlier hearlier => ?_⟩)
        · rw [← hget]
          exact hmatches
        · simpa using hbefore earlier hearlier
      refine List.mem_iff_getElem?.mpr ⟨place, ?_⟩
      simp [hne, hplace]

theorem mem_or_committed_mergeResetCommittedPage {contacts page : List OutboxContact}
    {current : OutboxContact} (hpage : ∀ contact ∈ page, contact.status = some .committed)
    (h : current ∈ mergeResetCommittedPage contacts page) :
    current ∈ contacts ∨ current.status = some .committed := by
  rw [mergeResetCommittedPage, (sortContacts_perm _).mem_iff, List.mem_append] at h
  cases h with
  | inl hnew =>
      obtain ⟨contact, hmem, rfl⟩ := List.mem_map.mp hnew
      exact Or.inr (status_committedBackendContact (hpage contact hmem))
  | inr hold => exact Or.inl (List.mem_filter.mp hold).1

theorem mem_mergeResetCommittedPage {contacts page : List OutboxContact} {current : OutboxContact}
    (h : current ∈ contacts) (huncommitted : current.uncommitted) :
    current ∈ mergeResetCommittedPage contacts page := by
  rw [mergeResetCommittedPage, (sortContacts_perm _).mem_iff]
  exact List.mem_append_right _ (List.mem_filter.mpr ⟨h, huncommitted⟩)

/-- Every contact that is kept by its id is committed. -/
def AllCommitted (byId : List (Int × OutboxContact)) : Prop :=
  ∀ entry ∈ byId, entry.2.status = some .committed

omit [BrowserNumbers] in
theorem allCommitted_committedById (contacts : List OutboxContact) :
    AllCommitted (committedById contacts) := by
  refine List.foldlRecOn contacts _ (fun _ hmem => nomatch hmem) fun byId h contact _ => ?_
  split
  · exact h
  · next hcommitted =>
      have hstatus : contact.status = some .committed := by
        simpa [OutboxContact.uncommitted] using hcommitted
      cases contact.id with
      | none => exact h
      | some id =>
          exact forall_setById (fun contact => contact.status = some .committed) h id hstatus

omit [BrowserNumbers] in
theorem AllCommitted.setCommitted {byId : List (Int × OutboxContact)} (h : AllCommitted byId)
    (contact : OutboxContact) : AllCommitted (setCommitted byId contact) := by
  rw [Frontend.setCommitted]
  cases contact.id with
  | none => exact h
  | some id =>
      refine forall_setById (fun contact => contact.status = some .committed) h id ?_
      split
      · rfl
      · rfl

omit [BrowserNumbers] in
theorem mem_or_committed_mergeCommittedPage {contacts page : List OutboxContact}
    {current : OutboxContact} (h : current ∈ mergeCommittedPage contacts page) :
    current ∈ contacts ∨ current.status = some .committed := by
  rw [mergeCommittedPage, (sortContacts_perm _).mem_iff, List.mem_append] at h
  cases h with
  | inl hcommitted =>
      obtain ⟨entry, hentry, rfl⟩ := List.mem_map.mp hcommitted
      refine Or.inr ?_
      have hall : AllCommitted (page.foldl setCommitted (committedById contacts)) :=
        List.foldlRecOn page _ (allCommitted_committedById contacts)
          fun _ hbyId contact _ => hbyId.setCommitted contact
      exact hall entry hentry
  | inr hold => exact Or.inl (List.mem_filter.mp hold).1

omit [BrowserNumbers] in
theorem mem_mergeCommittedPage {contacts page : List OutboxContact} {current : OutboxContact}
    (h : current ∈ contacts) (huncommitted : current.uncommitted) :
    current ∈ mergeCommittedPage contacts page := by
  rw [mergeCommittedPage, (sortContacts_perm _).mem_iff]
  refine List.mem_append_right _ (List.mem_filter.mpr ⟨h, ?_⟩)
  rw [huncommitted]
  rfl

variable [Platform] [Browser]

theorem mem_or_committed_applyCommitResponse {contacts : List OutboxContact}
    {callsignPrefix : String}
    {contact answer current : OutboxContact} (hstatus : answer.status = some .committed)
    (h : current ∈ applyCommitResponse contacts callsignPrefix contact answer) :
    current ∈ contacts ∨ current.status = some .committed := by
  rw [applyCommitResponse] at h
  split at h
  · exact @mem_or_committed_mergeContact _ _
      { answer with clientId := contact.clientId } _ hstatus h
  · exact Or.inl (List.mem_filter.mp h).1

/-- The entries that an answer changes or takes out. -/
def metByAnswer (contacts : List OutboxContact) (callsignPrefix : String)
    (contact answer : OutboxContact) : List OutboxContact :=
  if callsignPrefixMatches answer callsignPrefix then
    (contacts.find? fun current =>
      contactMatches current { answer with clientId := contact.clientId }).toList
  else contacts.filter (·.clientId = contact.clientId)

theorem mem_applyCommitResponse {contacts : List OutboxContact} {callsignPrefix : String}
    {contact answer current : OutboxContact} (h : current ∈ contacts)
    (hmet : current ∉ metByAnswer contacts callsignPrefix contact answer) :
    current ∈ applyCommitResponse contacts callsignPrefix contact answer := by
  rw [metByAnswer] at hmet
  rw [applyCommitResponse]
  split at hmet
  · next hmatches =>
      rw [if_pos hmatches]
      refine mem_mergeContact h fun hfind => hmet ?_
      rw [hfind]
      exact List.mem_singleton_self current
  · next hmatches =>
      rw [if_neg hmatches]
      rw [List.mem_filter, decide_eq_true_iff] at hmet
      exact List.mem_filter.mpr ⟨h, decide_eq_true fun hsame => hmet ⟨h, hsame⟩⟩

end Entries

/-! Identifiers, edits and keys of entries. -/

/-- An entry with an id never is pending. -/
def Placed (contact : OutboxContact) : Prop := contact.id.isSome → contact.status ≠ some .pending

/-- A committed entry does not wait. -/
theorem not_shouldPersistLocally {contact : OutboxContact}
    (hstatus : contact.status = some .committed) :
    ¬ contact.shouldPersistLocally := by
  simp [OutboxContact.shouldPersistLocally, hstatus]

theorem placed_of_committed {contact : OutboxContact} (hstatus : contact.status = some .committed) :
    Placed contact := by
  intro _ hpending
  rw [hstatus] at hpending
  cases hpending

/-- An entry under a client id has no id. -/
theorem mem_localIds_of_identifier {contacts : List OutboxContact} {contact : OutboxContact}
    {clientId : String} (hmem : contact ∈ contacts)
    (hidentifier : contact.contactIdentifier = some (.client clientId)) :
    clientId ∈ localIds contacts := by
  rw [OutboxContact.contactIdentifier] at hidentifier
  cases hid : contact.id with
  | some id =>
      rw [hid] at hidentifier
      cases hidentifier
  | none =>
      cases hkey : contact.clientKey with
      | none =>
          rw [hid, hkey] at hidentifier
          cases hidentifier
      | some other =>
          rw [hid, hkey] at hidentifier
          cases hidentifier
          exact mem_localIds.mpr ⟨contact, hmem, hid, hkey⟩

/-- The entries under the identifiers, and the others. -/
theorem mem_updateContacts {contacts : List OutboxContact} {identifiers : List ContactIdentifier}
    {field : String} {value : Value} {current : OutboxContact}
    (h : current ∈ updateContacts contacts identifiers field value) :
    current ∈ contacts ∧ current.contactIdentifier.any identifiers.contains = false ∨
      ∃ contact ∈ contacts, contact.contactIdentifier.any identifiers.contains ∧
        current.contactIdentifier = contact.contactIdentifier ∧
        current.adif = insert contact.adif field value ∧ Placed current := by
  rw [updateContacts] at h
  split at h
  · next hempty =>
      refine Or.inl ⟨h, ?_⟩
      rw [List.isEmpty_iff.mp hempty]
      cases current.contactIdentifier with
      | none => rfl
      | some _ => rfl
  · rw [(sortContacts_perm _).mem_iff] at h
    obtain ⟨contact, hmem, hcurrent⟩ := List.mem_map.mp h
    split at hcurrent
    · next hselected =>
        refine Or.inr ⟨contact, hmem, hselected, ?_, ?_, ?_⟩
        · rw [← hcurrent]
          rfl
        · rw [← hcurrent]
        · intro hid hpending
          rw [← hcurrent] at hid hpending
          cases hcontact : contact.id with
          | none =>
              rw [show contact.id = none from hcontact] at hid
              cases hid
          | some id =>
              rw [hcontact] at hpending
              cases hpending
    · next hunselected =>
        rw [← hcurrent]
        exact Or.inl ⟨hmem, by simpa using hunselected⟩

/-- An entry that is edited waits. -/
theorem mem_updateContacts_of_mem {contacts : List OutboxContact}
    {identifiers : List ContactIdentifier} (field : String) (value : Value)
    {contact : OutboxContact} (hmem : contact ∈ contacts) :
    (contact.contactIdentifier.any identifiers.contains = false →
        contact ∈ updateContacts contacts identifiers field value) ∧
      (contact.contactIdentifier.any identifiers.contains →
        ∃ current ∈ updateContacts contacts identifiers field value, current.shouldPersistLocally ∧
          current.contactIdentifier = contact.contactIdentifier ∧
          current.adif = insert contact.adif field value) := by
  rw [updateContacts]
  split
  · next hempty =>
      refine ⟨fun _ => hmem, fun hselected => ?_⟩
      rw [List.isEmpty_iff.mp hempty] at hselected
      cases hidentifier : contact.contactIdentifier with
      | none =>
          rw [hidentifier] at hselected
          cases hselected
      | some _ =>
          rw [hidentifier] at hselected
          cases hselected
  · constructor
    · intro hunselected
      rw [(sortContacts_perm _).mem_iff, List.mem_map]
      refine ⟨contact, hmem, ?_⟩
      rw [hunselected]
      rfl
    · intro hselected
      refine ⟨_, (sortContacts_perm _).mem_iff.mpr (List.mem_map_of_mem hmem), ?_⟩
      rw [if_pos hselected]
      refine ⟨?_, rfl, rfl⟩
      rw [OutboxContact.shouldPersistLocally]
      cases contact.id with
      | none => rfl
      | some _ => rfl

/-- The key under which a contact with this identifier is committed. -/
def identifierKey : ContactIdentifier → CommitKey
  | .id id => .id id
  | .client clientId => .client clientId

theorem commitKey_of_identifier {contact : OutboxContact} {key : CommitKey}
    (hplaced : Placed contact)
    (hkey : commitKey contact = some key) :
    contact.contactIdentifier.map identifierKey = some key := by
  rw [commitKey] at hkey
  rw [OutboxContact.contactIdentifier]
  split at hkey
  · next hstatus =>
      cases hid : contact.id with
      | some id => exact absurd hstatus (hplaced (by rw [hid]; rfl))
      | none =>
          obtain ⟨clientId, hclient, rfl⟩ := Option.map_eq_some_iff.mp hkey
          rw [hclient]
          rfl
  · cases hid : contact.id with
    | some id =>
        rw [hid] at hkey
        cases hkey
        rfl
    | none =>
        rw [hid] at hkey
        obtain ⟨clientId, hclient, rfl⟩ := Option.map_eq_some_iff.mp hkey
        rw [hclient]
        rfl
  · cases hkey

end Log73.Frontend
