import Log73.Frontend.OutboxMerges
import Log73.Library.OrderedMap
import Mathlib.Data.List.Pairwise

/-!
When the merges leave at most one entry of the list under each server id and under each client
id, and what they keep of the contacts that are not committed.
-/

namespace Log73.Frontend

open OutboxContact (contactMatches)

/-- Two entries that share neither a server id nor a client id. -/
def Apart (left right : OutboxContact) : Prop :=
  (∀ id, left.id = some id → right.id ≠ some id) ∧
    ∀ clientId, left.clientId = some clientId → right.clientId ≠ some clientId

/-- At most one entry for a server id and for a client id. -/
def UniqueIds (contacts : List OutboxContact) : Prop := contacts.Pairwise Apart

/-- Contacts with a server id of their own each, where they have one. -/
def DistinctIds (page : List OutboxContact) : Prop :=
  page.Pairwise fun left right => ∀ id, left.id = some id → right.id ≠ some id

/-- Every contact that the page keeps for itself is there still, or as an entry that one of the
contacts it was met by is merged into. -/
def Represented [BrowserNumbers] (incoming contacts merged : List OutboxContact) : Prop :=
  ∀ current ∈ contacts, current.shouldPersistLocally → current ∈ merged ∨
    ∃ contact ∈ incoming, contactMatches current contact ∧ mergedEntry contact current ∈ merged

theorem Apart.symm {left right : OutboxContact} (h : Apart left right) : Apart right left :=
  ⟨fun id hright hleft => h.1 id hleft hright,
    fun clientId hright hleft => h.2 clientId hleft hright⟩

instance instSymmApart : Std.Symm Apart := ⟨fun _ _ => Apart.symm⟩

theorem unique_perm {contacts contacts' : List OutboxContact} (h : contacts.Perm contacts') :
    UniqueIds contacts ↔ UniqueIds contacts' :=
  h.pairwise_iff Apart.symm

theorem UniqueIds.apart {contacts : List OutboxContact} (h : UniqueIds contacts)
    {left right : OutboxContact} (hleft : left ∈ contacts) (hright : right ∈ contacts)
    (hne : left ≠ right) : Apart left right :=
  List.Pairwise.forall h hleft hright hne

theorem DistinctIds.eq {page : List OutboxContact} (h : DistinctIds page)
    {left right : OutboxContact} (hleft : left ∈ page) (hright : right ∈ page) {id : Int}
    (hid : left.id = some id) (hid' : right.id = some id) : left = right := by
  by_contra hne
  have : Std.Symm fun left right : OutboxContact =>
      ∀ id, left.id = some id → right.id ≠ some id :=
    ⟨fun _ _ hall id hright hleft => hall id hleft hright⟩
  exact List.Pairwise.forall h hleft hright hne id hid hid'

theorem uncommitted_of_shouldPersistLocally {contact : OutboxContact}
    (h : contact.shouldPersistLocally) : contact.uncommitted := by
  rw [OutboxContact.uncommitted, decide_eq_true_iff]
  exact fun hstatus => not_shouldPersistLocally hstatus h

section Entries

variable {byId : List (Int × OutboxContact)}

/-- One contact for a server id. -/
def KeyedById (byId : List (Int × OutboxContact)) : Prop :=
  byId.Pairwise fun left right => left.1 ≠ right.1

theorem KeyedById.eq (h : KeyedById byId) {id : Int} {contact other : OutboxContact}
    (hmem : (id, contact) ∈ byId) (hother : (id, other) ∈ byId) : contact = other := by
  by_contra hne
  have hpair : ((id, contact) : Int × OutboxContact) ≠ (id, other) :=
    fun heq => hne (congrArg Prod.snd heq)
  have : Std.Symm fun left right : Int × OutboxContact => left.1 ≠ right.1 :=
    ⟨fun _ _ => Ne.symm⟩
  exact List.Pairwise.forall h hmem hother hpair rfl

theorem KeyedById.find? (h : KeyedById byId) {id : Int} {existing : OutboxContact}
    (hmem : (id, existing) ∈ byId) :
    byId.find? (·.1 = id) = some (id, existing) := by
  cases hfind : byId.find? (·.1 = id) with
  | none =>
      have hnot := List.find?_eq_none.mp hfind (id, existing) hmem
      exact absurd (decide_eq_true rfl) hnot
  | some entry =>
      have hkey : entry.1 = id := by simpa using List.find?_some hfind
      obtain ⟨key, contact⟩ := entry
      cases hkey
      rw [h.eq (List.mem_of_find?_eq_some hfind) hmem]

theorem setById_eq_set (byId : List (Int × OutboxContact)) (id : Int) (contact : OutboxContact) :
    setById byId id contact = OrderedMap.set byId id contact := rfl

theorem keyed_setById (h : KeyedById byId) (id : Int) (contact : OutboxContact) :
    KeyedById (setById byId id contact) := by
  rw [setById_eq_set]
  exact OrderedMap.pairwise_set (R := fun left right => left ≠ right) h fun hnew => hnew

theorem mem_setById (id : Int) (contact : OutboxContact) (entry : Int × OutboxContact) :
    entry ∈ setById byId id contact ↔
      entry = (id, contact) ∨ (entry ∈ byId ∧ entry.1 ≠ id) :=
  OrderedMap.mem_set entry

theorem keyed_setCommitted (h : KeyedById byId) (contact : OutboxContact) :
    KeyedById (setCommitted byId contact) := by
  rw [setCommitted]
  cases contact.id with
  | none => exact h
  | some id => exact keyed_setById h id _

theorem keyed_committedById (contacts : List OutboxContact) :
    KeyedById (committedById contacts) := by
  refine List.foldlRecOn contacts _ List.Pairwise.nil fun byId h contact _ => ?_
  split
  · exact h
  · cases contact.id with
    | none => exact h
    | some id => exact keyed_setById h id contact

/-- The committed contacts of the list are kept by their ids. -/
theorem mem_committedById {contacts : List OutboxContact} (h : UniqueIds contacts) (id : Int)
    (contact : OutboxContact) : (id, contact) ∈ committedById contacts ↔
      contact ∈ contacts ∧ contact.status = some .committed ∧ contact.id = some id := by
  induction contacts using List.reverseRecOn with
  | nil => simp [committedById]
  | append_singleton contacts last ih =>
      obtain ⟨hcontacts, -, hlast⟩ := List.pairwise_append.mp h
      have hstep : committedById (contacts ++ [last]) =
          if last.uncommitted then committedById contacts
          else last.id.elim (committedById contacts) fun id =>
            setById (committedById contacts) id last := by
        rw [committedById, List.foldl_concat]
        rfl
      have hold := ih hcontacts
      rw [hstep, List.mem_append, List.mem_singleton, or_and_right]
      split
      · next huncommitted =>
          rw [hold, or_iff_left]
          rintro ⟨rfl, hstatus, -⟩
          exact of_decide_eq_true huncommitted hstatus
      · next hcommitted =>
          have hstatus : last.status = some .committed := by
            simpa [OutboxContact.uncommitted] using hcommitted
          cases hid : last.id with
          | none =>
              rw [Option.elim_none, hold, or_iff_left]
              rintro ⟨rfl, -, hsome⟩
              rw [hid] at hsome
              cases hsome
          | some lastId =>
              rw [Option.elim_some, mem_setById, hold, Prod.mk.injEq, or_comm]
              constructor
              · rintro (⟨hmem, -⟩ | ⟨rfl, rfl⟩)
                · exact Or.inl hmem
                · exact Or.inr ⟨rfl, hstatus, hid⟩
              · rintro (hmem | ⟨rfl, -, hsame⟩)
                · refine Or.inl ⟨hmem, fun heq => ?_⟩
                  have hapart := hlast contact hmem.1 last (List.mem_singleton_self last)
                  have hsame : lastId = id := Eq.symm heq
                  exact hapart.1 id hmem.2.2 (hsame ▸ hid)
                · rw [hid, Option.some.injEq] at hsame
                  exact Or.inr ⟨hsame.symm, rfl⟩

theorem find?_eq_of_mem {other : List (Int × OutboxContact)} (h : KeyedById byId)
    {id : Int}
    (hmem : ∀ entry, (id, entry) ∈ byId ↔ (id, entry) ∈ other) :
    byId.find? (·.1 = id) = other.find? (·.1 = id) := by
  cases hfind : other.find? (·.1 = id) with
  | none =>
      refine List.find?_eq_none.mpr fun entry hentry hkey => ?_
      have hid : entry.1 = id := of_decide_eq_true hkey
      refine List.find?_eq_none.mp hfind entry ?_ hkey
      obtain ⟨key, contact⟩ := entry
      cases hid
      exact (hmem contact).mp hentry
  | some entry =>
      have hkey : entry.1 = id := by simpa using List.find?_some hfind
      obtain ⟨key, contact⟩ := entry
      cases hkey
      exact h.find? ((hmem contact).mpr (List.mem_of_find?_eq_some hfind))

/-- What a contact of a page is kept as, over the contact that is there under its id. -/
def overExisting (existing : Option OutboxContact) (contact : OutboxContact) : OutboxContact :=
  { existing.elim contact (mergedContact · contact) with status := some .committed }

theorem setCommitted_eq {contact : OutboxContact} {id : Int} (hid : contact.id = some id) :
    setCommitted byId contact = setById byId id
      (overExisting ((byId.find? (·.1 = id)).map Prod.snd) contact) := by
  obtain ⟨contactId, clientId, status, details, adif⟩ := contact
  cases hid
  rw [setCommitted, Option.elim_some]
  cases byId.find? (·.1 = id) with
  | none => rfl
  | some existing => rfl

/-- A contact of the page under each of its ids, and those it brings nothing for. -/
theorem mem_foldl_setCommitted (h : KeyedById byId) {page : List OutboxContact}
    (hpage : DistinctIds page) (id : Int) (entry : OutboxContact) :
    (id, entry) ∈ page.foldl setCommitted byId ↔
      (∃ contact ∈ page, contact.id = some id ∧
        entry = overExisting ((byId.find? (·.1 = id)).map Prod.snd) contact) ∨
      ((id, entry) ∈ byId ∧ ∀ contact ∈ page, contact.id ≠ some id) := by
  induction page using List.reverseRecOn generalizing entry with
  | nil => simp
  | append_singleton page last ih =>
      obtain ⟨hdistinct, -, hlast⟩ := List.pairwise_append.mp hpage
      have hkeyed : KeyedById (page.foldl setCommitted byId) :=
        List.foldlRecOn page _ h fun _ hkeyed contact _ => keyed_setCommitted hkeyed contact
      have hsome : (∃ contact ∈ page ++ [last], contact.id = some id ∧
            entry = overExisting ((byId.find? (·.1 = id)).map Prod.snd) contact) ↔
          (∃ contact ∈ page, contact.id = some id ∧
            entry = overExisting ((byId.find? (·.1 = id)).map Prod.snd) contact) ∨
          last.id = some id ∧
            entry = overExisting ((byId.find? (·.1 = id)).map Prod.snd) last := by
        simp [or_and_right, exists_or]
      have hnone : (∀ contact ∈ page ++ [last], contact.id ≠ some id) ↔
          (∀ contact ∈ page, contact.id ≠ some id) ∧ last.id ≠ some id := by
        simp [or_imp, forall_and]
      rw [List.foldl_concat, hsome, hnone]
      by_cases hid : last.id = some id
      · have hbefore : ∀ contact ∈ page, contact.id ≠ some id :=
          fun contact hmem heq => hlast contact hmem last (List.mem_singleton_self last) id heq hid
        have hexisting : (page.foldl setCommitted byId).find? (·.1 = id)
            = byId.find? (·.1 = id) := by
          refine find?_eq_of_mem hkeyed fun existing => ?_
          rw [ih hdistinct]
          constructor
          · rintro (⟨contact, hmem, heq, -⟩ | ⟨hmem, -⟩)
            · exact absurd heq (hbefore contact hmem)
            · exact hmem
          · exact fun hmem => Or.inr ⟨hmem, hbefore⟩
        rw [setCommitted_eq hid, mem_setById, hexisting, Prod.mk.injEq]
        constructor
        · rintro (⟨-, hentry⟩ | ⟨-, hne⟩)
          · exact Or.inl (Or.inr ⟨hid, hentry⟩)
          · exact absurd rfl hne
        · rintro ((⟨contact, hmem, heq, -⟩ | ⟨-, hentry⟩) | ⟨-, -, hne⟩)
          · exact absurd heq (hbefore contact hmem)
          · exact Or.inl ⟨rfl, hentry⟩
          · exact absurd hid hne
      · have hstays : (id, entry) ∈ setCommitted (page.foldl setCommitted byId) last ↔
            (id, entry) ∈ page.foldl setCommitted byId := by
          cases hother : last.id with
          | none => rw [setCommitted, hother, Option.elim_none]
          | some lastId =>
              have hne : id ≠ lastId := fun heq => hid (heq ▸ hother)
              rw [setCommitted_eq hother, mem_setById, Prod.mk.injEq]
              simp [hne]
        rw [hstays, ih hdistinct]
        simp [hid]

end Entries

/-! Pages. -/

section Pages

/-- A committed contact of the list that the page brings a client id for. -/
def Overwritten (page : List OutboxContact) (current : OutboxContact) : Prop :=
  current.status = some .committed ∧ ∃ contact ∈ page, ∃ id, contact.id = some id ∧
    current.id = some id ∧ contact.clientId.isSome

/-- The page has no server id of a contact that is not committed, and no client id that a contact
of the list keeps or that the page has under another server id. -/
structure PageFits (contacts page : List OutboxContact) : Prop where
  ids : ∀ contact ∈ page, ∀ current ∈ contacts, ∀ id, contact.id = some id →
    current.id = some id → current.status = some .committed
  clients : ∀ contact ∈ page, contact.id.isSome → ∀ current ∈ contacts, ∀ clientId,
    contact.clientId = some clientId → current.clientId = some clientId → Overwritten page current
  page : ∀ contact ∈ page, ∀ other ∈ page, ∀ id otherId clientId, contact.id = some id →
    other.id = some otherId → id ≠ otherId → contact.clientId = some clientId →
      other.clientId ≠ some clientId

/-- The committed contact of the list under a server id. -/
def keptById (contacts : List OutboxContact) (id : Int) : Option OutboxContact :=
  ((committedById contacts).find? (·.1 = id)).map Prod.snd

variable {contacts page : List OutboxContact}

theorem keptById_eq_some (h : UniqueIds contacts) {id : Int} {current : OutboxContact} :
    keptById contacts id = some current ↔
      current ∈ contacts ∧ current.status = some .committed ∧ current.id = some id := by
  rw [← mem_committedById h, keptById, Option.map_eq_some_iff]
  constructor
  · rintro ⟨⟨key, contact⟩, hfind, rfl⟩
    have hkey : key = id := by simpa using List.find?_some hfind
    exact hkey ▸ List.mem_of_find?_eq_some hfind
  · intro hmem
    exact ⟨(id, current), (keyed_committedById contacts).find? hmem, rfl⟩

theorem id_overExisting {contact : OutboxContact} {id : Int} (hid : contact.id = some id)
    (existing : Option OutboxContact) : (overExisting existing contact).id = some id := by
  cases existing with
  | none => exact hid
  | some current =>
      change contact.id.or current.id = some id
      rw [hid, Option.some_or]

theorem clientId_overExisting (existing : Option OutboxContact) (contact : OutboxContact) :
    (overExisting existing contact).clientId =
      contact.clientId.or (existing.bind OutboxContact.clientId) := by
  cases existing with
  | none => exact Option.or_none.symm
  | some current => rfl

/-- What the page and the committed contacts of the list come to, by server id. -/
def pageEntries (contacts page : List OutboxContact) : List (Int × OutboxContact) :=
  page.foldl setCommitted (committedById contacts)

theorem keyed_pageEntries (contacts page : List OutboxContact) :
    KeyedById (pageEntries contacts page) :=
  List.foldlRecOn page _ (keyed_committedById contacts)
    fun _ hkeyed contact _ => keyed_setCommitted hkeyed contact

theorem mem_pageEntries (h : UniqueIds contacts) (hpage : DistinctIds page) {id : Int}
    {entry : OutboxContact} : (id, entry) ∈ pageEntries contacts page ↔
      (∃ contact ∈ page, contact.id = some id ∧
        entry = overExisting (keptById contacts id) contact) ∨
      keptById contacts id = some entry ∧ ∀ contact ∈ page, contact.id ≠ some id := by
  rw [pageEntries, mem_foldl_setCommitted (keyed_committedById contacts) hpage,
    mem_committedById h, keptById_eq_some h]
  rfl

theorem id_of_mem_pageEntries (h : UniqueIds contacts) (hpage : DistinctIds page) {id : Int}
    {entry : OutboxContact} (hmem : (id, entry) ∈ pageEntries contacts page) :
    entry.id = some id := by
  rcases (mem_pageEntries h hpage).mp hmem with ⟨contact, -, hid, rfl⟩ | ⟨hkept, -⟩
  · exact id_overExisting hid _
  · exact ((keptById_eq_some h).mp hkept).2.2

/-- The client id of an entry is one that the page brings, or that of a contact of the list that
it brings none for. -/
theorem clientId_of_mem_pageEntries (h : UniqueIds contacts) (hpage : DistinctIds page) {id : Int}
    {entry : OutboxContact} (hmem : (id, entry) ∈ pageEntries contacts page) {clientId : String}
    (hclient : entry.clientId = some clientId) :
    (∃ contact ∈ page, contact.id = some id ∧ contact.clientId = some clientId) ∨
      ∃ current, keptById contacts id = some current ∧ current.clientId = some clientId ∧
        ¬Overwritten page current := by
  rcases (mem_pageEntries h hpage).mp hmem with ⟨contact, hcontact, hid, rfl⟩ | ⟨hkept, hnone⟩
  · rw [clientId_overExisting] at hclient
    cases hown : contact.clientId with
    | some own =>
        rw [hown, Option.some_or] at hclient
        exact Or.inl ⟨contact, hcontact, hid, hown.trans hclient⟩
    | none =>
        rw [hown, Option.none_or] at hclient
        obtain ⟨current, hkept, hcurrent⟩ := Option.bind_eq_some_iff.mp hclient
        refine Or.inr ⟨current, hkept, hcurrent, ?_⟩
        rintro ⟨-, other, hother, otherId, hotherId, hcurrentId, hbrought⟩
        rw [((keptById_eq_some h).mp hkept).2.2] at hcurrentId
        cases hcurrentId
        rw [hpage.eq hother hcontact hotherId hid, hown] at hbrought
        cases hbrought
  · refine Or.inr ⟨entry, hkept, hclient, ?_⟩
    rintro ⟨-, other, hother, otherId, hotherId, hcurrentId, -⟩
    rw [((keptById_eq_some h).mp hkept).2.2] at hcurrentId
    cases hcurrentId
    exact hnone other hother hotherId

theorem exists_entry_of_page (h : UniqueIds contacts) (hpage : DistinctIds page)
    {contact : OutboxContact} (hmem : contact ∈ page) {id : Int} (hid : contact.id = some id) :
    ∃ entry, (id, entry) ∈ pageEntries contacts page ∧
      ∀ clientId, contact.clientId = some clientId → entry.clientId = some clientId := by
  refine ⟨_, (mem_pageEntries h hpage).mpr (Or.inl ⟨contact, hmem, hid, rfl⟩), ?_⟩
  intro clientId hown
  rw [clientId_overExisting, hown, Option.some_or]

theorem exists_entry_of_kept (h : UniqueIds contacts) (hpage : DistinctIds page) {id : Int}
    {current : OutboxContact} (hkept : keptById contacts id = some current)
    (hnot : ¬Overwritten page current) :
    ∃ entry, (id, entry) ∈ pageEntries contacts page ∧ entry.clientId = current.clientId := by
  obtain ⟨-, hstatus, hid⟩ := (keptById_eq_some h).mp hkept
  by_cases hbrought : ∃ contact ∈ page, contact.id = some id
  · obtain ⟨contact, hmem, hcontact⟩ := hbrought
    refine ⟨_, (mem_pageEntries h hpage).mpr (Or.inl ⟨contact, hmem, hcontact, rfl⟩), ?_⟩
    rw [clientId_overExisting, hkept]
    cases hown : contact.clientId with
    | none => rfl
    | some own =>
        refine absurd ⟨hstatus, contact, hmem, id, hcontact, hid, ?_⟩ hnot
        rw [hown, Option.isSome_some]
  · refine ⟨current, (mem_pageEntries h hpage).mpr (Or.inr ⟨hkept, ?_⟩), rfl⟩
    exact fun contact hmem hcontact => hbrought ⟨contact, hmem, hcontact⟩

/-- A contact of the list stays as it is, or is kept by its server id. -/
theorem local_or_kept (h : UniqueIds contacts) {current : OutboxContact}
    (hmem : current ∈ contacts) :
    current ∈ localUncommitted contacts ∨ ∃ id, keptById contacts id = some current := by
  by_cases hlocal : current.uncommitted || current.id.isNone
  · exact Or.inl (List.mem_filter.mpr ⟨hmem, hlocal⟩)
  · rw [Bool.or_eq_true, not_or] at hlocal
    have hstatus : current.status = some .committed := by
      simpa [OutboxContact.uncommitted] using hlocal.1
    obtain ⟨id, hid⟩ := Option.ne_none_iff_exists'.mp (Option.isNone_iff_eq_none.not.mp hlocal.2)
    exact Or.inr ⟨id, (keptById_eq_some h).mpr ⟨hmem, hstatus, hid⟩⟩

theorem not_committed_of_local {current : OutboxContact}
    (hmem : current ∈ localUncommitted contacts) {id : Int} (hid : current.id = some id) :
    current.status ≠ some .committed := by
  have hlocal := (List.mem_filter.mp hmem).2
  rw [hid, Option.isNone_some, Bool.or_false] at hlocal
  exact of_decide_eq_true hlocal

theorem not_overwritten_of_local {current : OutboxContact}
    (hmem : current ∈ localUncommitted contacts) : ¬Overwritten page current := by
  rintro ⟨hstatus, -, -, id, -, hid, -⟩
  exact not_committed_of_local hmem hid hstatus

theorem apart_of_pageFits (h : UniqueIds contacts) (hpage : DistinctIds page)
    (hfits : PageFits contacts page) {left right : Int × OutboxContact}
    (hleft : left ∈ pageEntries contacts page) (hright : right ∈ pageEntries contacts page)
    (hne : left.1 ≠ right.1) : Apart left.2 right.2 := by
  obtain ⟨leftId, left⟩ := left
  obtain ⟨rightId, right⟩ := right
  constructor
  · intro id hid hid'
    rw [id_of_mem_pageEntries h hpage hleft, Option.some.injEq] at hid
    rw [id_of_mem_pageEntries h hpage hright, Option.some.injEq] at hid'
    exact hne (hid.trans hid'.symm)
  · intro clientId hclient hclient'
    rcases clientId_of_mem_pageEntries h hpage hleft hclient with
      ⟨contact, hmem, hid, hown⟩ | ⟨current, hkept, hcurrent, hnot⟩
    · rcases clientId_of_mem_pageEntries h hpage hright hclient' with
        ⟨other, hother, hotherId, hotherOwn⟩ | ⟨current, hkept, hcurrent, hnot⟩
      · exact hfits.page contact hmem other hother leftId rightId clientId hid hotherId hne hown
          hotherOwn
      · obtain ⟨hcontact, -⟩ := (keptById_eq_some h).mp hkept
        have hsome : contact.id.isSome := by rw [hid, Option.isSome_some]
        exact hnot (hfits.clients contact hmem hsome current hcontact clientId hown hcurrent)
    · rcases clientId_of_mem_pageEntries h hpage hright hclient' with
        ⟨contact, hmem, hid, hown⟩ | ⟨other, hkept', hother, -⟩
      · obtain ⟨hcontact, -⟩ := (keptById_eq_some h).mp hkept
        have hsome : contact.id.isSome := by rw [hid, Option.isSome_some]
        exact hnot (hfits.clients contact hmem hsome current hcontact clientId hown hcurrent)
      · obtain ⟨hmem, -, hid⟩ := (keptById_eq_some h).mp hkept
        obtain ⟨hmem', -, hid'⟩ := (keptById_eq_some h).mp hkept'
        have hcontacts : current ≠ other := by
          rintro rfl
          exact hne (Option.some.inj (hid.symm.trans hid'))
        exact (h.apart hmem hmem' hcontacts).2 clientId hcurrent hother

theorem apart_local_of_pageFits (h : UniqueIds contacts) (hpage : DistinctIds page)
    (hfits : PageFits contacts page) {id : Int} {entry current : OutboxContact}
    (hentry : (id, entry) ∈ pageEntries contacts page)
    (hmem : current ∈ localUncommitted contacts) : Apart entry current := by
  have hcurrent := (List.mem_filter.mp hmem).1
  have hapart {kept : OutboxContact} (hkept : keptById contacts id = some kept) :
      Apart kept current := by
    obtain ⟨hcontact, hstatus, hid⟩ := (keptById_eq_some h).mp hkept
    apply h.apart hcontact hcurrent
    rintro rfl
    exact not_committed_of_local hmem hid hstatus
  constructor
  · intro other hid hcurrentId
    rw [id_of_mem_pageEntries h hpage hentry, Option.some.injEq] at hid
    subst hid
    rcases (mem_pageEntries h hpage).mp hentry with ⟨contact, hcontact, hid, -⟩ | ⟨hkept, -⟩
    · exact not_committed_of_local hmem hcurrentId
        (hfits.ids contact hcontact current hcurrent id hid hcurrentId)
    · exact (hapart hkept).1 id ((keptById_eq_some h).mp hkept).2.2 hcurrentId
  · intro clientId hclient hcurrentClient
    rcases clientId_of_mem_pageEntries h hpage hentry hclient with
      ⟨contact, hcontact, hid, hown⟩ | ⟨kept, hkept, hkeptClient, -⟩
    · have hsome : contact.id.isSome := by rw [hid, Option.isSome_some]
      exact not_overwritten_of_local hmem
        (hfits.clients contact hcontact hsome current hcurrent clientId hown hcurrentClient)
    · exact (hapart hkept).2 clientId hkeptClient hcurrentClient

theorem unique_mergeCommittedPage_iff (h : UniqueIds contacts) (hpage : DistinctIds page) :
    UniqueIds (mergeCommittedPage contacts page) ↔ PageFits contacts page := by
  have hperm : (mergeCommittedPage contacts page).Perm
      ((pageEntries contacts page).map Prod.snd ++ localUncommitted contacts) :=
    sortContacts_perm _
  rw [unique_perm hperm, UniqueIds, List.pairwise_append]
  constructor
  · rintro ⟨hentries, -, hcross⟩
    have hlocal {id : Int} {entry current : OutboxContact}
        (hentry : (id, entry) ∈ pageEntries contacts page)
        (hmem : current ∈ localUncommitted contacts) : Apart entry current :=
      hcross entry (List.mem_map.mpr ⟨_, hentry, rfl⟩) current hmem
    have hother {id id' : Int} {entry entry' : OutboxContact}
        (hentry : (id, entry) ∈ pageEntries contacts page)
        (hentry' : (id', entry') ∈ pageEntries contacts page) (hne : id ≠ id') :
        Apart entry entry' := by
      have : Std.Symm fun left right : Int × OutboxContact => Apart left.2 right.2 :=
        ⟨fun _ _ => Apart.symm⟩
      have hpair : ((id, entry) : Int × OutboxContact) ≠ (id', entry') :=
        fun heq => hne (congrArg Prod.fst heq)
      exact List.Pairwise.forall (List.pairwise_map.mp hentries) hentry hentry' hpair
    constructor
    · intro contact hcontact current hcurrent id hid hcurrentId
      by_contra hnot
      have hmem : current ∈ localUncommitted contacts :=
        List.mem_filter.mpr ⟨hcurrent, by rw [OutboxContact.uncommitted, decide_eq_true hnot]; rfl⟩
      obtain ⟨entry, hentry, -⟩ := exists_entry_of_page h hpage hcontact hid
      exact (hlocal hentry hmem).1 id (id_of_mem_pageEntries h hpage hentry) hcurrentId
    · intro contact hcontact hsome current hcurrent clientId hown hcurrentClient
      obtain ⟨id, hid⟩ := Option.isSome_iff_exists.mp hsome
      obtain ⟨entry, hentry, hclient⟩ := exists_entry_of_page h hpage hcontact hid
      rcases local_or_kept h hcurrent with hmem | ⟨currentId, hkept⟩
      · exact absurd hcurrentClient ((hlocal hentry hmem).2 clientId (hclient clientId hown))
      · by_contra hnot
        obtain ⟨kept, hkeptEntry, hkeptClient⟩ := exists_entry_of_kept h hpage hkept hnot
        obtain ⟨-, hstatus, hcurrentId⟩ := (keptById_eq_some h).mp hkept
        have hne : id ≠ currentId := by
          rintro rfl
          exact hnot ⟨hstatus, contact, hcontact, id, hid, hcurrentId, by rw [hown]; rfl⟩
        exact (hother hentry hkeptEntry hne).2 clientId (hclient clientId hown)
          (hkeptClient.trans hcurrentClient)
    · intro contact hcontact other hotherMem id otherId clientId hid hotherId hne hown hotherOwn
      obtain ⟨entry, hentry, hclient⟩ := exists_entry_of_page h hpage hcontact hid
      obtain ⟨entry', hentry', hclient'⟩ := exists_entry_of_page h hpage hotherMem hotherId
      exact (hother hentry hentry' hne).2 clientId (hclient clientId hown)
        (hclient' clientId hotherOwn)
  · intro hfits
    refine ⟨?_, h.sublist List.filter_sublist, fun entry hentry current hmem => ?_⟩
    · refine List.pairwise_map.mpr ((keyed_pageEntries contacts page).imp_of_mem ?_)
      exact fun hleft hright hne => apart_of_pageFits h hpage hfits hleft hright hne
    · obtain ⟨⟨id, other⟩, hother, rfl⟩ := List.mem_map.mp hentry
      exact apart_local_of_pageFits h hpage hfits hother hmem

variable [BrowserNumbers]

/-- The page has no server id of a contact that is not committed; and the client ids its contacts
take, the text of the server id for a committed one, are no other one's of the page and of no
contact that is not committed. -/
structure ResetFits (contacts page : List OutboxContact) : Prop where
  ids : ∀ contact ∈ page, ∀ current ∈ contacts, ∀ id, contact.id = some id →
    current.id = some id → current.status = some .committed
  clients : ∀ contact ∈ page, ∀ current ∈ contacts, ∀ clientId,
    (committedBackendContact contact).clientId = some clientId →
      current.clientId = some clientId → current.status = some .committed
  page : page.Pairwise fun contact other => ∀ clientId,
    (committedBackendContact contact).clientId = some clientId →
      (committedBackendContact other).clientId ≠ some clientId

theorem unique_mergeResetCommittedPage_iff (h : UniqueIds contacts) (hpage : DistinctIds page) :
    UniqueIds (mergeResetCommittedPage contacts page) ↔ ResetFits contacts page := by
  have hperm : (mergeResetCommittedPage contacts page).Perm
      (page.map committedBackendContact ++ contacts.filter (·.uncommitted)) :=
    sortContacts_perm _
  rw [unique_perm hperm, UniqueIds, List.pairwise_append]
  constructor
  · rintro ⟨hmapped, -, hcross⟩
    have hapart {contact current : OutboxContact} (hcontact : contact ∈ page)
        (hcurrent : current ∈ contacts) (hstatus : current.status ≠ some .committed) :
        Apart (committedBackendContact contact) current :=
      hcross _ (List.mem_map.mpr ⟨contact, hcontact, rfl⟩) current
        (List.mem_filter.mpr ⟨hcurrent, decide_eq_true hstatus⟩)
    refine ⟨?_, ?_, (List.pairwise_map.mp hmapped).imp fun hboth => hboth.2⟩
    · intro contact hcontact current hcurrent id hid hcurrentId
      by_contra hstatus
      exact (hapart hcontact hcurrent hstatus).1 id hid hcurrentId
    · intro contact hcontact current hcurrent clientId hclient hcurrentClient
      by_contra hstatus
      exact (hapart hcontact hcurrent hstatus).2 clientId hclient hcurrentClient
  · intro hfits
    refine ⟨List.pairwise_map.mpr ?_, h.sublist List.filter_sublist, ?_⟩
    · exact (hpage.and hfits.page).imp fun hboth => ⟨hboth.1, hboth.2⟩
    · intro entry hentry current hmem
      obtain ⟨contact, hcontact, rfl⟩ := List.mem_map.mp hentry
      obtain ⟨hcurrent, huncommitted⟩ := List.mem_filter.mp hmem
      have hstatus : current.status ≠ some .committed := of_decide_eq_true huncommitted
      constructor
      · intro id hid hcurrentId
        exact hstatus (hfits.ids contact hcontact current hcurrent id hid hcurrentId)
      · intro clientId hclient hcurrentClient
        exact hstatus
          (hfits.clients contact hcontact current hcurrent clientId hclient hcurrentClient)

end Pages

/-! Single contacts. -/

section Contacts

variable {contacts : List OutboxContact} {contact : OutboxContact}

/-- A contact with a client id that the list has already, or one that shares no id with it. -/
def AppendFits (contacts : List OutboxContact) (contact : OutboxContact) : Prop :=
  (contact.clientKey.isSome ∧ ∃ current ∈ contacts, current.clientId = contact.clientId) ∨
    ∀ current ∈ contacts, Apart current contact

theorem appends_iff : (contact.clientKey.isSome &&
    contacts.any (·.clientId = contact.clientId)) = true ↔
      contact.clientKey.isSome ∧ ∃ current ∈ contacts, current.clientId = contact.clientId := by
  rw [Bool.and_eq_true, List.any_eq_true]
  simp only [decide_eq_true_iff]

theorem unique_append_singleton_iff (h : UniqueIds contacts) :
    UniqueIds (contacts ++ [contact]) ↔ ∀ current ∈ contacts, Apart current contact := by
  rw [UniqueIds, List.pairwise_append]
  constructor
  · intro hall current hcurrent
    exact hall.2.2 current hcurrent contact (List.mem_singleton_self contact)
  · intro hall
    refine ⟨h, List.pairwise_singleton _ _, fun current hcurrent other hother => ?_⟩
    rw [List.mem_singleton.mp hother]
    exact hall current hcurrent

theorem unique_appendPendingContact_iff (h : UniqueIds contacts) :
    UniqueIds (appendPendingContact contacts contact) ↔ AppendFits contacts contact := by
  rw [appendPendingContact, AppendFits]
  split
  · next hthere => exact iff_of_true h (Or.inl (appends_iff.mp hthere))
  · next hthere =>
      rw [unique_perm (sortContacts_perm _), unique_append_singleton_iff h,
        or_iff_right (appends_iff.not.mp hthere)]

theorem mem_appendPendingContact {current : OutboxContact} (hmem : current ∈ contacts) :
    current ∈ appendPendingContact contacts contact := by
  rw [appendPendingContact]
  split
  · exact hmem
  · rw [(sortContacts_perm _).mem_iff]
    exact List.mem_append_left _ hmem

/-- A contact that is appended is in the list after, or one under its client id is. -/
theorem exists_appendPendingContact : ∃ current ∈ appendPendingContact contacts contact,
    current = contact ∨ current.clientId = contact.clientId := by
  rw [appendPendingContact]
  split
  · next hthere =>
      obtain ⟨-, current, hmem, hclient⟩ := appends_iff.mp hthere
      exact ⟨current, hmem, Or.inr hclient⟩
  · refine ⟨contact, ?_, Or.inl rfl⟩
    rw [(sortContacts_perm _).mem_iff]
    exact List.mem_append_right _ (List.mem_singleton_self contact)

variable [BrowserNumbers]

/-- Apart from the entry that the contact is merged into, none of the list has its server id or
the client id that it takes. -/
def MergeFits (contacts : List OutboxContact) (contact : OutboxContact) : Prop :=
  ∀ index current, contacts[index]? = some current →
    contacts.findIdx? (fun current => contactMatches current contact) ≠ some index →
      Apart current (committedBackendContact contact)

theorem apart_mergedEntry_iff {current other : OutboxContact} (h : Apart current other) :
    Apart (mergedEntry contact current) other ↔ Apart other (committedBackendContact contact) := by
  have hid : (mergedEntry contact current).id
      = (committedBackendContact contact).id.or current.id := rfl
  have hclient : (mergedEntry contact current).clientId
      = (committedBackendContact contact).clientId.or current.clientId := rfl
  constructor
  · intro hmerged
    constructor
    · intro id hother hcommitted
      rw [hcommitted, Option.some_or] at hid
      exact hmerged.1 id hid hother
    · intro clientId hother hcommitted
      rw [hcommitted, Option.some_or] at hclient
      exact hmerged.2 clientId hclient hother
  · intro hcommitted
    constructor
    · intro id hmerged hother
      rw [hid, Option.or_eq_some_iff] at hmerged
      rcases hmerged with hsame | ⟨-, hsame⟩
      · exact hcommitted.1 id hother hsame
      · exact h.1 id hsame hother
    · intro clientId hmerged hother
      rw [hclient, Option.or_eq_some_iff] at hmerged
      rcases hmerged with hsame | ⟨-, hsame⟩
      · exact hcommitted.2 clientId hother hsame
      · exact h.2 clientId hsame hother

theorem unique_mergeContact_iff (h : UniqueIds contacts) :
    UniqueIds (mergeContact contacts contact) ↔ MergeFits contacts contact := by
  rw [mergeContact, MergeFits]
  cases hfind : contacts.findIdx? fun current => contactMatches current contact with
  | none =>
      rw [unique_perm (sortContacts_perm _), unique_append_singleton_iff h]
      constructor
      · exact fun hall index current hget _ => hall current (List.mem_of_getElem? hget)
      · intro hall current hmem
        obtain ⟨index, hget⟩ := List.mem_iff_getElem?.mp hmem
        exact hall index current hget (by simp)
  | some place =>
      have hlt := (List.findIdx?_eq_some_iff_getElem.mp hfind).1
      have hothers : UniqueIds (contacts[place] :: contacts.eraseIdx place) :=
        (unique_perm (List.getElem_cons_eraseIdx_perm hlt)).mpr h
      obtain ⟨hplace, hrest⟩ := List.pairwise_cons.mp hothers
      have hperm : (sortContacts (contacts.modify place (mergedEntry contact))).Perm
          (mergedEntry contact contacts[place] :: contacts.eraseIdx place) := by
        rw [List.modify_eq_take_cons_drop hlt, List.eraseIdx_eq_take_drop_succ]
        exact (sortContacts_perm _).trans List.perm_middle
      dsimp only
      rw [unique_perm hperm, UniqueIds, List.pairwise_cons, and_iff_left hrest]
      constructor
      · intro hall index current hget hne
        have hmem : current ∈ contacts.eraseIdx place :=
          List.mem_eraseIdx_iff_getElem?.mpr ⟨index, fun heq => hne (heq ▸ rfl), hget⟩
        exact (apart_mergedEntry_iff (hplace current hmem)).mp (hall current hmem)
      · intro hall current hmem
        obtain ⟨index, hne, hget⟩ := List.mem_eraseIdx_iff_getElem?.mp hmem
        rw [apart_mergedEntry_iff (hplace current hmem)]
        exact hall index current hget fun heq => hne (Option.some.inj heq).symm

theorem represented_mergeContact :
    Represented [contact] contacts (mergeContact contacts contact) := by
  intro current hmem _
  by_cases hmet : contacts.find? (fun current => contactMatches current contact) = some current
  · obtain ⟨hmatches, place, hlt, rfl, hbefore⟩ := List.find?_eq_some_iff_getElem.mp hmet
    refine Or.inr ⟨contact, List.mem_singleton_self contact, hmatches, ?_⟩
    rw [mergeContact]
    have hplace : contacts.findIdx? (fun current => contactMatches current contact) = some place :=
      List.findIdx?_eq_some_iff_getElem.mpr
        ⟨hlt, hmatches, fun earlier hearlier => by simpa using hbefore earlier hearlier⟩
    rw [hplace]
    dsimp only
    rw [(sortContacts_perm _).mem_iff, List.modify_eq_take_cons_drop hlt]
    exact List.mem_append_right _ List.mem_cons_self
  · exact Or.inl (mem_mergeContact hmem hmet)

/-- From a list with at most one entry for each server id and each client id, and a page whose
contacts have server ids of their own, each merge leaves such a list, with all that the page
keeps for itself, exactly where what comes in takes no id that another entry keeps. -/
theorem merges_unique_iff (contacts page : List OutboxContact) (contact : OutboxContact)
    (h : UniqueIds contacts) (hpage : DistinctIds page) :
    (UniqueIds (mergeCommittedPage contacts page)
        ∧ Represented page contacts (mergeCommittedPage contacts page) ↔ PageFits contacts page)
      ∧ (UniqueIds (mergeResetCommittedPage contacts page)
          ∧ Represented page contacts (mergeResetCommittedPage contacts page) ↔
        ResetFits contacts page)
      ∧ (UniqueIds (mergeContact contacts contact)
          ∧ Represented [contact] contacts (mergeContact contacts contact) ↔
        MergeFits contacts contact)
      ∧ (UniqueIds (appendPendingContact contacts contact)
          ∧ Represented [] contacts (appendPendingContact contacts contact)
          ∧ (∃ current ∈ appendPendingContact contacts contact,
              current = contact ∨ current.clientId = contact.clientId) ↔
        AppendFits contacts contact) := by
  refine ⟨?_, ?_, ?_, ?_⟩
  · rw [unique_mergeCommittedPage_iff h hpage]
    exact and_iff_left fun current hmem hlocal =>
      Or.inl (mem_mergeCommittedPage hmem (uncommitted_of_shouldPersistLocally hlocal))
  · rw [unique_mergeResetCommittedPage_iff h hpage]
    exact and_iff_left fun current hmem hlocal =>
      Or.inl (mem_mergeResetCommittedPage hmem (uncommitted_of_shouldPersistLocally hlocal))
  · rw [unique_mergeContact_iff h]
    exact and_iff_left represented_mergeContact
  · rw [unique_appendPendingContact_iff h]
    exact and_iff_left ⟨fun current hmem _ => Or.inl (mem_appendPendingContact hmem),
      exists_appendPendingContact⟩

end Contacts

section Updating

attribute [local instance] plainNumbers

/-- A contact that was changed after its commit, and waits for the change to be committed. -/
def updatingContact : OutboxContact :=
  { id := some 5, clientId := some "5", status := some .updating,
    adif := [("CALL", .string "K1ABC")] }

/-- The same contact as the backend has it. -/
def backendContact : OutboxContact :=
  { id := some 5, clientId := some "5", status := some .committed,
    adif := [("CALL", .string "K1AB")] }

theorem unique_updatingContact : UniqueIds [updatingContact] := List.pairwise_singleton _ _

theorem distinctIds_backendContact : DistinctIds [backendContact] := List.pairwise_singleton _ _

/-- A page lists the contact a second time, under its id. -/
theorem not_unique_pages : UniqueIds [updatingContact] ∧ DistinctIds [backendContact]
    ∧ ¬UniqueIds (mergeCommittedPage [updatingContact] [backendContact])
    ∧ ¬UniqueIds (mergeResetCommittedPage [updatingContact] [backendContact]) := by
  refine ⟨unique_updatingContact, distinctIds_backendContact, fun hunique => ?_, fun hunique => ?_⟩
  · have hfits := (unique_mergeCommittedPage_iff unique_updatingContact
      distinctIds_backendContact).mp hunique
    have hstatus := hfits.ids backendContact (List.mem_singleton_self _) updatingContact
      (List.mem_singleton_self _) 5 rfl rfl
    cases hstatus
  · have hfits := (unique_mergeResetCommittedPage_iff unique_updatingContact
      distinctIds_backendContact).mp hunique
    have hstatus := hfits.ids backendContact (List.mem_singleton_self _) updatingContact
      (List.mem_singleton_self _) 5 rfl rfl
    cases hstatus

theorem merges_unique_iff_updating :
    (UniqueIds (mergeCommittedPage [updatingContact] [backendContact])
        ∧ Represented [backendContact] [updatingContact]
          (mergeCommittedPage [updatingContact] [backendContact]) ↔
        PageFits [updatingContact] [backendContact])
      ∧ (UniqueIds (mergeResetCommittedPage [updatingContact] [backendContact])
          ∧ Represented [backendContact] [updatingContact]
            (mergeResetCommittedPage [updatingContact] [backendContact]) ↔
        ResetFits [updatingContact] [backendContact])
      ∧ (UniqueIds (mergeContact [updatingContact] backendContact)
          ∧ Represented [backendContact] [updatingContact]
            (mergeContact [updatingContact] backendContact) ↔
        MergeFits [updatingContact] backendContact)
      ∧ (UniqueIds (appendPendingContact [updatingContact] backendContact)
          ∧ Represented [] [updatingContact] (appendPendingContact [updatingContact] backendContact)
          ∧ (∃ current ∈ appendPendingContact [updatingContact] backendContact,
              current = backendContact ∨ current.clientId = backendContact.clientId) ↔
        AppendFits [updatingContact] backendContact) :=
  merges_unique_iff [updatingContact] [backendContact] backendContact unique_updatingContact
    distinctIds_backendContact

end Updating

end Log73.Frontend
