import Log73.Db.Held
import Log73.Db.RoundTrip
import Log73.Db.Worker

/-!
The rows of `qsos`: what one row put in or taken out changes for the contacts of each
log, and what a transaction of `upsert` writes.
-/

namespace Log73

open SortedAssoc
open Std (ExtTreeMap LawfulEqOrd ReflCmp)

namespace QsoTable

variable (rows : QsoTable)

def write (committed : List QsoRow) : QsoTable := committed.foldl put rows

theorem getElem?_put (row : QsoRow) (id : Int64) :
    (rows.put row)[id]? = if row.id = id then some row.columns else rows[id]? := by
  rw [put, ExtTreeMap.getElem?_insert]
  exact if_congr Std.compare_eq_iff_eq rfl rfl

theorem getElem?_erase (id id' : Int64) :
    (ExtTreeMap.erase rows id)[id']? = if id = id' then none else rows[id']? := by
  rw [ExtTreeMap.getElem?_erase]
  exact if_congr Std.compare_eq_iff_eq rfl rfl

theorem getElem?_ofLog (logId id : Int64) : (rows.ofLog logId)[id]? =
    rows[id]?.filter fun columns => QsoRow.logId { id := id, columns := columns } = logId := by
  rw [ofLog, ExtTreeMap.getElem?_filter']

theorem ofLog_eq_some {logId id : Int64} {columns : List (String × SqlValue)} :
    (rows.ofLog logId)[id]? = some columns ↔
      rows[id]? = some columns ∧ QsoRow.logId { id := id, columns := columns } = logId := by
  rw [getElem?_ofLog, Option.filter_eq_some_iff, decide_eq_true_eq]

/-- A row of a log put first changes nothing for a row that is put in the place of none or of
one of this log. -/
theorem keptRow {rows : QsoTable} {row other : QsoRow} {logId : Int64} (hlog : row.logId = logId)
    (hother : other.logId = logId ∧ ∀ columns, rows[other.id]? = some columns →
      QsoRow.logId { id := other.id, columns := columns } = logId) :
    other.logId = logId ∧ ∀ columns, (rows.put row)[other.id]? = some columns →
      QsoRow.logId { id := other.id, columns := columns } = logId := by
  refine ⟨hother.1, fun columns hget => ?_⟩
  rw [getElem?_put] at hget
  split at hget
  · next heq =>
      obtain rfl := Option.some.inj hget
      rw [← heq]
      exact hlog
  · exact hother.2 columns hget

/-- The rows of the other logs stay. -/
theorem ofLog_put_of_ne (row : QsoRow) {logId : Int64} (hrow : row.logId ≠ logId)
    (hold : ∀ columns, rows[row.id]? = some columns →
      QsoRow.logId { id := row.id, columns := columns } ≠ logId) :
    (rows.put row).ofLog logId = rows.ofLog logId := by
  apply ExtTreeMap.ext_getElem?
  intro id
  rw [getElem?_ofLog, getElem?_ofLog, getElem?_put]
  split
  · next heq =>
      subst heq
      rw [Option.filter_some, if_neg (by simpa using hrow)]
      cases hget : rows[row.id]? with
      | none => rfl
      | some columns => rw [Option.filter_some, if_neg (by simpa using hold columns hget)]
  · rfl

theorem ofLog_erase_of_ne {id logId : Int64} (hold : ∀ columns, rows[id]? = some columns →
      QsoRow.logId { id := id, columns := columns } ≠ logId) :
    ofLog (ExtTreeMap.erase rows id) logId = rows.ofLog logId := by
  apply ExtTreeMap.ext_getElem?
  intro other
  rw [getElem?_ofLog, getElem?_ofLog, getElem?_erase]
  split
  · next heq =>
      subst heq
      cases hget : rows[id]? with
      | none => rfl
      | some columns => rw [Option.filter_none, Option.filter_some,
          if_neg (by simpa using hold columns hget)]
  · rfl

theorem ofLog_filter_self (logId : Int64) :
    ofLog (ExtTreeMap.filter (fun id columns =>
      QsoRow.logId { id := id, columns := columns } ≠ logId) rows) logId = ∅ := by
  apply ExtTreeMap.ext_getElem?
  intro id
  rw [getElem?_ofLog, ExtTreeMap.getElem?_filter', ExtTreeMap.getElem?_empty, Option.filter_filter,
    Option.filter_eq_none_iff]
  intro columns _
  simp

/-- Without the rows of one log, the others keep theirs. -/
theorem ofLog_filter_of_ne {logId other : Int64} (hne : logId ≠ other) :
    ofLog (ExtTreeMap.filter (fun id columns =>
      QsoRow.logId { id := id, columns := columns } ≠ logId) rows) other = rows.ofLog other := by
  apply ExtTreeMap.ext_getElem?
  intro id
  rw [getElem?_ofLog, getElem?_ofLog, ExtTreeMap.getElem?_filter']
  cases rows[id]? with
  | none => rfl
  | some columns =>
      rw [Option.filter_some]
      split
      · rfl
      · next heq =>
          rw [decide_eq_true_eq, not_not] at heq
          rw [Option.filter_none, Option.filter_some, if_neg]
          rw [decide_eq_true_eq, heq]
          exact hne

variable [Platform]

theorem mem_contacts {contact : Contact} : contact ∈ rows.contacts ↔
    ∃ id columns, rows[id]? = some columns ∧
      rowToContact { id := id, columns := columns } = contact := by
  rw [contacts, List.mem_map]
  constructor
  · rintro ⟨entry, hmem, heq⟩
    exact ⟨entry.1, entry.2, ExtTreeMap.mem_toList_iff_getElem?_eq_some.mp hmem, heq⟩
  · rintro ⟨id, columns, hget, heq⟩
    exact ⟨(id, columns), ExtTreeMap.mem_toList_iff_getElem?_eq_some.mpr hget, heq⟩

/-- The ids of the contacts are the ids of the rows, each once. -/
theorem contacts_nodup : (rows.contacts.map contactId).Nodup := by
  have hids : rows.contacts.map contactId =
      (rows.toList.map Prod.fst).map fun id => some id.toInt := by
    rw [contacts, List.map_map, List.map_map]
    exact List.map_congr_left fun entry _ => contactId_rowToContact _
  rw [hids]
  refine List.Nodup.map (fun a b h => Int64.toInt_inj.mp (Option.some.inj h)) ?_
  exact ExtTreeMap.map_fst_toList_eq_keys (t := rows) ▸ ExtTreeMap.nodup_keys

theorem contacts_identified : ∀ contact ∈ rows.contacts, (contactId contact).isSome := by
  intro contact hmem
  obtain ⟨entry, -, rfl⟩ := List.mem_map.mp hmem
  simp

/-- Contacts with ids are told apart by membership. -/
theorem contacts_perm {held : List Contact} (hnodup : (held.map contactId).Nodup)
    (hmem : ∀ contact, contact ∈ rows.contacts ↔ contact ∈ held) : rows.contacts.Perm held :=
  (List.perm_ext_iff_of_nodup (List.Nodup.of_map _ rows.contacts_nodup)
    (List.Nodup.of_map _ hnodup)).mpr hmem

theorem mem_withoutId {contact : Contact} {id : Int64} :
    contact ∈ withoutId rows.contacts id.toInt ↔
      ∃ other columns, other ≠ id ∧ rows[other]? = some columns ∧
        rowToContact { id := other, columns := columns } = contact := by
  rw [withoutId, List.mem_filter, mem_contacts, decide_eq_true_eq]
  constructor
  · rintro ⟨⟨other, columns, hget, rfl⟩, hne⟩
    refine ⟨other, columns, fun heq => hne ?_, hget, rfl⟩
    rw [contactId_rowToContact, heq]
  · rintro ⟨other, columns, hne, hget, rfl⟩
    refine ⟨⟨other, columns, hget, rfl⟩, fun heq => hne ?_⟩
    rw [contactId_rowToContact, Option.some.injEq] at heq
    exact Int64.toInt_inj.mp heq

theorem withoutId_nodup (id : Int) : ((withoutId rows.contacts id).map contactId).Nodup :=
  rows.contacts_nodup.sublist (List.filter_sublist.map _)

/-- A row of a log replaces the one under its id, or is new. -/
theorem ofLog_put_perm (row : QsoRow) :
    ((rows.put row).ofLog row.logId).contacts.Perm
      (rowToContact row :: withoutId (rows.ofLog row.logId).contacts row.id.toInt) := by
  apply contacts_perm
  · rw [List.map_cons, List.nodup_cons, contactId_rowToContact]
    refine ⟨fun hmem => ?_, withoutId_nodup _ _⟩
    obtain ⟨contact, hin, heq⟩ := List.mem_map.mp hmem
    exact of_decide_eq_true (List.mem_filter.mp hin).2 heq
  · intro contact
    rw [mem_contacts, List.mem_cons, mem_withoutId]
    simp only [ofLog_eq_some, getElem?_put]
    constructor
    · rintro ⟨id, columns, ⟨hget, hlog⟩, rfl⟩
      split at hget
      · next heq =>
          subst heq
          obtain rfl := Option.some.inj hget
          exact .inl rfl
      · next hne => exact .inr ⟨id, columns, Ne.symm hne, ⟨hget, hlog⟩, rfl⟩
    · intro hmem
      cases hmem with
      | inl heq => exact ⟨row.id, row.columns, ⟨if_pos rfl, rfl⟩, heq.symm⟩
      | inr hmem =>
          obtain ⟨id, columns, hne, ⟨hget, hlog⟩, heq⟩ := hmem
          exact ⟨id, columns, ⟨(if_neg (Ne.symm hne)).trans hget, hlog⟩, heq⟩

theorem ofLog_erase_perm (id logId : Int64) :
    (ofLog (ExtTreeMap.erase rows id) logId).contacts.Perm
      (withoutId (rows.ofLog logId).contacts id.toInt) := by
  apply contacts_perm _ (withoutId_nodup _ _)
  intro contact
  rw [mem_contacts, mem_withoutId]
  simp only [ofLog_eq_some, getElem?_erase]
  constructor
  · rintro ⟨other, columns, ⟨hget, hlog⟩, rfl⟩
    split at hget
    · cases hget
    · next hne => exact ⟨other, columns, Ne.symm hne, ⟨hget, hlog⟩, rfl⟩
  · rintro ⟨other, columns, hne, ⟨hget, hlog⟩, heq⟩
    exact ⟨other, columns, ⟨(if_neg (Ne.symm hne)).trans hget, hlog⟩, heq⟩

end QsoTable

theorem normalizeAdifFieldName_of_mem_rowToContact [Platform] {row : QsoRow} {key : String}
    {value : Value} (h : (key, value) ∈ (contactAdif (rowToContact row)).getD []) :
    normalizeAdifFieldName key = key := by
  rw [rowToContact] at h
  exact normalizeAdifFieldName_of_mem_buildContact h

section Transaction

/-- An unused rowid. -/
theorem freshRowid_not_mem {α : Type} {rows : ExtTreeMap Int64 α} {draws : List Int64} {id : Int64}
    (h : freshRowid rows draws = some id) : rows[id]? = none := by
  rw [freshRowid] at h
  split at h
  · next hmax =>
      rw [ExtTreeMap.maxKey?_eq_none_iff] at hmax
      rw [hmax, ExtTreeMap.getElem?_empty]
  · next largest hmax =>
      split at h
      · next hlt =>
          obtain rfl := Option.some.inj h
          cases hget : rows[largest + 1]? with
          | none => rfl
          | some value =>
              have hkey : largest + 1 ∈ rows := by
                rw [ExtTreeMap.mem_iff_isSome_getElem?, hget]
                rfl
              have hle := (ExtTreeMap.maxKey?_eq_some_iff_mem_and_forall.mp hmax).2 _ hkey
              rw [Std.isLE_compare, Int64.le_iff_toInt_le] at hle
              rw [Int64.lt_iff_toInt_lt] at hlt
              have hsucc : (largest + 1).toInt = largest.toInt + 1 := by
                rw [Int64.toInt_add]
                have hlow := largest.le_toInt
                have hmaxValue : Int64.maxValue.toInt = 9223372036854775807 := rfl
                have hone : (1 : Int64).toInt = 1 := rfl
                rw [hone]
                apply Int.bmod_eq_of_le <;> omega
              omega
      · have hdraw := List.find?_some h
        rw [Bool.and_eq_true, Bool.not_eq_true'] at hdraw
        exact ExtTreeMap.getElem?_eq_none_of_contains_eq_false hdraw.2

theorem contactId_preparedContact (logId : Int) (contestId : String) (contact : Contact) :
    contactId (preparedContact logId contestId contact) = contactId contact := by
  have hid : contactId (setContactMeta contact "logId" (.ofInt logId)) = contactId contact := by
    rw [contactId, contactMetaValue_setContactMeta_of_ne _ _ (by decide), ← contactId]
  rw [preparedContact]
  split
  · rw [contactId_setContactAdif, hid]
  · exact hid

variable [Platform]

/-- A contact is stored under the log it is written to. -/
theorem logId_storedRow {id logId : Int64} {contestId : String} {contact : Contact} {row : QsoRow}
    (h : storedRow id (preparedContact logId.toInt contestId contact) = some row) :
    row.id = id ∧ row.logId = logId := by
  refine ⟨by rw [storedRow_eq h], ?_⟩
  have hlog : contactLogId (preparedContact logId.toInt contestId contact) = some logId.toInt := by
    rw [contactLogId, preparedContact]
    split <;> simp [Value.ofInt, ← jsonI64Value_ofI64, Value.ofI64]
  rw [QsoRow.logId, get_storedRow h (by decide), columnValue, if_neg (by decide),
    if_neg (by decide), if_pos rfl, hlog, Option.getD_some]
  exact Int64.ofInt_toInt logId

/-- What a transaction writes: rows of this log, each in the place of none or of one of
this log. -/
theorem storeContacts_spec {logId : Int64} {contestId : String} {draws : List Int64}
    {qsos qsos' : QsoTable} {contacts : List Contact} {written : List QsoRow}
    (h : storeContacts logId contestId draws qsos contacts = some (qsos', written))
    (howned : ∀ contact ∈ contacts, ∀ id, contactId contact = some id →
      ∀ columns, qsos[Int64.ofInt id]? = some columns →
        QsoRow.logId { id := Int64.ofInt id, columns := columns } = logId) :
    qsos' = qsos.write written ∧ ∀ row ∈ written, row.logId = logId ∧
      ∀ columns, qsos[row.id]? = some columns →
        QsoRow.logId { id := row.id, columns := columns } = logId := by
  induction contacts generalizing qsos written with
  | nil =>
      obtain ⟨rfl, rfl⟩ := Prod.mk.inj (Option.some.inj h)
      exact ⟨rfl, by simp⟩
  | cons contact contacts ih =>
      obtain ⟨⟨qsos₁, row⟩, hstored, hrest⟩ := Option.bind_eq_some_iff.mp h
      obtain ⟨⟨qsos₂, rest⟩, hcontacts, heq⟩ := Option.map_eq_some_iff.mp hrest
      obtain ⟨rfl, rfl⟩ := Prod.mk.inj heq
      obtain ⟨id, hid, hrow⟩ := Option.bind_eq_some_iff.mp hstored
      obtain ⟨row', hrow', heq⟩ := Option.map_eq_some_iff.mp hrow
      obtain ⟨rfl, rfl⟩ := Prod.mk.inj heq
      obtain ⟨rfl, hlog⟩ := logId_storedRow hrow'
      have hold : ∀ columns, qsos[row'.id]? = some columns →
          QsoRow.logId { id := row'.id, columns := columns } = logId := by
        intro columns hget
        cases Option.or_eq_some_iff.mp hid with
        | inl hgiven =>
            obtain ⟨given, hgiven, heq⟩ := Option.map_eq_some_iff.mp hgiven
            rw [contactId_preparedContact] at hgiven
            have howner := howned contact List.mem_cons_self given hgiven columns
            rw [heq] at howner
            exact howner hget
        | inr hfresh =>
            rw [freshRowid_not_mem hfresh.2] at hget
            cases hget
      have hnext := ih hcontacts (fun other hmem id hother columns hget => ?_)
      · refine ⟨hnext.1, fun row hmem => ?_⟩
        cases List.mem_cons.mp hmem with
        | inl heq => exact heq ▸ ⟨hlog, hold⟩
        | inr hin =>
            refine ⟨(hnext.2 row hin).1, fun columns hget => ?_⟩
            by_cases heq : row'.id = row.id
            · exact heq ▸ hold columns (heq ▸ hget)
            · exact (hnext.2 row hin).2 columns
                ((qsos.getElem?_put row' row.id).trans ((if_neg heq).trans hget))
      · rw [QsoTable.getElem?_put] at hget
        split at hget
        · next heq =>
            obtain rfl := Option.some.inj hget
            rw [← heq]
            exact hlog
        · exact howned other (List.mem_cons_of_mem _ hmem) id hother columns hget

end Transaction

/-! ### What SQLite refuses -/

section Faults

variable {α : Type} {sql : SqlFaults} {connection connection' : Connection}
  {body : Connection → Connection × Except DbError α}

theorem Connection.transaction_error {error : DbError}
    (h : connection.transaction sql body = (connection', .error error)) :
    connection' = connection := by
  unfold Connection.transaction at h
  split at h
  · exact (Prod.mk.inj h).1.symm
  · split at h
    · exact (Prod.mk.inj h).1.symm
    · split at h
      · exact (Prod.mk.inj h).1.symm
      · cases h

theorem Connection.transaction_ok {result : α}
    (h : connection.transaction sql body = (connection', .ok result)) :
    body connection = (connection', .ok result) := by
  unfold Connection.transaction at h
  split at h
  · cases h
  · split at h
    · cases h
    · next written result' hbody =>
        split at h
        · cases h
        · rw [hbody, h]

variable {logId : Int64} {contestId : String} {draws : List Int64} {index : Nat}
  {qsos qsos' : QsoTable} {contacts : List Contact} {rows : List QsoRow}

theorem checkedSucc_eq_some {value next : Int} :
    checkedSucc value = some next ↔ value < i64Max ∧ value + 1 = next := by
  rw [checkedSucc]
  split
  · next h => simp [h]
  · next h => simp [h]

theorem dbAllocateSerial_ok {field : String} {serial : Int} {allocation : SerialAllocation}
    (h : dbAllocateSerial connection logId field serial sql = (connection', .ok allocation)) :
    serial < i64Max ∧
      connection' = { connection with
        serials := putSerial connection.serials logId field (serial + 1) } ∧
      allocation = { logId := logId, fieldAdif := field, serial := serial } := by
  unfold dbAllocateSerial at h
  split at h
  · cases h
  · next nextSerial hnext =>
      obtain ⟨hlt, rfl⟩ := checkedSucc_eq_some.mp hnext
      have hbody := Connection.transaction_ok h
      split at hbody
      · cases hbody
      · obtain ⟨rfl, hallocation⟩ := Prod.mk.inj hbody
        exact ⟨hlt, rfl, (Except.ok.inj hallocation).symm⟩

theorem dbAllocateSerial_error {field : String} {serial : Int} {error : DbError}
    (h : dbAllocateSerial connection logId field serial sql = (connection', .error error)) :
    connection' = connection := by
  unfold dbAllocateSerial at h
  split at h
  · exact (Prod.mk.inj h).1.symm
  · exact Connection.transaction_error h

variable [Platform]

/-- The contacts that SQLite stores one by one are those of the whole list. -/
theorem upsertEach_ok
    (h : upsertEach sql logId contestId draws index qsos contacts = (qsos', .ok rows)) :
    storeContacts logId contestId draws qsos contacts = some (qsos', rows) := by
  induction contacts generalizing index qsos rows with
  | nil =>
      obtain ⟨rfl, hrows⟩ := Prod.mk.inj h
      rw [← Except.ok.inj hrows]
      rfl
  | cons contact contacts ih =>
      rw [upsertEach] at h
      split at h
      · cases h
      · split at h
        · cases h
        · next stored row hstored =>
            split at h
            · cases h
            · next rest restRows hrest =>
                obtain ⟨rfl, hrows⟩ := Prod.mk.inj h
                rw [storeContacts, hstored, Option.bind_some, ih hrest, Option.map_some,
                  ← Except.ok.inj hrows]

theorem dbUpsertContacts_ok
    (h : dbUpsertContacts connection logId contestId draws contacts sql =
      (connection', .ok rows)) :
    ∃ qsos, storeContacts logId contestId draws connection.qsos contacts = some (qsos, rows) ∧
      connection' = { connection with qsos := qsos } := by
  have hbody := Connection.transaction_ok h
  cases heach : upsertEach sql logId contestId draws 0 connection.qsos contacts with
  | mk written result =>
      rw [heach] at hbody
      obtain ⟨rfl, rfl⟩ := Prod.mk.inj hbody
      exact ⟨written, upsertEach_ok heach, rfl⟩

end Faults

namespace Worker

variable [Platform] {worker worker' : Worker} {logId : Int64} {sql : SqlFaults}

theorem tryLoadContacts_served (worker : Worker) (logId : Int64) :
    worker.tryLoadContacts logId {} = (worker.loadContacts logId, .ok ()) := by
  rw [tryLoadContacts]
  cases worker.cold logId <;> rfl

theorem tryLoadContacts_error {error : DbError}
    (h : worker.tryLoadContacts logId sql = (worker', .error error)) : worker' = worker := by
  rw [tryLoadContacts] at h
  split at h
  · exact (Prod.mk.inj h).1.symm
  · cases h

theorem tryLoadContacts_ok (h : worker.tryLoadContacts logId sql = (worker', .ok ())) :
    worker' = worker.loadContacts logId := by
  rw [tryLoadContacts] at h
  split at h
  · cases h
  · exact (Prod.mk.inj h).1.symm

/-- A write that fails has loaded the contacts of the log at most. -/
theorem writeContacts_error {contacts : List Contact} {draws : List Int64} {error : DbError}
    (hwrite : worker.writeContacts logId contacts draws sql = (worker', .error error)) :
    worker' = worker ∨ worker' = worker.loadContacts logId := by
  rw [writeContacts] at hwrite
  split at hwrite
  · next loaded htry =>
      rw [← (Prod.mk.inj hwrite).1]
      exact Or.inl (tryLoadContacts_error htry)
  next loaded htry =>
  obtain rfl := tryLoadContacts_ok htry
  refine Or.inr ?_
  split at hwrite
  · exact (Prod.mk.inj hwrite).1.symm
  split at hwrite
  · exact (Prod.mk.inj hwrite).1.symm
  split at hwrite
  · next connection error hupsert =>
      obtain rfl := Connection.transaction_error hupsert
      exact (Prod.mk.inj hwrite).1.symm
  · cases hwrite

end Worker

end Log73
