import Log73.Db.SerialIndex
import Log73.Library.Indexing

/-!
What the contacts of a log in memory stand for: a list of contacts with distinct ids,
held three times, in order, by id and by the serials they carry.
-/

namespace Log73

open SortedAssoc
open Std (ExtTreeMap LawfulEqOrd)

/-- Two contacts with ids are ordered apart unless the ids agree. -/
theorem contactId_eq_of_orderKey_eq {contact contact' : Contact}
    (hid : (contactId contact).isSome) (hid' : (contactId contact').isSome)
    (heq : contactOrderKey contact = contactOrderKey contact') :
    contactId contact = contactId contact' := by
  obtain ⟨id, hid⟩ := Option.isSome_iff_exists.mp hid
  obtain ⟨id', hid'⟩ := Option.isSome_iff_exists.mp hid'
  have hsnd := congrArg (fun key : Int ×ₗ Int => (ofLex key).2) heq
  simp only [contactOrderKey, ofLex_toLex, hid, hid', Option.getD_some] at hsnd
  rw [hid, hid', hsnd]

/-- The entry of a contact in the ordered list. -/
def orderedEntry (contact : Contact) : (Int ×ₗ Int)ᵒᵈ × Contact :=
  (OrderDual.toDual (contactOrderKey contact), contact)

def withoutId (held : List Contact) (id : Int) : List Contact :=
  held.filter fun contact => contactId contact ≠ some id

/-- The contacts in memory are these, in whatever order. -/
structure CachedContacts.Holds (cached : CachedContacts) (held : List Contact) : Prop where
  identified : ∀ contact ∈ held, (contactId contact).isSome
  nodup : (held.map contactId).Nodup
  ordered : cached.ordered.Perm (held.map orderedEntry)
  sorted : Sorted cached.ordered
  byId : ∀ id contact, cached.byId[id]? = some contact ↔
    contact ∈ held ∧ contactId contact = some id
  serials : IndexesSerials cached.serials (held.flatMap serialEntries)

namespace CachedContacts.Holds

variable {cached : CachedContacts} {held held' : List Contact}

theorem empty : Holds {} [] where
  identified := by simp
  nodup := by simp
  ordered := .refl _
  sorted := List.Pairwise.nil
  byId := by simp
  serials := IndexesSerials.empty

theorem perm (h : cached.Holds held) (hperm : held.Perm held') : cached.Holds held' where
  identified contact hmem := h.identified contact (hperm.mem_iff.mpr hmem)
  nodup := (hperm.map contactId).nodup_iff.mp h.nodup
  ordered := h.ordered.trans (hperm.map orderedEntry)
  sorted := h.sorted
  byId id contact := by rw [h.byId, hperm.mem_iff]
  serials := h.serials.perm (hperm.flatMap_right serialEntries)

/-- The list of the contacts, newest first. -/
theorem toVec_perm (h : cached.Holds held) : cached.toVec.Perm held := by
  have hperm := h.ordered.map Prod.snd
  rwa [List.map_map, show Prod.snd ∘ orderedEntry = id from rfl, List.map_id] at hperm

/-- The list of the contacts is the list sorted newest first. -/
theorem toVec_eq (h : cached.Holds held) :
    cached.toVec = Indexing.sortDescending contactOrderKey held := by
  have hsort : (Indexing.sortDescending contactOrderKey held).Perm held :=
    Indexing.sortDescending_perm _
  have hperm := h.toVec_perm.trans hsort.symm
  have hentries : ∀ entry ∈ cached.ordered,
      entry.1 = OrderDual.toDual (contactOrderKey entry.2) := by
    intro entry hmem
    obtain ⟨contact, -, rfl⟩ := List.mem_map.mp (h.ordered.mem_iff.mp hmem)
    rfl
  have hdescending : Indexing.Descending contactOrderKey cached.toVec := by
    refine List.pairwise_map.mpr (h.sorted.imp_of_mem fun {a b} ha hb hlt => ?_)
    rw [hentries a ha, hentries b hb] at hlt
    exact (OrderDual.toDual_lt_toDual.mp hlt).le
  refine hdescending.eq_of_perm (Indexing.descending_sortDescending _) hperm ?_
  intro a ha b hb heq
  have hmem := fun contact => (h.toVec_perm.mem_iff (a := contact)).mp
  exact List.inj_on_of_nodup_map h.nodup (hmem a ha) (hmem b hb)
    (contactId_eq_of_orderKey_eq (h.identified a (hmem a ha)) (h.identified b (hmem b hb)) heq)

/-- Without its contact under an id, the list loses exactly one contact. -/
theorem perm_cons_withoutId (h : cached.Holds held) {contact : Contact} (hmem : contact ∈ held)
    {id : Int} (hid : contactId contact = some id) :
    held.Perm (contact :: withoutId held id) := by
  obtain ⟨front, back, rfl⟩ := List.append_of_mem hmem
  have hnodup := h.nodup
  rw [List.map_append, List.map_cons, List.nodup_middle, List.nodup_cons, ← List.map_append,
    hid] at hnodup
  have hother : ∀ other ∈ front ++ back, contactId other ≠ some id := by
    intro other hin heq
    exact hnodup.1 (heq ▸ List.mem_map_of_mem hin)
  have hrest : withoutId (front ++ contact :: back) id = front ++ back := by
    rw [withoutId, List.filter_append, List.filter_cons_of_neg (by simp [hid]),
      ← List.filter_append]
    exact List.filter_eq_self.mpr fun other hin => decide_eq_true (hother other hin)
  rw [hrest]
  exact List.perm_middle

theorem remove (h : cached.Holds held) (id : Int) :
    (cached.remove id).Holds (withoutId held id) := by
  have hsub : List.Sublist (withoutId held id) held := List.filter_sublist
  rw [CachedContacts.remove]
  cases hget : cached.byId[id]? with
  | none =>
      have hself : withoutId held id = held := by
        apply List.filter_eq_self.mpr
        intro contact hmem
        rw [decide_eq_true_eq]
        intro hid
        rw [(h.byId id contact).mpr ⟨hmem, hid⟩] at hget
        cases hget
      rw [hself]
      exact h
  | some contact =>
      obtain ⟨hmem, hid⟩ := (h.byId id contact).mp hget
      have hperm := h.perm_cons_withoutId hmem hid
      refine ⟨fun other hin => h.identified other (hsub.subset hin), h.nodup.sublist (hsub.map _),
        ?_, h.sorted.filter _, fun other found => ?_, ?_⟩
      · have herase := h.ordered.filter fun entry =>
          decide (entry.1 ≠ OrderDual.toDual (contactOrderKey contact))
        refine herase.trans (List.Perm.of_eq ?_)
        rw [withoutId, List.filter_map]
        congr 1
        apply List.filter_congr
        intro other hin
        simp only [Function.comp_apply, orderedEntry, decide_eq_decide, ne_eq,
          OrderDual.toDual_inj, not_iff_not]
        constructor
        · intro heq
          rw [contactId_eq_of_orderKey_eq (h.identified other hin) (h.identified contact hmem) heq,
            hid]
        · intro heq
          have hsame := ((h.byId id other).mpr ⟨hin, heq⟩).symm.trans hget
          rw [Option.some.inj hsame]
      · rw [ExtTreeMap.getElem?_erase, withoutId, List.mem_filter, decide_eq_true_eq]
        by_cases heq : id = other
        · subst heq
          simp
        · rw [if_neg fun hc => heq (LawfulEqOrd.eq_of_compare hc), h.byId]
          constructor
          · rintro ⟨hin, hfound⟩
            exact ⟨⟨hin, fun hc => heq (Option.some.inj (hc.symm.trans hfound))⟩, hfound⟩
          · rintro ⟨⟨hin, -⟩, hfound⟩
            exact ⟨hin, hfound⟩
      · apply IndexesSerials.removeContact
        refine h.serials.perm ?_
        rw [← List.flatMap_cons]
        exact hperm.flatMap_right serialEntries

theorem upsert (h : cached.Holds held) {contact : Contact} {id : Int}
    (hid : contactId contact = some id) :
    (cached.upsert contact).Holds (contact :: withoutId held id) := by
  have hrest := h.remove id
  have hfresh : ∀ other ∈ withoutId held id, contactId other ≠ some id := by
    intro other hin
    exact decide_eq_true_eq.mp (List.mem_filter.mp hin).2
  have hkey : OrderDual.toDual (contactOrderKey contact) ∉
      ((cached.remove id).ordered.map Prod.fst) := by
    intro hmem
    obtain ⟨entry, hin, heq⟩ := List.mem_map.mp hmem
    obtain ⟨other, hother, rfl⟩ := List.mem_map.mp (hrest.ordered.mem_iff.mp hin)
    apply hfresh other hother
    rw [← hid]
    exact contactId_eq_of_orderKey_eq (hrest.identified other hother) (by simp [hid])
      (OrderDual.toDual_inj.mp heq)
  rw [CachedContacts.upsert, hid]
  refine ⟨?_, ?_, ?_, hrest.sorted.insert _ _, fun other found => ?_,
    hrest.serials.insertContact contact⟩
  · intro other hmem
    cases List.mem_cons.mp hmem with
    | inl heq => simp [heq, hid]
    | inr hin => exact hrest.identified other hin
  · rw [List.map_cons, List.nodup_cons]
    refine ⟨fun hmem => ?_, hrest.nodup⟩
    obtain ⟨other, hin, heq⟩ := List.mem_map.mp hmem
    exact hfresh other hin (heq.trans hid)
  · exact (insert_perm hkey contact).trans (hrest.ordered.cons _)
  · rw [ExtTreeMap.getElem?_insert]
    by_cases heq : id = other
    · subst heq
      rw [if_pos Std.ReflCmp.compare_self, Option.some.injEq, List.mem_cons]
      constructor
      · intro hfound
        exact ⟨.inl hfound.symm, hfound ▸ hid⟩
      · rintro ⟨hmem, hfound⟩
        cases hmem with
        | inl hsame => exact hsame.symm
        | inr hin => exact absurd hfound (hfresh found hin)
    · rw [if_neg fun hc => heq (LawfulEqOrd.eq_of_compare hc), hrest.byId, List.mem_cons]
      constructor
      · rintro ⟨hin, hfound⟩
        exact ⟨.inr hin, hfound⟩
      · rintro ⟨hmem, hfound⟩
        cases hmem with
        | inl hsame =>
            exact absurd (hid.symm.trans (hsame ▸ hfound)) fun hc => heq (Option.some.inj hc)
        | inr hin => exact ⟨hin, hfound⟩

theorem new {contacts : List Contact} (hid : ∀ contact ∈ contacts, (contactId contact).isSome)
    (hnodup : (contacts.map contactId).Nodup) : (CachedContacts.new contacts).Holds contacts := by
  have hfold : ∀ (cached : CachedContacts) (held : List Contact), cached.Holds held →
      (∀ contact ∈ held, contactId contact ∉ contacts.map contactId) →
      (contacts.foldl CachedContacts.upsert cached).Holds (contacts.reverse ++ held) := by
    induction contacts with
    | nil => exact fun cached held h _ => h
    | cons contact contacts ih =>
        intro cached held h hfresh
        obtain ⟨id, hsome⟩ := Option.isSome_iff_exists.mp (hid contact List.mem_cons_self)
        rw [List.map_cons, List.nodup_cons] at hnodup
        have hself : withoutId held id = held := by
          apply List.filter_eq_self.mpr
          intro other hin
          rw [decide_eq_true_eq]
          intro heq
          exact hfresh other hin
            (List.mem_map.mpr ⟨contact, List.mem_cons_self, hsome.trans heq.symm⟩)
        have hstep := h.upsert hsome
        rw [hself] at hstep
        rw [List.foldl_cons, List.reverse_cons, List.append_assoc, List.singleton_append]
        apply ih (fun other hin => hid other (List.mem_cons_of_mem _ hin)) hnodup.2 _ _ hstep
        intro other hin
        cases List.mem_cons.mp hin with
        | inl heq => exact heq ▸ hnodup.1
        | inr hin => exact fun hmem => hfresh other hin (List.mem_cons_of_mem _ hmem)
  have hheld := hfold {} [] .empty (by simp)
  rw [List.append_nil] at hheld
  exact hheld.perm (List.reverse_perm contacts)

/-- Every serial of the contacts is at most the greatest one of its field. -/
theorem le_serialMax (h : cached.Holds held) {contact : Contact} (hmem : contact ∈ held)
    {field : String} {value : Value} (hfield : (field, value) ∈ (contactAdif contact).getD [])
    (hcanonical : normalizeAdifFieldName field = field) {serial : Int}
    (hserial : jsonSerialValue value = some serial) :
    ∃ largest, cached.serialMax field none = some largest ∧ serial ≤ largest := by
  have hentry : (⟨field, contactBand contact, serial⟩ : SerialEntry) ∈
      held.flatMap serialEntries := by
    refine List.mem_flatMap.mpr ⟨contact, hmem, List.mem_filterMap.mpr ⟨_, hfield, ?_⟩⟩
    simp [hserial]
  obtain ⟨largest, hlargest, hle⟩ := h.serials.le_maxKey? hentry
  refine ⟨largest, ?_, hle⟩
  rw [CachedContacts.serialMax, ← normalizeAdifFieldName, hcanonical]
  exact hlargest

end CachedContacts.Holds

end Log73
