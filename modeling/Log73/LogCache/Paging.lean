import Mathlib.Data.List.Dedup
import Log73.Library.Ranges
import Log73.LogCache.Session

/-!
`contacts_display_page` of `log_cache.rs`: one page of the contacts of a log, of all of them or
of those whose callsign starts with a prefix. A slice out of range would end the program; it is
`none`.
-/

namespace Log73

open Std

/-- The order of the keys of an index. -/
theorem lt_of_compare {a b : String} (h : compare a b = .lt) : a < b :=
  compareOfLessAndEq_eq_lt.mp h

theorem startsWith_iff {s start : String} :
    startsWith s start = true ↔ start.toList <+: s.toList := List.isPrefixOf_iff_prefix

theorem not_lt_of_startsWith {s start : String} (h : startsWith s start = true) : ¬s < start :=
  Ranges.not_lt_of_prefix Char.lt_irrefl (startsWith_iff.mp h)

/-- The texts that start alike stand together. -/
theorem startsWith_of_between {s s' start : String} (hge : ¬s < start) (hlt : s < s')
    (h : startsWith s' start = true) : startsWith s start = true :=
  startsWith_iff.mpr (Ranges.prefix_of_between hge hlt (startsWith_iff.mp h))

/-- The part of an index that starts alike is a range of it, found from its lower end. -/
theorem range_eq_filter {ν : Type} (index : KeyMap ν) (start : String) :
    ((index.toList.dropWhile fun entry => decide (entry.1 < start)).takeWhile
      fun entry => startsWith entry.1 start) =
        index.toList.filter fun entry => startsWith entry.1 start := by
  have hordered : index.toList.Pairwise fun a b => a.1 < b.1 :=
    ExtTreeMap.ordered_keys_toList.imp lt_of_compare
  rw [Ranges.dropWhile_eq_filter, Ranges.takeWhile_eq_filter, List.filter_filter]
  · refine List.filter_congr fun entry _ => ?_
    rw [Bool.and_eq_left_iff_imp]
    intro hstart
    rw [Bool.not_eq_true', decide_eq_false_iff_not]
    exact not_lt_of_startsWith hstart
  · refine (hordered.filter _).imp_of_mem fun {a b} ha _ hlt hstart => ?_
    have hge := (List.mem_filter.mp ha).2
    rw [Bool.not_eq_true', decide_eq_false_iff_not] at hge
    exact startsWith_of_between hge hlt hstart
  · refine hordered.imp fun {a b} hlt hb => ?_
    exact decide_eq_true (String.lt_trans hlt (of_decide_eq_true hb))

variable [Platform]

def normalizedCallsignPrefix (callsignPrefix : Option String) : Option String :=
  let callsignPrefix := toUppercase (trim (callsignPrefix.getD ""))
  if callsignPrefix.isEmpty then none else some callsignPrefix

namespace CachedLog

variable (log : CachedLog)

/-- The source collects the ids in a set. -/
def matchingContactIdsForPrefix (callsignPrefix : String) : List Int :=
  (((log.callsignIndex.toList.dropWhile fun entry => decide (entry.1 < callsignPrefix)).takeWhile
    fun entry => startsWith entry.1 callsignPrefix).flatMap (·.2)).dedup

def matchingPositions (callsignPrefix : String) : List Nat :=
  (log.matchingContactIdsForPrefix callsignPrefix).filterMap (log.contactPositions[·]?)

def contactsDisplayPage (offset limit : Nat) (callsignPrefix : Option String) :
    Option (List Contact) :=
  if limit = 0 then some []
  else
    match normalizedCallsignPrefix callsignPrefix with
    | some callsignPrefix =>
        if (log.matchingContactIdsForPrefix callsignPrefix).isEmpty then some []
        else some ((((log.matchingPositions callsignPrefix).mergeSort.drop offset).take
          limit).filterMap (log.contacts[·]?))
    | none =>
        if log.contacts.length ≤ offset then some []
        else Ranges.slice? log.contacts offset
          (min (Ranges.saturatingAdd usizeMax offset limit) log.contacts.length)

end CachedLog

/-- The upper-cased callsign starts with the upper-cased prefix; without a prefix every contact
is shown. -/
def shownUnder (callsignPrefix : Option String) (contact : Contact) : Bool :=
  (normalizedCallsignPrefix callsignPrefix).all fun callsignPrefix =>
    (contactCallsign contact).any (startsWith · callsignPrefix)

namespace CachedLog.Consistent

variable {log : CachedLog}

/-- The range of the index that is searched is all that matches. -/
theorem mem_matchingContactIds (h : Consistent log) (callsignPrefix : String) (id : Int) :
    id ∈ log.matchingContactIdsForPrefix callsignPrefix ↔
      ∃ contact ∈ log.contacts, contactId contact = some id ∧
        (contactCallsign contact).any (startsWith · callsignPrefix) = true := by
  have hgroup (callsign : String) (ids : List Int)
      (hentry : (callsign, ids) ∈ log.callsignIndex.toList) :
      id ∈ ids ↔ ∃ contact ∈ log.contacts,
        contactCallsign contact = some callsign ∧ contactId contact = some id := by
    have hmembers := (h.callsigns callsign).1.mem_iff (a := id)
    rw [ExtTreeMap.mem_toList_iff_getElem?_eq_some.mp hentry, Option.getD_some, Indexing.members,
      List.mem_filterMap] at hmembers
    rw [hmembers]
    refine exists_congr fun contact => ?_
    rw [List.mem_filter, decide_eq_true_eq, and_assoc]
  rw [matchingContactIdsForPrefix, range_eq_filter, List.mem_dedup, List.mem_flatMap]
  constructor
  · rintro ⟨⟨callsign, ids⟩, hentry, hid⟩
    rw [List.mem_filter] at hentry
    obtain ⟨contact, hmem, hcallsign, hcontact⟩ := (hgroup callsign ids hentry.1).mp hid
    refine ⟨contact, hmem, hcontact, ?_⟩
    rw [hcallsign]
    exact hentry.2
  · rintro ⟨contact, hmem, hcontact, hmatch⟩
    obtain ⟨callsign, hcallsign, hstart⟩ := (Option.any_eq_true _ _).mp hmatch
    have hmember : id ∈ log.callsignIndex[callsign]?.getD [] := by
      rw [(h.callsigns callsign).1.mem_iff, Indexing.members, List.mem_filterMap]
      exact ⟨contact, List.mem_filter.mpr ⟨hmem, decide_eq_true hcallsign⟩, hcontact⟩
    cases hids : log.callsignIndex[callsign]? with
    | none =>
        rw [hids] at hmember
        cases hmember
    | some ids =>
        rw [hids] at hmember
        exact ⟨(callsign, ids), List.mem_filter.mpr
          ⟨ExtTreeMap.mem_toList_iff_getElem?_eq_some.mpr hids, hstart⟩, hmember⟩

/-- The positions read from the index are those of the contacts that match. -/
theorem mem_matchingPositions (h : Consistent log) (callsignPrefix : String) (i : Nat) :
    i ∈ log.matchingPositions callsignPrefix ↔
      ∃ contact, log.contacts[i]? = some contact ∧
        (contactCallsign contact).any (startsWith · callsignPrefix) = true := by
  rw [matchingPositions, List.mem_filterMap]
  constructor
  · rintro ⟨id, hid, hi⟩
    obtain ⟨contact, hmem, hcontact, hmatch⟩ := (h.mem_matchingContactIds callsignPrefix id).mp hid
    obtain ⟨contact', hget, hcontact'⟩ := (h.positions id i).mp hi
    obtain ⟨j, hj⟩ := List.getElem?_of_mem hmem
    rw [(h.positions id j).mpr ⟨contact, hj, hcontact⟩, Option.some_inj] at hi
    exact ⟨contact, hi ▸ hj, hmatch⟩
  · rintro ⟨contact, hget, hmatch⟩
    have hmem := List.mem_of_getElem? hget
    obtain ⟨id, hid⟩ := Option.isSome_iff_exists.mp (h.identified contact hmem)
    exact ⟨id, (h.mem_matchingContactIds callsignPrefix id).mpr ⟨contact, hmem, hid, hmatch⟩,
      (h.positions id i).mpr ⟨contact, hget, hid⟩⟩

theorem matchingPositions_nodup (h : Consistent log) (callsignPrefix : String) :
    (log.matchingPositions callsignPrefix).Nodup := by
  refine List.Nodup.filterMap (fun id id' i hi hi' => ?_) (List.nodup_dedup _)
  obtain ⟨contact, hget, hid⟩ := (h.positions id i).mp hi
  obtain ⟨contact', hget', hid'⟩ := (h.positions id' i).mp hi'
  rw [hget, Option.some_inj] at hget'
  rw [hget', hid', Option.some_inj] at hid
  exact hid.symm

/-- Both paths cut a page out of the contacts that are shown. -/
theorem contactsDisplayPage_eq (h : Consistent log) (hfits : log.contacts.length ≤ usizeMax)
    (offset limit : Nat) (callsignPrefix : Option String) :
    log.contactsDisplayPage offset limit callsignPrefix =
      some (Ranges.page (log.contacts.filter (shownUnder callsignPrefix)) offset limit) := by
  rw [contactsDisplayPage]
  by_cases hzero : limit = 0
  · rw [if_pos hzero, hzero, Ranges.page, List.take_zero]
  rw [if_neg hzero]
  cases hprefix : normalizedCallsignPrefix callsignPrefix with
  | some callsignPrefix' =>
      have hshown : shownUnder callsignPrefix = fun contact =>
          (contactCallsign contact).any (startsWith · callsignPrefix') := by
        funext contact
        rw [shownUnder, hprefix, Option.all_some]
      have hpage := Ranges.page_positions (h.matchingPositions_nodup callsignPrefix')
        (h.mem_matchingPositions callsignPrefix') offset limit
      rw [hshown, ← hpage]
      dsimp only
      split
      · next hempty =>
          rw [matchingPositions, List.isEmpty_iff.mp hempty]
          simp [Ranges.page]
      · rfl
  | none =>
      have hshown : log.contacts.filter (shownUnder callsignPrefix) = log.contacts := by
        refine List.filter_eq_self.mpr fun contact _ => ?_
        rw [shownUnder, hprefix, Option.all_none]
      rw [hshown]
      dsimp only
      by_cases hle : log.contacts.length ≤ offset
      · rw [if_pos hle, Ranges.page, List.drop_eq_nil_of_le hle, List.take_nil]
      · rw [if_neg hle]
        exact Ranges.slice?_eq_page limit hfits (Nat.lt_of_not_le hle)

end CachedLog.Consistent

/-- What a client reads at the multiples of a limit: every contact that is shown, in order, on
pages of which only the last one with contacts may be short. -/
structure Paged (shown : List Contact) (limit : Nat) (page : Nat → List Contact) : Prop where
  flatten : ∀ count, shown.length ≤ count * limit → (List.range count).flatMap page = shown
  full : ∀ k, page (k + 1) ≠ [] → (page k).length = limit

/-- The pages of every log that loads, upserts and deletions lead to, under every prefix: none
is cut out of range, and together they are the contacts shown, newest first. A `Vec` holds
fewer elements than `usize` can count. -/
theorem contactsDisplayPage_pages (database : DxccDatabase) (logId : Int64) (rows : QsoTable)
    (module : Arc ContestScoringModule) (events : List LogEvent) (limit : Nat)
    (callsignPrefix : Option String)
    (hfits : ((LogSession.start database logId rows module).run database
      events).loaded.cached.contacts.length ≤ usizeMax) :
    let log := ((LogSession.start database logId rows module).run database events).loaded.cached
    Indexing.Descending contactOrderKey log.contacts ∧
      (∀ offset, (log.contactsDisplayPage offset limit callsignPrefix).isSome) ∧
      Paged (log.contacts.filter (shownUnder callsignPrefix)) limit fun k =>
        (log.contactsDisplayPage (k * limit) limit callsignPrefix).getD [] := by
  intro log
  have hconsistent : log.Consistent := LogSession.run_consistent database _ events
    (LogSession.start_consistent database logId rows module)
  have hpage (offset : Nat) := hconsistent.contactsDisplayPage_eq hfits offset limit callsignPrefix
  refine ⟨hconsistent.newestFirst, fun offset => ?_, ?_, ?_⟩
  · rw [hpage]
    rfl
  · intro count hcount
    have hread : (fun k => (log.contactsDisplayPage (k * limit) limit callsignPrefix).getD []) =
        fun k => Ranges.page (log.contacts.filter (shownUnder callsignPrefix))
          (k * limit) limit := by
      funext k
      rw [hpage, Option.getD_some]
    rw [hread, Ranges.pages_flatten, List.take_of_length_le hcount]
  · intro k hnext
    rw [hpage, Option.getD_some] at hnext ⊢
    exact Ranges.length_page_of_next hnext

end Log73

namespace Log73

attribute [local instance] asciiPlatform

def pagedModule : Arc ContestScoringModule := ⟨0, .new stateContest .null⟩

/-- Three contacts, one of them without the prefix and one deleted again. -/
def pagedEvents : List LogEvent :=
  [.upsert [(1, stateContact 1 "K1ABC" "CA" 100), (2, stateContact 2 "W2XYZ" "CA" 200)],
    .upsert [(3, stateContact 3 "K1DEF" "NV" 300)], .delete 1]

theorem contactsDisplayPage_pages_one :
    let log := ((LogSession.start ⟨[], []⟩ 1 ∅ pagedModule).run ⟨[], []⟩ pagedEvents).loaded.cached
    Indexing.Descending contactOrderKey log.contacts ∧
      (∀ offset, (log.contactsDisplayPage offset 1 (some "k1")).isSome) ∧
      Paged (log.contacts.filter (shownUnder (some "k1"))) 1 fun k =>
        (log.contactsDisplayPage (k * 1) 1 (some "k1")).getD [] :=
  contactsDisplayPage_pages ⟨[], []⟩ 1 ∅ pagedModule pagedEvents 1 (some "k1")
    (by decide +kernel)

end Log73
