import Log73.Frontend.OutboxMerges
import Log73.Frontend.OutboxSystem
import Log73.Library.Slices

/-!
Commits that are under way: of those that are waited for, no two have the same key.
-/

namespace Log73.Frontend

open SortedAssoc
open Slices (pairwise_set mem_set)

namespace OutboxSystem

/-- Two commits that are waited for have different keys. -/
def Apart (request other : CommitRequest) : Prop :=
  request.waiting → other.waiting → request.key ≠ other.key

structure Commits (system : OutboxSystem) : Prop where
  apart : system.requests.Pairwise Apart
  committing : ∀ request ∈ system.requests, request.waiting →
    request.key ∈ system.committingContactIds
  sent : ∀ request ∈ system.requests, commitKey request.contact = some request.key
  answered : ∀ request ∈ system.requests, ∀ answer, request.answer = some answer →
    Served answer ∧ ∀ id, request.contact.id = some id → answer.id = some id

variable {system system' : OutboxSystem}

theorem Commits.of_same (h : system.Commits) (hrequests : system'.requests = system.requests)
    (hcommitting : system'.committingContactIds = system.committingContactIds) :
    system'.Commits where
  apart := hrequests ▸ h.apart
  committing := by
    rw [hrequests, hcommitting]
    exact h.committing
  sent := hrequests ▸ h.sent
  answered := hrequests ▸ h.answered

/-- Of the commits that are waited for, one has this key. -/
theorem Commits.eq_of_key (h : system.Commits) {index other : Nat}
    {request request' : CommitRequest} (hget : system.requests[index]? = some request)
    (hget' : system.requests[other]? = some request') (hwaiting : request.waiting)
    (hwaiting' : request'.waiting) (hkey : request.key = request'.key) : index = other := by
  obtain ⟨hlt, hrequest⟩ := List.getElem?_eq_some_iff.mp hget
  obtain ⟨hlt', hrequest'⟩ := List.getElem?_eq_some_iff.mp hget'
  have hpairs := List.pairwise_iff_getElem.mp h.apart
  rcases Nat.lt_trichotomy index other with hbefore | hsame | hafter
  · have happart := hpairs index other hlt hlt' hbefore
    rw [hrequest, hrequest'] at happart
    exact absurd hkey (happart hwaiting hwaiting')
  · exact hsame
  · have happart := hpairs other index hlt' hlt hafter
    rw [hrequest, hrequest'] at happart
    exact absurd hkey.symm (happart hwaiting' hwaiting)

theorem Commits.commit (h : system.Commits) : system.commit.Commits := by
  rw [OutboxSystem.commit]
  split
  · exact h
  · next contact hnext =>
      cases hcommit : commitKey contact with
      | none => exact h
      | some key =>
          have hfree : key ∉ system.committingContactIds := by
            have hfound := List.find?_some hnext
            rw [hcommit] at hfound
            simpa using hfound
          refine ⟨?_, fun request hmem hwaiting => ?_, fun request hmem => ?_,
            fun request hmem answer hanswer => ?_⟩
          · refine List.pairwise_append.mpr ⟨h.apart, List.pairwise_singleton _ _, ?_⟩
            intro request hmem new hnew hwaiting _ hsame
            have hin := h.committing request hmem hwaiting
            rw [List.mem_singleton.mp hnew] at hsame
            rw [hsame] at hin
            exact hfree hin
          · cases List.mem_append.mp hmem with
            | inl hold => exact List.mem_append_left _ (h.committing request hold hwaiting)
            | inr hnew =>
                rw [List.mem_singleton.mp hnew]
                exact List.mem_append_right _ (List.mem_singleton_self key)
          · cases List.mem_append.mp hmem with
            | inl hold => exact h.sent request hold
            | inr hnew =>
                rw [List.mem_singleton.mp hnew]
                exact hcommit
          · cases List.mem_append.mp hmem with
            | inl hold => exact h.answered request hold answer hanswer
            | inr hnew =>
                rw [List.mem_singleton.mp hnew] at hanswer
                cases hanswer

theorem Commits.store (h : system.Commits) (index : Nat) (id : Int) (answer : OutboxContact) :
    (system.store index id answer).Commits := by
  rw [OutboxSystem.store]
  split
  · exact h
  · next request hget =>
      split
      · next hstorable =>
          obtain ⟨-, hserved, hid, hnew⟩ := hstorable
          have hmem := List.mem_of_getElem? hget
          refine ⟨pairwise_set h.apart hget (fun _ _ happart => happart)
            (fun _ _ happart => happart),
            fun other hother hwaiting => ?_, fun other hother => ?_,
            fun other hother found hfound => ?_⟩
          · obtain rfl | ⟨place, -, hplace⟩ := mem_set hother
            · exact h.committing request hmem hwaiting
            · exact h.committing other (List.mem_of_getElem? hplace) hwaiting
          · obtain rfl | ⟨place, -, hplace⟩ := mem_set hother
            · exact h.sent request hmem
            · exact h.sent other (List.mem_of_getElem? hplace)
          · obtain rfl | ⟨place, -, hplace⟩ := mem_set hother
            · obtain rfl := Option.some.inj hfound
              refine ⟨hserved, fun old hold => ?_⟩
              have hsent : request.contact.id = some old := hold
              rw [if_neg (by simp [hsent])] at hnew
              rw [hid, ← hnew]
              exact hsent
            · exact h.answered other (List.mem_of_getElem? hplace) found hfound
      · exact h

theorem Commits.fail (h : system.Commits) (index : Nat) : (system.fail index).Commits := by
  rw [OutboxSystem.fail]
  split
  · exact h
  · next request hget =>
      split
      · exact h
      · next hwaits =>
          have hwaiting : request.waiting = true := by simpa using hwaits
          have hmem := List.mem_of_getElem? hget
          refine ⟨pairwise_set h.apart hget (fun _ _ _ _ hfalse => nomatch hfalse)
            (fun _ _ _ hfalse => nomatch hfalse), fun other hother hotherWaiting => ?_,
            fun other hother => ?_, fun other hother found hfound => ?_⟩
          · obtain rfl | ⟨place, hne, hplace⟩ := mem_set hother
            · cases hotherWaiting
            · refine List.mem_filter.mpr
                ⟨h.committing other (List.mem_of_getElem? hplace) hotherWaiting, decide_eq_true ?_⟩
              exact fun hkey => hne (h.eq_of_key hplace hget hotherWaiting hwaiting hkey)
          · obtain rfl | ⟨place, -, hplace⟩ := mem_set hother
            · exact h.sent request hmem
            · exact h.sent other (List.mem_of_getElem? hplace)
          · obtain rfl | ⟨place, -, hplace⟩ := mem_set hother
            · exact h.answered request hmem found hfound
            · exact h.answered other (List.mem_of_getElem? hplace) found hfound

section Responses

variable [BrowserNumbers] [Platform] [Browser]

theorem Commits.respond (h : system.Commits) (index : Nat) : (system.respond index).Commits := by
  rw [OutboxSystem.respond]
  split
  · exact h
  · next request hget =>
      split
      · exact h
      · next answer hanswer =>
          split
          · exact h
          · next hwaits =>
              have hwaiting : request.waiting = true := by simpa using hwaits
              have hold : ∀ {other}, other ∈ system.requests.eraseIdx index →
                  other ∈ system.requests := fun hin => (List.eraseIdx_sublist _ _).subset hin
              refine ⟨h.apart.sublist (List.eraseIdx_sublist _ _),
                fun other hin hotherWaiting => ?_,
                fun other hin => h.sent other (hold hin), fun other hin =>
                  h.answered other (hold hin)⟩
              obtain ⟨place, hne, hplace⟩ := List.mem_eraseIdx_iff_getElem?.mp hin
              refine List.mem_filter.mpr
                ⟨h.committing other (hold hin) hotherWaiting, decide_eq_true fun hkey => ?_⟩
              exact hne (h.eq_of_key hplace hget hotherWaiting hwaiting hkey)

end Responses

theorem commits_empty : Commits {} where
  apart := .nil
  committing _ hmem := nomatch hmem
  sent _ hmem := nomatch hmem
  answered _ hmem := nomatch hmem

end OutboxSystem

end Log73.Frontend
