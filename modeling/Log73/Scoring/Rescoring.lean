import Log73.Library.Slices
import Log73.Scoring.Frame
import Log73.Scoring.Tracker

/-!
The handlers of the tracker only write scores: position by position scores are set on the
contacts of the slice they are given, which differ in the score fields alone afterwards.
-/

namespace Log73

open Std

/-- Position by position, the contacts differ in their scores at most. -/
structure Rescored (before after : List Contact) : Prop where
  length : after.length = before.length
  same : ∀ (index : Nat) (old new : Contact), before[index]? = some old →
    after[index]? = some new → Unscored new old

namespace Rescored

variable {before after : List Contact}

/-- What a function reads besides the scores is the same at every position. -/
theorem map_eq {β : Type*} (h : Rescored before after) (f : Contact → β)
    (hf : ∀ a b, Unscored a b → f a = f b) : after.map f = before.map f := by
  refine List.ext_getElem? fun index => ?_
  rw [List.getElem?_map, List.getElem?_map]
  by_cases hlt : index < before.length
  · rw [List.getElem?_eq_getElem hlt, List.getElem?_eq_getElem (h.length ▸ hlt)]
    exact congrArg some (hf _ _ (h.same index _ _ (List.getElem?_eq_getElem hlt)
      (List.getElem?_eq_getElem (h.length ▸ hlt))))
  · have hlength := h.length
    rw [List.getElem?_eq_none (by omega), List.getElem?_eq_none (by omega)]

theorem map_contactId (h : Rescored before after) :
    after.map contactId = before.map contactId :=
  h.map_eq contactId fun _ _ hsame => hsame.contactId_eq

theorem identified (h : Rescored before after)
    (hidentified : ∀ contact ∈ before, (contactId contact).isSome) :
    ∀ contact ∈ after, (contactId contact).isSome := by
  intro contact hmem
  have hid : contactId contact ∈ before.map contactId :=
    h.map_contactId ▸ List.mem_map_of_mem hmem
  obtain ⟨other, hother, heq⟩ := List.mem_map.mp hid
  exact heq ▸ hidentified other hother

end Rescored

/-- A contact on which scores were set, one after another. -/
inductive Scored (contact : Contact) : Contact → Prop
  | refl : Scored contact contact
  | set {contact' : Contact} (h : Scored contact contact') {key : String} (hkey : key ∈ scoreFields)
      (value : Value) : Scored contact (setContactMeta contact' key value)

namespace Scored

variable {a b c : Contact}

theorem trans (h : Scored a b) (h' : Scored b c) : Scored a c := by
  induction h' with
  | refl => exact h
  | set _ hkey value ih => exact ih.set hkey value

theorem keeps (h : Scored a b) (P : Contact → Prop)
    (hset : ∀ contact key value, key ∈ scoreFields → P contact →
      P (setContactMeta contact key value))
    (ha : P a) : P b := by
  induction h with
  | refl => exact ha
  | set _ hkey value ih => exact hset _ _ value hkey ih

theorem unscored (h : Scored a b) : Unscored b a := by
  refine h.keeps (fun contact => Unscored contact a) (fun contact key value hkey hfirst => ?_)
    (.refl a)
  exact (Unscored.setContactMeta contact value hkey).trans hfirst

variable [Platform]

omit [Platform] in
theorem setContactScoreFields (contact : Contact) (points mults bonus : Int64) (isDupe : Bool) :
    Scored contact (setContactScoreFields contact points mults bonus isDupe) :=
  (((Scored.refl.set (by decide) _).set (by decide) _).set (by decide) _).set (by decide) _

omit [Platform] in
theorem incrementContactScoreField (contact : Contact) {field : String} (delta : Int64)
    (hfield : field ∈ scoreFields) :
    Scored contact (incrementContactScoreField contact field delta) :=
  Scored.refl.set hfield _

end Scored

/-- Position by position, scores were set on the contacts. -/
structure ScoredSlice (before after : List Contact) : Prop where
  length : after.length = before.length
  same : ∀ (index : Nat) (old new : Contact), before[index]? = some old →
    after[index]? = some new → Scored old new

namespace ScoredSlice

variable {before middle after : List Contact}

theorem refl (contacts : List Contact) : ScoredSlice contacts contacts :=
  ⟨rfl, fun _ _ _ h h' => Option.some.inj (h.symm.trans h') ▸ .refl⟩

theorem trans (h : ScoredSlice before middle) (h' : ScoredSlice middle after) :
    ScoredSlice before after where
  length := h'.length.trans h.length
  same index old new hold hnew := by
    have hlt : index < middle.length := h'.length ▸ (List.getElem?_eq_some_iff.mp hnew).1
    have hmiddle := List.getElem?_eq_getElem hlt
    exact (h.same index old _ hold hmiddle).trans (h'.same index _ new hmiddle hnew)

theorem nil : ScoredSlice [] [] := refl []

theorem cons {old new : Contact} (hhead : Scored old new) (h : ScoredSlice before after) :
    ScoredSlice (old :: before) (new :: after) where
  length := by rw [List.length_cons, List.length_cons, h.length]
  same index a b ha hb := by
    cases index with
    | zero =>
        rw [List.getElem?_cons_zero, Option.some.injEq] at ha hb
        exact ha ▸ hb ▸ hhead
    | succ index => exact h.same index a b ha hb

/-- Scores are set on one contact of a slice. -/
theorem set (h : ScoredSlice before after) {index : Nat} {contact contact' : Contact}
    (hcontact : after[index]? = some contact) (hscored : Scored contact contact') :
    ScoredSlice before (after.set index contact') where
  length := by rw [List.length_set, h.length]
  same i old new hold hnew := by
    rw [List.getElem?_set] at hnew
    split at hnew
    · next heq =>
        subst heq
        split at hnew
        · obtain rfl := Option.some.inj hnew
          exact (h.same _ old contact hold hcontact).trans hscored
        · cases hnew
    · exact h.same i old new hold hnew

theorem rescored (h : ScoredSlice before after) : Rescored before after where
  length := h.length
  same index old new hold hnew := (h.same index old new hold hnew).unscored

end ScoredSlice

variable [Platform]

namespace IncrementalLogState

theorem scoreOriginal_scored (state : IncrementalLogState) (contact : Contact) :
    Scored contact (state.scoreOriginal contact).2 := .setContactScoreFields ..

theorem scoreOriginal_unscored (state : IncrementalLogState) (contact : Contact) :
    Unscored (state.scoreOriginal contact).2 contact :=
      (state.scoreOriginal_scored contact).unscored

theorem addContact_scored (state : IncrementalLogState) (contact : Contact) :
    Scored contact (state.addContact contact).2 := by
  rw [addContact]
  generalize joinDupeGroup _ contact = joined
  simp only
  split
  · exact .setContactScoreFields ..
  · exact scoreOriginal_scored ..

theorem addContact_unscored (state : IncrementalLogState) (contact : Contact) :
    Unscored (state.addContact contact).2 contact := (state.addContact_scored contact).unscored

theorem addContacts_scored (state : IncrementalLogState) (contacts : List Contact) :
    ScoredSlice contacts (state.addContacts contacts).2 := by
  induction contacts generalizing state with
  | nil => exact .nil
  | cons contact contacts ih => exact .cons (state.addContact_scored contact) (ih _)

theorem reset_scored (module : Arc ContestScoringModule) (contacts : List Contact) :
    ScoredSlice contacts (reset module contacts).2 :=
  addContacts_scored _ contacts

end IncrementalLogState

namespace KeyKind

/-- The score that counts the keys a contact owns. -/
def scoreField : KeyKind → String
  | .multiplier => "mult"
  | .bonus => "bonus"

def owners (kind : KeyKind) (state : IncrementalLogState) : KeyMap Int :=
  match kind with
  | .multiplier => state.multiplierOwners
  | .bonus => state.bonusOwners

/-- The keys a contact carries. -/
def keysFor (kind : KeyKind) (state : IncrementalLogState) (contact : Contact) : List String :=
  match kind with
  | .multiplier => state.module.value.multiplierKeysFor contact
  | .bonus => (state.module.value.bonusKeysFor contact).map Prod.fst

/-- The contacts that are looked through for the new owner of a key. -/
def isReplacement (kind : KeyKind) (state : IncrementalLogState) (key : String)
    (skip : Option Int) : Contact → Bool :=
  match kind with
  | .multiplier => state.isMultiplierReplacement key skip
  | .bonus => state.isBonusReplacement key skip

/-- What a key adds to the score of the contact that gets it. -/
def worth (kind : KeyKind) (state : IncrementalLogState) (contact : Contact) (key : String) :
    Int64 :=
  match kind with
  | .multiplier => 1
  | .bonus => state.bonusWorth contact key

/-- A contact that got a key. -/
def credited (kind : KeyKind) (state : IncrementalLogState) (contact : Contact) (key : String) :
    Contact :=
  incrementContactScoreField contact kind.scoreField (kind.worth state contact key)

/-- The state once a contact got a key. -/
def credit (kind : KeyKind) (state : IncrementalLogState) (contact : Contact) (key : String)
    (id : Int) : IncrementalLogState :=
  match kind with
  | .multiplier => { state with
      multiplierOwners := state.multiplierOwners.insert key id
      rawMultiplierCount := state.rawMultiplierCount + 1 }
  | .bonus => { state with
      bonusOwners := state.bonusOwners.insert key id
      directBonusPoints := state.directBonusPoints + state.bonusWorth contact key }

variable (kind : KeyKind) (state : IncrementalLogState) (contact : Contact)
  (key : String) (id : Int)

omit [Platform] in
theorem scoreField_mem : kind.scoreField ∈ scoreFields := by
  cases kind <;> decide

theorem credit_module : (kind.credit state contact key id).module = state.module := by
  cases kind <;> rfl

theorem credited_scored : Scored contact (kind.credited state contact key) :=
  .incrementContactScoreField contact _ kind.scoreField_mem

theorem credited_unscored : Unscored (kind.credited state contact key) contact :=
  (kind.credited_scored state contact key).unscored

end KeyKind

namespace Sweep

variable (sweep : Sweep)

theorem promoteContact_scored (index : Nat) :
    ScoredSlice sweep.contacts (sweep.promoteContact index).contacts := by
  rw [promoteContact]
  split
  · exact .refl _
  · next contact hcontact =>
      split
      · exact (ScoredSlice.refl _).set hcontact (IncrementalLogState.scoreOriginal_scored ..)
      · exact .refl _

section ReassignKey

variable {kind : KeyKind} {skip : Option Int} {key : String} {index : Nat} {contact : Contact}
  {id : Int}

theorem reassignKey_owned (howned : key ∈ kind.owners sweep.state) :
    sweep.reassignKey kind skip key = sweep := by
  cases kind <;> exact if_pos (ExtTreeMap.contains_iff_mem.mpr howned)

theorem reassignKey_none
    (hfind : sweep.contacts.findIdx? (kind.isReplacement sweep.state key skip) = none) :
    sweep.reassignKey kind skip key = sweep := by
  cases kind <;>
    simp only [KeyKind.isReplacement] at hfind <;>
    simp only [reassignKey, reassignMultiplier, reassignBonus, hfind, ite_self]

/-- A contact without an id gets nothing. -/
theorem reassignKey_anonymous
    (hfind : sweep.contacts.findIdx? (kind.isReplacement sweep.state key skip) = some index)
    (hcontact : sweep.contacts[index]? = some contact) (hid : contactId contact = none) :
    sweep.reassignKey kind skip key = sweep := by
  cases kind <;>
    simp only [KeyKind.isReplacement] at hfind <;>
    simp only [reassignKey, reassignMultiplier, reassignBonus, hfind, hcontact, Option.bind_some,
      hid, ite_self]

/-- A free key goes to the first contact that may take it over. -/
theorem reassignKey_some (hfree : key ∉ kind.owners sweep.state)
    (hfind : sweep.contacts.findIdx? (kind.isReplacement sweep.state key skip) = some index)
    (hcontact : sweep.contacts[index]? = some contact) (hid : contactId contact = some id) :
    sweep.reassignKey kind skip key =
      { state := kind.credit sweep.state contact key id
        contacts := sweep.contacts.set index (kind.credited sweep.state contact key)
        changed := id :: sweep.changed } := by
  have hcontains := mt ExtTreeMap.contains_iff_mem.mp hfree
  cases kind <;>
    simp only [KeyKind.isReplacement, KeyKind.owners] at hfind hcontains <;>
    simp only [reassignKey, reassignMultiplier, reassignBonus, if_neg hcontains, hfind, hcontact,
      Option.bind_some, hid] <;>
    rfl

end ReassignKey

/-- A key stays where it is, or goes to one contact whose score grows by its worth. -/
theorem reassignKey_cases (kind : KeyKind) (skip : Option Int) (key : String) :
    sweep.reassignKey kind skip key = sweep ∨
    ∃ index contact id, sweep.contacts[index]? = some contact ∧ contactId contact = some id ∧
      sweep.reassignKey kind skip key =
        { state := kind.credit sweep.state contact key id
          contacts := sweep.contacts.set index (kind.credited sweep.state contact key)
          changed := id :: sweep.changed } := by
  by_cases howned : key ∈ kind.owners sweep.state
  · exact .inl (sweep.reassignKey_owned howned)
  cases hfind : sweep.contacts.findIdx? (kind.isReplacement sweep.state key skip) with
  | none => exact .inl (sweep.reassignKey_none hfind)
  | some index =>
      obtain ⟨contact, hcontact, -, -⟩ := Slices.getElem?_of_findIdx? hfind
      cases hid : contactId contact with
      | none => exact .inl (sweep.reassignKey_anonymous hfind hcontact hid)
      | some id =>
          exact .inr ⟨index, contact, id, hcontact, hid,
            sweep.reassignKey_some howned hfind hcontact hid⟩

theorem reassignKey_scored (kind : KeyKind) (skip : Option Int) (key : String) :
    ScoredSlice sweep.contacts (sweep.reassignKey kind skip key).contacts := by
  rcases sweep.reassignKey_cases kind skip key with
    hsame | ⟨index, contact, id, hcontact, -, hreassigned⟩
  · rw [hsame]
    exact .refl _
  · rw [hreassigned]
    exact (ScoredSlice.refl _).set hcontact (kind.credited_scored sweep.state contact key)

omit [Platform] in
/-- A loop whose every turn only sets scores. -/
theorem foldl_scored {α : Type} (turn : Sweep → α → Sweep)
    (hturn : ∀ sweep a, ScoredSlice sweep.contacts (turn sweep a).contacts) (items : List α) :
    ScoredSlice sweep.contacts (items.foldl turn sweep).contacts := by
  induction items generalizing sweep with
  | nil => exact .refl _
  | cons item items ih => exact (hturn sweep item).trans (ih _)

theorem removeContact_scored (deleted : Contact) (skip : Option Int) :
    ScoredSlice sweep.contacts (sweep.removeContact deleted skip).contacts := by
  rw [removeContact]
  generalize IncrementalLogState.leaveDupeGroup _ _ _ _ = left
  obtain ⟨state, replacement⟩ := left
  refine ScoredSlice.trans ?_
    (foldl_scored _ _ (fun sweep => sweep.reassignKey_scored .bonus skip) _)
  refine ScoredSlice.trans ?_
    (foldl_scored _ _ (fun sweep => sweep.reassignKey_scored .multiplier skip) _)
  cases replacement with
  | none => exact .refl _
  | some index =>
      simp only [promoteReplacement, Option.elim_some]
      exact promoteContact_scored { sweep with state := state.releaseKeys _ } index

theorem removeContact_rescored (deleted : Contact) (skip : Option Int) :
    Rescored sweep.contacts (sweep.removeContact deleted skip).contacts :=
  (sweep.removeContact_scored deleted skip).rescored

theorem removePrevious_scored (previous : List Contact) :
    ScoredSlice sweep.contacts (sweep.removePrevious previous).contacts :=
  foldl_scored sweep _ (fun sweep deleted => sweep.removeContact_scored deleted _) previous

theorem removePrevious_rescored (previous : List Contact) :
    Rescored sweep.contacts (sweep.removePrevious previous).contacts :=
  (sweep.removePrevious_scored previous).rescored

theorem addCommitted_scored (committed : Contact) :
    ScoredSlice sweep.contacts (sweep.addCommitted committed).contacts := by
  rw [addCommitted]
  split
  · exact .refl _
  · split
    · exact .refl _
    · split
      · exact .refl _
      · next contact hcontact =>
          exact (ScoredSlice.refl _).set hcontact (IncrementalLogState.addContact_scored ..)

theorem addCommitted_rescored (committed : Contact) :
    Rescored sweep.contacts (sweep.addCommitted committed).contacts :=
  (sweep.addCommitted_scored committed).rescored

theorem addAllCommitted_scored (committed : List Contact) :
    ScoredSlice sweep.contacts (sweep.addAllCommitted committed).contacts :=
  foldl_scored sweep _ addCommitted_scored committed

end Sweep

namespace IncrementalScoreTracker

theorem onLogLoaded_scored (module : Arc ContestScoringModule) (contacts : List Contact) :
    ScoredSlice contacts (onLogLoaded module contacts).2 :=
  IncrementalLogState.reset_scored module contacts

theorem onContactsUpserted_scored (entry : Option IncrementalLogState)
    (module : Arc ContestScoringModule) (contacts committed : List Contact)
    (previous : List (Option Contact)) :
    ScoredSlice contacts
      (onContactsUpserted entry module contacts committed previous).contacts := by
  rw [onContactsUpserted]
  have hreset : ∀ state : IncrementalLogState,
      ScoredSlice contacts (if sameModule state.module module then (state, contacts)
        else IncrementalLogState.reset module contacts).2 := by
    intro state
    split
    · exact .refl _
    · exact IncrementalLogState.reset_scored module contacts
  have hfirst := hreset (entry.getD { module := module })
  generalize (if sameModule _ module then _ else IncrementalLogState.reset module contacts) =
    first at hfirst
  obtain ⟨state, slice⟩ := first
  simp only at hfirst ⊢
  split
  · exact hfirst.trans (IncrementalLogState.reset_scored module slice)
  · let sweep : Sweep := { state := state, contacts := slice, changed := [] }
    exact hfirst.trans ((sweep.removePrevious_scored previous.reduceOption).trans
      (Sweep.addAllCommitted_scored _ committed))

theorem onContactDeleted_scored (entry : Option IncrementalLogState)
    (module : Arc ContestScoringModule) (contacts : List Contact) (deleted : Contact) :
    ScoredSlice contacts (onContactDeleted entry module contacts deleted).contacts := by
  unfold onContactDeleted
  split
  · exact .refl _
  · split
    · exact IncrementalLogState.reset_scored module contacts
    · split
      · exact IncrementalLogState.reset_scored module contacts
      · next state _ _ =>
          let sweep : Sweep := { state := state, contacts := contacts, changed := [] }
          exact sweep.removeContact_scored deleted none

end IncrementalScoreTracker

end Log73
