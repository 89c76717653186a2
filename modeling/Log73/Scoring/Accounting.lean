import Log73.Library.Slices
import Log73.Scoring.Groups

/-!
The account of a whole log: groups and credits together, kept by the sweeps of a
batch. While a batch runs, the contacts of the slice it replaces or adds are
pending, and the replaced versions not removed yet remain accounted for.
-/

namespace Log73

open Std

variable [Platform]

/-- A contact of the slice that is accounted for. -/
def settled (pending : List Int) (contact : Contact) : Bool :=
  (contactId contact).all fun id => !pending.contains id

def isOriginal (contact : Contact) : Bool := !isDupeContact contact

/-- Groups and credits of one list of contacts. -/
structure Balanced (state : IncrementalLogState) (live : List Contact) : Prop where
  groups : Groups state live
  credits : Credits state (live.filter isOriginal)

/-- Every dupe group with one of the contacts has an original. -/
def DupesCovered (state : IncrementalLogState) (contacts live : List Contact) : Prop :=
  ∀ contact ∈ contacts, ∀ key, state.module.value.dupeKeyFor contact = some key →
    ∃ original ∈ live, isDupeContact original = false ∧
      state.module.value.dupeKeyFor original = some key

/-- The keys of the originals among the contacts are owned, or still to be handed out. -/
def KeysOwned (state : IncrementalLogState) (contacts : List Contact)
    (todoMultipliers todoBonuses : List String) : Prop :=
  ∀ contact ∈ contacts, isDupeContact contact = false →
    (∀ key ∈ state.module.value.multiplierKeysFor contact,
      key ∈ state.multiplierOwners ∨ key ∈ todoMultipliers) ∧
    ∀ key ∈ (state.module.value.bonusKeysFor contact).map Prod.fst,
      key ∈ state.bonusOwners ∨ key ∈ todoBonuses

/-- The rules a sweep runs under: no caps, and no rule reads a score. -/
structure PlainRules (module : ContestScoringModule) : Prop where
  uncapped : module.hasCappedMultipliers = false
  reads : module.rules.scoring.ReadsNoScores

/-- The state of a sweep between two of its steps. -/
structure SweepOk (pending : List Int) (remaining : List Contact)
    (todoMultipliers todoBonuses : List String) (sweep : Sweep) : Prop where
  rules : PlainRules sweep.state.module.value
  balanced : Balanced sweep.state (sweep.contacts.filter (settled pending) ++ remaining)
  dupes : DupesCovered sweep.state (sweep.contacts.filter (settled pending))
    (sweep.contacts.filter (settled pending) ++ remaining)
  keys : KeysOwned sweep.state (sweep.contacts.filter (settled pending)) todoMultipliers
    todoBonuses

/-- A contact of the slice against the slice the sweep began with: only scores changed, and
no original became a dupe. -/
structure Evolves (before after : Contact) : Prop where
  same : Unscored after before
  original : isDupeContact before = false → isDupeContact after = false

/-- What a sweep leaves alone. -/
structure Tracks (pending : List Int) (start sweep : Sweep) : Prop where
  module : sweep.state.module = start.state.module
  length : sweep.contacts.length = start.contacts.length
  evolves : ∀ (index : Nat) (before after : Contact), start.contacts[index]? = some before →
    sweep.contacts[index]? = some after → Evolves before after
  multiplierOwners : ∀ (key : String) (id : Int), id ∈ pending →
    sweep.state.multiplierOwners[key]? = some id → start.state.multiplierOwners[key]? = some id
  bonusOwners : ∀ (key : String) (id : Int), id ∈ pending →
    sweep.state.bonusOwners[key]? = some id → start.state.bonusOwners[key]? = some id

omit [Platform] in
theorem settled_congr {contact contact' : Contact} (h : contactId contact = contactId contact')
    (pending : List Int) : settled pending contact = settled pending contact' := by
  rw [settled, settled, h]

namespace KeyKind

variable (kind : KeyKind) (state : IncrementalLogState) (contact : Contact)
  (key : String) (id : Int)

theorem isDupeContact_credited :
    isDupeContact (kind.credited state contact key) = isDupeContact contact := by
  cases kind <;> exact isDupeContact_incrementContactScoreField _ _ (by decide)

theorem credit_sameGroups : SameGroups state (kind.credit state contact key id) := by
  cases kind <;> exact ⟨rfl, rfl, rfl, rfl⟩

end KeyKind

namespace Balanced

variable {state state' : IncrementalLogState} {live live' : List Contact}
  {contact contact' : Contact} {id : Int}

theorem perm (h : Balanced state live) (hperm : live.Perm live') : Balanced state live' :=
  ⟨h.groups.perm hperm, h.credits.perm (hperm.filter _)⟩

theorem congr (h : Balanced state live) (hgroups : SameGroups state state')
    (hcredits : SameCredits state state') : Balanced state' live :=
  ⟨h.groups.congr hgroups, h.credits.congr hcredits⟩

theorem recalculateScore (h : Balanced state live) : Balanced state.recalculateScore live :=
  h.congr ⟨rfl, rfl, rfl, rfl⟩ ⟨rfl, rfl, rfl, rfl, rfl, rfl, rfl⟩

theorem credits_cons (h : Balanced state (contact :: live))
    (horiginal : isDupeContact contact = false) :
    Credits state (contact :: live.filter isOriginal) := by
  have hcredits := h.credits
  rwa [List.filter_cons_of_pos (by simp [isOriginal, horiginal])] at hcredits

theorem mk_cons (hgroups : Groups state (contact :: live))
    (hcredits : Credits state (contact :: live.filter isOriginal))
    (horiginal : isDupeContact contact = false) : Balanced state (contact :: live) := by
  refine ⟨hgroups, ?_⟩
  rwa [List.filter_cons_of_pos (by simp [isOriginal, horiginal])]

/-- Writing scores to an original leaves its group alone. -/
theorem groups_rescore (h : Groups state (contact :: live))
    (hreads : state.module.value.rules.scoring.ReadsNoScores)
    (horiginal : isDupeContact contact = false)
    (hsame : Unscored contact' contact) (horiginal' : isDupeContact contact' = false) :
    Groups state (contact' :: live) := by
  have hkey := ContestScoringModule.dupeKeyFor_congr hreads hsame
  constructor
  · intro other hmem
    rcases List.mem_cons.mp hmem with rfl | hmem
    · rw [hsame.contactId_eq]
      exact h.identified contact List.mem_cons_self
    · exact h.identified other (List.mem_cons_of_mem _ hmem)
  · rw [List.map_cons, hsame.contactId_eq]
    exact h.distinct
  · rw [h.count, List.length_cons, List.length_cons]
  · refine h.counts.congr fun key => ?_
    rw [List.countP_cons, List.countP_cons, hkey]
  · intro key id
    rw [h.owners key id]
    simp only [List.exists_mem_cons_iff, hsame.contactId_eq, hkey, horiginal, horiginal']
  · intro other hmem hdupe
    rcases List.mem_cons.mp hmem with rfl | hmem
    · rw [horiginal'] at hdupe
      cases hdupe
    · exact h.dupes other (List.mem_cons_of_mem _ hmem) hdupe

/-- A free key that an original carries is handed to it. -/
theorem credit (kind : KeyKind) (h : Balanced state (contact :: live))
    (hreads : state.module.value.rules.scoring.ReadsNoScores)
    (hid : contactId contact = some id) (horiginal : isDupeContact contact = false) {key : String}
    (hkey : key ∈ kind.keysFor state contact) (hfree : key ∉ kind.owners state) :
    Balanced (kind.credit state contact key id) (kind.credited state contact key :: live) := by
  have horiginal' := (kind.isDupeContact_credited state contact key).trans horiginal
  have hgroups := (groups_rescore h.groups hreads horiginal
    (kind.credited_unscored state contact key) horiginal').congr
      (kind.credit_sameGroups state contact key id)
  have hcredits := h.credits_cons horiginal
  cases kind with
  | multiplier => exact mk_cons hgroups (hcredits.creditMultiplier hreads hid hkey hfree) horiginal'
  | bonus => exact mk_cons hgroups (hcredits.creditBonus hreads hid hkey hfree) horiginal'

end Balanced

namespace Tracks

variable {pending : List Int} {start sweep : Sweep}

omit [Platform] in
theorem refl (pending : List Int) (sweep : Sweep) : Tracks pending sweep sweep where
  module := rfl
  length := rfl
  evolves index before after h h' := by
    obtain rfl : before = after := Option.some.inj (h.symm.trans h')
    exact ⟨.refl _, id⟩
  multiplierOwners _ _ _ h := h
  bonusOwners _ _ _ h := h

omit [Platform] in
/-- One contact of the slice is rescored, and keys go to contacts that are not pending. -/
theorem set (h : Tracks pending start sweep) {index : Nat} {contact contact' : Contact}
    (hcontact : sweep.contacts[index]? = some contact) (hstep : Evolves contact contact')
    {state : IncrementalLogState} (hmodule : state.module = sweep.state.module)
    (hmultipliers : ∀ (key : String) (id : Int), id ∈ pending →
      state.multiplierOwners[key]? = some id → sweep.state.multiplierOwners[key]? = some id)
    (hbonuses : ∀ (key : String) (id : Int), id ∈ pending →
      state.bonusOwners[key]? = some id → sweep.state.bonusOwners[key]? = some id)
    (changed : List Int) :
    Tracks pending start
      { state := state, contacts := sweep.contacts.set index contact', changed := changed } where
  module := hmodule.trans h.module
  length := by rw [List.length_set, h.length]
  evolves i before after hbefore hafter := by
    rw [List.getElem?_set] at hafter
    split at hafter
    · next heq =>
        subst heq
        split at hafter
        · obtain rfl := Option.some.inj hafter
          have hold := h.evolves _ before contact hbefore hcontact
          exact ⟨hstep.same.trans hold.same, fun hb => hstep.original (hold.original hb)⟩
        · cases hafter
    · exact h.evolves i before after hbefore hafter
  multiplierOwners key id hid howner :=
    h.multiplierOwners key id hid (hmultipliers key id hid howner)
  bonusOwners key id hid howner := h.bonusOwners key id hid (hbonuses key id hid howner)

end Tracks

section Reassign

variable {pending : List Int} {remaining : List Contact}
  {todoMultipliers todoBonuses : List String} {start sweep : Sweep} {skip : Option Int}
  {key : String}

omit [Platform] in
/-- The contacts a sweep accounts for, around one contact of its slice. -/
theorem live_perm {slice : List Contact} {index : Nat} {contact : Contact}
    (hcontact : slice[index]? = some contact) (hsettled : settled pending contact = true)
    (remaining : List Contact) :
    (slice.filter (settled pending) ++ remaining).Perm
      (contact :: ((slice.eraseIdx index).filter (settled pending) ++ remaining)) :=
  (Slices.filter_perm_of_pos _ hcontact hsettled).append_right remaining

omit [Platform] in
theorem live_set_perm {slice : List Contact} {index : Nat} {contact contact' : Contact}
    (hcontact : slice[index]? = some contact) (hsettled : settled pending contact' = true)
    (remaining : List Contact) :
    ((slice.set index contact').filter (settled pending) ++ remaining).Perm
      (contact' :: ((slice.eraseIdx index).filter (settled pending) ++ remaining)) :=
  (Slices.filter_set_perm_of_pos _ hcontact hsettled).append_right remaining

/-- An original of the slice is rescored and stays an original; what the state owes stays
covered. -/
theorem SweepOk.set (h : SweepOk pending remaining todoMultipliers todoBonuses sweep)
    {index : Nat} {contact contact' : Contact}
    (hcontact : sweep.contacts[index]? = some contact)
    (hsettled : settled pending contact = true)
    (horiginal : isDupeContact contact = false) (horiginal' : isDupeContact contact' = false)
    (hsame : Unscored contact' contact) {state : IncrementalLogState}
    (hmodule : state.module = sweep.state.module)
    (hbalanced : Balanced state
      (contact' :: ((sweep.contacts.eraseIdx index).filter (settled pending) ++ remaining)))
    {todoMultipliers' todoBonuses' : List String}
    (hmultipliers : ∀ key, key ∈ sweep.state.multiplierOwners ∨ key ∈ todoMultipliers →
      key ∈ state.multiplierOwners ∨ key ∈ todoMultipliers')
    (hbonuses : ∀ key, key ∈ sweep.state.bonusOwners ∨ key ∈ todoBonuses →
      key ∈ state.bonusOwners ∨ key ∈ todoBonuses') (changed : List Int) :
    SweepOk pending remaining todoMultipliers' todoBonuses'
      { state := state, contacts := sweep.contacts.set index contact', changed := changed } := by
  have hreads := h.rules.reads
  have hsettled' : settled pending contact' = true :=
    (settled_congr hsame.contactId_eq pending).trans hsettled
  have hlive := live_perm hcontact hsettled remaining
  have hlive' := live_set_perm hcontact hsettled' remaining
  have hslice := Slices.filter_perm_of_pos _ hcontact hsettled
  have hslice' := Slices.filter_set_perm_of_pos _ hcontact hsettled'
  -- a contact accounted for afterwards is the rescored one or was accounted for before
  have hcases : ∀ other ∈ (sweep.contacts.set index contact').filter (settled pending),
      other = contact' ∨ other ∈ sweep.contacts.filter (settled pending) := by
    intro other hmem
    rcases List.mem_cons.mp (hslice'.mem_iff.mp hmem) with heq | hmem
    · exact .inl heq
    · exact .inr (hslice.mem_iff.mpr (List.mem_cons_of_mem _ hmem))
  refine ⟨by rw [hmodule]; exact h.rules, hbalanced.perm hlive'.symm, ?_, ?_⟩
  · intro other hmem key hkey
    rw [hmodule] at hkey
    obtain ⟨original, horig, hnot, hgroup⟩ :
        ∃ original ∈ sweep.contacts.filter (settled pending) ++ remaining,
          isDupeContact original = false ∧
            sweep.state.module.value.dupeKeyFor original = some key := by
      rcases hcases other hmem with rfl | hmem
      · rw [ContestScoringModule.dupeKeyFor_congr hreads hsame] at hkey
        exact h.dupes contact (hslice.mem_iff.mpr List.mem_cons_self) key hkey
      · exact h.dupes other hmem key hkey
    rw [hmodule]
    rcases List.mem_cons.mp (hlive.mem_iff.mp horig) with rfl | horig
    · refine ⟨contact', hlive'.mem_iff.mpr List.mem_cons_self, horiginal', ?_⟩
      rw [ContestScoringModule.dupeKeyFor_congr hreads hsame, hgroup]
    · exact ⟨original, hlive'.mem_iff.mpr (List.mem_cons_of_mem _ horig), hnot, hgroup⟩
  · intro other hmem hother
    rw [hmodule]
    obtain ⟨hm, hb⟩ : (∀ key ∈ sweep.state.module.value.multiplierKeysFor other,
          key ∈ sweep.state.multiplierOwners ∨ key ∈ todoMultipliers) ∧
        ∀ key ∈ (sweep.state.module.value.bonusKeysFor other).map Prod.fst,
          key ∈ sweep.state.bonusOwners ∨ key ∈ todoBonuses := by
      rcases hcases other hmem with rfl | hmem
      · rw [ContestScoringModule.multiplierKeysFor_congr hreads hsame,
          ContestScoringModule.bonusKeysFor_congr hreads hsame]
        exact h.keys contact (hslice.mem_iff.mpr List.mem_cons_self) horiginal
      · exact h.keys other hmem hother
    exact ⟨fun key hkey => hmultipliers key (hm key hkey),
      fun key hkey => hbonuses key (hb key hkey)⟩

/-- Keys that turned out to be owned or carried by nobody are no longer owed. -/
theorem SweepOk.settle (h : SweepOk pending remaining todoMultipliers todoBonuses sweep)
    {todoMultipliers' todoBonuses' : List String}
    (hkeys : KeysOwned sweep.state (sweep.contacts.filter (settled pending)) todoMultipliers'
      todoBonuses') :
    SweepOk pending remaining todoMultipliers' todoBonuses' sweep :=
  ⟨h.rules, h.balanced, h.dupes, hkeys⟩

/-- Every contact accounted for may take over a key. -/
def Eligible (pending : List Int) (skip : Option Int) : Prop :=
  ∀ contact : Contact, settled pending contact = true → (contactId contact).isSome →
    IncrementalLogState.isCandidate skip contact = true

theorem SweepOk.identified (h : SweepOk pending remaining todoMultipliers todoBonuses sweep)
    {contact : Contact} (hmem : contact ∈ sweep.contacts.filter (settled pending)) :
    (contactId contact).isSome :=
  h.balanced.groups.identified contact (List.mem_append_left _ hmem)

omit [Platform] in
/-- A key that has an owner already is no longer owed. -/
theorem owned_or_owed {owners : KeyMap Int} {todo : List String} (howned : key ∈ owners)
    {k : String} (h : k ∈ owners ∨ k ∈ key :: todo) : k ∈ owners ∨ k ∈ todo := by
  refine h.elim .inl fun htodo => ?_
  rcases List.mem_cons.mp htodo with rfl | htodo
  · exact .inl howned
  · exact .inr htodo

omit [Platform] in
theorem owned_or_owed_insert {owners : KeyMap Int} {todo : List String} (id : Int) {k : String}
    (h : k ∈ owners ∨ k ∈ key :: todo) : k ∈ owners.insert key id ∨ k ∈ todo :=
  owned_or_owed ExtTreeMap.mem_insert_self
    (h.imp_left fun hk => ExtTreeMap.mem_insert.mpr (.inr hk))

omit [Platform] in
/-- A pending contact owns nothing that went to one that is not. -/
theorem owner_of_insert {owners : KeyMap Int} {id i : Int} (hid : id ∉ pending) (hi : i ∈ pending)
    {k : String} (howner : (owners.insert key id)[k]? = some i) : owners[k]? = some i := by
  rw [ExtTreeMap.getElem?_insert] at howner
  split at howner
  · obtain rfl := Option.some.inj howner
    exact absurd hi hid
  · exact howner

section Takers

variable (keys : Contact → List String)

/-- The search for a contact to take over a key. -/
def takesOver (skip : Option Int) (key : String) (contact : Contact) : Bool :=
  IncrementalLogState.isCandidate skip contact && !isDupeContact contact
    && (keys contact).contains key

omit [Platform] in
theorem takesOver_iff {contact : Contact} : takesOver keys skip key contact = true ↔
    IncrementalLogState.isCandidate skip contact = true ∧ isDupeContact contact = false
      ∧ key ∈ keys contact := by
  rw [takesOver, Bool.and_eq_true, Bool.and_eq_true, Bool.not_eq_true', List.contains_iff_mem,
    and_assoc]

theorem KeyKind.isReplacement_eq (kind : KeyKind) (state : IncrementalLogState) (key : String)
    (skip : Option Int) :
    kind.isReplacement state key skip = takesOver (kind.keysFor state) skip key := by
  cases kind <;> rfl

/-- What a search finds that stands on a contact accounted for. -/
theorem SweepOk.taker (h : SweepOk pending remaining todoMultipliers todoBonuses sweep)
    {index : Nat} (hfind : sweep.contacts.findIdx? (takesOver keys skip key) = some index)
    (hfound : ∀ contact, sweep.contacts[index]? = some contact → settled pending contact = true) :
    ∃ contact id, sweep.contacts[index]? = some contact ∧ settled pending contact = true
      ∧ contactId contact = some id ∧ id ∉ pending ∧ isDupeContact contact = false
      ∧ key ∈ keys contact := by
  obtain ⟨contact, hcontact, htakes, -⟩ := Slices.getElem?_of_findIdx? hfind
  have hsettled := hfound contact hcontact
  obtain ⟨id, hid⟩ := Option.isSome_iff_exists.mp (h.identified
    (List.mem_filter.mpr ⟨List.mem_of_getElem? hcontact, hsettled⟩))
  have hnotPending : id ∉ pending := by
    simpa [settled, hid] using hsettled
  exact ⟨contact, id, hcontact, hsettled, hid, hnotPending, ((takesOver_iff keys).mp htakes).2⟩

/-- A search in vain leaves no original that carries the key. -/
theorem SweepOk.not_carried (h : SweepOk pending remaining todoMultipliers todoBonuses sweep)
    (heligible : Eligible pending skip)
    (hfind : sweep.contacts.findIdx? (takesOver keys skip key) = none) {contact : Contact}
    (hmem : contact ∈ sweep.contacts.filter (settled pending))
    (horiginal : isDupeContact contact = false) : key ∉ keys contact := by
  intro hkey
  have hcandidate := heligible contact (List.mem_filter.mp hmem).2 (h.identified hmem)
  have hnot := Slices.not_mem_of_findIdx?_none hfind contact (List.mem_filter.mp hmem).1
  rw [(takesOver_iff keys).mpr ⟨hcandidate, horiginal, hkey⟩] at hnot
  cases hnot

end Takers

/-- A key went to an original that is not pending. -/
theorem Tracks.credit (kind : KeyKind) (h : Tracks pending start sweep) {index : Nat}
    {contact : Contact} {id : Int} (hcontact : sweep.contacts[index]? = some contact)
    (hpending : id ∉ pending) (horiginal : isDupeContact contact = false) (changed : List Int) :
    Tracks pending start
      { state := kind.credit sweep.state contact key id
        contacts := sweep.contacts.set index (kind.credited sweep.state contact key)
        changed := changed } := by
  have horiginal' := (kind.isDupeContact_credited sweep.state contact key).trans horiginal
  refine h.set hcontact ⟨kind.credited_unscored sweep.state contact key, fun _ => horiginal'⟩
    (kind.credit_module ..) ?_ ?_ _
  · cases kind with
    | multiplier => exact fun _ _ hi => owner_of_insert hpending hi
    | bonus => exact fun _ _ _ howner => howner
  · cases kind with
    | multiplier => exact fun _ _ _ howner => howner
    | bonus => exact fun _ _ hi => owner_of_insert hpending hi

namespace SweepOk

/-- The account of a sweep that has yet to find owners for keys of one kind. -/
def Owing (kind : KeyKind) (pending : List Int) (remaining : List Contact)
    (todo others : List String) (sweep : Sweep) : Prop :=
  match kind with
  | .multiplier => SweepOk pending remaining todo others sweep
  | .bonus => SweepOk pending remaining others todo sweep

namespace Owing

variable {kind : KeyKind} {todo others : List String}

theorem sweepOk (h : Owing kind pending remaining todo others sweep) :
    ∃ todoMultipliers todoBonuses,
      SweepOk pending remaining todoMultipliers todoBonuses sweep := by
  cases kind <;> exact ⟨_, _, h⟩

theorem keys (h : Owing kind pending remaining todo others sweep) {contact : Contact}
    (hmem : contact ∈ sweep.contacts.filter (settled pending))
    (horiginal : isDupeContact contact = false) {k : String}
    (hk : k ∈ kind.keysFor sweep.state contact) : k ∈ kind.owners sweep.state ∨ k ∈ todo := by
  cases kind with
  | multiplier => exact (SweepOk.keys h contact hmem horiginal).1 k hk
  | bonus => exact (SweepOk.keys h contact hmem horiginal).2 k hk

theorem settle (h : Owing kind pending remaining todo others sweep) {todo' : List String}
    (hkeys : ∀ contact ∈ sweep.contacts.filter (settled pending), isDupeContact contact = false →
      ∀ k ∈ kind.keysFor sweep.state contact, k ∈ kind.owners sweep.state ∨ k ∈ todo') :
    Owing kind pending remaining todo' others sweep := by
  cases kind with
  | multiplier =>
      exact SweepOk.settle h fun contact hmem horiginal =>
        ⟨hkeys contact hmem horiginal, (SweepOk.keys h contact hmem horiginal).2⟩
  | bonus =>
      exact SweepOk.settle h fun contact hmem horiginal =>
        ⟨(SweepOk.keys h contact hmem horiginal).1, hkeys contact hmem horiginal⟩

/-- An owed key went to an original that carries it. -/
theorem credit (h : Owing kind pending remaining (key :: todo) others sweep) {index : Nat}
    {contact : Contact} {id : Int} (hcontact : sweep.contacts[index]? = some contact)
    (hsettled : settled pending contact = true) (hid : contactId contact = some id)
    (horiginal : isDupeContact contact = false)
    (hkey : key ∈ kind.keysFor sweep.state contact) (hfree : key ∉ kind.owners sweep.state)
    (changed : List Int) :
    Owing kind pending remaining todo others
      { state := kind.credit sweep.state contact key id
        contacts := sweep.contacts.set index (kind.credited sweep.state contact key)
        changed := changed } := by
  obtain ⟨_, _, hok⟩ := h.sweepOk
  have hsame := kind.credited_unscored sweep.state contact key
  have horiginal' := (kind.isDupeContact_credited sweep.state contact key).trans horiginal
  have hbalanced := (hok.balanced.perm (live_perm hcontact hsettled remaining)).credit kind
    hok.rules.reads hid horiginal hkey hfree
  have hmodule := kind.credit_module sweep.state contact key id
  cases kind with
  | multiplier =>
      exact SweepOk.set h hcontact hsettled horiginal horiginal' hsame hmodule hbalanced
        (fun _ => owned_or_owed_insert id) (fun _ hk => hk) _
  | bonus =>
      exact SweepOk.set h hcontact hsettled horiginal horiginal' hsame hmodule hbalanced
        (fun _ hk => hk) (fun _ => owned_or_owed_insert id) _

/-- A key that was looked for is no longer owed: it has an owner, or no original carries it. -/
theorem reassignKey (h : Owing kind pending remaining (key :: todo) others sweep)
    (htracks : Tracks pending start sweep) (heligible : Eligible pending skip)
    (hfound : ∀ index contact,
      sweep.contacts.findIdx? (kind.isReplacement sweep.state key skip) = some index →
      sweep.contacts[index]? = some contact → settled pending contact = true) :
    Owing kind pending remaining todo others (sweep.reassignKey kind skip key) ∧
      Tracks pending start (sweep.reassignKey kind skip key) := by
  obtain ⟨_, _, hok⟩ := h.sweepOk
  by_cases howned : key ∈ kind.owners sweep.state
  · rw [sweep.reassignKey_owned howned]
    exact ⟨h.settle fun _ hmem horiginal k hk => owned_or_owed howned (h.keys hmem horiginal hk),
      htracks⟩
  cases hfind : sweep.contacts.findIdx? (kind.isReplacement sweep.state key skip) with
  | none =>
      rw [sweep.reassignKey_none hfind]
      rw [kind.isReplacement_eq] at hfind
      refine ⟨h.settle fun contact hmem horiginal k hk => ?_, htracks⟩
      have hnot := hok.not_carried _ heligible hfind hmem horiginal
      refine (h.keys hmem horiginal hk).imp_right fun htodo => ?_
      exact (List.mem_cons.mp htodo).resolve_left fun heq => hnot (heq ▸ hk)
  | some index =>
      obtain ⟨contact, id, hcontact, hsettled, hid, hpending, horiginal, hkey⟩ :=
        hok.taker _ (kind.isReplacement_eq sweep.state key skip ▸ hfind) fun contact =>
          hfound index contact hfind
      rw [sweep.reassignKey_some howned hfind hcontact hid]
      exact ⟨h.credit hcontact hsettled hid horiginal hkey howned _,
        htracks.credit kind hcontact hpending horiginal _⟩

end Owing

end SweepOk

end Reassign

end Log73
