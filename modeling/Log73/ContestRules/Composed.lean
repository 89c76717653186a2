import Mathlib.Data.List.Forall2
import Mathlib.Logic.Relation
import Log73.ContestRules.Compose

/-!
What an entry of the catalog composes to, stated without memo, stack or order, and
the composition of the source against it: the memo holds composed values only, the
stack is the path of references that led to the entry, and an error is reported only
over a fault among the entries that can be reached.
-/

namespace Log73

open YamlMapping Relation

inductive Entry where
  | contest (id : String)
  | profile (id : String)
  deriving DecidableEq

namespace Entry

def token : Entry → String
  | contest id => "contest:" ++ id
  | profile id => "profile:" ++ id

def context : Entry → String
  | contest id => "contest " ++ id
  | profile id => "profile " ++ id

def body (catalog : Catalog) : Entry → Option YamlValue
  | contest id => catalog.contests[id]?
  | profile id => catalog.profiles[id]?

/-- The entries named by a body, in the order they are laid over one another. -/
def references : Entry → YamlMapping → Except String (List Entry)
  | contest _, mapping => do
      let profiles ← stringList (get mapping (.string "profiles")) "profiles"
      let parent ← optionalString (get mapping (.string "extends")) "extends"
      return profiles.map profile ++ parent.toList.map contest
  | profile _, mapping => do
      let profiles ← stringList (get mapping (.string "profiles")) "profiles"
      return profiles.map profile

/-- A body names an entry in its `profiles`, or a contest's in its `extends`, whether
or not the rest of the body can be read. -/
inductive Names (mapping : YamlMapping) : Entry → Entry → Prop
  | profile {entry : Entry} {profiles : List String} {id : String}
      (h : stringList (get mapping (.string "profiles")) "profiles" = .ok profiles)
      (hmem : id ∈ profiles) : Names mapping entry (.profile id)
  | parent {id parent : String}
      (h : optionalString (get mapping (.string "extends")) "extends" = .ok (some parent)) :
      Names mapping (.contest id) (.contest parent)

def own : Entry → YamlMapping → YamlMapping
  | contest _, mapping => remove (remove mapping (.string "profiles")) (.string "extends")
  | profile _, mapping => remove mapping (.string "profiles")

/-- Values laid one over the other. -/
def overlay (entry : Entry) (values : List YamlValue) (value : YamlValue) :
    Except String YamlValue :=
  values.foldlM (fun value resolved => mergeYaml value resolved entry.context) value

/-- The values of the references and then the entry's own body, from an empty mapping. -/
def mergeAll (entry : Entry) (mapping : YamlMapping) (values : List YamlValue) :
    Except String YamlValue :=
  entry.overlay (values ++ [.mapping (entry.own mapping)]) (.mapping [])

theorem token_injective : Function.Injective token := by
  intro a b h
  have htext := congrArg String.toList h
  cases a with
  | contest a =>
      cases b with
      | contest b => simpa [token, String.toList_inj] using htext
      | profile b => simp [token] at htext
  | profile a =>
      cases b with
      | contest b => simp [token] at htext
      | profile b => simpa [token, String.toList_inj] using htext

theorem references_profile {id : String} {mapping : YamlMapping} {profiles : List String}
    (h : stringList (get mapping (.string "profiles")) "profiles" = .ok profiles) :
    (profile id).references mapping = .ok (profiles.map profile) := by
  rw [references, h]
  rfl

theorem references_contest {id : String} {mapping : YamlMapping} {profiles : List String}
    {parent : Option String}
    (h : stringList (get mapping (.string "profiles")) "profiles" = .ok profiles)
    (h' : optionalString (get mapping (.string "extends")) "extends" = .ok parent) :
    (contest id).references mapping = .ok (profiles.map profile ++ parent.toList.map contest) := by
  rw [references, h, ok_bind, h']
  rfl

theorem Names.mem_references {entry reference : Entry} {mapping : YamlMapping}
    {references : List Entry} (hnames : Names mapping entry reference)
    (h : entry.references mapping = .ok references) : reference ∈ references := by
  cases hnames with
  | @profile _ profiles id hprofiles hmem =>
      cases entry with
      | profile own =>
          obtain rfl := Except.ok.inj ((references_profile hprofiles).symm.trans h)
          exact List.mem_map_of_mem hmem
      | contest own =>
          cases hparent : optionalString (get mapping (.string "extends")) "extends" with
          | error message =>
              rw [Entry.references, hprofiles, ok_bind, hparent] at h
              cases h
          | ok parent =>
              obtain rfl := Except.ok.inj ((references_contest hprofiles hparent).symm.trans h)
              exact List.mem_append_left _ (List.mem_map_of_mem hmem)
  | @parent own parent hparent =>
      cases hprofiles : stringList (get mapping (.string "profiles")) "profiles" with
      | error message =>
          rw [Entry.references, hprofiles] at h
          cases h
      | ok profiles =>
          obtain rfl := Except.ok.inj ((references_contest hprofiles hparent).symm.trans h)
          exact List.mem_append_right _ (List.mem_map_of_mem (List.mem_singleton_self parent))

end Entry

/-- Every entry of the catalog. -/
def Catalog.entries (catalog : Catalog) : List Entry :=
  catalog.contests.keys.map .contest ++ catalog.profiles.keys.map .profile

variable (catalog : Catalog)

/-- One entry names the other in its `profiles` or `extends`. -/
def Refers (entry reference : Entry) : Prop :=
  ∃ body mapping, entry.body catalog = some body ∧ body.asMapping = some mapping ∧
    Entry.Names mapping entry reference

def Missing (entry : Entry) : Prop := entry.body catalog = none

/-- The body is not a mapping, or its `profiles` or `extends` is not what it has to be. -/
def IllTyped (entry : Entry) : Prop :=
  ∃ body, entry.body catalog = some body ∧ ∀ mapping, body.asMapping = some mapping →
    ∃ message, entry.references mapping = .error message

def Cyclic (entry : Entry) : Prop := TransGen (Refers catalog) entry entry

def Broken (entry : Entry) : Prop :=
  Missing catalog entry ∨ IllTyped catalog entry ∨ Cyclic catalog entry

/-- What an entry composes to: its references composed and merged, and its own body. -/
inductive Composed : Entry → YamlValue → Prop
  | intro {entry : Entry} {body : YamlValue} {mapping : YamlMapping} {references : List Entry}
      {values : List YamlValue} {value : YamlValue} (hbody : entry.body catalog = some body)
      (hmapping : body.asMapping = some mapping)
      (hreferences : entry.references mapping = .ok references)
      (hlength : references.length = values.length)
      (hvalues : ∀ reference value, (reference, value) ∈ references.zip values →
        Composed reference value)
      (hmerge : entry.mergeAll mapping values = .ok value) : Composed entry value

/-- The values of an entry's references do not merge. -/
def MergeFails (entry : Entry) : Prop :=
  ∃ body mapping references values message, entry.body catalog = some body ∧
    body.asMapping = some mapping ∧ entry.references mapping = .ok references ∧
    List.Forall₂ (Composed catalog) references values ∧
    entry.mergeAll mapping values = .error message

def Faulty (entry : Entry) : Prop := Broken catalog entry ∨ MergeFails catalog entry

/-- A fault somewhere among the entries that can be reached. -/
def FaultyBelow (entry : Entry) : Prop :=
  ∃ reached, ReflTransGen (Refers catalog) entry reached ∧ Faulty catalog reached

variable {catalog}

theorem forall₂_unique {α β : Type} {R : α → β → Prop} {as : List α} {bs cs : List β}
    (h : List.Forall₂ (fun a b => ∀ c, R a c → b = c) as bs) (h' : List.Forall₂ R as cs) :
    bs = cs := by
  induction h generalizing cs with
  | nil =>
      cases h'
      rfl
  | cons heq _ ih =>
      cases h' with
      | cons hc hcs => rw [heq _ hc, ih hcs]

theorem Composed.all {references : List Entry} {values : List YamlValue}
    (h : List.Forall₂ (Composed catalog) references values) :
    references.length = values.length ∧ ∀ reference value,
      (reference, value) ∈ references.zip values → Composed catalog reference value := by
  obtain ⟨hlength, hvalues⟩ := List.forall₂_iff_zip.mp h
  exact ⟨hlength, fun _ _ hmem => hvalues hmem⟩

/-- An entry composes to one value at most. -/
theorem Composed.unique {entry : Entry} {value other : YamlValue}
    (h : Composed catalog entry value) (h' : Composed catalog entry other) : value = other := by
  induction h generalizing other with
  | intro hbody hmapping hreferences hlength _ hmerge ih =>
      cases h' with
      | intro hbody' hmapping' hreferences' hlength' hvalues' hmerge' =>
          obtain rfl := Option.some.inj (hbody.symm.trans hbody')
          obtain rfl := Option.some.inj (hmapping.symm.trans hmapping')
          obtain rfl := Except.ok.inj (hreferences.symm.trans hreferences')
          have hsame := forall₂_unique
            (List.forall₂_iff_zip.mpr ⟨hlength, fun hmem c hc => ih _ _ hmem hc⟩)
            (List.forall₂_iff_zip.mpr ⟨hlength', fun hmem => hvalues' _ _ hmem⟩)
          subst hsame
          exact Except.ok.inj (hmerge.symm.trans hmerge')

/-- An entry that composes reaches no fault. -/
theorem Composed.not_faultyBelow {entry : Entry} {value : YamlValue}
    (h : Composed catalog entry value) : ¬ FaultyBelow catalog entry := by
  induction h with
  | @intro entry body mapping references values value hbody hmapping hreferences hlength hvalues
      hmerge ih =>
      have hbelow : ∀ reference, Refers catalog entry reference →
          ¬ FaultyBelow catalog reference := by
        intro reference hrefers
        obtain ⟨body', mapping', hbody', hmapping', hnames⟩ := hrefers
        obtain rfl := Option.some.inj (hbody.symm.trans hbody')
        obtain rfl := Option.some.inj (hmapping.symm.trans hmapping')
        obtain ⟨index, hlt, hget⟩ := List.mem_iff_getElem.mp (hnames.mem_references hreferences)
        refine ih reference (values.get ⟨index, hlength ▸ hlt⟩) ?_
        rw [← hget]
        exact List.mem_iff_getElem.mpr ⟨index, by simp [hlt, ← hlength], by simp⟩
      intro hfault
      obtain ⟨reached, hreach, hfaulty⟩ := hfault
      cases hreach.cases_head with
      | inr hstep =>
          obtain ⟨reference, hrefers, hrest⟩ := hstep
          exact hbelow reference hrefers ⟨reached, hrest, hfaulty⟩
      | inl heq =>
          subst heq
          cases hfaulty with
          | inl hbroken =>
              cases hbroken with
              | inl hmissing => rw [Missing, hbody] at hmissing; cases hmissing
              | inr hbroken =>
                  cases hbroken with
                  | inl hill =>
                      obtain ⟨body', hbody', htyped⟩ := hill
                      obtain rfl := Option.some.inj (hbody.symm.trans hbody')
                      obtain ⟨message, herror⟩ := htyped mapping hmapping
                      rw [hreferences] at herror
                      cases herror
                  | inr hcyclic =>
                      -- the first reference on the cycle lies on the same cycle
                      obtain ⟨reference, hrefers, hrest⟩ := TransGen.head'_iff.mp hcyclic
                      exact hbelow reference hrefers ⟨reference, .refl,
                        .inl (.inr (.inr (TransGen.tail' hrest hrefers)))⟩
          | inr hfails =>
              obtain ⟨body', mapping', references', values', message, hbody', hmapping',
                hreferences', hall, herror⟩ := hfails
              obtain rfl := Option.some.inj (hbody.symm.trans hbody')
              obtain rfl := Option.some.inj (hmapping.symm.trans hmapping')
              obtain rfl := Except.ok.inj (hreferences.symm.trans hreferences')
              have hsame : values = values' := forall₂_unique
                (List.forall₂_iff_zip.mpr ⟨hlength, fun hmem _ hc =>
                  (hvalues _ _ hmem).unique hc⟩) hall
              rw [← hsame, hmerge] at herror
              cases herror

end Log73
