import Log73.Library.Quota
import Log73.Scoring.Scorer

/-!
The caps of multipliers (`ContestScorer::multipliers` of `scoring.rs`): which candidates a list
of contacts credits and refuses, candidate by candidate, and what that says of the number of
keys a cap group is credited with.
-/

namespace Log73

open Std

/-- What a scorer has credited: the keys, and how many of every cap group. -/
structure CreditBook where
  keys : KeyMap Unit
  counts : KeyMap Nat

namespace CreditBook

variable (book : CreditBook) (candidate : MultiplierCandidate)

/-- The test of the filter over the candidates. -/
def credits : Bool :=
  !(book.keys.contains candidate.key || candidate.capReached book.counts)

def enter : CreditBook :=
  if book.credits candidate then
    ⟨book.keys.insert candidate.key (), bump book.counts candidate.capKey⟩
  else book

/-- The candidates in their order, each with whether it is credited. -/
def decisions : CreditBook → List MultiplierCandidate → List (MultiplierCandidate × Bool)
  | _, [] => []
  | book, candidate :: candidates =>
      (candidate, book.credits candidate) :: decisions (book.enter candidate) candidates

/-- The branch that goes past a limit is not taken: a candidate that is credited finds no rule
of its cap group at its limit. -/
def KeepsCaps (rules : List MultiplierRule) : Prop :=
  book.credits candidate = true →
    ∀ rule ∈ rules, rule.capGroup.getD rule.id = candidate.capKey →
      ∀ maximum, rule.maxCount = some maximum →
        book.counts[candidate.capKey]?.getD 0 < maximum

def AllKeepCaps (rules : List MultiplierRule) : CreditBook → List MultiplierCandidate → Prop
  | _, [] => True
  | book, candidate :: candidates =>
      book.KeepsCaps candidate rules ∧ AllKeepCaps rules (book.enter candidate) candidates

end CreditBook

abbrev creditedKeys (decisions : List (MultiplierCandidate × Bool)) : List String :=
  (Quota.granted decisions).map (·.key)

/-- How many keys of a cap group were credited. -/
abbrev creditedOf (decisions : List (MultiplierCandidate × Bool)) (capKey : String) : Nat :=
  Quota.used MultiplierCandidate.capKey decisions capKey

/-- The caps of a list of rules, over everything that was credited and refused. -/
structure CapsHold (rules : List MultiplierRule) (decisions : List (MultiplierCandidate × Bool)) :
    Prop where
  once : (creditedKeys decisions).Nodup
  within : ∀ rule ∈ rules, ∀ maximum, rule.maxCount = some maximum →
    creditedOf decisions (rule.capGroup.getD rule.id) ≤ maximum
  refused : ∀ earlier candidate later, decisions = earlier ++ (candidate, false) :: later →
    candidate.key ∈ creditedKeys earlier ∨
      ∃ maximum, candidate.maxCount = some maximum ∧
        maximum ≤ creditedOf earlier candidate.capKey

/-- The maps of a scorer are those of the decisions behind it. -/
structure Credited (book : CreditBook) (decisions : List (MultiplierCandidate × Bool)) : Prop where
  sound : Quota.Sound MultiplierCandidate.key MultiplierCandidate.capKey
    MultiplierCandidate.maxCount decisions
  keys : ∀ key, key ∈ book.keys ↔ key ∈ creditedKeys decisions
  counts : ∀ capKey, book.counts[capKey]?.getD 0 = creditedOf decisions capKey

theorem credited_empty : Credited ⟨∅, ∅⟩ [] where
  sound := .nil
  keys _ := iff_of_false ExtTreeMap.not_mem_empty List.not_mem_nil
  counts _ := by rw [ExtTreeMap.getElem?_empty]; rfl

namespace Credited

variable {book : CreditBook} {ds : List (MultiplierCandidate × Bool)}

theorem credits_iff (h : Credited book ds) (candidate : MultiplierCandidate) :
    book.credits candidate = false ↔ Quota.Refuses MultiplierCandidate.key
      MultiplierCandidate.capKey MultiplierCandidate.maxCount ds candidate := by
  rw [CreditBook.credits, Bool.not_eq_false', Bool.or_eq_true, ExtTreeMap.contains_iff_mem, h.keys,
    MultiplierCandidate.capReached, Option.any_eq_true, h.counts]
  refine or_congr_right ⟨?_, ?_⟩
  · rintro ⟨m, hm, hreached⟩
    exact ⟨m, hm, of_decide_eq_true hreached⟩
  · rintro ⟨m, hm, hreached⟩
    exact ⟨m, hm, decide_eq_true hreached⟩

theorem enter (h : Credited book ds) (candidate : MultiplierCandidate) :
    Credited (book.enter candidate) (ds ++ [(candidate, book.credits candidate)]) := by
  refine ⟨h.sound.concat (h.credits_iff candidate), ?_, ?_⟩
  · intro key
    rw [creditedKeys, Quota.granted_concat, CreditBook.enter]
    split
    · rw [ExtTreeMap.mem_insert, List.map_append, List.mem_append, List.map_singleton,
        List.mem_singleton, LawfulEqCmp.compare_eq_iff_eq, h.keys, or_comm, eq_comm]
    · exact h.keys key
  · intro capKey
    have hused : creditedOf (ds ++ [(candidate, book.credits candidate)]) capKey =
        creditedOf ds capKey +
          if book.credits candidate ∧ candidate.capKey = capKey then 1 else 0 :=
      Quota.used_concat _ _ _ _ _
    rw [hused, ← h.counts capKey, CreditBook.enter]
    cases hcredit : book.credits candidate with
    | false => rfl
    | true =>
        rw [if_pos rfl, bump, ExtTreeMap.getElem?_insert]
        by_cases hkey : candidate.capKey = capKey
        · simp [hkey]
        · simp [hkey]

theorem decisions (h : Credited book ds) (candidates : List MultiplierCandidate) :
    Credited (candidates.foldl CreditBook.enter book) (ds ++ book.decisions candidates) := by
  induction candidates generalizing book ds with
  | nil => exact (List.append_nil ds).symm ▸ h
  | cons candidate candidates ih =>
      have := ih (h.enter candidate)
      rwa [List.append_assoc] at this

end Credited

variable [Platform]

namespace ContestScorer

variable (scorer : ContestScorer) (contact : Contact)

def book : CreditBook := ⟨scorer.multiplierKeys, scorer.multiplierCounts⟩

/-- The candidates of a contact that the scorer looks at: a dupe has none. -/
def candidates : List MultiplierCandidate :=
  if (scorer.isDupe contact).2 then [] else scorer.module.multiplierCandidatesFor contact

/-- What a list of contacts has credited and refused, contact after contact. -/
def decisions : ContestScorer → List Contact → List (MultiplierCandidate × Bool)
  | _, [] => []
  | scorer, contact :: contacts =>
      scorer.book.decisions (scorer.candidates contact) ++
        decisions (scorer.addQso contact).1 contacts

/-- Every step over a list of contacts keeps the limits of the cap groups. -/
def AllKeepCaps (rules : List MultiplierRule) : ContestScorer → List Contact → Prop
  | _, [] => True
  | scorer, contact :: contacts =>
      scorer.book.AllKeepCaps rules (scorer.candidates contact) ∧
        AllKeepCaps rules (scorer.addQso contact).1 contacts

omit [Platform] in
/-- The loop over the candidates enters them into the book and counts the credited ones. -/
theorem foldl_multipliers (candidates : List MultiplierCandidate) (mults : Int64) :
    candidates.foldl (fun (acc : ContestScorer × Int64) candidate =>
      if acc.1.multiplierKeys.contains candidate.key
          || candidate.capReached acc.1.multiplierCounts then acc
      else
        ({ acc.1 with
            multiplierKeys := acc.1.multiplierKeys.insert candidate.key ()
            multiplierCounts := bump acc.1.multiplierCounts candidate.capKey }, acc.2 + 1))
      (scorer, mults) =
    ({ scorer with
        multiplierKeys := (candidates.foldl .enter scorer.book).keys
        multiplierCounts := (candidates.foldl .enter scorer.book).counts },
      mults + .ofNat (Quota.granted (scorer.book.decisions candidates)).length) := by
  induction candidates generalizing scorer mults with
  | nil => exact Prod.ext rfl (add_zero mults).symm
  | cons candidate candidates ih =>
      rw [List.foldl_cons, List.foldl_cons, CreditBook.decisions, CreditBook.enter,
        CreditBook.credits]
      cases hrefused : scorer.multiplierKeys.contains candidate.key
          || candidate.capReached scorer.multiplierCounts with
      | true =>
          rw [if_pos rfl, ih scorer mults]
          have htest : (scorer.book.keys.contains candidate.key
              || candidate.capReached scorer.book.counts) = true := hrefused
          rw [htest]
          rfl
      | false =>
          have htest : (scorer.book.keys.contains candidate.key
              || candidate.capReached scorer.book.counts) = false := hrefused
          rw [htest, if_neg Bool.false_ne_true, ih, add_assoc]
          refine Prod.ext rfl (congrArg (mults + ·) ?_)
          exact (add_comm _ _).trans (MachineInt.ofNat_succ _).symm

theorem multipliers_eq :
    let candidates := scorer.module.multiplierCandidatesFor contact
    scorer.multipliers contact =
      ({ scorer with
          multiplierKeys := (candidates.foldl .enter scorer.book).keys
          multiplierCounts := (candidates.foldl .enter scorer.book).counts },
        .ofNat (Quota.granted (scorer.book.decisions candidates)).length) :=
  (foldl_multipliers scorer _ 0).trans (congrArg _ (zero_add _))

theorem bonusPoints_frame :
    (scorer.bonusPoints contact).1 =
      { scorer with bonusKeys := (scorer.bonusPoints contact).1.bonusKeys } := by
  rw [bonusPoints]
  generalize scorer.module.bonusKeysFor contact = entries
  generalize (0 : Int64) = bonus
  induction entries generalizing scorer bonus with
  | nil => rfl
  | cons entry entries ih =>
      rw [List.foldl_cons]
      split
      · exact ih scorer bonus
      · exact ih _ _

theorem isDupe_frame :
    (scorer.isDupe contact).1 = { scorer with dupeKeys := (scorer.isDupe contact).1.dupeKeys } := by
  rw [isDupe]
  split <;> rfl

/-- What a contact does to the credits of a scorer. -/
structure Credits (after : ContestScorer × Contact) : Prop where
  module : after.1.module = scorer.module
  book : after.1.book = (scorer.candidates contact).foldl .enter scorer.book
  rawMultiplierCount : after.1.rawMultiplierCount = scorer.rawMultiplierCount +
    .ofNat (Quota.granted (scorer.book.decisions (scorer.candidates contact))).length
  mult : contactMetaValue after.2 "mult" = some (.ofI64
    (.ofNat (Quota.granted (scorer.book.decisions (scorer.candidates contact))).length))

theorem isDupe_totals (totals : ScoreTotals) :
    ({ scorer with totals := totals }.isDupe contact).2 = (scorer.isDupe contact).2 := by
  rw [isDupe, isDupe]
  cases scorer.module.dupeKeyFor contact <;> rfl

theorem addQso_credits : scorer.Credits contact (scorer.addQso contact) := by
  have hmult (mults : Int64) (contact : Contact) (points bonus : Int64) (dupe : Bool) :
      contactMetaValue (setContactScoreFields contact points mults bonus dupe) "mult" =
        some (.ofI64 mults) := by
    simp [setContactScoreFields, contactMetaValue_setContactMeta]
  rw [addQso]
  dsimp only
  generalize htotals : { scorer.totals with qsoCount := scorer.totals.qsoCount + 1 } = totals
  have hframe := { scorer with totals := totals }.isDupe_frame contact
  have hdupe := scorer.isDupe_totals contact totals
  generalize hstep : { scorer with totals := totals }.isDupe contact = step at *
  obtain ⟨counted, dupe⟩ := step
  dsimp only at hframe hdupe ⊢
  cases dupe with
  | true =>
      have hnone : scorer.candidates contact = [] := if_pos hdupe.symm
      rw [if_pos rfl, hframe]
      refine ⟨rfl, ?_, ?_, ?_⟩
      · rw [hnone]
        rfl
      · rw [hnone]
        rfl
      · rw [hnone]
        exact hmult _ _ _ _ _
  | false =>
      have hall : scorer.candidates contact = scorer.module.multiplierCandidatesFor contact :=
        if_neg (by rw [← hdupe]; exact Bool.false_ne_true)
      have hmults := counted.multipliers_eq contact
      have hbonus := (counted.multipliers contact).1.bonusPoints_frame contact
      have hmodule : counted.module = scorer.module := by rw [hframe]
      have hbook : counted.book = scorer.book := by rw [hframe]; rfl
      have hraw : counted.rawMultiplierCount = scorer.rawMultiplierCount := by rw [hframe]
      rw [if_neg Bool.false_ne_true, scoreOriginal]
      dsimp only at hmults ⊢
      rw [hmults] at hbonus ⊢
      dsimp only at hbonus ⊢
      generalize ContestScorer.bonusPoints _ contact = rewarded at hbonus ⊢
      obtain ⟨scored, bonus⟩ := rewarded
      dsimp only at hbonus ⊢
      rw [hmodule, hbook] at hbonus ⊢
      refine ⟨?_, ?_, ?_, ?_⟩
      · rw [hbonus]
        rfl
      · rw [hbonus, hall]
        rfl
      · rw [hbonus, hall, ← hraw]
        rfl
      · rw [hall]
        exact hmult _ _ _ _ _

end ContestScorer

/-- The limits the rules set for a cap group. -/
def CapOf (rules : List MultiplierRule) (capKey : String) (maximum : Nat) : Prop :=
  ∃ rule ∈ rules, rule.capGroup.getD rule.id = capKey ∧ rule.maxCount = some maximum

abbrev KeepCaps (rules : List MultiplierRule) :
    List (MultiplierCandidate × Bool) → List (MultiplierCandidate × Bool) → Prop :=
  Quota.Keeps MultiplierCandidate.capKey (CapOf rules)

namespace Credited

variable {book : CreditBook} {ds : List (MultiplierCandidate × Bool)} {rules : List MultiplierRule}

omit [Platform] in
theorem keepsCaps_iff (h : Credited book ds) (candidate : MultiplierCandidate) :
    book.KeepsCaps candidate rules ↔
      (book.credits candidate = true → ∀ m, CapOf rules candidate.capKey m →
        creditedOf ds candidate.capKey < m) := by
  rw [CreditBook.KeepsCaps, h.counts]
  refine imp_congr_right fun _ => ⟨?_, ?_⟩
  · rintro hall m ⟨rule, hrule, hkey, hmax⟩
    exact hall rule hrule hkey m hmax
  · intro hall rule hrule hkey m hmax
    exact hall m ⟨rule, hrule, hkey, hmax⟩

omit [Platform] in
theorem allKeepCaps_iff (h : Credited book ds) (candidates : List MultiplierCandidate) :
    book.AllKeepCaps rules candidates ↔ KeepCaps rules ds (book.decisions candidates) := by
  induction candidates generalizing book ds with
  | nil => exact Iff.rfl
  | cons candidate candidates ih =>
      exact and_congr (h.keepsCaps_iff candidate) (ih (h.enter candidate))

variable {scorer : ContestScorer}

/-- The account of a list of contacts: the induction is on the contacts, each of which adds
its own decisions to those before it. -/
theorem addQsos (h : Credited scorer.book ds) (contacts : List Contact) :
    Credited (scorer.addQsos contacts).1.book (ds ++ scorer.decisions contacts) ∧
      (scorer.AllKeepCaps rules contacts ↔ KeepCaps rules ds (scorer.decisions contacts)) := by
  induction contacts generalizing scorer ds with
  | nil => exact ⟨(List.append_nil ds).symm ▸ h, Iff.rfl⟩
  | cons contact contacts ih =>
      have hstep := h.decisions (scorer.candidates contact)
      rw [← (scorer.addQso_credits contact).book] at hstep
      obtain ⟨hrest, hkeeps⟩ := ih hstep
      rw [List.append_assoc] at hrest
      refine ⟨hrest, ?_⟩
      exact (and_congr (h.allKeepCaps_iff _) hkeeps).trans Quota.keeps_append.symm

end Credited

/-- The rules of a cap group set one limit. -/
def SharedLimits (rules : List MultiplierRule) : Prop :=
  ∀ rule ∈ rules, ∀ rule' ∈ rules,
    rule.capGroup.getD rule.id = rule'.capGroup.getD rule'.id → rule.maxCount = rule'.maxCount

theorem exists_rule_of_candidate {scorer : ContestScorer} {contact : Contact}
    {candidate : MultiplierCandidate} (h : candidate ∈ scorer.candidates contact) :
    ∃ rule ∈ scorer.module.rules.scoring.multipliers,
      candidate.capKey = rule.capGroup.getD rule.id ∧ candidate.maxCount = rule.maxCount := by
  rw [ContestScorer.candidates, ContestScoringModule.multiplierCandidatesFor] at h
  split at h
  · cases h
  · split at h
    · obtain ⟨rule, hin, rfl⟩ := List.mem_map.mp h
      exact ⟨rule, List.mem_of_mem_filter hin, rfl, rfl⟩
    · cases h

/-- A candidate that its own limit lets through is let through by the others of its group. -/
theorem SharedLimits.candidates {scorer : ContestScorer}
    (h : SharedLimits scorer.module.rules.scoring.multipliers) (contact : Contact)
    (book : CreditBook) :
    book.AllKeepCaps scorer.module.rules.scoring.multipliers (scorer.candidates contact) := by
  have hrule (candidate) (hmem : candidate ∈ scorer.candidates contact) :=
    exists_rule_of_candidate hmem
  generalize scorer.candidates contact = candidates at hrule
  induction candidates generalizing book with
  | nil => exact trivial
  | cons candidate candidates ih =>
      refine ⟨fun hcredits rule' hin' hkey' m hm => ?_,
        ih _ fun c hc => hrule c (List.mem_cons_of_mem _ hc)⟩
      obtain ⟨rule, hin, hkey, hmax⟩ := hrule candidate List.mem_cons_self
      rw [CreditBook.credits, Bool.not_eq_true', Bool.or_eq_false_iff,
        MultiplierCandidate.capReached, hmax,
        h rule hin rule' hin' (hkey.symm.trans hkey'.symm), hm] at hcredits
      exact Nat.lt_of_not_le (of_decide_eq_false hcredits.2)

theorem SharedLimits.allKeepCaps {scorer : ContestScorer}
    (h : SharedLimits scorer.module.rules.scoring.multipliers) (contacts : List Contact) :
    scorer.AllKeepCaps scorer.module.rules.scoring.multipliers contacts := by
  induction contacts generalizing scorer with
  | nil => exact trivial
  | cons contact contacts ih =>
      refine ⟨h.candidates contact scorer.book, ?_⟩
      rw [← (scorer.addQso_credits contact).module] at h ⊢
      exact ih h

/-- Keys are credited once and refused for a reason whatever the rules say; the caps of the
groups hold exactly when no step credits a key of a group that is at the limit of one of its
rules. -/
theorem capsHold_iff (rules : ContestRules) (contestParams : Value) (contacts : List Contact) :
    let scorer : ContestScorer := { module := .new rules contestParams }
    CapsHold rules.scoring.multipliers (scorer.decisions contacts) ↔
      scorer.AllKeepCaps rules.scoring.multipliers contacts := by
  intro scorer
  have hempty : Credited scorer.book [] := credited_empty
  obtain ⟨haccount, hkeeps⟩ : Credited (scorer.addQsos contacts).1.book
      ([] ++ scorer.decisions contacts) ∧
      (scorer.AllKeepCaps rules.scoring.multipliers contacts ↔
        KeepCaps rules.scoring.multipliers [] (scorer.decisions contacts)) :=
    hempty.addQsos contacts
  refine Iff.trans ?_ ((Quota.keeps_iff fun _ _ _ => Nat.zero_le _).symm.trans hkeeps.symm)
  constructor
  · rintro h g m ⟨rule, hrule, rfl, hmax⟩
    exact h.within rule hrule m hmax
  · intro h
    exact
      { once := haccount.sound.nodup
        within := fun rule hrule m hmax => h _ m ⟨rule, hrule, rfl, hmax⟩
        refused := fun _ _ _ heq => haccount.sound.refused heq }

end Log73

namespace Log73

attribute [local instance] asciiPlatform

/-- States count up to one; sections share the group and bring no limit. -/
def locationContest : ContestRules where
  id := "LOCATIONS"
  scoring :=
    { qsoPoints := some { points := some 1 }
      multipliers :=
        [{ id := "state", name := "State", field := "STATE", key := ["STATE"], maxCount := some 1,
           capGroup := some "location" },
          { id := "section", name := "Section", field := "ARRL_SECT", key := ["ARRL_SECT"],
            capGroup := some "location" }] }

/-- A contact in a state and in a section of it. -/
def locationContact : Contact :=
  buildContact [] [("ARRL_SECT", .string "LAX"), ("STATE", .string "CA")]

/-- The group is credited with two keys, one past the limit of its first rule. -/
theorem not_capsHold_locationContest :
    ¬CapsHold locationContest.scoring.multipliers
      (ContestScorer.decisions { module := .new locationContest .null } [locationContact]) := by
  have hused : creditedOf
      (ContestScorer.decisions { module := .new locationContest .null } [locationContact])
      "location" = 2 := by decide +kernel
  intro h
  have hwithin := h.within _ List.mem_cons_self 1 rfl
  exact absurd (hused ▸ hwithin : (2 : Nat) ≤ 1) (by decide)

end Log73
