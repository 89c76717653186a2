import Log73.Frontend.Dxcc
import Log73.Library.Utf8

/-!
The DXCC lookups of the backend and of the frontend give the same answer except where
several prefix rules of the greatest length match: the backend keeps the last of them,
the frontend the first.
-/

namespace Log73.Frontend

section Prefix

theorem mem_throughLastDigit {component : List Char} {c : Char}
    (h : c ∈ Dxcc.throughLastDigit component) : c ∈ component :=
  List.mem_reverse.mp ((List.dropWhile_suffix _).subset (List.mem_reverse.mp h))

theorem mem_portableNumericPrefix {base number source : List Char} {c : Char}
    (h : Dxcc.portableNumericPrefix base number = some source) (hc : c ∈ source) :
    c ∈ base ∨ c ∈ number := by
  rw [Dxcc.portableNumericPrefix] at h
  split at h
  · dsimp only at h
    split at h
    · cases h
    · rw [← Option.some_inj.mp h, List.mem_append, List.mem_reverse] at hc
      refine hc.imp_left fun hstem => mem_throughLastDigit ?_
      exact List.mem_reverse.mp ((List.dropWhile_suffix _).subset hstem)
  · cases h

/-- The component a prefix is taken from has characters of the callsign only. -/
theorem mem_prefixSource {normalized source : List Char} {c : Char}
    (h : Dxcc.prefixSource normalized = some source) (hc : c ∈ source) : c ∈ normalized := by
  rw [Dxcc.prefixSource] at h
  by_cases hslash : '/' ∈ normalized
  · obtain ⟨front, back, hfront, heq⟩ := exists_append_of_mem hslash
    have hmem : c ∈ front ∨ c ∈ back → c ∈ normalized := by
      rw [heq, List.mem_append, List.mem_cons]
      exact fun hor => hor.imp_right Or.inr
    rw [heq, splitOnChar_append hfront] at h
    by_cases hback : '/' ∈ back
    · obtain ⟨middle, rest, hmiddle, hrest⟩ := exists_append_of_mem hback
      rw [hrest, splitOnChar_append hmiddle] at h
      cases hsplit : splitOnChar '/' rest with
      | nil => exact absurd hsplit (splitOnChar_ne_nil '/' rest)
      | cons part parts =>
          rw [hsplit] at h
          cases h
    · rw [splitOnChar_eq_singleton hback] at h
      apply hmem
      grind [mem_portableNumericPrefix]
  · rw [splitOnChar_eq_singleton hslash] at h
    rw [Option.some_inj.mp h]
    exact hc

/-- On the characters of a callsign both sides pick the same component. -/
theorem prefixSource_eq {normalized : List Char} (h : ∀ c ∈ normalized, c.toNat < 65536) :
    prefixSource normalized = Dxcc.prefixSource normalized := by
  rw [prefixSource, Dxcc.prefixSource]
  by_cases hslash : '/' ∈ normalized
  · obtain ⟨front, back, hfront, heq⟩ := exists_append_of_mem hslash
    rw [if_pos (List.contains_iff_mem.mpr hslash)]
    have hlengths : (units front).length < (units back).length ↔ front.length < back.length := by
      rw [units_length fun c hc => h c (by simp [heq, hc]),
        units_length fun c hc => h c (by simp [heq, hc])]
    rw [heq, splitOnChar_append hfront]
    by_cases hback : '/' ∈ back
    · obtain ⟨middle, rest, hmiddle, hrest⟩ := exists_append_of_mem hback
      rw [hrest, splitOnChar_append hmiddle]
      cases hsplit : splitOnChar '/' rest with
      | nil => exact absurd hsplit (splitOnChar_ne_nil '/' rest)
      | cons part parts => rfl
    · rw [splitOnChar_eq_singleton hback]
      simp only [portableNumericPrefix_eq, hlengths]
      have hlike (cs : List Char) : isPrefixLikeCallsignComponent cs =
        Dxcc.isPrefixLikeCallsignComponent cs := rfl
      have hdesignator : isNonPrefixCallsignDesignator back =
        Dxcc.isNonPrefixCallsignDesignator (String.ofList back) := rfl
      rw [hlike, hlike, hdesignator]
      cases hempty : front.isEmpty || back.isEmpty with
      | true => rfl
      | false =>
          rw [(Bool.or_eq_false_iff.mp hempty).2, Bool.not_false, Bool.true_and]
          cases Dxcc.isPrefixLikeCallsignComponent front <;>
            cases Dxcc.isPrefixLikeCallsignComponent back <;> rfl
  · rw [splitOnChar_eq_singleton hslash, if_neg fun hc => hslash (List.contains_iff_mem.mp hc)]

theorem toNat_lt_of_digit {c : Char} (h : isAsciiDigit c = true) : c.toNat < 128 := by
  rw [isAsciiDigit, Bool.and_eq_true, decide_eq_true_eq, decide_eq_true_eq] at h
  exact Nat.lt_of_le_of_lt (UInt32.le_iff_toNat_le.mp h.2) (by decide)

theorem toNat_lt_of_callsign {c : Char} (h : (isAsciiAlphanumeric c || c == '/') = true) :
    c.toNat < 65536 := by
  have hle (a : Char) : c ≤ a → c.toNat ≤ a.toNat := fun h => UInt32.le_iff_toNat_le.mp h
  simp only [isAsciiAlphanumeric, isAsciiAlphabetic, isAsciiUppercase, isAsciiLowercase,
    isAsciiDigit, Bool.or_eq_true, Bool.and_eq_true, decide_eq_true_eq, beq_iff_eq] at h
  obtain ((⟨-, h⟩ | ⟨-, h⟩) | ⟨-, h⟩) | rfl := h
  · exact Nat.lt_of_le_of_lt (hle _ h) (by decide)
  · exact Nat.lt_of_le_of_lt (hle _ h) (by decide)
  · exact Nat.lt_of_le_of_lt (hle _ h) (by decide)
  · decide

variable [Platform] (law : UppercaseLaw)
include law

theorem noLowercase_normalize (callsign : String) :
    NoLowercase (Callsign.normalize callsign).toList := by
  intro d hd
  rw [Callsign.normalize, toUppercase, String.toList_ofList, List.mem_flatMap] at hd
  obtain ⟨c, -, hc⟩ := hd
  exact isAsciiLowercase_of_upperChar ((upperChar_spec law c).2 d hc).1

/-- What is normalized alike has one prefix. -/
theorem callsignPrefix_of_normalize {callsign : String}
    (h : normalizeCallsign callsign = Callsign.normalize callsign) :
    callsignPrefix callsign = Dxcc.callsignPrefix callsign := by
  rw [callsignPrefix, Dxcc.callsignPrefix, h]
  have hlower := noLowercase_normalize law callsign
  have hall : (Callsign.normalize callsign).toList.all
      (fun c => isCallsignCharacter c || c == '/') =
      (Callsign.normalize callsign).toList.all (fun c => isAsciiAlphanumeric c || c == '/') := by
    rw [Bool.eq_iff_iff, List.all_eq_true, List.all_eq_true]
    exact forall₂_congr fun c hc => by rw [isCallsignCharacter_eq (hlower c hc)]
  simp only [hall]
  split
  · rfl
  · next hcharset =>
      rw [Bool.or_eq_true, not_or, Bool.not_eq_true', Bool.not_eq_false, List.all_eq_true]
        at hcharset
      have hascii : ∀ c ∈ (Callsign.normalize callsign).toList, c.toNat < 65536 :=
        fun c hc => toNat_lt_of_callsign (hcharset.2 c hc)
      rw [prefixSource_eq hascii]
      cases hsource : Dxcc.prefixSource (Callsign.normalize callsign).toList with
      | none => rfl
      | some source =>
          rw [Option.bind_some, Option.bind_some]
          rw [prefixFromComponent_eq fun c hc => hlower c (mem_prefixSource hsource hc)]

end Prefix

section Lengths

/-- Of two texts that start the same text, the longer one is the heavier one. -/
theorem weight_le_iff {weight : List Char → Nat}
    (happend : ∀ as bs, weight (as ++ bs) = weight as + weight bs)
    (hpos : ∀ cs, cs ≠ [] → 0 < weight cs) {as bs cs : List Char} (ha : as <+: cs)
    (hb : bs <+: cs) : weight bs ≤ weight as ↔ bs.length ≤ as.length := by
  have hmono {as bs : List Char} (h : bs <+: as) :
      weight bs ≤ weight as ∧ bs.length ≤ as.length ∧ (as.length ≤ bs.length → as = bs)
        ∧ (weight as ≤ weight bs → as = bs) := by
    obtain ⟨tail, rfl⟩ := h
    rw [happend, List.length_append]
    refine ⟨by omega, by omega, fun hle => ?_, fun hle => ?_⟩
    · rw [List.eq_nil_of_length_eq_zero (by omega : tail.length = 0), List.append_nil]
    · have htail : tail = [] := by
        by_contra hne
        have := hpos tail hne
        omega
      rw [htail, List.append_nil]
  cases List.prefix_or_prefix_of_prefix ha hb with
  | inl h =>
      obtain ⟨-, -, hlength, hweight⟩ := hmono h
      constructor
      · exact fun hle => (congrArg List.length (hweight hle)).le
      · exact fun hle => (congrArg weight (hlength hle)).le
  | inr h => exact iff_of_true (hmono h).1 (hmono h).2.1

theorem utf8ByteSize_le_iff {a b text : String} (ha : startsWith text a = true)
    (hb : startsWith text b = true) :
    b.utf8ByteSize ≤ a.utf8ByteSize ↔ length b ≤ length a := by
  rw [startsWith, List.isPrefixOf_iff_prefix] at ha hb
  have hbytes := @weight_le_iff (fun cs => (String.ofList cs).utf8ByteSize)
    (fun as bs => by rw [String.ofList_append, String.utf8ByteSize_append])
    (fun cs hne => Nat.pos_of_ne_zero fun h => hne (by simpa using h)) _ _ _ ha hb
  have hunits := @weight_le_iff (fun cs => (units cs).length)
    (fun as bs => by rw [units_append, List.length_append])
    (fun cs hne => ?_) _ _ _ ha hb
  · simp only [String.ofList_toList] at hbytes
    exact hbytes.trans hunits.symm
  · cases cs with
    | nil => exact absurd rfl hne
    | cons c cs =>
        have := length_codeUnits_pos c
        rw [units, List.flatMap_cons, List.length_append]
        omega

end Lengths

section Rules

variable (database : DxccDatabase) (text : String)

def hasExactRule : Bool := database.rules.any fun rule => rule.exact && rule.pattern == text

/-- The prefix rules that match a text. -/
def prefixRules : List DxccRule :=
  database.rules.filter fun rule => !rule.exact && startsWith text rule.pattern

/-- The prefix rules with the longest pattern, in the order of the database. -/
def longestRules : List DxccRule :=
  Extremes.greatest (fun rule => rule.pattern.utf8ByteSize) (prefixRules database text)

theorem keepExact_cases (best : Option DxccRule) (rule : DxccRule) :
    keepExact database text best rule = best ∨ keepExact database text best rule = some rule := by
  unfold keepExact
  split
  · exact Or.inl rfl
  · split
    · exact Or.inr rfl
    · split
      · exact Or.inr rfl
      · exact Or.inl rfl

variable {database text}

theorem foldl_keepExact_eq_none (best : Option DxccRule) (rules : List DxccRule) :
    rules.foldl (keepExact database text) best = none ↔
      best = none ∧ (rules.any fun rule => rule.exact && rule.pattern == text) = false := by
  induction rules generalizing best with
  | nil => simp
  | cons rule rules ih =>
      rw [List.foldl_cons, ih, List.any_cons, Bool.or_eq_false_iff]
      unfold keepExact
      cases rule.exact <;> cases hpattern : rule.pattern == text <;> cases best <;>
        simp [bne, hpattern]
      split <;> simp

theorem exactDxccRule_eq_none : exactDxccRule database text = none ↔
    hasExactRule database text = false := by
  rw [exactDxccRule, foldl_keepExact_eq_none]
  exact and_iff_right rfl

theorem mem_of_foldl_keepExact {best : Option DxccRule} {rules : List DxccRule} {rule : DxccRule}
    (h : rules.foldl (keepExact database text) best = some rule) :
    best = some rule ∨ rule ∈ rules := by
  induction rules generalizing best with
  | nil => exact Or.inl h
  | cons other rules ih =>
      cases ih h with
      | inr hmem => exact Or.inr (List.mem_cons_of_mem other hmem)
      | inl heq =>
          cases keepExact_cases database text best other with
          | inl hkeep => exact Or.inl (hkeep ▸ heq)
          | inr htake =>
              rw [htake, Option.some_inj] at heq
              exact Or.inr (heq ▸ List.mem_cons_self)

theorem mem_longestRules {rule : DxccRule} (h : rule ∈ longestRules database text) :
    rule ∈ database.rules := by
  have hmem := (Extremes.mem_greatest.mp h).1
  exact List.mem_of_mem_filter hmem

/-- The longest rules are the same whether their bytes or their code units are counted. -/
theorem longestRules_eq : longestRules database text =
    Extremes.greatest (fun rule => length rule.pattern) (prefixRules database text) := by
  refine Extremes.greatest_congr fun a ha b hb => ?_
  have hstart {rule : DxccRule} (h : rule ∈ prefixRules database text) :
      startsWith text rule.pattern = true :=
    (Bool.and_eq_true_iff.mp (List.mem_filter.mp h).2).2
  exact utf8ByteSize_le_iff (hstart ha) (hstart hb)

end Rules

section Direct

variable {database : DxccDatabase}

theorem foldl_last (text : String) :
    database.rules.foldl (fun (best : Option DxccRule) rule =>
      if rule.exact || !startsWith text rule.pattern then best
      else
        match best with
        | none => some rule
        | some current =>
            if current.pattern.utf8ByteSize ≤ rule.pattern.utf8ByteSize then some rule
            else best) none = (longestRules database text).getLast? := by
  rw [longestRules, ← Extremes.foldl_keepLast, prefixRules, List.foldl_filter]
  congr 1
  funext best rule
  cases rule.exact <;> cases startsWith text rule.pattern <;> cases best <;> rfl

theorem foldl_first (text : String) :
    database.rules.foldl (fun (bestRule : Option DxccRule) rule =>
      if rule.exact then bestRule
      else if !startsWith text rule.pattern then bestRule
      else
        match bestRule with
        | none => some rule
        | some best =>
            if length best.pattern < length rule.pattern then some rule else bestRule) none =
      (longestRules database text).head? := by
  rw [longestRules_eq, ← Extremes.foldl_keepFirst, prefixRules, List.foldl_filter]
  congr 1
  funext best rule
  cases rule.exact <;> cases startsWith text rule.pattern <;> cases best <;> rfl

theorem lookupExact_eq (text : String) : database.lookupExact text =
    (exactDxccRule database text).bind database.infoForRule := rfl

variable [Platform]

/-- The backend ends with the last of the longest rules. -/
theorem lookupDirect_eq (callsign : String) : database.lookupDirect callsign =
    (database.lookupExact (Callsign.normalize callsign)).or
      ((Dxcc.callsignPrefix (Callsign.normalize callsign)).bind fun _ =>
        (longestRules database (Callsign.normalize callsign)).getLast?.bind
          database.infoForRule) := by
  rw [← foldl_last]
  rfl

/-- The frontend ends with the first of the longest rules. -/
theorem lookupDxccDirect_eq (law : UppercaseLaw) {callsign : String}
    (htrims : TrimsAlike callsign.toList) (hne : Callsign.normalize callsign ≠ "") :
    lookupDxccDirect database callsign =
    match exactDxccRule database (Callsign.normalize callsign) with
    | some rule => database.infoForRule rule
    | none => (Dxcc.callsignPrefix (Callsign.normalize callsign)).bind fun _ =>
        (longestRules database (Callsign.normalize callsign)).head?.bind database.infoForRule := by
  rw [← foldl_first, lookupDxccDirect, normalizeCallsign_eq htrims,
    callsignPrefix_of_normalize law (normalizeCallsign_eq (htrims.normalize law))]
  dsimp only
  rw [if_neg (by simpa using hne)]
  cases exactDxccRule database (Callsign.normalize callsign) with
  | some rule => rfl
  | none => cases Dxcc.callsignPrefix (Callsign.normalize callsign) <;> rfl

end Direct

section Conditions

variable (database : DxccDatabase)

/-- Every rule points at an entity, as in each database that was read from a file. -/
def Indexed : Prop := ∀ rule ∈ database.rules, rule.entityIndex < database.entities.length

variable [Platform]

/-- A component that some rule covers. -/
def Covered (component : String) : Bool :=
  let text := Callsign.normalize component
  hasExactRule database text
    || (Dxcc.callsignPrefix text).isSome && !(prefixRules database text).isEmpty

/-- The first and the last of the longest prefix rules give the same answer, where they
are asked for. -/
def TieAgrees (component : String) : Prop :=
  let text := Callsign.normalize component
  hasExactRule database text = true ∨ Dxcc.callsignPrefix text = none
    ∨ (longestRules database text).head?.bind database.infoForRule =
      (longestRules database text).getLast?.bind database.infoForRule

/-- The ties agree in the component whose rules decide about a callsign. -/
def TiesAgree (callsign : String) : Prop :=
  let text := Callsign.normalize callsign
  hasExactRule database text = true ∨
    match Callsign.splitMiddleSlash text.toList with
    | .pair left right =>
        let left := String.ofList left
        let right := String.ofList right
        if left.utf8ByteSize < right.utf8ByteSize ∨ DxccDatabase.isIgnoredSlashSuffix right = true
            ∨ Covered database right = false then TieAgrees database left
        else TieAgrees database right
    | _ => TieAgrees database text

/-- Both sides trim the callsign alike, and the components around its slash. -/
structure TrimmedAlike (callsign : String) : Prop where
  whole : TrimsAlike callsign.toList
  components : ∀ left right,
    Callsign.splitMiddleSlash (Callsign.normalize callsign).toList = .pair left right →
      TrimsAlike left ∧ TrimsAlike right

/-- The components around a slash compare alike in bytes and in code units. -/
def ComparesAlike (callsign : String) : Prop :=
  ∀ left right, Callsign.splitMiddleSlash (Callsign.normalize callsign).toList = .pair left right →
    ((String.ofList left).utf8ByteSize < (String.ofList right).utf8ByteSize ↔
      length (String.ofList left) < length (String.ofList right))

end Conditions

section Agreement

variable {database : DxccDatabase}

theorem info_isSome (hindexed : Indexed database) {rule : DxccRule} (h : rule ∈ database.rules) :
    ∃ info, database.infoForRule rule = some info := by
  rw [DxccDatabase.infoForRule, List.getElem?_eq_getElem (hindexed rule h)]
  exact ⟨_, rfl⟩

theorem exactDxccRule_info (hindexed : Indexed database) {text : String} {rule : DxccRule}
    (h : exactDxccRule database text = some rule) :
    ∃ info, database.infoForRule rule = some info := by
  cases mem_of_foldl_keepExact h with
  | inl hnone => cases hnone
  | inr hmem => exact info_isSome hindexed hmem

theorem isIgnoredSlashSuffix_eq (part : String) :
    isIgnoredSlashSuffix part = DxccDatabase.isIgnoredSlashSuffix part := by
  have hlength (h : part.toList.all isAsciiDigit = true) :
      part.utf8ByteSize = part.toList.length := by
    rw [List.all_eq_true] at h
    have hascii : ∀ c ∈ part.toList, c.toNat < 128 := fun c hc => toNat_lt_of_digit (h c hc)
    have hsize := Utf8.utf8ByteSize_ascii hascii
    rwa [String.ofList_toList] at hsize
  have hnames : (decide (part = "M") || decide (part = "P") || decide (part = "MM")
      || decide (part = "QRP")) = ["M", "P", "MM", "QRP"].contains part := by
    simp [Bool.or_assoc]
  rw [isIgnoredSlashSuffix, DxccDatabase.isIgnoredSlashSuffix, hnames]
  congr 1
  cases hall : part.toList.all isAsciiDigit with
  | false => rw [Bool.and_false, Bool.and_false]
  | true => rw [hlength hall]

theorem hasExactRule_of_eq_some {text : String} {rule : DxccRule}
    (h : exactDxccRule database text = some rule) : hasExactRule database text = true := by
  by_contra hfalse
  rw [exactDxccRule_eq_none.mpr (Bool.eq_false_iff.mpr hfalse)] at h
  cases h

variable [Platform]

variable (database) in
/-- The answer for a component when one of the longest rules is picked in some way. -/
def answerBy (pick : List DxccRule → Option DxccRule) (component : String) : Option DxccInfo :=
  let text := Callsign.normalize component
  (database.lookupExact text).or
    ((Dxcc.callsignPrefix text).bind fun _ =>
      (pick (longestRules database text)).bind database.infoForRule)

theorem answerBy_isSome (hindexed : Indexed database) {pick : List DxccRule → Option DxccRule}
    (hmem : ∀ {rules rule}, pick rules = some rule → rule ∈ rules)
    (hnone : ∀ {rules}, pick rules = none ↔ rules = []) (component : String) :
    (answerBy database pick component).isSome = Covered database component := by
  rw [answerBy, Covered, lookupExact_eq]
  cases hexact : exactDxccRule database (Callsign.normalize component) with
  | some rule =>
      obtain ⟨info, hinfo⟩ := exactDxccRule_info hindexed hexact
      rw [hasExactRule_of_eq_some hexact, Option.bind_some, hinfo, Option.some_or,
        Option.isSome_some, Bool.true_or]
  | none =>
      rw [exactDxccRule_eq_none.mp hexact, Option.bind_none, Option.none_or, Bool.false_or]
      cases Dxcc.callsignPrefix (Callsign.normalize component) with
      | none => rfl
      | some _ =>
          rw [Option.bind_some, Option.isSome_some, Bool.true_and]
          cases hpick : pick (longestRules database (Callsign.normalize component)) with
          | none =>
              rw [Extremes.greatest_eq_nil.mp (hnone.mp hpick)]
              rfl
          | some rule =>
              have hne : prefixRules database (Callsign.normalize component) ≠ [] := fun hempty =>
                absurd (hnone.mpr (Extremes.greatest_eq_nil.mpr hempty))
                  (hpick ▸ Option.some_ne_none rule)
              obtain ⟨info, hinfo⟩ := info_isSome hindexed (mem_longestRules (hmem hpick))
              rw [Option.bind_some, hinfo, List.isEmpty_eq_false_iff.mpr hne]
              rfl

theorem lookupDirect_eq_answerBy (component : String) :
    database.lookupDirect component = answerBy database List.getLast? component :=
  lookupDirect_eq component

theorem lookupDxccDirect_eq_answerBy (law : UppercaseLaw) (hindexed : Indexed database)
    {component : String} (htrims : TrimsAlike component.toList)
    (hne : Callsign.normalize component ≠ "") :
    lookupDxccDirect database component = answerBy database List.head? component := by
  rw [lookupDxccDirect_eq law htrims hne, answerBy, lookupExact_eq]
  cases hexact : exactDxccRule database (Callsign.normalize component) with
  | none => rw [Option.bind_none, Option.none_or]
  | some rule =>
      obtain ⟨info, hinfo⟩ := exactDxccRule_info hindexed hexact
      rw [Option.bind_some, hinfo, Option.some_or]
      exact hinfo

/-- Picking the last and picking the first rule agree where the tie does. -/
theorem answerBy_eq_iff (hindexed : Indexed database) (component : String) :
    answerBy database List.getLast? component = answerBy database List.head? component ↔
      TieAgrees database component := by
  rw [answerBy, answerBy, TieAgrees, lookupExact_eq]
  cases hexact : exactDxccRule database (Callsign.normalize component) with
  | some rule =>
      obtain ⟨info, hinfo⟩ := exactDxccRule_info hindexed hexact
      rw [Option.bind_some, hinfo, Option.some_or, Option.some_or]
      exact iff_of_true rfl (Or.inl (hasExactRule_of_eq_some hexact))
  | none =>
      rw [exactDxccRule_eq_none.mp hexact, Option.bind_none, Option.none_or, Option.none_or]
      cases Dxcc.callsignPrefix (Callsign.normalize component) with
      | none => simp
      | some _ => simp [eq_comm]

theorem lookupDxccDirect_eq_lookupDirect_iff (law : UppercaseLaw) (hindexed : Indexed database)
    {component : String} (htrims : TrimsAlike component.toList)
    (hne : Callsign.normalize component ≠ "") :
    database.lookupDirect component = lookupDxccDirect database component ↔
      TieAgrees database component := by
  rw [lookupDirect_eq_answerBy, lookupDxccDirect_eq_answerBy law hindexed htrims hne]
  exact answerBy_eq_iff hindexed component

/-- The components around the slash of a normalized callsign are not blank. -/
theorem components (law : UppercaseLaw) {callsign : String} {left right : List Char}
    (h : Callsign.splitMiddleSlash (Callsign.normalize callsign).toList = .pair left right) :
    Callsign.normalize (String.ofList left) ≠ "" ∧
      Callsign.normalize (String.ofList right) ≠ "" := by
  obtain ⟨heq, hleft, hright⟩ := eq_of_splitMiddleSlash h
  refine ⟨?_, ?_⟩
  · cases left with
    | nil => exact absurd rfl hleft
    | cons d rest =>
        exact normalize_ne_empty law List.mem_cons_self (isWhitespace_head law heq)
  · cases List.eq_nil_or_concat right with
    | inl hnil => exact absurd hnil hright
    | inr hconcat =>
        obtain ⟨front, d, hfront⟩ := hconcat
        rw [List.concat_eq_append] at hfront
        rw [hfront, ← List.cons_append, ← List.append_assoc] at heq
        rw [hfront]
        exact normalize_ne_empty law (List.mem_append_right front List.mem_cons_self)
          (isWhitespace_last law heq)

/-- The choice among two components is the same, so the ties of the chosen one count. -/
theorem components_eq_iff (law : UppercaseLaw) (hindexed : Indexed database) {left right : String}
    (hleft : TrimsAlike left.toList) (hright : TrimsAlike right.toList)
    (hleftNe : Callsign.normalize left ≠ "")
    (hrightNe : Callsign.normalize right ≠ "")
    (halike : left.utf8ByteSize < right.utf8ByteSize ↔ length left < length right) :
    (if left.utf8ByteSize < right.utf8ByteSize then database.lookupDirect left
      else if DxccDatabase.isIgnoredSlashSuffix right then database.lookupDirect left
      else (database.lookupDirect right).or (database.lookupDirect left)) =
      (if length left < length right then lookupDxccDirect database left
      else if DxccDatabase.isIgnoredSlashSuffix right then lookupDxccDirect database left
      else (lookupDxccDirect database right).or (lookupDxccDirect database left)) ↔
    if left.utf8ByteSize < right.utf8ByteSize ∨ DxccDatabase.isIgnoredSlashSuffix right = true
        ∨ Covered database right = false then TieAgrees database left
    else TieAgrees database right := by
  have hleftIff := lookupDxccDirect_eq_lookupDirect_iff law hindexed hleft hleftNe
  have hrightIff := lookupDxccDirect_eq_lookupDirect_iff law hindexed hright hrightNe
  have hbackend : (database.lookupDirect right).isSome = Covered database right := by
    rw [lookupDirect_eq_answerBy]
    exact answerBy_isSome hindexed List.mem_of_getLast? List.getLast?_eq_none_iff right
  have hfrontend : (lookupDxccDirect database right).isSome = Covered database right := by
    rw [lookupDxccDirect_eq_answerBy law hindexed hright hrightNe]
    exact answerBy_isSome hindexed List.mem_of_head? List.head?_eq_none_iff right
  by_cases hshort : left.utf8ByteSize < right.utf8ByteSize
  · rw [if_pos hshort, if_pos (halike.mp hshort), if_pos (Or.inl hshort)]
    exact hleftIff
  · rw [if_neg hshort, if_neg (mt halike.mpr hshort)]
    by_cases hignored : DxccDatabase.isIgnoredSlashSuffix right = true
    · rw [if_pos hignored, if_pos hignored, if_pos (Or.inr (Or.inl hignored))]
      exact hleftIff
    · rw [if_neg hignored, if_neg hignored]
      cases hcovered : Covered database right with
      | false =>
          rw [hcovered, Option.isSome_eq_false_iff, Option.isNone_iff_eq_none] at hbackend hfrontend
          rw [hbackend, hfrontend, Option.none_or, Option.none_or,
            if_pos (Or.inr (Or.inr rfl))]
          exact hleftIff
      | true =>
          rw [hcovered] at hbackend hfrontend
          rw [Option.or_of_isSome hbackend, Option.or_of_isSome hfrontend, if_neg]
          · exact hrightIff
          · exact fun h => h.elim hshort fun h => h.elim hignored Bool.noConfusion

theorem TiesAgree.of_empty {callsign : String} (h : Callsign.normalize callsign = "") :
    TiesAgree database callsign := by
  have hnormal : Callsign.normalize "" = "" := rfl
  rw [TiesAgree, h]
  refine Or.inr (Or.inr (Or.inl ?_))
  rw [hnormal]
  rfl

/-- The two lookups give the same answer exactly where the ties do. -/
theorem lookup_eq_lookupDxcc_iff (law : UppercaseLaw) (hindexed : Indexed database)
    {callsign : String} (htrims : TrimmedAlike callsign) (halike : ComparesAlike callsign) :
    database.lookup callsign = lookupDxcc database callsign ↔ TiesAgree database callsign := by
  have hnormal : TrimsAlike (Callsign.normalize callsign).toList := htrims.whole.normalize law
  have hwhole (hne : Callsign.normalize callsign ≠ "") :
      Callsign.normalize (Callsign.normalize callsign) ≠ "" := by
    rw [normalize_idem law]
    exact hne
  by_cases hempty : Callsign.normalize callsign = ""
  · rw [DxccDatabase.lookup, lookupDxcc, normalizeCallsign_eq htrims.whole, hempty]
    have hisEmpty : "".isEmpty = true := rfl
    refine iff_of_true ?_ (TiesAgree.of_empty hempty)
    dsimp only
    rw [if_pos hisEmpty, if_pos hisEmpty]
  · have hisEmpty : ¬ (Callsign.normalize callsign).isEmpty = true := by simpa using hempty
    rw [DxccDatabase.lookup, lookupDxcc, normalizeCallsign_eq htrims.whole, TiesAgree,
      lookupExact_eq]
    dsimp only
    rw [if_neg hisEmpty, if_neg hisEmpty]
    cases hexact : exactDxccRule database (Callsign.normalize callsign) with
    | some rule =>
        obtain ⟨info, hinfo⟩ := exactDxccRule_info hindexed hexact
        rw [Option.bind_some, hinfo, Option.some_or]
        exact iff_of_true hinfo.symm (Or.inl (hasExactRule_of_eq_some hexact))
    | none =>
        rw [exactDxccRule_eq_none.mp hexact, Option.bind_none, Option.none_or,
          or_iff_right Bool.false_ne_true, splitSlashCallsign_eq]
        cases hsplit : Callsign.splitMiddleSlash (Callsign.normalize callsign).toList with
        | none => exact lookupDxccDirect_eq_lookupDirect_iff law hindexed hnormal (hwhole hempty)
        | invalid => exact lookupDxccDirect_eq_lookupDirect_iff law hindexed hnormal (hwhole hempty)
        | pair left right =>
            obtain ⟨hleft, hright⟩ := htrims.components left right hsplit
            obtain ⟨hleftNe, hrightNe⟩ := components law hsplit
            dsimp only
            rw [isIgnoredSlashSuffix_eq]
            refine components_eq_iff law hindexed ?_ ?_ hleftNe hrightNe (halike left right hsplit)
            · rwa [String.toList_ofList]
            · rwa [String.toList_ofList]

end Agreement

end Log73.Frontend

namespace Log73

attribute [local instance] asciiPlatform

namespace Frontend

/-- Two entities that claim the prefix K. -/
def sharedPrefix : DxccDatabase where
  entities := [("First", 1), ("Second", 2)].map fun (name, number) =>
    { countryName := name
      adif := number
      cqZone := 5
      ituZone := 8
      continent := "NA"
      latitude := 0
      longitude := 0
      utcOffset := 0
      primaryPrefix := "K"
      waedcCqList := false }
  rules := [0, 1].map fun index =>
    { pattern := "K"
      exact := false
      entityIndex := index
      cqZone := none
      ituZone := none
      continent := none
      latitude := none
      longitude := none
      utcOffset := none }

theorem lookup_sharedPrefix :
    Indexed sharedPrefix ∧ (sharedPrefix.lookup "K1ABC").map (·.adif) = some 2
      ∧ (lookupDxcc sharedPrefix "K1ABC").map (·.adif) = some 1 := by
  refine ⟨?_, ?_, ?_⟩
  · unfold Indexed
    decide
  · decide +kernel
  · decide +kernel

theorem lookup_eq_lookupDxcc_iff_sharedPrefix :
    (UppercaseLaw ∧ Indexed sharedPrefix ∧ TrimmedAlike "DL/K1ABC" ∧ ComparesAlike "DL/K1ABC") ∧
      (sharedPrefix.lookup "DL/K1ABC" = lookupDxcc sharedPrefix "DL/K1ABC" ↔
        TiesAgree sharedPrefix "DL/K1ABC") := by
  have hindexed : Indexed sharedPrefix := by
    unfold Indexed
    decide
  have htrims : TrimmedAlike "DL/K1ABC" := by
    have hwhole : Plain "DL/K1ABC" := by decide
    refine ⟨hwhole.trimsAlike, fun left right hsplit => ?_⟩
    cases hsplit
    have hleft : Plain "DL" := by decide
    have hright : Plain "K1ABC" := by decide
    exact ⟨hleft.trimsAlike, hright.trimsAlike⟩
  have halike : ComparesAlike "DL/K1ABC" := by
    intro left right hsplit
    cases hsplit
    decide
  exact ⟨⟨uppercaseLaw_ascii, hindexed, htrims, halike⟩,
    lookup_eq_lookupDxcc_iff uppercaseLaw_ascii hindexed htrims halike⟩

end Frontend

end Log73
