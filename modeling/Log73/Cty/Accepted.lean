import Log73.Cty.Reader
import Log73.Library.Checks

/-!
What a CTY file says, apart from how it is read: the grammar of a token, what a token denotes,
and the database of a file. The reader accepts the files that are written so and no others, and
the database it returns is the one the file describes.
-/

namespace Log73.Cty

open Checks

theorem doBind_eq_ok {α β ε : Type} {x : Except ε α} {f : α → Except ε β} {b : β} :
    (x >>= f) = .ok b ↔ ∃ a, x = .ok a ∧ f a = .ok b :=
  bind_eq_ok

section Numbers

theorem le_foldl_digits (cs : List Char) (value : Nat) :
    value ≤ cs.foldl (fun n c => 10 * n + (c.toNat - 48)) value := by
  induction cs generalizing value with
  | nil => exact Nat.le_refl value
  | cons c cs ih => exact Nat.le_trans (by omega) (ih (10 * value + (c.toNat - 48)))

/-- The sum only grows, so that a number fits if it does at the end. -/
theorem readDigits_eq_ok {high value n : Nat} {cs : List Char} (hvalue : value ≤ high) :
    readDigits high value cs = .ok n ↔
      (∀ c ∈ cs, isAsciiDigit c = true)
        ∧ cs.foldl (fun n c => 10 * n + (c.toNat - 48)) value = n ∧ n ≤ high := by
  induction cs generalizing value with
  | nil =>
      rw [readDigits, Except.ok.injEq, List.foldl_nil]
      constructor
      · intro h
        exact ⟨fun _ hc => (List.not_mem_nil hc).elim, h, h ▸ hvalue⟩
      · intro h
        exact h.2.1
  | cons c cs ih =>
      rw [readDigits, List.foldl_cons, List.forall_mem_cons]
      by_cases hc : isAsciiDigit c = true
      · rw [if_pos hc, and_iff_right hc]
        by_cases hnext : 10 * value + (c.toNat - 48) ≤ high
        · rw [if_pos hnext]
          exact ih hnext
        · rw [if_neg hnext]
          refine iff_of_false (fun h => by cases h) fun h => ?_
          have hle := le_foldl_digits cs (10 * value + (c.toNat - 48))
          omega
      · rw [if_neg hc]
        exact iff_of_false (fun h => by cases h) fun h => hc h.1.1

theorem readDigits_zero_eq_ok {high n : Nat} {cs : List Char} (hne : cs ≠ []) :
    readDigits high 0 cs = .ok n ↔ (parseDigits cs).filter (· ≤ high) = some n := by
  rw [readDigits_eq_ok (Nat.zero_le high), parseDigits, Option.filter_eq_some_iff,
    decide_eq_true_eq]
  have hempty : cs.isEmpty = false := List.isEmpty_eq_false_iff.mpr hne
  rw [hempty, Bool.false_or]
  by_cases hall : cs.all isAsciiDigit = true
  · rw [hall, Bool.not_true, if_neg Bool.false_ne_true, Option.some_inj, and_iff_right]
    · rfl
    · exact List.all_eq_true.mp hall
  · rw [Bool.eq_false_iff.mpr hall, Bool.not_false, if_pos rfl]
    refine iff_of_false (fun h => hall (List.all_eq_true.mpr h.1)) fun h => ?_
    cases h.1

theorem readUnsigned_eq_ok {high n : Nat} {value : String} :
    readUnsigned high value = .ok n ↔ parseUnsigned high value = some n := by
  rw [readUnsigned, parseUnsigned]
  cases hchars : value.toList with
  | nil => exact iff_of_false (fun h => by cases h) fun h => by cases h
  | cons c cs =>
      by_cases hplus : c = '+'
      · subst hplus
        cases cs with
        | nil => exact iff_of_false (fun h => by cases h) fun h => by cases h
        | cons d cs => exact readDigits_zero_eq_ok (List.cons_ne_nil d cs)
      · simpa [hplus] using readDigits_zero_eq_ok (List.cons_ne_nil c cs)

theorem parseUnsignedField_eq_ok {high n : Nat} {value label : String} :
    parseUnsignedField high value label = .ok n ↔ parseUnsigned high (trim value) = some n := by
  rw [parseUnsignedField, mapError_eq_ok, readUnsigned_eq_ok]

theorem parseF64Field_eq_ok {F : Type} {parseF64 : String → Option F} {value label : String}
    {double : F} :
    parseF64Field parseF64 value label = .ok double ↔ parseF64 (trim value) = some double := by
  rw [parseF64Field]
  cases parseF64 (trim value) with
  | none => exact iff_of_false (fun h => by cases h) fun h => by cases h
  | some other => rw [Except.ok.injEq, Option.some_inj]

end Numbers

theorem Modifier.ofOpening_opening (modifier : Modifier) :
    ofOpening modifier.opening = some modifier := by
  cases modifier <;> rfl

theorem Modifier.opening_of_ofOpening {c : Char} {modifier : Modifier}
    (h : ofOpening c = some modifier) : c = modifier.opening := by
  have hfound := List.find?_some (show List.find? _ _ = some modifier from h)
  exact (of_decide_eq_true hfound).symm

/-- A part of a token that overrides something: a text between the two characters of its
modifier, without the one that closes it. -/
structure Override where
  modifier : Modifier
  value : List Char
  closes : modifier.closing ∉ value

namespace Override

def text (o : Override) : List Char := o.modifier.opening :: (o.value ++ [o.modifier.closing])

theorem ne_closing (o : Override) : ∀ c ∈ o.value, decide (c ≠ o.modifier.closing) = true := by
  intro c hc
  rw [decide_eq_true_eq]
  intro heq
  exact o.closes (heq ▸ hc)

theorem takeWhile_value (o : Override) (rest : List Char) :
    (o.value ++ o.modifier.closing :: rest).takeWhile (· ≠ o.modifier.closing) = o.value := by
  rw [List.takeWhile_append_of_pos o.ne_closing,
    List.takeWhile_cons_of_neg (by simp), List.append_nil]

theorem dropWhile_value (o : Override) (rest : List Char) :
    (o.value ++ o.modifier.closing :: rest).dropWhile (· ≠ o.modifier.closing) =
      o.modifier.closing :: rest := by
  rw [List.dropWhile_append_of_pos o.ne_closing,
    List.dropWhile_cons_of_neg (by simp)]

variable {F : Type} (parseF64 : String → Option F)

/-- The number between the characters of a zone. -/
def zone (o : Override) : Option Nat := parseUnsigned 255 (trim (String.ofList o.value))

def offset (o : Override) : Option F := parseF64 (trim (String.ofList o.value))

def latitude (o : Override) : Option F :=
  (splitOnce '/' (String.ofList o.value)).bind fun parts => parseF64 (trim parts.1)

def longitude (o : Override) : Option F :=
  (splitOnce '/' (String.ofList o.value)).bind fun parts => parseF64 (trim parts.2)

/-- The text of an override is what its modifier asks for. -/
def Reads (o : Override) : Prop :=
  match o.modifier with
  | .cqZone | .ituZone => o.zone.isSome
  | .continent => True
  | .utcOffset => (o.offset parseF64).isSome
  | .position => (o.latitude parseF64).isSome ∧ (o.longitude parseF64).isSome

/-- The rule after an override. -/
def set (rule : Rule F) (o : Override) : Rule F :=
  match o.modifier with
  | .cqZone => { rule with cqZone := o.zone }
  | .ituZone => { rule with ituZone := o.zone }
  | .continent => { rule with continent := some (trim (String.ofList o.value)) }
  | .utcOffset => { rule with utcOffset := o.offset parseF64 }
  | .position =>
      { rule with latitude := o.latitude parseF64, longitude := o.longitude parseF64 }

variable {parseF64}

theorem apply_eq_ok {o : Override} {rule rule' : Rule F} :
    o.modifier.apply parseF64 (String.ofList o.value) rule = .ok rule' ↔
      o.Reads parseF64 ∧ o.set parseF64 rule = rule' := by
  obtain ⟨modifier, value, closes⟩ := o
  cases modifier with
  | cqZone =>
      simp only [Modifier.apply, doBind_eq_ok, parseU8Field, parseUnsignedField_eq_ok, Reads, set,
        zone]
      cases parseUnsigned 255 (trim (String.ofList value)) with
      | none => simp
      | some n => simp [pure, Except.pure]
  | ituZone =>
      simp only [Modifier.apply, doBind_eq_ok, parseU8Field, parseUnsignedField_eq_ok, Reads, set,
        zone]
      cases parseUnsigned 255 (trim (String.ofList value)) with
      | none => simp
      | some n => simp [pure, Except.pure]
  | continent => simp [Modifier.apply, Reads, set]
  | utcOffset =>
      simp only [Modifier.apply, doBind_eq_ok, parseF64Field_eq_ok, Reads, set, offset]
      cases parseF64 (trim (String.ofList value)) with
      | none => simp
      | some double => simp [pure, Except.pure]
  | position =>
      simp only [Modifier.apply, Reads, set, latitude, longitude]
      cases splitOnce '/' (String.ofList value) with
      | none => simp
      | some parts =>
          simp only [doBind_eq_ok, parseF64Field_eq_ok, Option.bind_some]
          cases parseF64 (trim parts.1) with
          | none => simp
          | some north =>
              cases parseF64 (trim parts.2) with
              | none => simp
              | some east => simp [pure, Except.pure]

end Override

section Modifiers

variable {F : Type} {parseF64 : String → Option F}

/-- Where text is left, the first override is the one its first character opens. -/
theorem exists_of_cons_eq_flatMap {c : Char} {input : List Char} {overrides : List Override}
    (h : c :: input = overrides.flatMap Override.text) :
    ∃ o rest, overrides = o :: rest ∧ c = o.modifier.opening
      ∧ input = o.value ++ o.modifier.closing :: rest.flatMap Override.text := by
  cases overrides with
  | nil => cases h
  | cons o rest =>
      rw [List.flatMap_cons, Override.text, List.cons_append, List.cons.injEq, List.append_assoc,
        List.singleton_append] at h
      exact ⟨o, rest, rfl, h.1, h.2⟩

/-- The modifiers are read if they are overrides one after another, each of which reads. -/
theorem parseModifiers_eq_ok {token : String} {input : List Char} {rule rule' : Rule F} :
    parseModifiers parseF64 token input rule = .ok rule' ↔
      ∃ overrides : List Override, input = overrides.flatMap Override.text
        ∧ (∀ o ∈ overrides, o.Reads parseF64)
        ∧ overrides.foldl (Override.set parseF64) rule = rule' := by
  fun_induction parseModifiers parseF64 token input rule with
  | case1 rule =>
      constructor
      · intro h
        exact ⟨[], rfl, fun _ ho => (List.not_mem_nil ho).elim, Except.ok.inj h⟩
      · intro h
        obtain ⟨overrides, htext, _, hrule⟩ := h
        cases overrides with
        | nil => exact congrArg Except.ok hrule
        | cons o rest => cases htext
  | case2 c input rule hnone =>
      refine iff_of_false (fun h => by cases h) fun h => ?_
      obtain ⟨overrides, htext, _⟩ := h
      obtain ⟨o, rest, _, hc, _⟩ := exists_of_cons_eq_flatMap htext
      rw [hc, Modifier.ofOpening_opening] at hnone
      cases hnone
  | case3 c input rule modifier hmodifier hend =>
      refine iff_of_false (fun h => by cases h) fun h => ?_
      obtain ⟨overrides, htext, _⟩ := h
      obtain ⟨o, rest, _, hc, hinput⟩ := exists_of_cons_eq_flatMap htext
      rw [hc, Modifier.ofOpening_opening, Option.some_inj] at hmodifier
      subst hmodifier
      rw [hinput, Override.dropWhile_value] at hend
      cases hend
  | case4 c input rule modifier hmodifier closing rest hend value ih =>
      have hclosing : closing = modifier.closing := by
        have hhead := List.head?_dropWhile_not (· ≠ modifier.closing) input
        rw [hend] at hhead
        simpa using hhead
      let first : Override :=
        { modifier, value := input.takeWhile (· ≠ modifier.closing)
          closes := fun hmem => by simpa using List.mem_takeWhile_imp hmem }
      have hinput : input = first.value ++ modifier.closing :: rest := by
        rw [← hclosing, ← hend]
        exact List.takeWhile_append_dropWhile.symm
      refine bind_eq_ok.trans ?_
      constructor
      · intro h
        obtain ⟨next, happly, hrest⟩ := h
        obtain ⟨hreads, rfl⟩ := Override.apply_eq_ok (o := first).mp happly
        obtain ⟨overrides, rfl, hall, hrule⟩ := (ih _).mp hrest
        refine ⟨first :: overrides, ?_, List.forall_mem_cons.mpr ⟨hreads, hall⟩, hrule⟩
        rw [List.flatMap_cons, Modifier.opening_of_ofOpening hmodifier, hinput, Override.text,
          List.cons_append, List.append_assoc, List.singleton_append]
      · intro h
        obtain ⟨overrides, htext, hall, hrule⟩ := h
        obtain ⟨o, others, rfl, hc, hvalue⟩ := exists_of_cons_eq_flatMap htext
        rw [hc, Modifier.ofOpening_opening, Option.some_inj] at hmodifier
        subst hmodifier
        rw [List.forall_mem_cons] at hall
        have hdrop := o.dropWhile_value (others.flatMap Override.text)
        rw [← hvalue, hend, List.cons.injEq] at hdrop
        refine ⟨o.set parseF64 rule, ?_, (ih _).mpr ⟨others, hdrop.2, hall.2, hrule⟩⟩
        have hread : value = String.ofList o.value := by
          show String.ofList (input.takeWhile (· ≠ o.modifier.closing)) = _
          rw [hvalue, Override.takeWhile_value]
        rw [hread]
        exact Override.apply_eq_ok.mpr ⟨hall.1, rfl⟩

/-- The last of the overrides that one modifier makes. -/
def last (overrides : List Override) (modifier : Modifier) : Option Override :=
  overrides.reverse.find? (·.modifier = modifier)

theorem last_cons (o : Override) (overrides : List Override) (modifier : Modifier) :
    last (o :: overrides) modifier =
      (last overrides modifier).or (if o.modifier = modifier then some o else none) := by
  rw [last, last, List.reverse_cons, List.find?_append, List.find?_singleton]
  simp only [decide_eq_true_eq]

variable (parseF64) in
/-- The rule after all overrides: where one modifier is given more than once, its last one
holds. -/
def overridden (rule : Rule F) (overrides : List Override) : Rule F :=
  { rule with
    cqZone := (last overrides .cqZone).elim rule.cqZone Override.zone
    ituZone := (last overrides .ituZone).elim rule.ituZone Override.zone
    continent := (last overrides .continent).elim rule.continent fun o =>
      some (trim (String.ofList o.value))
    utcOffset := (last overrides .utcOffset).elim rule.utcOffset (Override.offset parseF64)
    latitude := (last overrides .position).elim rule.latitude (Override.latitude parseF64)
    longitude := (last overrides .position).elim rule.longitude (Override.longitude parseF64) }

theorem elim_last_cons {β : Type} (o : Override) (overrides : List Override) (modifier : Modifier)
    (b : β) (f : Override → β) :
    (last (o :: overrides) modifier).elim b f =
      (last overrides modifier).elim (if o.modifier = modifier then f o else b) f := by
  rw [last_cons]
  cases last overrides modifier with
  | some other => rfl
  | none =>
      by_cases hmodifier : o.modifier = modifier
      · rw [if_pos hmodifier, if_pos hmodifier]
        rfl
      · rw [if_neg hmodifier, if_neg hmodifier]
        rfl

/-- Setting one override after another leaves the last one of each modifier. -/
theorem foldl_set (overrides : List Override) (rule : Rule F) :
    overrides.foldl (Override.set parseF64) rule = overridden parseF64 rule overrides := by
  induction overrides generalizing rule with
  | nil => rfl
  | cons o overrides ih =>
      rw [List.foldl_cons, ih]
      simp only [overridden, elim_last_cons, Override.set]
      obtain ⟨modifier, value, closes⟩ := o
      cases modifier <;> simp

end Modifiers

theorem unmark_of_head?_ne {cs : List Char} (h : cs.head? ≠ some '=') :
    unmark cs = (false, cs) := by
  cases cs with
  | nil => rfl
  | cons c rest =>
      rw [unmark]
      intro rest' heq
      cases heq
      exact h rfl

theorem unmark_eq (cs : List Char) :
    (∃ rest, cs = '=' :: rest ∧ unmark cs = (true, rest))
      ∨ cs.head? ≠ some '=' ∧ unmark cs = (false, cs) := by
  by_cases hmark : cs.head? = some '='
  · obtain ⟨rest, rfl⟩ := List.head?_eq_some_iff.mp hmark
    exact Or.inl ⟨rest, rfl, rfl⟩
  · exact Or.inr ⟨hmark, unmark_of_head?_ne hmark⟩

/-- A token of the alias grammar: a callsign or a prefix, `=` before a callsign that is meant as
a whole, and overrides behind it. -/
structure Token where
  exact : Bool
  pattern : List Char
  overrides : List Override
  plain : ∀ c ∈ pattern, Modifier.ofOpening c = none
  unmarked : exact = false → pattern.head? ≠ some '='

namespace Token

def text (t : Token) : List Char :=
  (if t.exact then ['='] else []) ++ (t.pattern ++ t.overrides.flatMap Override.text)

section

variable [Platform]

def callsign (t : Token) : String := toUppercase (trim (String.ofList t.pattern))

variable {F : Type} (parseF64 : String → Option F)

/-- What a token says of the entity it is written for. -/
def rule (t : Token) (entityIndex : Nat) : Rule F :=
  overridden parseF64 { pattern := t.callsign, exact := t.exact, entityIndex } t.overrides

/-- A text that is, apart from white space around it, a token with a callsign whose overrides
read, and its rule. -/
def Denotes (token : String) (entityIndex : Nat) (rule : Rule F) : Prop :=
  ∃ t : Token, trimChars token.toList = t.text ∧ t.callsign ≠ ""
    ∧ (∀ o ∈ t.overrides, o.Reads parseF64) ∧ t.rule parseF64 entityIndex = rule

end

theorem isPlain_head_overrides {overrides : List Override} {c : Char}
    (h : (overrides.flatMap Override.text).head? = some c) : isPlain c = false := by
  cases overrides with
  | nil => cases h
  | cons o rest =>
      have hopening : o.modifier.opening = c := Option.some.inj h
      rw [← hopening, isPlain, Modifier.ofOpening_opening]
      rfl

theorem takeWhile_pattern (t : Token) :
    (t.pattern ++ t.overrides.flatMap Override.text).takeWhile isPlain = t.pattern := by
  have hplain : ∀ c ∈ t.pattern, isPlain c = true := by
    intro c hc
    exact Option.isNone_iff_eq_none.mpr (t.plain c hc)
  rw [List.takeWhile_append_of_pos hplain]
  cases hrest : t.overrides.flatMap Override.text with
  | nil => exact List.append_nil _
  | cons c rest =>
      have hhead : (t.overrides.flatMap Override.text).head? = some c := by
        rw [hrest, List.head?_cons]
      have hopens : isPlain c = false := isPlain_head_overrides hhead
      rw [List.takeWhile_cons, hopens, if_neg Bool.false_ne_true, List.append_nil]

theorem dropWhile_pattern (t : Token) :
    (t.pattern ++ t.overrides.flatMap Override.text).dropWhile isPlain =
      t.overrides.flatMap Override.text := by
  have hwhole := List.takeWhile_append_dropWhile (p := isPlain)
    (l := t.pattern ++ t.overrides.flatMap Override.text)
  rw [takeWhile_pattern] at hwhole
  exact List.append_cancel_left hwhole

theorem unmark_text (t : Token) :
    unmark t.text = (t.exact, t.pattern ++ t.overrides.flatMap Override.text) := by
  obtain ⟨exact, pattern, overrides, plain, unmarked⟩ := t
  cases exact with
  | true => rfl
  | false =>
      rw [text, if_neg Bool.false_ne_true, List.nil_append]
      apply unmark_of_head?_ne
      intro hhead
      rw [List.head?_append, Option.or_eq_some_iff] at hhead
      cases hhead with
      | inl hpattern => exact unmarked rfl hpattern
      | inr hoverrides =>
          have hplain := isPlain_head_overrides hoverrides.2
          exact absurd hplain (by decide)

/-- The token of a text without an override that is not closed. -/
theorem exists_text {cs : List Char} {overrides : List Override}
    (h : (unmark cs).2.dropWhile isPlain = overrides.flatMap Override.text) :
    ∃ t : Token, cs = t.text ∧ t.overrides = overrides := by
  have hplain : ∀ c ∈ (unmark cs).2.takeWhile isPlain, Modifier.ofOpening c = none := by
    intro c hc
    exact Option.isNone_iff_eq_none.mp (List.mem_takeWhile_imp (p := isPlain) hc)
  have hwhole := List.takeWhile_append_dropWhile (p := isPlain) (l := (unmark cs).2)
  rw [h] at hwhole
  refine ⟨⟨(unmark cs).1, (unmark cs).2.takeWhile isPlain, overrides, hplain, ?_⟩, ?_, rfl⟩
  · intro hexact hhead
    obtain ⟨rest, rfl, hunmark⟩ | ⟨hmark, hunmark⟩ := unmark_eq cs
    · rw [hunmark] at hexact
      cases hexact
    · rw [hunmark] at hwhole hhead
      apply hmark
      rw [← show _ = cs from hwhole, List.head?_append, hhead]
      rfl
  · obtain ⟨rest, rfl, hunmark⟩ | ⟨_, hunmark⟩ := unmark_eq cs
    · simp only [text, hunmark, if_true] at hwhole ⊢
      rw [hwhole]
      rfl
    · simp only [text, hunmark, Bool.false_eq_true, if_false] at hwhole ⊢
      rw [hwhole]
      rfl

end Token

section Accepted

variable [Platform] {F : Type} {parseF64 : String → Option F}

theorem parseRule_eq (token : String) (entityIndex : Nat) :
    parseRule parseF64 token entityIndex =
      (parseModifiers parseF64 token ((unmark (trimChars token.toList)).2.dropWhile isPlain)
        { pattern := toUppercase
            (trim (String.ofList ((unmark (trimChars token.toList)).2.takeWhile isPlain)))
          exact := (unmark (trimChars token.toList)).1
          entityIndex }).bind fun rule =>
        if rule.pattern.isEmpty then .error s!"invalid CTY alias token: {token}" else .ok rule :=
  rfl

/-- A token is accepted exactly where it is one of the grammar, as what it denotes. -/
theorem parseRule_eq_ok {token : String} {entityIndex : Nat} {rule : Rule F} :
    parseRule parseF64 token entityIndex = .ok rule ↔
      Token.Denotes parseF64 token entityIndex rule := by
  rw [parseRule_eq]
  constructor
  · intro h
    obtain ⟨rule', hmodifiers, hrule⟩ := bind_eq_ok.mp h
    obtain ⟨hcallsign, hrule⟩ := ite_error_eq_ok.mp hrule
    obtain ⟨overrides, hrest, hall, hset⟩ := parseModifiers_eq_ok.mp hmodifiers
    obtain ⟨t, htext, rfl⟩ := Token.exists_text hrest
    rw [htext, Token.unmark_text, Token.takeWhile_pattern, foldl_set] at hset
    cases hrule
    subst hset
    refine ⟨t, htext, fun hempty => hcallsign ?_, hall, rfl⟩
    exact String.isEmpty_iff.mpr hempty
  · intro h
    obtain ⟨t, htext, hcallsign, hall, rfl⟩ := h
    refine bind_eq_ok.mpr ⟨t.rule parseF64 entityIndex, ?_, ?_⟩
    · rw [htext, Token.unmark_text, Token.takeWhile_pattern, Token.dropWhile_pattern]
      exact parseModifiers_eq_ok.mpr ⟨t.overrides, rfl, hall, foldl_set t.overrides _⟩
    · rw [if_neg]
      intro hempty
      exact hcallsign (String.isEmpty_iff.mp hempty)

end Accepted

theorem forall₂_append_left_iff {α β : Type} {R : α → β → Prop} {front back : List α}
    {results : List β} :
    List.Forall₂ R (front ++ back) results ↔
      ∃ first last, results = first ++ last ∧ List.Forall₂ R front first
        ∧ List.Forall₂ R back last := by
  constructor
  · intro h
    refine ⟨results.take front.length, results.drop front.length,
      (List.take_append_drop _ _).symm, ?_, ?_⟩
    · exact (List.forall₂_take_append results front back h.flip).flip
    · exact (List.forall₂_drop_append results front back h.flip).flip
  · intro h
    obtain ⟨first, last, rfl, hfirst, hlast⟩ := h
    exact List.rel_append hfirst hlast

section Rows

/-- A field of a row, without white space around it. -/
def column (fields : List String) (index : Nat) : String := trim (fields.getD index "")

def primaryPrefix (fields : List String) : String :=
  String.ofList ((column fields 0).toList.dropWhile (· = '*'))

/-- The tokens a row has rules for. -/
def rowTokens (fields : List String) : List String :=
  primaryPrefix fields :: aliasTokens (column fields 9)

/-- The rows of a file that are not blank. -/
def rows (records : List (Except String (List String))) : List (List String) :=
  (records.filterMap Except.toOption).filter fun fields => !isBlank fields

/-- The tokens of the rows in the order of the file, with the entity they are written for. -/
def fileTokens (first : Nat) (rows : List (List String)) : List (String × Nat) :=
  (rows.zipIdx first).flatMap fun row => (rowTokens row.1).map fun token => (token, row.2)

variable {F : Type} (parseF64 : String → Option F)

/-- The entity a row describes. -/
structure EntityOf (fields : List String) (entity : Entity F) : Prop where
  primaryPrefix : entity.primaryPrefix = Cty.primaryPrefix fields
  waedcCqList : entity.waedcCqList = startsWith (column fields 0) "*"
  countryName : entity.countryName = column fields 1
  adif : parseUnsigned 65535 (column fields 2) = some entity.adif
  continent : entity.continent = column fields 3
  cqZone : parseUnsigned 255 (column fields 4) = some entity.cqZone
  ituZone : parseUnsigned 255 (column fields 5) = some entity.ituZone
  latitude : parseF64 (column fields 6) = some entity.latitude
  longitude : parseF64 (column fields 7) = some entity.longitude
  utcOffset : parseF64 (column fields 8) = some entity.utcOffset

variable {parseF64} {fields : List String} {row : Nat}

theorem recordField_eq_ok {index : Nat} {value : String} (hindex : index < fields.length) :
    recordField fields index row = .ok value ↔ column fields index = value := by
  rw [recordField, column, List.getD_eq_getElem?_getD, List.getElem?_eq_getElem hindex,
    Option.getD_some]
  exact ⟨Except.ok.inj, congrArg Except.ok⟩

theorem trim_column (fields : List String) (index : Nat) :
    trim (column fields index) = column fields index := by
  rw [column, trim, trim, String.toList_ofList, trimChars_trimChars]

/-- A row of ten fields is read as the entity it describes. -/
theorem parseEntity_eq_ok (hlength : fields.length = 10) {entity : Entity F} :
    parseEntity parseF64 fields row = .ok entity ↔ EntityOf parseF64 fields entity := by
  have hfield {index : Nat} {value : String} (hindex : index < 10) :
      recordField fields index row = .ok value ↔ column fields index = value :=
    recordField_eq_ok (hlength ▸ hindex)
  simp (disch := decide) only [parseEntity, doBind_eq_ok, hfield, exists_eq_left', parseU16Field,
    parseU8Field, parseUnsignedField_eq_ok, parseF64Field_eq_ok, trim_column]
  constructor
  · intro h
    obtain ⟨adif, hadif, cqZone, hcq, ituZone, hitu, latitude, hlatitude, longitude, hlongitude,
      utcOffset, hoffset, hentity⟩ := h
    rw [← Except.ok.inj hentity]
    exact ⟨by rw [primaryPrefix], by dsimp only, by dsimp only, hadif, by dsimp only, hcq, hitu,
      hlatitude, hlongitude, hoffset⟩
  · intro h
    refine ⟨_, h.adif, _, h.cqZone, _, h.ituZone, _, h.latitude, _, h.longitude, _, h.utcOffset, ?_⟩
    apply congrArg Except.ok
    rw [← h.countryName, ← h.continent, ← h.waedcCqList, ← primaryPrefix, ← h.primaryPrefix]

theorem rows_cons_blank (hblank : isBlank fields = true)
    (records : List (Except String (List String))) :
    rows (.ok fields :: records) = rows records := by
  rw [rows, List.filterMap_cons, Except.toOption, List.filter_cons, hblank]
  rfl

theorem rows_cons (hblank : isBlank fields = false)
    (records : List (Except String (List String))) :
    rows (.ok fields :: records) = fields :: rows records := by
  rw [rows, List.filterMap_cons, Except.toOption, List.filter_cons, hblank]
  rfl

theorem fileTokens_cons (first : Nat) (fields : List String) (others : List (List String)) :
    fileTokens first (fields :: others) =
      (rowTokens fields).map (fun token => (token, first)) ++ fileTokens (first + 1) others := by
  rw [fileTokens, List.zipIdx_cons, List.flatMap_cons, fileTokens]

variable [Platform]

variable (parseF64) in
/-- The database a file describes: each row has its ten fields, and the entities and the rules
are those the rows say, in their order. -/
structure Describes (records : List (Except String (List String))) (database : Database F) :
    Prop where
  readable : ∀ record ∈ records, ∃ fields, record = .ok fields
    ∧ (isBlank fields = false → fields.length = 10)
  entities : List.Forall₂ (EntityOf parseF64) (rows records) database.entities
  rules : List.Forall₂ (fun token rule => Token.Denotes parseF64 token.1 token.2 rule)
    (fileTokens 0 (rows records)) database.rules

/-- The rules of a row are what its tokens denote. -/
theorem rowRules_eq_ok (hlength : fields.length = 10) {entityIndex : Nat} {rules : List (Rule F)} :
    rowRules parseF64 fields row entityIndex (primaryPrefix fields) = .ok rules ↔
      List.Forall₂ (fun token rule => Token.Denotes parseF64 token entityIndex rule)
        (rowTokens fields) rules := by
  have haliases : recordField fields 9 row = .ok (column fields 9) :=
    (recordField_eq_ok (by omega)).mpr rfl
  rw [rowRules, rowTokens, List.forall₂_cons_left_iff]
  simp only [doBind_eq_ok, parseRule_eq_ok, haliases, Except.ok.injEq, exists_eq_left', mapM_eq_ok]
  constructor
  · intro h
    obtain ⟨first, hfirst, rest, hrest, hrules⟩ := h
    exact ⟨first, rest, hfirst, hrest, (Except.ok.inj hrules).symm⟩
  · intro h
    obtain ⟨first, rest, hfirst, hrest, hrules⟩ := h
    exact ⟨first, hfirst, rest, hrest, congrArg Except.ok hrules.symm⟩

/-- One record adds nothing, or one entity with its rules. -/
theorem readRecord_eq_ok {record : Except String (List String)} {database next : Database F} :
    readRecord parseF64 database row record = .ok next ↔
      ∃ fields, record = .ok fields ∧
        (isBlank fields = true ∧ database = next
          ∨ isBlank fields = false ∧ fields.length = 10 ∧ ∃ entity rules,
            EntityOf parseF64 fields entity
              ∧ List.Forall₂ (fun token rule =>
                  Token.Denotes parseF64 token database.entities.length rule)
                (rowTokens fields) rules
              ∧ { entities := database.entities ++ [entity]
                  rules := database.rules ++ rules } = next) := by
  refine bind_eq_ok.trans (exists_congr fun fields => and_congr mapError_eq_ok ?_)
  by_cases hblank : isBlank fields = true
  · rw [if_pos hblank, hblank, and_iff_right rfl, or_iff_left fun h => Bool.noConfusion h.1]
    exact ⟨Except.ok.inj, congrArg Except.ok⟩
  · rw [if_neg hblank, ite_error_eq_ok, not_not, Bool.eq_false_iff.mpr hblank,
      or_iff_right fun h => Bool.noConfusion h.1, and_iff_right rfl]
    refine and_congr_right fun hlength => ?_
    simp only [doBind_eq_ok, parseEntity_eq_ok hlength]
    refine exists_congr fun entity => ⟨?_, ?_⟩
    · intro h
      obtain ⟨hentity, rules, hrules, hnext⟩ := h
      rw [hentity.primaryPrefix, rowRules_eq_ok hlength] at hrules
      exact ⟨rules, hentity, hrules, Except.ok.inj hnext⟩
    · intro h
      obtain ⟨rules, hentity, hrules, hnext⟩ := h
      rw [hentity.primaryPrefix]
      exact ⟨hentity, rules, (rowRules_eq_ok hlength).mpr hrules, congrArg Except.ok hnext⟩

/-- The records of a file add the entities and the rules of its rows behind what is there. -/
theorem foldlM_readRecord {records : List (Except String (List String))} {row : Nat}
    {database result : Database F} :
    (records.zipIdx row).foldlM
        (fun database entry => readRecord parseF64 database entry.2 entry.1) database = .ok result ↔
      (∀ record ∈ records, ∃ fields, record = .ok fields
        ∧ (isBlank fields = false → fields.length = 10))
      ∧ ∃ entities rules, { entities := database.entities ++ entities
                            rules := database.rules ++ rules } = result
        ∧ List.Forall₂ (EntityOf parseF64) (rows records) entities
        ∧ List.Forall₂ (fun token rule => Token.Denotes parseF64 token.1 token.2 rule)
          (fileTokens database.entities.length (rows records)) rules := by
  induction records generalizing row database with
  | nil =>
      constructor
      · intro h
        refine ⟨fun _ hmem => (List.not_mem_nil hmem).elim, [], [], ?_, .nil, .nil⟩
        rw [List.append_nil, List.append_nil]
        exact Except.ok.inj h
      · intro h
        obtain ⟨_, entities, rules, hresult, hentities, hrules⟩ := h
        cases hentities
        cases hrules
        rw [List.append_nil, List.append_nil] at hresult
        exact congrArg Except.ok hresult
  | cons record records ih =>
      rw [List.zipIdx_cons, List.foldlM_cons, doBind_eq_ok, List.forall_mem_cons]
      simp only [readRecord_eq_ok, ih]
      cases record with
      | error e =>
          refine iff_of_false (fun h => ?_) fun h => ?_
          · obtain ⟨_, ⟨_, hrecord, _⟩, _⟩ := h
            cases hrecord
          · obtain ⟨⟨_, hrecord, _⟩, _⟩ := h.1
            cases hrecord
      | ok fields =>
          simp only [Except.ok.injEq, exists_eq_left']
          cases hblank : isBlank fields with
          | true =>
              simp [rows_cons_blank hblank]
          | false =>
              rw [rows_cons hblank, fileTokens_cons]
              constructor
              · intro h
                obtain ⟨next, hread, hrest, entities, rules, hresult, hentities, hrules⟩ := h
                obtain ⟨hfalse, _⟩ | ⟨_, hlength, entity, first, hentity, hfirst, rfl⟩ := hread
                · cases hfalse
                · rw [List.length_append, List.length_singleton] at hrules
                  refine ⟨⟨fun _ => hlength, hrest⟩, entity :: entities,
                    first ++ rules, ?_, .cons hentity hentities,
                    forall₂_append_left_iff.mpr ⟨first, rules, rfl,
                      List.forall₂_map_left_iff.mpr hfirst, hrules⟩⟩
                  rw [← hresult, List.append_assoc, List.append_assoc]
                  rfl
              · intro h
                obtain ⟨⟨hlength, hrest⟩, entities, rules, hresult, hentities, hrules⟩ := h
                obtain ⟨entity, others, hentity, hothers, rfl⟩ :=
                  List.forall₂_cons_left_iff.mp hentities
                obtain ⟨first, last, rfl, hfirst, hlast⟩ := forall₂_append_left_iff.mp hrules
                refine ⟨_, Or.inr ⟨rfl, hlength rfl, entity, first, hentity,
                  List.forall₂_map_left_iff.mp hfirst, rfl⟩, hrest, others, last, ?_, hothers, ?_⟩
                · rw [← hresult, List.append_assoc, List.append_assoc]
                  rfl
                · rw [List.length_append, List.length_singleton]
                  exact hlast

/-- A CTY file is read exactly where each of its rows that is not blank has ten fields, numbers
where they belong and tokens of the grammar, and what is read is the database these rows
describe. -/
theorem fromRecords_eq_ok (records : List (Except String (List String))) (database : Database F) :
    fromRecords parseF64 records = .ok database ↔ Describes parseF64 records database := by
  rw [fromRecords, foldlM_readRecord]
  constructor
  · intro h
    obtain ⟨hreadable, entities, rules, rfl, hentities, hrules⟩ := h
    exact ⟨hreadable, hentities, hrules⟩
  · intro h
    exact ⟨h.readable, database.entities, database.rules, rfl, h.entities, h.rules⟩

/-- The rules of a file lead to its entities. -/
theorem Describes.entityIndex_lt {records : List (Except String (List String))}
    {database : Database F} (h : Describes parseF64 records database) {rule : Rule F}
    (hrule : rule ∈ database.rules) : rule.entityIndex < database.entities.length := by
  obtain ⟨token, htoken, t, _, _, _, rfl⟩ := exists_of_mem_right h.rules hrule
  rw [fileTokens, List.mem_flatMap] at htoken
  obtain ⟨⟨fields, index⟩, hindex, htoken⟩ := htoken
  obtain ⟨text, _, rfl⟩ := List.mem_map.mp htoken
  have hlength := h.entities.length_eq
  have hlt := List.snd_lt_of_mem_zipIdx hindex
  show index < database.entities.length
  omega

end Rows

section Lookups

/-- The coordinates of a file are finite. -/
def Database.toDxccDatabase (database : Database ℚ) : DxccDatabase where
  entities := database.entities.map fun e =>
    ⟨e.countryName, e.adif, e.cqZone, e.ituZone, e.continent, e.latitude, e.longitude,
      e.utcOffset, e.primaryPrefix, e.waedcCqList⟩
  rules := database.rules.map fun r =>
    ⟨r.pattern, r.exact, r.entityIndex, r.cqZone, r.ituZone, r.continent, r.latitude,
      r.longitude, r.utcOffset⟩

/-- No lookup in a database that was read misses the entity of a rule. -/
theorem Describes.infoForRule_isSome [Platform] {parseF64 : String → Option ℚ}
    {records : List (Except String (List String))} {database : Database ℚ}
    (h : Describes parseF64 records database) {rule : DxccRule}
    (hrule : rule ∈ database.toDxccDatabase.rules) :
    (database.toDxccDatabase.infoForRule rule).isSome := by
  obtain ⟨r, hr, rfl⟩ := List.mem_map.mp hrule
  have hlt := h.entityIndex_lt hr
  rw [DxccDatabase.infoForRule, Option.isSome_map, Database.toDxccDatabase,
    List.getElem?_map, Option.isSome_map, List.getElem?_eq_getElem hlt]
  rfl

end Lookups

end Log73.Cty
