import Log73.Callsign
import Log73.Json

/-!
Text operations of JavaScript, as the frontend uses them. A string is a sequence of
characters; its length and its indices count UTF-16 code units.
-/

namespace Log73.Frontend

/-- Behaviour of the browser that the model does not compute: the text of a number
that is no safe integer. -/
class Browser where
  numberText : Number → String

/-- A browser that prints an integer as it is. -/
@[reducible] def plainBrowser : Browser where
  numberText
    | .int value => toString value
    | .float _ => ""

/-- White space and line terminators of ECMAScript. -/
def isWhitespace (c : Char) : Bool :=
  let n := c.toNat
  (9 ≤ n && n ≤ 13) || n = 32 || n = 0xA0 || n = 0xFEFF || n = 0x1680
    || (0x2000 ≤ n && n ≤ 0x200A) || n = 0x2028 || n = 0x2029 || n = 0x202F
    || n = 0x205F || n = 0x3000

def trimChars (cs : List Char) : List Char :=
  ((cs.dropWhile isWhitespace).reverse.dropWhile isWhitespace).reverse

def trim (s : String) : String := String.ofList (trimChars s.toList)

/-- `toUpperCase`, which maps each character as the backend does. -/
def toUpperCase [Platform] (s : String) : String := toUppercase s

/-- The UTF-16 code units of a character. -/
def codeUnits (c : Char) : List Nat :=
  if c.toNat < 65536 then [c.toNat]
  else [0xD800 + (c.toNat - 65536) / 1024, 0xDC00 + (c.toNat - 65536) % 1024]

def units (cs : List Char) : List Nat := cs.flatMap codeUnits

/-- The `length` of a string. -/
def length (s : String) : Nat := (units s.toList).length

/-- White space of ASCII and of most of Unicode is the same on both sides. -/
theorem isWhitespace_eq {c : Char} (h : c.toNat ≠ 0x85 ∧ c.toNat ≠ 0xFEFF) :
    isWhitespace c = Log73.isWhitespace c := by
  rw [Bool.eq_iff_iff]
  simp only [isWhitespace, Log73.isWhitespace, Bool.or_eq_true, Bool.and_eq_true,
    decide_eq_true_eq]
  omega

theorem dropWhile_isWhitespace {cs : List Char}
    (h : ∀ c ∈ cs, c.toNat ≠ 0x85 ∧ c.toNat ≠ 0xFEFF) :
    cs.dropWhile isWhitespace = cs.dropWhile Log73.isWhitespace := by
  induction cs with
  | nil => rfl
  | cons c cs ih =>
      rw [List.dropWhile_cons, List.dropWhile_cons, isWhitespace_eq (h c List.mem_cons_self),
        ih fun d hd => h d (List.mem_cons_of_mem c hd)]

/-- Text without the two characters the sides disagree on is trimmed alike. -/
theorem trimChars_eq {cs : List Char} (h : ∀ c ∈ cs, c.toNat ≠ 0x85 ∧ c.toNat ≠ 0xFEFF) :
    trimChars cs = Log73.trimChars cs := by
  rw [trimChars, Log73.trimChars, dropWhile_isWhitespace h, dropWhile_isWhitespace]
  intro c hmem
  exact h c ((List.dropWhile_suffix _).subset (List.mem_reverse.mp hmem))

theorem trim_eq {s : String} (h : ∀ c ∈ s.toList, c.toNat ≠ 0x85 ∧ c.toNat ≠ 0xFEFF) :
    trim s = Log73.trim s := by
  rw [trim, Log73.trim, trimChars_eq h]

/-- Text without the two characters that only one side takes for white space. -/
def Plain (s : String) : Prop := ∀ c ∈ s.toList, c.toNat ≠ 0x85 ∧ c.toNat ≠ 0xFEFF

/-- Plain text of the basic plane, whose characters are code units. -/
def Basic (s : String) : Prop := Plain s ∧ ∀ c ∈ s.toList, c.toNat < 65536

instance (s : String) : Decidable (Plain s) := inferInstanceAs (Decidable (∀ c ∈ _, _))

/-- Only the ends of a text tell the two trims apart. -/
def TrimsAlike (cs : List Char) : Prop := Trimming.EdgesAlike isWhitespace Log73.isWhitespace cs

theorem TrimsAlike.trim_eq {s : String} (h : TrimsAlike s.toList) : trim s = Log73.trim s :=
  congrArg String.ofList h.trimWith_eq

theorem Plain.trimsAlike {s : String} (h : Plain s) : TrimsAlike s.toList := by
  intro a ha
  apply isWhitespace_eq
  cases ha with
  | inl hfront => exact h a (List.mem_of_find?_eq_some hfront)
  | inr hback => exact h a (List.mem_reverse.mp (List.mem_of_find?_eq_some hback))

/-- What Unicode promises of the uppercase expansion of a character outside ASCII:
it is not empty and in uppercase, it stays in the basic plane, and what either side
trims is the uppercase of itself only. -/
def UppercaseLaw [Platform] : Prop :=
  ∀ c : Char, 128 ≤ c.toNat → Platform.upper c ≠ [] ∧ ∀ d ∈ Platform.upper c,
    upperChar d = [d] ∧ (c.toNat < 65536 → d.toNat < 65536)
      ∧ (Log73.isWhitespace d = true ∨ d.toNat = 0xFEFF → d = c)

theorem isAsciiLowercase_iff (c : Char) :
    isAsciiLowercase c = true ↔ 97 ≤ c.toNat ∧ c.toNat ≤ 122 := by
  rw [isAsciiLowercase, Bool.and_eq_true, decide_eq_true_eq, decide_eq_true_eq]
  exact and_congr UInt32.le_iff_toNat_le UInt32.le_iff_toNat_le

theorem isAsciiLowercase_toUpper (c : Char) : isAsciiLowercase c.toUpper = false := by
  rw [Bool.eq_false_iff, Ne, isAsciiLowercase_iff, toNat_toUpper]
  split <;> omega

theorem eq_of_edge_toUpper {c : Char}
    (h : Log73.isWhitespace c.toUpper = true ∨ c.toUpper.toNat = 0xFEFF) : c.toUpper = c := by
  by_cases hlower : 97 ≤ c.toNat ∧ c.toNat ≤ 122
  · have hspace : ¬ Log73.isWhitespace c = true := by
      simp only [Log73.isWhitespace, Bool.or_eq_true, Bool.and_eq_true, decide_eq_true_eq]
      omega
    cases h with
    | inl h => exact absurd (isWhitespace_toUpper c ▸ h) hspace
    | inr h =>
        rw [toNat_toUpper, if_pos hlower] at h
        omega
  · apply Char.toNat_inj.mp
    rw [toNat_toUpper, if_neg hlower]

theorem upperChar_spec [Platform] (law : UppercaseLaw) (c : Char) :
    upperChar c ≠ [] ∧ ∀ d ∈ upperChar c, upperChar d = [d]
      ∧ (c.toNat < 65536 → d.toNat < 65536)
      ∧ (Log73.isWhitespace d = true ∨ d.toNat = 0xFEFF → d = c) := by
  rw [upperChar]
  split
  · refine ⟨List.cons_ne_nil _ _, fun d hd => ?_⟩
    rw [List.mem_singleton.mp hd]
    have hcode : c.toUpper.toNat < 128 := by
      rw [toNat_toUpper]
      split <;> omega
    exact ⟨by rw [upperChar, if_pos hcode, toUpper_toUpper], fun _ => hcode.trans (by decide),
      eq_of_edge_toUpper⟩
  · next h => exact law c (by omega)

theorem mem_of_mem_trim {s : String} {c : Char} (h : c ∈ (Log73.trim s).toList) :
    c ∈ s.toList := by
  rw [Log73.trim, String.toList_ofList] at h
  have hdrop := (List.dropWhile_suffix _).subset (List.mem_reverse.mp h)
  exact (List.dropWhile_suffix _).subset (List.mem_reverse.mp hdrop)

theorem Plain.trim {s : String} (h : Plain s) : Plain (Log73.trim s) :=
  fun c hmem => h c (mem_of_mem_trim hmem)

/-- A character that is its own uppercase is no lowercase letter of ASCII. -/
theorem isAsciiLowercase_of_upperChar [Platform] {d : Char} (h : upperChar d = [d]) :
    isAsciiLowercase d = false := by
  rw [upperChar] at h
  split at h
  · have heq : d.toUpper = d := (List.cons_eq_cons.mp h).1
    exact heq ▸ isAsciiLowercase_toUpper d
  · next hcode =>
      rw [Bool.eq_false_iff, Ne, isAsciiLowercase_iff]
      omega

theorem toUppercase_idem [Platform] (law : UppercaseLaw) (s : String) :
    Log73.toUppercase (Log73.toUppercase s) = Log73.toUppercase s := by
  rw [Log73.toUppercase, Log73.toUppercase, String.toList_ofList, List.flatMap_assoc]
  congr 1
  refine List.flatMap_congr fun c _ => ?_
  have hself : ∀ d ∈ upperChar c, upperChar d = [d] := fun d hd =>
    ((upperChar_spec law c).2 d hd).1
  rw [List.flatMap_congr hself, List.flatMap_singleton']

/-- Uppercase text has no letter left for ASCII. -/
theorem toAsciiUppercase_toUppercase [Platform] (law : UppercaseLaw) (s : String) :
    toAsciiUppercase (Log73.toUppercase s) = Log73.toUppercase s := by
  rw [toAsciiUppercase, Log73.toUppercase, String.toList_ofList]
  congr 1
  rw [List.map_congr_left (g := id), List.map_id]
  intro d hd
  obtain ⟨c, -, hc⟩ := List.mem_flatMap.mp hd
  have hlower := isAsciiLowercase_of_upperChar ((upperChar_spec law c).2 d hc).1
  rw [Bool.eq_false_iff, Ne, isAsciiLowercase_iff] at hlower
  apply Char.toNat_inj.mp
  rw [toNat_toUpper, if_neg hlower]
  rfl

theorem toUppercase_eq_empty [Platform] (law : UppercaseLaw) {s : String} :
    Log73.toUppercase s = "" ↔ s = "" := by
  constructor
  · intro h
    have hlist := congrArg String.toList h
    rw [Log73.toUppercase, String.toList_ofList] at hlist
    cases hs : s.toList with
    | nil => exact String.toList_eq_nil_iff.mp hs
    | cons c cs =>
        rw [hs, List.flatMap_cons] at hlist
        exact absurd (List.append_eq_nil_iff.mp hlist).1 (upperChar_spec law c).1
  · intro h
    rw [h]
    rfl

theorem Plain.toUppercase [Platform] (law : UppercaseLaw) {s : String} (h : Plain s) :
    Plain (toUppercase s) := by
  intro d hmem
  rw [Log73.toUppercase, String.toList_ofList, List.mem_flatMap] at hmem
  obtain ⟨c, hc, hd⟩ := hmem
  have hedge := ((upperChar_spec law c).2 d hd).2.2
  constructor
  · intro heq
    have hspace : Log73.isWhitespace d = true := by simp [Log73.isWhitespace, heq]
    exact (h c hc).1 (hedge (Or.inl hspace) ▸ heq)
  · intro heq
    exact (h c hc).2 (hedge (Or.inr heq) ▸ heq)

theorem Basic.trim {s : String} (h : Basic s) : Basic (Log73.trim s) :=
  ⟨h.1.trim, fun c hmem => h.2 c (mem_of_mem_trim hmem)⟩

theorem Basic.toUppercase [Platform] (law : UppercaseLaw) {s : String} (h : Basic s) :
    Basic (toUppercase s) := by
  refine ⟨h.1.toUppercase law, fun d hmem => ?_⟩
  rw [Log73.toUppercase, String.toList_ofList, List.mem_flatMap] at hmem
  obtain ⟨c, hc, hd⟩ := hmem
  exact ((upperChar_spec law c).2 d hd).2.1 (h.2 c hc)

theorem Basic.of_ascii {s : String} (h : ∀ c ∈ s.toList, c.toNat < 128) : Basic s := by
  refine ⟨fun c hmem => ?_, fun c hmem => ?_⟩ <;> have := h c hmem <;> omega

def Ascii (s : String) : Prop := ∀ c ∈ s.toList, c.toNat < 128

instance (s : String) : Decidable (Ascii s) := inferInstanceAs (Decidable (∀ c ∈ _, _))

theorem Ascii.trim {s : String} (h : Ascii s) : Ascii (Log73.trim s) :=
  fun c hmem => h c (mem_of_mem_trim hmem)

theorem toUppercase_ascii [Platform] {s : String} (h : Ascii s) :
    toUppercase s = toAsciiUppercase s := by
  rw [toUppercase, toAsciiUppercase, ← List.flatMap_singleton' (s.toList.map _),
    List.flatMap_map]
  congr 1
  exact List.flatMap_congr fun c hmem => if_pos (h c hmem)

theorem length_codeUnits_pos (c : Char) : 0 < (codeUnits c).length := by
  rw [codeUnits]
  split
  · exact Nat.one_pos
  · exact Nat.two_pos

theorem units_append (as bs : List Char) : units (as ++ bs) = units as ++ units bs :=
  List.flatMap_append

theorem units_basic {cs : List Char} (h : ∀ c ∈ cs, c.toNat < 65536) :
    units cs = cs.map Char.toNat := by
  induction cs with
  | nil => rfl
  | cons c cs ih =>
      have hc : codeUnits c = [c.toNat] := if_pos (h c List.mem_cons_self)
      rw [units, List.flatMap_cons, hc, ← units, ih fun d hd => h d (List.mem_cons_of_mem c hd)]
      rfl

theorem units_length {cs : List Char} (h : ∀ c ∈ cs, c.toNat < 65536) :
    (units cs).length = cs.length := by
  rw [units_basic h, List.length_map]

end Log73.Frontend

namespace Log73

attribute [local instance] asciiPlatform

namespace Frontend

theorem uppercaseLaw_ascii : UppercaseLaw := by
  intro c hc
  refine ⟨List.cons_ne_nil _ _, fun d hd => ?_⟩
  rw [List.mem_singleton.mp hd]
  exact ⟨if_neg (by omega), id, fun _ => rfl⟩

end Frontend

end Log73
