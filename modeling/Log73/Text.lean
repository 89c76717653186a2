import Log73.Library.Trimming
import Mathlib.Algebra.Group.Nat.Defs
import Mathlib.Data.List.DropRight
import Mathlib.Data.Rat.Defs

/-!
Text and machine-number operations of the Rust standard library, as the backend
uses them. ASCII behaviour is exact; what depends on full Unicode tables or on
floating point is supplied by a `Platform`.
-/

namespace Log73

/-- Behaviour of the platform that the model does not compute: the uppercase
expansion of a character outside ASCII, the shortest decimal text of a double,
the finite double a text denotes, the haversine distance between two points given in
degrees, and the rounded hertz of a frequency given as a double or as the decimal text of
one. -/
class Platform where
  upper : Char → List Char
  floatText : ℚ → String
  parseFloat : String → Option ℚ
  haversineKilometers : ℚ × ℚ → ℚ × ℚ → ℚ
  floatFrequency : ℚ → Int
  textFrequency : String → Option Int

/-- Characters of a list are tried one after another, before all characters there are. -/
instance (priority := high) decidableForallMemChar (cs : List Char) (p : Char → Prop)
    [DecidablePred p] : Decidable (∀ c ∈ cs, p c) :=
  List.decidableBAll p cs

/-- A platform that knows ASCII only. -/
@[reducible] def asciiPlatform : Platform where
  upper c := [c]
  floatText _ := ""
  parseFloat _ := none
  haversineKilometers _ _ := 0
  floatFrequency _ := 0
  textFrequency _ := none

def i64Min : Int := -9223372036854775808
def i64Max : Int := 9223372036854775807
def u64Max : Int := 18446744073709551615
def usizeMax : Nat := 18446744073709551615

/-- How a sum on `usize` ends that does not fit. -/
inductive Build where
  | debug | release
  deriving DecidableEq

/-- `a + b` on `usize`: a debug build panics where a release build keeps the low bits. -/
def addUsize (build : Build) (a b : Nat) : Option Nat :=
  if a + b ≤ usizeMax then some (a + b)
  else
    match build with
    | .debug => none
    | .release => some (a + b - (usizeMax + 1))

/-- The Unicode `White_Space` property. -/
def isWhitespace (c : Char) : Bool :=
  let n := c.toNat
  (9 ≤ n && n ≤ 13) || n = 32 || n = 0x85 || n = 0xA0 || n = 0x1680
    || (0x2000 ≤ n && n ≤ 0x200A) || n = 0x2028 || n = 0x2029 || n = 0x202F
    || n = 0x205F || n = 0x3000

/-- The Unicode control category `Cc`. -/
def isControl (c : Char) : Bool :=
  c.toNat < 32 || (127 ≤ c.toNat && c.toNat ≤ 159)

def isAsciiDigit (c : Char) : Bool := '0' ≤ c && c ≤ '9'
def isAsciiUppercase (c : Char) : Bool := 'A' ≤ c && c ≤ 'Z'
def isAsciiLowercase (c : Char) : Bool := 'a' ≤ c && c ≤ 'z'
def isAsciiAlphabetic (c : Char) : Bool := isAsciiUppercase c || isAsciiLowercase c
def isAsciiAlphanumeric (c : Char) : Bool := isAsciiAlphabetic c || isAsciiDigit c

def trimChars (cs : List Char) : List Char :=
  ((cs.dropWhile isWhitespace).reverse.dropWhile isWhitespace).reverse

def trim (s : String) : String := String.ofList (trimChars s.toList)

def toAsciiUppercase (s : String) : String := String.ofList (s.toList.map Char.toUpper)

def toAsciiLowercase (s : String) : String := String.ofList (s.toList.map Char.toLower)

def eqIgnoreAsciiCase (a b : String) : Bool := toAsciiUppercase a == toAsciiUppercase b

def upperChar [Platform] (c : Char) : List Char :=
  if c.toNat < 128 then [c.toUpper] else Platform.upper c

def toUppercase [Platform] (s : String) : String :=
  String.ofList (s.toList.flatMap upperChar)

def startsWith (s start : String) : Bool := start.toList.isPrefixOf s.toList
def endsWith (s tail : String) : Bool := tail.toList.isSuffixOf s.toList

def stripPrefix (start s : String) : Option String :=
  if startsWith s start then some (String.ofList (s.toList.drop start.toList.length)) else none

def stripSuffix (tail s : String) : Option String :=
  if endsWith s tail then
    some (String.ofList (s.toList.take (s.toList.length - tail.toList.length)))
  else none

def contains (s part : String) : Bool := s.toList.tails.any part.toList.isPrefixOf

/-- `str::split_once` with a character. -/
def splitOnce (sep : Char) (s : String) : Option (String × String) :=
  if s.toList.contains sep then
    some (String.ofList (s.toList.takeWhile (· ≠ sep)),
      String.ofList ((s.toList.dropWhile (· ≠ sep)).drop 1))
  else none

/-- `char_indices` and `split` on one separator. -/
def splitOnChar (sep : Char) : List Char → List (List Char)
  | [] => [[]]
  | c :: cs =>
      match splitOnChar sep cs with
      | [] => [[c]]
      | part :: parts => if c = sep then [] :: part :: parts else (c :: part) :: parts

def joinWith (sep : String) (parts : List String) : String := sep.intercalate parts

def digitsValue (cs : List Char) : Nat :=
  cs.foldl (fun n c => 10 * n + (c.toNat - 48)) 0

/-- A nonempty run of ASCII digits. -/
def parseDigits (cs : List Char) : Option Nat :=
  if cs.isEmpty || !cs.all isAsciiDigit then none else some (digitsValue cs)

/-- `str::parse` for a signed type with the given range. -/
def parseSigned (low high : Int) (s : String) : Option Int :=
  let magnitude : Option Int :=
    match s.toList with
    | '-' :: cs => (parseDigits cs).map fun n => -(n : Int)
    | '+' :: cs => (parseDigits cs).map Int.ofNat
    | cs => (parseDigits cs).map Int.ofNat
  magnitude.filter fun value => low ≤ value && value ≤ high

/-- `str::parse` for an unsigned type with the given bound. -/
def parseUnsigned (high : Nat) (s : String) : Option Nat :=
  let magnitude :=
    match s.toList with
    | '+' :: cs => parseDigits cs
    | cs => parseDigits cs
  magnitude.filter (· ≤ high)

def parseI64 (s : String) : Option Int := parseSigned i64Min i64Max s
def parseU16 (s : String) : Option Nat := parseUnsigned 65535 s
def parseUsize (s : String) : Option Nat := parseUnsigned 18446744073709551615 s

/-- `value as i64` for an unsigned 64-bit value. -/
def wrapI64 (value : Int) : Int :=
  if i64Max < value then value - (u64Max + 1) else value

theorem isAsciiDigit_iff (c : Char) : isAsciiDigit c = true ↔ 48 ≤ c.toNat ∧ c.toNat ≤ 57 := by
  rw [isAsciiDigit, Bool.and_eq_true, decide_eq_true_eq, decide_eq_true_eq]
  exact and_congr UInt32.le_iff_toNat_le UInt32.le_iff_toNat_le

theorem isAsciiDigit_of_mem_toDigits {n : Nat} {c : Char} (h : c ∈ Nat.toDigits 10 n) :
    isAsciiDigit c = true := by
  have hdigit := Nat.isDigit_of_mem_toDigits (by decide) (by decide) h
  rw [Char.isDigit] at hdigit
  simpa [isAsciiDigit, Char.le_def] using hdigit

theorem mem_toString_int {value : Int} {c : Char} (h : c ∈ (toString value).toList) :
    c = '-' ∨ isAsciiDigit c = true := by
  have hrepr {n : Nat} (hc : c ∈ n.repr.toList) : isAsciiDigit c = true := by
    rw [Nat.toList_repr] at hc
    exact isAsciiDigit_of_mem_toDigits hc
  change c ∈ value.repr.toList at h
  rw [Int.repr_eq_if] at h
  split at h
  · exact Or.inr (hrepr h)
  · rw [String.toList_append, List.mem_append] at h
    cases h with
    | inl hsign => exact Or.inl (by simpa using hsign)
    | inr hdigits => exact Or.inr (hrepr hdigits)

/-- A printed number is read back. -/
theorem parseDigits_repr (n : Nat) : parseDigits n.repr.toList = some n := by
  have hvalue : digitsValue (Nat.toDigits 10 n) = n := Nat.ofDigitChars_ten_toDigits
  rw [Nat.toList_repr, parseDigits, if_neg, hvalue]
  simp only [Bool.or_eq_true, Bool.not_eq_true', List.isEmpty_iff, List.all_eq_false, not_or,
    not_exists, not_and, not_not]
  exact ⟨Nat.toDigits_ne_nil, fun c hmem => isAsciiDigit_of_mem_toDigits hmem⟩

theorem parseUsize_repr (n : Nat) (h : n ≤ 18446744073709551615) : parseUsize n.repr = some n := by
  have hparse : parseUnsigned 18446744073709551615 n.repr =
      (parseDigits n.repr.toList).filter (· ≤ 18446744073709551615) := by
    rw [parseUnsigned]
    split
    · next cs hplus =>
        have hmem : '+' ∈ Nat.toDigits 10 n := by
          rw [← Nat.toList_repr, hplus]
          exact List.mem_cons_self
        have := isAsciiDigit_of_mem_toDigits hmem
        exact absurd this (by decide)
    · rfl
  rw [parseUsize, hparse, parseDigits_repr]
  simp [h]

theorem splitOnChar_eq_singleton {sep : Char} {cs : List Char} (h : sep ∉ cs) :
    splitOnChar sep cs = [cs] := by
  induction cs with
  | nil => rfl
  | cons c cs ih =>
      rw [List.mem_cons, not_or] at h
      rw [splitOnChar, ih h.2]
      exact if_neg (Ne.symm h.1)

theorem splitOnChar_ne_nil (sep : Char) (cs : List Char) : splitOnChar sep cs ≠ [] := by
  cases cs with
  | nil => exact List.cons_ne_nil _ _
  | cons c cs =>
      rw [splitOnChar]
      split
      · exact List.cons_ne_nil _ _
      · split
        · exact List.cons_ne_nil _ _
        · exact List.cons_ne_nil _ _

theorem splitOnChar_append {sep : Char} {front : List Char} (h : sep ∉ front) (back : List Char) :
    splitOnChar sep (front ++ sep :: back) = front :: splitOnChar sep back := by
  induction front with
  | nil =>
      rw [List.nil_append, splitOnChar]
      cases hback : splitOnChar sep back with
      | nil => exact absurd hback (splitOnChar_ne_nil sep back)
      | cons part parts => exact if_pos rfl
  | cons c front ih =>
      rw [List.mem_cons, not_or] at h
      rw [List.cons_append, splitOnChar, ih h.2]
      exact if_neg (Ne.symm h.1)

theorem mem_joinWith {sep : String} {c : Char} (hsep : c ∉ sep.toList) {parts : List String} :
    c ∈ (joinWith sep parts).toList ↔ ∃ part ∈ parts, c ∈ part.toList := by
  induction parts with
  | nil => simp [joinWith]
  | cons part parts ih =>
      cases parts with
      | nil => simp [joinWith]
      | cons next parts =>
          rw [joinWith, String.intercalate_cons_cons, ← joinWith, String.toList_append,
            String.toList_append, List.mem_append, List.mem_append, ih, or_iff_left hsep]
          simp

theorem dropWhile_trimChars (cs : List Char) :
    (trimChars cs).dropWhile isWhitespace = trimChars cs :=
  Trimming.dropWhile_trimWith cs

theorem trimChars_trimChars (cs : List Char) : trimChars (trimChars cs) = trimChars cs :=
  Trimming.trimWith_trimWith cs

theorem isWhitespace_head_trimChars {cs : List Char} {c : Char}
    (h : (trimChars cs).head? = some c) : isWhitespace c = false := by
  have hhead := List.head?_dropWhile_not isWhitespace (trimChars cs)
  rw [dropWhile_trimChars, h] at hhead
  exact hhead

theorem isWhitespace_last_trimChars {cs : List Char} {c : Char}
    (h : (trimChars cs).getLast? = some c) : isWhitespace c = false := by
  have hhead := List.head?_dropWhile_not isWhitespace (cs.dropWhile isWhitespace).reverse
  rw [trimChars, List.getLast?_reverse] at h
  rw [h] at hhead
  exact hhead

/-- Text that starts and ends with no white space is trimmed already. -/
theorem trimChars_of_edges {cs : List Char} (hhead : ∀ c ∈ cs.head?, isWhitespace c = false)
    (hlast : ∀ c ∈ cs.getLast?, isWhitespace c = false) : trimChars cs = cs := by
  have hdrop {cs : List Char} (h : ∀ c ∈ cs.head?, isWhitespace c = false) :
      cs.dropWhile isWhitespace = cs := by
    cases cs with
    | nil => rfl
    | cons c cs => rw [List.dropWhile_cons, h c rfl, if_neg Bool.false_ne_true]
  rw [trimChars, hdrop hhead, hdrop, List.reverse_reverse]
  rw [List.head?_reverse]
  exact hlast

theorem trimChars_eq_self {cs : List Char} (h : ∀ c ∈ cs, isWhitespace c = false) :
    trimChars cs = cs :=
  trimChars_of_edges (fun c hc => h c (List.mem_of_head? hc))
    fun c hc => h c (List.mem_of_getLast? hc)

theorem trimChars_eq_nil {cs : List Char} :
    trimChars cs = [] ↔ ∀ c ∈ cs, isWhitespace c = true := by
  have htrim : trimChars cs = (cs.dropWhile isWhitespace).rdropWhile isWhitespace := rfl
  rw [htrim, List.rdropWhile_eq_nil_iff]
  constructor
  · intro h
    have hnil : cs.dropWhile isWhitespace = [] := by
      cases hdrop : cs.dropWhile isWhitespace with
      | nil => rfl
      | cons c rest =>
          have hhead := List.head?_dropWhile_not isWhitespace cs
          rw [hdrop] at hhead h
          exact absurd (h c List.mem_cons_self) (Bool.eq_false_iff.mp hhead)
    exact List.dropWhile_eq_nil_iff.mp hnil
  · intro h c hc
    exact h c (List.dropWhile_subset _ hc)

theorem trim_eq_empty {s : String} : trim s = "" ↔ ∀ c ∈ s.toList, isWhitespace c = true := by
  rw [trim, ← trimChars_eq_nil]
  exact ⟨fun h => by simpa using congrArg String.toList h, fun h => by rw [h]⟩

theorem stripPrefix_eq_some {start s rest : String} :
    stripPrefix start s = some rest ↔ s.toList = start.toList ++ rest.toList := by
  rw [stripPrefix, startsWith]
  constructor
  · intro h
    split at h
    · next hstart =>
        obtain ⟨tail, htail⟩ := List.isPrefixOf_iff_prefix.mp hstart
        obtain rfl := Option.some.inj h
        rw [String.toList_ofList, ← htail, List.drop_left]
    · cases h
  · intro h
    rw [if_pos (List.isPrefixOf_iff_prefix.mpr ⟨rest.toList, h.symm⟩), h, List.drop_left,
      String.ofList_toList]

theorem stripSuffix_eq_some {tail s rest : String} :
    stripSuffix tail s = some rest ↔ s.toList = rest.toList ++ tail.toList := by
  rw [stripSuffix, endsWith]
  constructor
  · intro h
    split at h
    · next htail =>
        obtain ⟨front, hfront⟩ := List.isSuffixOf_iff_suffix.mp htail
        obtain rfl := Option.some.inj h
        rw [String.toList_ofList, ← hfront, List.length_append, Nat.add_sub_cancel, List.take_left]
    · cases h
  · intro h
    rw [if_pos (List.isSuffixOf_iff_suffix.mpr ⟨rest.toList, h.symm⟩), h, List.length_append,
      Nat.add_sub_cancel, List.take_left, String.ofList_toList]

theorem splitOnce_append {sep : Char} {front : List Char} (h : sep ∉ front) (back : List Char) :
    splitOnce sep (String.ofList (front ++ sep :: back)) =
      some (String.ofList front, String.ofList back) := by
  have hfront : ∀ c ∈ front, decide (c ≠ sep) = true := fun c hmem =>
    decide_eq_true fun heq => h (heq ▸ hmem)
  rw [splitOnce, String.toList_ofList, if_pos (by simp), List.takeWhile_append_of_pos hfront,
    List.dropWhile_append_of_pos hfront]
  simp

theorem splitOnce_eq_none {sep : Char} {cs : List Char} (h : sep ∉ cs) :
    splitOnce sep (String.ofList cs) = none := by
  rw [splitOnce, String.toList_ofList, if_neg (by simpa using h)]

theorem dropWhile_append_left {p : Char → Bool} {blank : List Char} (h : ∀ c ∈ blank, p c = true)
    (cs : List Char) : (blank ++ cs).dropWhile p = cs.dropWhile p := by
  induction blank with
  | nil => rfl
  | cons c blank ih =>
      rw [List.cons_append, List.dropWhile_cons, if_pos (h c List.mem_cons_self)]
      exact ih fun d hd => h d (List.mem_cons_of_mem c hd)

theorem trimChars_append_left {blank : List Char} (h : ∀ c ∈ blank, isWhitespace c = true)
    (cs : List Char) : trimChars (blank ++ cs) = trimChars cs := by
  rw [trimChars, dropWhile_append_left h, trimChars]

theorem trimChars_append_right {blank : List Char} (h : ∀ c ∈ blank, isWhitespace c = true)
    (cs : List Char) : trimChars (cs ++ blank) = trimChars cs := by
  rw [trimChars, trimChars, List.dropWhile_append]
  split
  · next hempty =>
      have hblank : blank.dropWhile isWhitespace = [] := List.dropWhile_eq_nil_iff.mpr h
      rw [hblank, List.isEmpty_iff.mp hempty]
  · rw [List.reverse_append, dropWhile_append_left]
    exact fun c hc => h c (List.mem_reverse.mp hc)

/-- What is trimmed off a text stands around what is left of it. -/
theorem exists_trimChars (cs : List Char) :
    ∃ front back, (∀ c ∈ front, isWhitespace c = true) ∧ (∀ c ∈ back, isWhitespace c = true)
      ∧ cs = front ++ (trimChars cs ++ back) := by
  refine ⟨cs.takeWhile isWhitespace,
    ((cs.dropWhile isWhitespace).reverse.takeWhile isWhitespace).reverse,
    fun c hc => List.mem_takeWhile_imp hc,
    fun c hc => List.mem_takeWhile_imp (List.mem_reverse.mp hc), ?_⟩
  rw [trimChars, ← List.reverse_append, List.takeWhile_append_dropWhile, List.reverse_reverse,
    List.takeWhile_append_dropWhile]

theorem dropWhile_append_cons {p : Char → Bool} {c : Char} (hc : p c = false) (cs ds : List Char) :
    (cs ++ c :: ds).dropWhile p = cs.dropWhile p ++ c :: ds := by
  induction cs with
  | nil => exact List.dropWhile_cons_of_neg (by simp [hc])
  | cons d cs ih =>
      rw [List.cons_append, List.dropWhile_cons, List.dropWhile_cons, ih]
      split
      · rfl
      · rfl

/-- A character that is not white space keeps what is trimmed on its two sides apart. -/
theorem trimChars_append_cons {c : Char} (hc : isWhitespace c = false) (cs ds : List Char) :
    trimChars (cs ++ c :: ds) =
      cs.dropWhile isWhitespace ++ c :: (ds.reverse.dropWhile isWhitespace).reverse := by
  rw [trimChars, dropWhile_append_cons hc, List.reverse_append, List.reverse_cons,
    List.append_assoc, List.singleton_append, dropWhile_append_cons hc]
  simp

theorem trimChars_dropWhile (cs : List Char) :
    trimChars (cs.dropWhile isWhitespace) = trimChars cs := by
  rw [trimChars, List.dropWhile_idempotent, trimChars]

theorem trimChars_reverse_dropWhile (cs : List Char) :
    trimChars (cs.reverse.dropWhile isWhitespace).reverse = trimChars cs := by
  have hback : ∀ c ∈ (cs.reverse.takeWhile isWhitespace).reverse, isWhitespace c = true :=
    fun c hc => List.mem_takeWhile_imp (List.mem_reverse.mp hc)
  rw [← trimChars_append_right hback, ← List.reverse_append, List.takeWhile_append_dropWhile,
    List.reverse_reverse]

theorem isWhitespace_of_printable {c : Char} (hlow : 33 ≤ c.toNat) (hhigh : c.toNat ≤ 126) :
    isWhitespace c = false := by
  simp only [isWhitespace, Bool.or_eq_false_iff, Bool.and_eq_false_iff, decide_eq_false_iff_not]
  omega

theorem toNat_toUpper (c : Char) :
    c.toUpper.toNat = if 97 ≤ c.toNat ∧ c.toNat ≤ 122 then c.toNat - 32 else c.toNat := by
  have hcode : ('a'.val ≤ c.val ∧ c.val ≤ 'z'.val) ↔ 97 ≤ c.toNat ∧ c.toNat ≤ 122 :=
    and_congr UInt32.le_iff_toNat_le UInt32.le_iff_toNat_le
  unfold Char.toUpper
  split
  · next hlower =>
      rw [if_pos (hcode.mp hlower)]
      have hrange := hcode.mp hlower
      have hsum : (c.val + ('A'.val - 'a'.val)).toNat = (c.toNat + 4294967264) % 4294967296 :=
        UInt32.toNat_add _ _
      rw [Char.toNat, hsum]
      omega
  · next hupper => rw [if_neg fun h => hupper (hcode.mpr h)]

theorem isWhitespace_toUpper (c : Char) : isWhitespace c.toUpper = isWhitespace c := by
  rw [Bool.eq_iff_iff]
  simp only [isWhitespace, toNat_toUpper, Bool.or_eq_true, Bool.and_eq_true, decide_eq_true_eq]
  split <;> omega

theorem toUpper_toUpper (c : Char) : c.toUpper.toUpper = c.toUpper := by
  apply Char.toNat_inj.mp
  rw [toNat_toUpper c.toUpper, toNat_toUpper c]
  by_cases h : 97 ≤ c.toNat ∧ c.toNat ≤ 122
  · rw [if_pos h]
    split <;> omega
  · rw [if_neg h, if_neg h]

theorem toNat_toLower (c : Char) :
    c.toLower.toNat = if 65 ≤ c.toNat ∧ c.toNat ≤ 90 then c.toNat + 32 else c.toNat := by
  have hcode : ('A'.val ≤ c.val ∧ c.val ≤ 'Z'.val) ↔ 65 ≤ c.toNat ∧ c.toNat ≤ 90 :=
    and_congr UInt32.le_iff_toNat_le UInt32.le_iff_toNat_le
  unfold Char.toLower
  split
  · next hupper =>
      rw [if_pos (hcode.mp hupper)]
      have hrange := hcode.mp hupper
      have hsum : (c.val + ('a'.val - 'A'.val)).toNat = (c.toNat + 32) % 4294967296 :=
        UInt32.toNat_add _ _
      rw [Char.toNat, hsum]
      omega
  · next hlower => rw [if_neg fun h => hlower (hcode.mpr h)]

theorem toUpper_toLower (c : Char) : c.toLower.toUpper = c.toUpper := by
  apply Char.toNat_inj.mp
  rw [toNat_toUpper, toNat_toUpper, toNat_toLower]
  by_cases h : 65 ≤ c.toNat ∧ c.toNat ≤ 90
  · rw [if_pos h]
    split <;> split <;> omega
  · rw [if_neg h]

theorem toLower_toUpper (c : Char) : c.toUpper.toLower = c.toLower := by
  apply Char.toNat_inj.mp
  rw [toNat_toLower, toNat_toLower, toNat_toUpper]
  by_cases h : 97 ≤ c.toNat ∧ c.toNat ≤ 122
  · rw [if_pos h]
    split <;> split <;> omega
  · rw [if_neg h]

/-- Comparison without case, by lowercase text. -/
theorem eqIgnoreAsciiCase_iff (a b : String) :
    eqIgnoreAsciiCase a b = true ↔ toAsciiLowercase a = toAsciiLowercase b := by
  have hlower : ∀ s : String, toAsciiLowercase (toAsciiUppercase s) = toAsciiLowercase s := by
    intro s
    rw [toAsciiLowercase, toAsciiLowercase, toAsciiUppercase, String.toList_ofList, List.map_map]
    congr 1
    exact List.map_congr_left fun c _ => toLower_toUpper c
  have hupper : ∀ s : String, toAsciiUppercase (toAsciiLowercase s) = toAsciiUppercase s := by
    intro s
    rw [toAsciiUppercase, toAsciiUppercase, toAsciiLowercase, String.toList_ofList, List.map_map]
    congr 1
    exact List.map_congr_left fun c _ => toUpper_toLower c
  rw [eqIgnoreAsciiCase, beq_iff_eq]
  constructor
  · intro heq
    rw [← hlower a, heq, hlower]
  · intro heq
    rw [← hupper a, heq, hupper]
theorem trimChars_map_toUpper (cs : List Char) :
    trimChars (cs.map Char.toUpper) = (trimChars cs).map Char.toUpper := by
  have hfun : isWhitespace ∘ Char.toUpper = isWhitespace := funext isWhitespace_toUpper
  rw [trimChars, trimChars, List.dropWhile_map, hfun, ← List.map_reverse, List.dropWhile_map, hfun,
    List.map_reverse]

/-- Names that are trimmed and in uppercase stay as they are. -/
theorem toAsciiUppercase_trim_idem (s : String) :
    toAsciiUppercase (trim (toAsciiUppercase (trim s))) = toAsciiUppercase (trim s) := by
  simp only [toAsciiUppercase, trim, String.toList_ofList, trimChars_map_toUpper,
    trimChars_trimChars, List.map_map]
  congr 1
  exact List.map_congr_left fun c _ => toUpper_toUpper c

theorem toAsciiUppercase_idem (s : String) :
    toAsciiUppercase (toAsciiUppercase s) = toAsciiUppercase s := by
  rw [toAsciiUppercase, toAsciiUppercase, String.toList_ofList, List.map_map]
  congr 1
  exact List.map_congr_left fun c _ => toUpper_toUpper c

theorem parseI64_range (s : String) (value : Int) (h : parseI64 s = some value) :
    i64Min ≤ value ∧ value ≤ i64Max := by
  simp only [parseI64, parseSigned, Option.filter_eq_some_iff, Bool.and_eq_true,
    decide_eq_true_eq] at h
  exact h.2

end Log73
