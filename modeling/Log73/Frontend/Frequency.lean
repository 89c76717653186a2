import Mathlib.Algebra.Order.Round
import Mathlib.Data.Rat.Floor
import Log73.Frontend.Outbox

/-!
Frequencies of the logger (`mainWindowHelpers.js`, `loggerScreenHelpers.js`), with decimal
arithmetic that is exact.
-/

namespace Log73.Frontend

/-- The exponent that follows the digits of a number, if there is one. -/
def parseExponent : List Char → Int
  | [] => 0
  | c :: cs =>
      if c = 'e' ∨ c = 'E' then
        match cs with
        | '-' :: cs => -(digitsValue (cs.takeWhile isAsciiDigit) : Int)
        | '+' :: cs => (digitsValue (cs.takeWhile isAsciiDigit) : Int)
        | cs => (digitsValue (cs.takeWhile isAsciiDigit) : Int)
      else 0

/-- The number at the start of a text without a sign; `Infinity` is none that is finite. -/
def unsignedDecimal (cs : List Char) : Option ℚ :=
  let digits := cs.takeWhile isAsciiDigit
  let afterDigits := cs.dropWhile isAsciiDigit
  let fraction :=
    match afterDigits with
    | '.' :: cs => cs.takeWhile isAsciiDigit
    | _ => []
  let afterFraction :=
    match afterDigits with
    | '.' :: cs => cs.dropWhile isAsciiDigit
    | cs => cs
  if digits.isEmpty && fraction.isEmpty then none
  else
    some ((digitsValue (digits ++ fraction) : ℚ) / 10 ^ fraction.length
      * (10 : ℚ) ^ parseExponent afterFraction)

/-- `Number.parseFloat`, where it is finite. -/
def parseFloat (text : String) : Option ℚ :=
  match text.toList.dropWhile isWhitespace with
  | '-' :: cs => (unsignedDecimal cs).map fun value => -value
  | '+' :: cs => unsignedDecimal cs
  | cs => unsignedDecimal cs

/-- `Number.parseFloat(String(value))`. An array reads as its first member. -/
def parseNumber : Value → Option ℚ
  | .number (.int value) => some value
  | .number (.float value) => some value
  | .string text => parseFloat text
  | .array (value :: _) => parseNumber value
  | _ => none

/-- `Math.round` of the hertz of a number, which is in megahertz if it is small. -/
def roundedHertz (frequency : ℚ) : Int :=
  round (if |frequency| < 1000000 then frequency * 1000000 else frequency)

def normalizedContactFrequencyHz (value : Value) : Int :=
  match parseNumber value with
  | none => 0
  | some frequency => if frequency ≤ 0 then 0 else roundedHertz frequency

/-- A browser that rounds in exact arithmetic. -/
@[reducible] def exactNumbers : BrowserNumbers where
  roundedHertz value := (parseNumber value).map roundedHertz

end Log73.Frontend
