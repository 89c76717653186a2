import Log73.Text

/-!
Times of a contact as export files write them (`qso_time.rs`).
-/

namespace Log73

/-- `value as i32`. -/
def wrapI32 (value : Int) : Int := (Int32.ofInt value).toInt

/-- A number filled up with zeros on the left, after its sign. -/
def zeroPadded (width : Nat) (value : Int) : String :=
  let digits (width : Nat) :=
    String.ofList (List.replicate (width - value.natAbs.repr.length) '0') ++ value.natAbs.repr
  if value < 0 then "-" ++ digits (width - 1) else digits width

def civilFromDays (days : Int) : Int × Int × Int :=
  let z := days + 719468
  let era := (if 0 ≤ z then z else z - 146096).tdiv 146097
  let doe := z - era * 146097
  let yoe := (doe - doe.tdiv 1460 + doe.tdiv 36524 - doe.tdiv 146096).tdiv 365
  let y := yoe + era * 400
  let doy := doe - (365 * yoe + yoe.tdiv 4 - yoe.tdiv 100)
  let mp := (5 * doy + 2).tdiv 153
  let day := doy - (153 * mp + 2).tdiv 5 + 1
  let month := mp + if mp < 10 then 3 else -9
  let year := y + if month ≤ 2 then 1 else 0
  (wrapI32 year, month, day)

def daysFromCivil (year month day : Int) : Option Int :=
  if ¬(1 ≤ month ∧ month ≤ 12) ∨ ¬(1 ≤ day ∧ day ≤ 31) then none
  else
    let y := year - if month ≤ 2 then 1 else 0
    let era := (if 0 ≤ y then y else y - 399).tdiv 400
    let yoe := y - era * 400
    let mp := month + if 2 < month then -3 else 9
    let doy := (153 * mp + 2).tdiv 5 + day - 1
    let doe := yoe * 365 + yoe.tdiv 4 - yoe.tdiv 100 + doy
    let days := era * 146097 + doe - 719468
    if civilFromDays days = (year, month, day) then some days else none

def parseI32 (s : String) : Option Int := parseSigned (-2147483648) 2147483647 s
def parseU32 (s : String) : Option Nat := parseUnsigned 4294967295 s

/-- A slice of a text whose characters are one byte each. -/
def asciiSlice (s : String) (first last : Nat) : String :=
  String.ofList ((s.toList.drop first).take (last - first))

def qsoEpoch (date time : String) : Option Int :=
  if date.utf8ByteSize ≠ 8 ∨ date.toList.all isAsciiDigit = false then none
  else do
    let year ← parseI32 (asciiSlice date 0 4)
    let month ← parseU32 (asciiSlice date 4 6)
    let day ← parseU32 (asciiSlice date 6 8)
    let time := trim time
    if (time.utf8ByteSize ≠ 4 ∧ time.utf8ByteSize ≠ 6) ∨ time.toList.all isAsciiDigit = false then
      none
    else
      let hour ← parseI64 (asciiSlice time 0 2)
      let minute ← parseI64 (asciiSlice time 2 4)
      let seconds := if time.utf8ByteSize = 6 then parseI64 (asciiSlice time 4 6) else some 0
      let second ← seconds
      if 23 < hour ∨ 59 < minute ∨ 59 < second then none
      else do
        let days ← daysFromCivil year month day
        return days * 86400 + hour * 3600 + minute * 60 + second

structure QsoDatetime where
  year : Int
  month : Int
  day : Int
  hour : Int
  minute : Int
  second : Int

def qsoDatetimeParts (epoch : Int) : Except String QsoDatetime :=
  if epoch < 0 then .error "contact QSO time must be positive"
  else
    let seconds := epoch % 86400
    let (year, month, day) := civilFromDays (epoch / 86400)
    .ok ⟨year, month, day, seconds / 3600, seconds % 3600 / 60, seconds % 60⟩

def qsoDatetimeAdif (epoch : Int) : Except String (String × String) := do
  let t ← qsoDatetimeParts epoch
  return (zeroPadded 4 t.year ++ zeroPadded 2 t.month ++ zeroPadded 2 t.day,
    zeroPadded 2 t.hour ++ zeroPadded 2 t.minute ++ zeroPadded 2 t.second)

def qsoDatetimeCabrillo (epoch : Int) : Except String (String × String) := do
  let t ← qsoDatetimeParts epoch
  return (zeroPadded 4 t.year ++ "-" ++ zeroPadded 2 t.month ++ "-" ++ zeroPadded 2 t.day,
    zeroPadded 2 t.hour ++ zeroPadded 2 t.minute)

end Log73
