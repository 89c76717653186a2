import Log73.BandMap.Spots
import Mathlib.Algebra.Group.Int.Defs

/-!
The band catalog of a region (`bands.rs`): a table of bands whose limits are given in
kilohertz, each row checked on its own and all of them against each other.
-/

namespace Log73

structure BandCsvRow where
  band : String
  start : String
  endAt : String
  cabrillo : String

/-- A file as the CSV reader gives it. -/
structure BandCsv where
  headers : List String
  rows : List (Except String BandCsvRow)

/-- The result of a checked operation. -/
def checkedI64 (value : Int) : Option Int :=
  if i64Min ≤ value ∧ value ≤ i64Max then some value else none

section Parse

-- how a message quotes a value
variable (debug : String → String)

/-- The hertz of the decimal places. -/
def fractionAsHz (value fraction : String) : Except String Int :=
  if fraction = "" then .ok 0
  else match parseI64 fraction with
    | none => .error (debug value ++ " has an invalid decimal fraction")
    | some hertz => .ok (hertz * 10 ^ (3 - fraction.toList.length))

/-- A text of digits only has as many bytes as characters. -/
def parseKhzAsHz (value : String) : Except String Int :=
  if value = "" then .error "frequency is empty"
  else
    let parts := splitOnce '.' value
    let malformed := debug value ++
      " must be a positive decimal kHz value with at most three decimal places"
    if parts.any (·.2 = "") then .error malformed
    else
      let (whole, fraction) := parts.getD (value, "")
      if whole = "" || !whole.toList.all isAsciiDigit || !fraction.toList.all isAsciiDigit ||
          3 < fraction.toList.length then .error malformed
      else do
        let outside := debug value ++ " is outside the supported frequency range"
        let whole ← (parseI64 whole).elim (.error outside) .ok
        let fractionHz ← fractionAsHz debug value fraction
        let frequencyHz ← ((checkedI64 (whole * 1000)).bind fun wholeHz =>
          checkedI64 (wholeHz + fractionHz)).elim (.error outside) .ok
        if frequencyHz ≤ 0 then .error (debug value ++ " must be greater than zero")
        else .ok frequencyHz

def defaultSsbMode (name : String) (lowerHz : Int) : String :=
  if eqIgnoreAsciiCase name "60m" || 10000000 ≤ lowerHz then "USB" else "LSB"

/-- The loop over neighbours in the order of their lower limits. -/
def checkNeighbours (path : String) : List Band → Except String Unit
  | previous :: current :: bands =>
      if current.lowerHz ≤ previous.upperHz then
        .error (path ++ ": bands " ++ previous.name ++ " and " ++ current.name ++ " overlap")
      else checkNeighbours path (current :: bands)
  | _ => .ok ()

def validateNonOverlapping (path : String) (bands : List Band) : Except String Unit :=
  checkNeighbours path (bands.mergeSort fun a b => a.lowerHz ≤ b.lowerHz)

variable (path : String) (iaruRegion : Int64)

/-- One row of a file, behind rows with the given names. -/
def bandOfRow (index : Nat) (names : List String) (row : Except String BandCsvRow) :
    Except String Band := do
  let at_ := path ++ ":" ++ toString (index + 2) ++ ": "
  let row ← row.mapError (at_ ++ ·)
  let name := trim row.band
  if name = "" then throw (at_ ++ "band name is empty")
  if toAsciiLowercase name ∈ names then throw (at_ ++ "duplicate band name " ++ name)
  let lowerHz ← (parseKhzAsHz debug (trim row.start)).mapError (at_ ++ "invalid start: " ++ ·)
  let upperHz ← (parseKhzAsHz debug (trim row.endAt)).mapError (at_ ++ "invalid end: " ++ ·)
  if upperHz ≤ lowerHz then throw (at_ ++ "band " ++ name ++ " start must be lower than end")
  let cabrillo := trim row.cabrillo
  if cabrillo = "" then throw (at_ ++ "Cabrillo value is empty")
  let sortOrder ← (checkedI64 (index + 1)).elim (throw (path ++ ": too many band rows")) pure
  return { iaruRegion, name, lowerHz, upperHz
           defaultSsbMode := defaultSsbMode name lowerHz
           sortOrder := Int64.ofInt sortOrder
           cabrillo }

def bandsOfRows : Nat → List String → List (Except String BandCsvRow) →
    Except String (List Band)
  | _, _, [] => .ok []
  | index, names, row :: rows => do
      let band ← bandOfRow debug path iaruRegion index names row
      let bands ← bandsOfRows (index + 1) (toAsciiLowercase band.name :: names) rows
      return band :: bands

def loadBandFile (file : Except String BandCsv) : Except String (List Band) := do
  let file ← file.mapError (path ++ ": " ++ ·)
  if file.headers ≠ ["band", "start", "end", "cabrillo"] then
    throw (path ++ ": expected header band,start,end,cabrillo; found " ++
      joinWith "," file.headers)
  let bands ← bandsOfRows debug path iaruRegion 0 [] file.rows
  if bands.isEmpty then throw (path ++ ": band catalog is empty")
  validateNonOverlapping path bands
  return bands

end Parse

/-- The user's file, or else the one that was installed. -/
def loadRegionBands (debug : String → String) (userPath installedPath : String)
    (iaruRegion : Int64) (user installed : Except String BandCsv) :
    Except String (List Band) :=
  if iaruRegion < 1 ∨ 3 < iaruRegion then
    .error ("IARU region must be 1, 2, or 3; received " ++ toString iaruRegion)
  else match loadBandFile debug userPath iaruRegion user with
    | .ok bands => .ok bands
    | .error userError =>
        (loadBandFile debug installedPath iaruRegion installed).mapError fun installedError =>
          "failed to load IARU Region " ++ toString iaruRegion ++ " bands; user file " ++
            userPath ++ " failed: " ++ userError ++ "; application file " ++ installedPath ++
            " failed: " ++ installedError

end Log73
