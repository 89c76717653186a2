import Log73.DxCluster.Spots

/-!
Spots of the band map, from `bandmap.rs`: what makes two spots the same one, and the
spots that the cluster, the operators and the contacts of a log ask for.
-/

namespace Log73

open SortedAssoc

/-- A band of `radio-io`. -/
structure Band where
  iaruRegion : Int64
  name : String
  lowerHz : Int
  upperHz : Int
  defaultSsbMode : String
  sortOrder : Int64
  cabrillo : String

def bandForFrequency (bands : List Band) (frequencyHz : Nat) : Option Band :=
  if (frequencyHz : Int) ≤ i64Max then
    bands.find? fun band => band.lowerHz ≤ frequencyHz && (frequencyHz : Int) ≤ band.upperHz
  else none

inductive BandMapSpotType where
  | dx
  | rbn
  | localSpot
  | inUse
  | cq
  deriving DecidableEq

structure BandMapSpotCandidate where
  receivedAt : Nat
  spotType : BandMapSpotType
  source : String
  callDe : String
  callDx : String
  frequencyHz : Nat
  utc : Nat
  loc : Option String
  comment : Option String
  rbn : Option DxClusterRbnSpot
  bandName : Option String
  radioId : Option Int
  radioName : Option String
  logId : Option Int
  exchangeFields : Option Map
  deriving DecidableEq

/-- A stored spot: what was asked for, under an id. -/
structure BandMapSpot extends BandMapSpotCandidate where
  id : Nat
  deriving DecidableEq

inductive BandMapDedupeKey where
  | cluster (sourceId : Nat)
  | localBand (logId : Option Int) (bandName : String) (callDx : String)
  | localUnknownBand (logId : Option Int) (frequencyTenthKhz : Nat) (callDx : String)
  | inUse (frequencyTenthKhz : Nat)
  | cq (radioId : Int) (bandName : String)
  deriving DecidableEq

structure LocalSpotInput where
  frequencyHz : Nat
  callDx : String
  comment : Option String
  radioId : Option Int
  radioName : Option String
  logId : Option Int
  exchangeFields : Option Map
  receivedAt : Option Nat

/-- What is asked of the store: a spot under its key. -/
abbrev SpotRequest := BandMapDedupeKey × BandMapSpotCandidate

def frequencyTenthKhz (frequencyHz : Nat) : Nat := (frequencyHz + 50) % 2 ^ 64 / 100

def utcHhmmFromTimestamp (timestamp : Nat) : Nat :=
  let secondsSinceMidnight := timestamp % 86400
  let hours := secondsSinceMidnight / 3600
  let minutes := secondsSinceMidnight % 3600 / 60
  hours * 100 + minutes

def cutoffTimestamp (now maxAge : Nat) : Nat := now - maxAge

def bandNameForFrequency (bands : List Band) (frequencyHz : Nat) : Option String :=
  (bandForFrequency bands frequencyHz).map (·.name)

def valueU64 : Option Value → Option Nat
  | some (.number n) => n.asU64.map Int.toNat
  | some (.string s) => parseUnsigned (2 ^ 64 - 1) (trim s)
  | _ => none

/-- The key of a spot of a log: its band, or its frequency where no band is known. -/
def localKey (logId : Option Int) (bandName : Option String) (frequencyHz : Nat) (callDx : String) :
    BandMapDedupeKey :=
  match bandName with
  | some bandName => .localBand logId bandName callDx
  | none => .localUnknownBand logId (frequencyTenthKhz frequencyHz) callDx

section Requests

variable [Platform]

def dxclusterSpotRequest (bands : List Band) (spot : DxClusterSpot) : SpotRequest :=
  (.cluster spot.id,
    { receivedAt := spot.receivedAt
      spotType := if spot.rbn.isSome then .rbn else .dx
      source := spot.source
      callDe := spot.callDe
      callDx := spot.callDx
      frequencyHz := spot.frequencyHz
      utc := spot.utc
      loc := spot.loc
      comment := spot.comment
      rbn := spot.rbn
      bandName := bandNameForFrequency bands spot.frequencyHz
      radioId := none
      radioName := none
      logId := none
      exchangeFields := none })

def localSpotRequest (bands : List Band) (now : Nat) (input : LocalSpotInput) : SpotRequest :=
  let bandName := bandNameForFrequency bands input.frequencyHz
  let callDx := toUppercase (trim input.callDx)
  (localKey input.logId bandName input.frequencyHz callDx,
    { receivedAt := input.receivedAt.getD now
      spotType := .localSpot
      source := "local"
      callDe := "LOCAL"
      callDx := callDx
      frequencyHz := input.frequencyHz
      utc := utcHhmmFromTimestamp now
      loc := none
      comment := input.comment.filter fun comment => !(trim comment).isEmpty
      rbn := none
      bandName := bandName
      radioId := input.radioId
      radioName := input.radioName
      logId := input.logId
      exchangeFields := input.exchangeFields })

def cqRequest (bands : List Band) (now : Nat) (frequencyHz : Nat) (radioId : Int)
    (radioName : String) : Option SpotRequest :=
  (bandNameForFrequency bands frequencyHz).map fun bandName =>
    (.cq radioId bandName,
      { receivedAt := now
        spotType := .cq
        source := "cq"
        callDe := ""
        callDx := ""
        frequencyHz := frequencyHz
        utc := utcHhmmFromTimestamp now
        loc := none
        comment := none
        rbn := none
        bandName := some bandName
        radioId := some radioId
        radioName := some radioName
        logId := none
        exchangeFields := none })

def inUseRequest (bands : List Band) (now : Nat) (frequencyHz : Nat) : SpotRequest :=
  (.inUse (frequencyTenthKhz frequencyHz),
    { receivedAt := now
      spotType := .inUse
      source := "in_use"
      callDe := ""
      callDx := ""
      frequencyHz := frequencyHz
      utc := utcHhmmFromTimestamp now
      loc := none
      comment := none
      rbn := none
      bandName := bandNameForFrequency bands frequencyHz
      radioId := none
      radioName := none
      logId := none
      exchangeFields := none })

/-- The spot of a contact; without a callsign, a frequency or a time there is none. -/
def localSpotCandidate (bands : List Band) (logId : Int) (contact : Contact) :
    Option BandMapSpotCandidate :=
  (contactAdif contact).bind fun adif =>
    ((get? adif "CALL").bind fun call => jsonString (some call)).bind fun call =>
      let callDx := toUppercase (trim call)
      if callDx.isEmpty then none
      else
        (valueU64 (get? adif "FREQ")).bind fun frequencyHz =>
          if frequencyHz = 0 then none
          else
            (valueU64 (get? adif "QSO_DATE_TIME_ON")).map fun receivedAt =>
              { receivedAt := receivedAt
                spotType := .localSpot
                source := "local"
                callDe := (jsonString (contactAdifValue contact "STATION_CALLSIGN")).getD ""
                callDx := callDx
                frequencyHz := frequencyHz
                utc := utcHhmmFromTimestamp receivedAt
                loc := none
                comment := none
                rbn := none
                bandName := ((jsonString (get? adif "BAND")).filter fun bandName =>
                    !(trim bandName).isEmpty).or (bandNameForFrequency bands frequencyHz)
                radioId := none
                radioName := none
                logId := some logId
                exchangeFields := some adif }

/-- The spots the contacts of a log ask for: the newest one under each key. -/
def desiredSpots (bands : List Band) (cutoff : Nat) (logId : Int) (contacts : List Contact) :
    List SpotRequest :=
  contacts.foldl (fun desired contact =>
    match localSpotCandidate bands logId contact with
    | none => desired
    | some candidate =>
        if candidate.receivedAt < cutoff then desired
        else
          let key := localKey (some logId) candidate.bandName candidate.frequencyHz candidate.callDx
          match get? desired key with
          | some existing =>
              if candidate.receivedAt ≤ existing.receivedAt then desired
              else put desired key candidate
          | none => put desired key candidate) []

end Requests

/-- What a client that shows a log sees: the spots of other logs are hidden. -/
def spotVisibleForLog (spot : BandMapSpot) (logId : Option Int) : Bool :=
  if spot.spotType ≠ .localSpot then true
  else
    match spot.logId, logId with
    | some spotLogId, some requestedLogId => spotLogId = requestedLogId
    | some _, none => false
    | _, _ => true

/-- All fields but the time of arrival are compared. -/
def spotVisibleFieldsChanged (spot : BandMapSpot) (candidate : BandMapSpotCandidate) : Bool :=
  { spot.toBandMapSpotCandidate with receivedAt := candidate.receivedAt } ≠ candidate

end Log73
