import Log73.ContestRules
import Log73.Db.Cache

/-!
The serial state of `main.rs`: the scope of a sent serial and the next number of it, from the
index of a snapshot, and from the contacts one by one as the tests compute it.
-/

namespace Log73

open SortedAssoc
open Std (ExtTreeMap)

variable [Platform]

def normalizedParamValue (value : Option Value) : Option String :=
  (jsonString value).bind fun value =>
    let normalized := toUppercase (trim value)
    if normalized.isEmpty then none else some normalized

def categoryTransmitter (rules : ContestRules) (log : Log) : Option String :=
  rules.cabrillo.bind fun cabrillo =>
    match cabrillo.fixedHeaders.find? fun field =>
        eqIgnoreAsciiCase field.name "CATEGORY-TRANSMITTER" with
    | some field => normalizedParamValue (some (.string field.value))
    | none =>
        (rules.setupFields.find? fun field => field.cabrilloHeader.any fun header =>
          eqIgnoreAsciiCase header "CATEGORY-TRANSMITTER").bind fun field =>
            (normalizedParamValue (log.contestParams.asObject.bind (get? · field.key))).or
              ((normalizedParamValue field.default).or
                (match field.validation.values with
                  | [value] => some (toUppercase (trim value))
                  | _ => none))

def effectiveSerialScope (rules : ContestRules) (log : Log) (field : ExchangeField) :
    SerialScope :=
  match field.serialScope with
  | .categoryTransmitter =>
      if categoryTransmitter rules log = some "TWO" ∨
          categoryTransmitter rules log = some "UNLIMITED" then .band
      else .global
  | scope => scope

def serialReservationRequired (rules : ContestRules) (log : Log) (field : ExchangeField) : Bool :=
  effectiveSerialScope rules log field = .global &&
    (categoryTransmitter rules log).any (· ≠ "ONE")

/-- A serial of a contact, if it is a positive number. -/
def contactSerialValue (contact : Contact) (fieldAdif : String) : Option Int :=
  ((contactAdifValue contact fieldAdif).bind jsonSerialValue).filter (0 < ·)

def nextSerialAfter (maximum : Option Int) : Except String Int :=
  if maximum.getD 0 < i64Max then .ok (maximum.getD 0 + 1) else .error "serial value overflow"

structure SerialState where
  fieldAdif : String
  scope : SerialScope
  reservationRequired : Bool
  next : Option Int
  nextByBand : KeyMap Int

/-- The state for given greatest serials, overall or of a band. -/
def serialStateOf (rules : ContestRules) (log : Log) (field : ExchangeField)
    (maximum : Option String → Option Int) : Except String SerialState :=
  let scope := effectiveSerialScope rules log field
  let state : SerialState :=
    { fieldAdif := field.adif, scope := scope,
      reservationRequired := serialReservationRequired rules log field,
      next := none, nextByBand := ∅ }
  if scope = .band then
    (rules.bands.foldlM (fun (nextByBand : KeyMap Int) band =>
      (nextSerialAfter (maximum (some band))).map (nextByBand.insert band)) ∅).map fun nextByBand =>
        { state with nextByBand := nextByBand }
  else (nextSerialAfter (maximum none)).map fun next => { state with next := some next }

def serialStateFromContacts (rules : ContestRules) (log : Log) (field : ExchangeField)
    (contacts : List Contact) : Except String SerialState :=
  serialStateOf rules log field fun band =>
    ((contacts.filter fun contact => band.all fun band =>
      ((contactAdifValue contact "BAND").bind Value.asStr).any (eqIgnoreAsciiCase · band)).filterMap
        (contactSerialValue · field.adif)).max?

def serialStateFromSnapshot (rules : ContestRules) (log : Log) (field : ExchangeField)
    (snapshot : LogSnapshot) : Except String SerialState :=
  serialStateOf rules log field fun band =>
    (snapshot.contacts.serialMax field.adif band).filter (0 < ·)

end Log73
