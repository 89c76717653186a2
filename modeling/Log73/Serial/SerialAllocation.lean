import Log73.Db.Serials
import Log73.Library.Checks
import Log73.Serial.SerialState

/-!
The two handlers of `/logs/{id}/serial-allocation` in `main.rs`: the state of a sent serial, and
the reservation of one, over the life of a database.
-/

namespace Log73

inductive ApiError where
  | badRequest (message : String)
  | notFound (message : String)
  | internal (message : String)
  | database (error : DbError)

variable [Platform]

def sentSerialField (rules : ContestRules) (fieldAdif : String) : Option ExchangeField :=
  rules.exchange.find? fun field =>
    field.direction = .sent && eqIgnoreAsciiCase field.adif fieldAdif && field.input.kind = .serial

namespace SerialHistory

variable (contestRules : String → Option ContestRules) (history : SerialHistory)

def requireLog (id : Int64) : Except ApiError Log :=
  match history.worker.cache.logs[id]? with
  | some entry => .ok entry.log
  | none => .error (.notFound ("log " ++ toString id ++ " not found"))

def requireRules (log : Log) : Except ApiError ContestRules :=
  match contestRules log.contestId with
  | some rules => .ok rules
  | none => .error (.badRequest ("unknown contest: " ++ log.contestId))

def requireSerialField (rules : ContestRules) (requested fieldAdif : String) :
    Except ApiError ExchangeField :=
  match sentSerialField rules fieldAdif with
  | some field => .ok field
  | none =>
      .error (.badRequest (requested ++ " is not a sent serial field for contest " ++ rules.id))

/-- `serial_state`: the contacts of the log are in memory once it was read. -/
def serialState (logId : Int64) (fieldAdif : String) :
    SerialHistory × Except ApiError SerialState :=
  let loaded := history.step (.loadContacts logId)
  (loaded,
    match loaded.worker.cache.snapshot logId with
    | none => .error (.notFound ("log " ++ toString logId ++ " not found"))
    | some snapshot => do
        let rules ← requireRules contestRules snapshot.log
        let field ← requireSerialField rules fieldAdif (trim fieldAdif)
        (serialStateFromSnapshot rules snapshot.log field snapshot).mapError .internal)

/-- What is checked before a serial is reserved: the field it is reserved for. -/
def serialFieldToReserve (logId : Int64) (fieldAdif : String) : Except ApiError ExchangeField := do
  let fieldAdif := trim fieldAdif
  if fieldAdif.isEmpty then .error (.badRequest "serial field ADIF name is required")
  let log ← history.requireLog logId
  let rules ← requireRules contestRules log
  let field ← requireSerialField rules fieldAdif fieldAdif
  if !serialReservationRequired rules log field then
    .error (.badRequest
      (fieldAdif ++ " does not require serial reservation for contest " ++ rules.id))
  pure field

/-- `allocate_serial`. -/
def allocateSerial (logId : Int64) (fieldAdif : String) :
    SerialHistory × Except ApiError SerialAllocation :=
  match history.serialFieldToReserve contestRules logId fieldAdif with
  | .error error => (history, .error error)
  | .ok field =>
      (history.step (.allocateSerial logId field.adif),
        ((history.worker.reserveSerial logId field.adif).2).mapError .database)

variable {contestRules history}

omit [Platform] in
theorem normalizeAdifFieldName_of_sentSerialField {rules : ContestRules} {fieldAdif : String}
    {field : ExchangeField} (hfield : sentSerialField rules (trim fieldAdif) = some field) :
    normalizeAdifFieldName field.adif = normalizeAdifFieldName fieldAdif := by
  have hfound := List.find?_some hfield
  rw [Bool.and_eq_true, Bool.and_eq_true] at hfound
  have hsame : toAsciiUppercase field.adif = toAsciiUppercase (trim fieldAdif) :=
    beq_iff_eq.mp hfound.1.2
  have hupper : ∀ s : String, toAsciiUppercase (trim (toAsciiUppercase s)) =
      toAsciiUppercase (trim s) := by
    intro s
    simp only [toAsciiUppercase, trim, String.toList_ofList, trimChars_map_toUpper, List.map_map]
    congr 1
    exact List.map_congr_left fun c _ => toUpper_toUpper c
  rw [normalizeAdifFieldName, ← hupper, hsame, hupper, ← normalizeAdifFieldName,
    normalizeAdifFieldName_trim]

/-- A reservation is made for the field that was asked for, under the name of the rules. -/
theorem normalizeAdifFieldName_of_serialFieldToReserve {logId : Int64} {fieldAdif : String}
    {field : ExchangeField}
    (h : history.serialFieldToReserve contestRules logId fieldAdif = .ok field) :
    normalizeAdifFieldName field.adif = normalizeAdifFieldName fieldAdif := by
  simp only [serialFieldToReserve, bind, Except.bind, pure, Except.pure] at h
  obtain ⟨-, h⟩ := Checks.ite_error_eq_ok.mp h
  split at h
  · cases h
  · split at h
    · cases h
    · next rules _ =>
        split at h
        · cases h
        · next found hfound =>
            obtain ⟨-, h⟩ := Checks.ite_error_eq_ok.mp h
            obtain rfl := Except.ok.inj h
            rw [requireSerialField] at hfound
            split at hfound
            · next hfield =>
                obtain rfl := Except.ok.inj hfound
                exact normalizeAdifFieldName_of_sentSerialField hfield
            · cases hfound

variable (contestRules) in
theorem Sound.serialState (h : history.Sound) (logId : Int64) (fieldAdif : String) :
    (history.serialState contestRules logId fieldAdif).1.Sound ∧
      (history.serialState contestRules logId fieldAdif).1.allocations = history.allocations :=
  ⟨h.step (.loadContacts logId), rfl⟩

/-- What a reservation hands out, and that it is recorded. -/
structure Allocates (history after : SerialHistory) (logId : Int64) (fieldAdif : String)
    (allocation : SerialAllocation) : Prop where
  recorded : after.allocations = allocation :: history.allocations
  sameLog : allocation.logId = logId
  sameField : normalizeAdifFieldName allocation.fieldAdif = normalizeAdifFieldName fieldAdif
  positive : 0 < allocation.serial
  fresh : ∀ earlier ∈ history.allocations, earlier.logId = logId →
    normalizeAdifFieldName earlier.fieldAdif = normalizeAdifFieldName fieldAdif →
      earlier.serial < allocation.serial

variable (contestRules) in
theorem Sound.allocateSerial (h : history.Sound) (logId : Int64) (fieldAdif : String) :
    (history.allocateSerial contestRules logId fieldAdif).1.Sound := by
  rw [SerialHistory.allocateSerial]
  split
  · exact h
  · exact h.step _

variable (contestRules) in
/-- A serial that is handed out is greater than those before it; a request that is turned down
hands out none. -/
theorem Sound.allocateSerial_cases (h : history.Sound) (logId : Int64) (fieldAdif : String) :
    (∃ allocation, (history.allocateSerial contestRules logId fieldAdif).2 = .ok allocation ∧
        history.Allocates (history.allocateSerial contestRules logId fieldAdif).1 logId fieldAdif
          allocation) ∨
      ((∃ error, (history.allocateSerial contestRules logId fieldAdif).2 = .error error) ∧
        (history.allocateSerial contestRules logId fieldAdif).1.allocations =
          history.allocations) := by
  rw [SerialHistory.allocateSerial]
  split
  · next error _ => exact Or.inr ⟨⟨error, rfl⟩, rfl⟩
  · next field hfield =>
      have hname := normalizeAdifFieldName_of_serialFieldToReserve hfield
      have hfresh := h.reservesFresh logId field.adif
      cases hreserve : (history.worker.reserveSerial logId field.adif).2 with
      | error error =>
          refine Or.inr ⟨⟨.database error, rfl⟩, ?_⟩
          simp only [SerialHistory.step, record, hreserve]
      | ok allocation =>
          obtain ⟨hlog, hfieldName, hpos, -, hpast⟩ := hfresh.fresh allocation hreserve
          refine Or.inl ⟨allocation, rfl, ?_, hlog, hfieldName.trans hname, hpos,
            fun earlier hmem hearlier hearlierName => ?_⟩
          · simp only [SerialHistory.step, record, hreserve]
          · exact hpast earlier.serial
              (Or.inl ⟨earlier, hmem, hearlier, hearlierName.trans hname.symm, rfl⟩)

end SerialHistory

end Log73
