import Log73.Frontend.Dxcc
import Log73.Frontend.Frequency
import Log73.Frontend.MessageSending
import Log73.Frontend.Validation

/-!
The entry fields of the main window (`MainWindow.jsx`, `useEntryFields.js`, `useEsm.js` and
`useFrequencyTracker.js`, with what they need of `mainWindowHelpers.js`, `contactFields.js` and
`wsjtx.js`): what Enter does, with ESM where it sends the messages of a contact one after another
and logs the contact, and what clears the fields. A handler sees the state of the last render,
while what it sets is the state of the next one.
-/

namespace Log73.Frontend

open RadioIo (runMessageMode searchAndPounceMessageMode)

/-- `[A-Z0-9/?]`. -/
def isCallsignInput (c : Char) : Bool := isCallsignCharacter c || c = '/' || c = '?'

def loggerModeOptions : List String := ["CW", "CW-R", "SSB", "FM", "AM", "DATA", "RTTY"]

inductive OperatingMode where
  | run | searchAndPounce
  deriving DecidableEq

section Esm

variable [Platform]

def sanitizeCallsign (value : String) : String :=
  String.ofList (((toUpperCase value).toList.filter isCallsignInput).take 12)

/-- `/^\d+(\.\d+)?$/`. -/
def isFrequencyInput (value : String) : Bool :=
  let cs := (trim value).toList
  !(cs.takeWhile isAsciiDigit).isEmpty &&
    match cs.dropWhile isAsciiDigit with
    | [] => true
    | c :: fraction => c = '.' && !fraction.isEmpty && fraction.all isAsciiDigit

def typedModeFromCallsignInput (value : String) (modeCatalog : List String) : Option String :=
  let normalizedValue := toUpperCase (trim value)
  if normalizedValue = "" then none
  else
    let candidateValue := if normalizedValue = "CWR" then "CW-R" else normalizedValue
    (if modeCatalog.isEmpty then loggerModeOptions else modeCatalog).find? (· = candidateValue)

def callsignHasQuery (value : String) : Bool := (trim value).toList.contains '?'

def shouldBlockEsmCallEnter (callsign : String) (callsignIsValid : Bool) : Bool :=
  trim callsign ≠ "" && !callsignIsValid

/-- What is sent of a callsign that was corrected after the exchange: the part behind the prefix
where the prefix is still the same. -/
def correctedEsmCallsignText (exchangeSentCallsign correctedCallsign : String) : String :=
  let sent := toUpperCase (trim exchangeSentCallsign)
  let corrected := toUpperCase (trim correctedCallsign)
  if sent = "" ∨ corrected = "" ∨ sent = corrected then ""
  else
    match callsignPrefix sent, callsignPrefix corrected with
    | some sentPrefix, some correctedPrefix =>
        if sentPrefix = "" ∨ sentPrefix ≠ correctedPrefix
            ∨ startsWith corrected correctedPrefix = false then corrected
        else
          let rest := String.ofList (corrected.toList.drop correctedPrefix.toList.length)
          if rest = "" then corrected else rest
    | _, _ => corrected

structure EsmState where
  runCallsignAttempt : String
  exchangeSentCallsign : String

def esmStateAfterCallsignEdit (callsign : String) (state : EsmState) : EsmState :=
  let normalizedCallsign := toUpperCase (trim callsign)
  let attempt := toUpperCase (trim state.runCallsignAttempt)
  { runCallsignAttempt := if normalizedCallsign = attempt then attempt else ""
    exchangeSentCallsign :=
      if normalizedCallsign = "" then "" else toUpperCase (trim state.exchangeSentCallsign) }

structure EsmAction where
  keys : List String := []
  correctionText : String := ""
  shouldLog : Bool := false
  nextRunCallsignAttempt : String := ""
  nextExchangeSentCallsign : String := ""

def esmEnterAction (esmEnabled : Bool) (operatingMode : OperatingMode) (callsign : String)
    (exchangeValid : Bool) (state : EsmState) : EsmAction :=
  let call := toUpperCase (trim callsign)
  let attempt := toUpperCase (trim state.runCallsignAttempt)
  let sent := toUpperCase (trim state.exchangeSentCallsign)
  let isRunMode := operatingMode = .run
  if !esmEnabled then { nextExchangeSentCallsign := state.exchangeSentCallsign }
  else if call = "" then { keys := [if isRunMode then "F1" else "F4"] }
  else if !exchangeValid then
    if ¬isRunMode then { keys := ["F4"], nextExchangeSentCallsign := sent }
    else if attempt = call then
      { keys := ["F8"], nextRunCallsignAttempt := attempt, nextExchangeSentCallsign := sent }
    else
      { keys := ["F5", "F2"], nextRunCallsignAttempt := call, nextExchangeSentCallsign := call }
  else if isRunMode then
    if sent = call then
      { keys := ["F3"], shouldLog := true
        nextRunCallsignAttempt := call, nextExchangeSentCallsign := call }
    else
      let correctionText := correctedEsmCallsignText sent call
      if correctionText ≠ "" then
        { keys := ["F3"], correctionText, shouldLog := true
          nextRunCallsignAttempt := call, nextExchangeSentCallsign := call }
      else
        { keys := ["F5", "F2"], nextRunCallsignAttempt := call, nextExchangeSentCallsign := call }
  else if sent = call then { shouldLog := true, nextExchangeSentCallsign := call }
  else { keys := ["F2"], shouldLog := true, nextExchangeSentCallsign := call }

def callsignClearThresholdHz (mode : String) : Int := if modeIsPhone mode then 200 else 100

inductive FrequencyChange where
  | ignore | clearPendingBandMapTune | clearLogger

def loggerFrequencyChangeAction (previousFrequencyHz nextFrequencyHz thresholdHz : Int)
    (pendingBandMapTuneFrequencyHz : Option Int) : FrequencyChange :=
  match pendingBandMapTuneFrequencyHz with
  | some pending =>
      if |nextFrequencyHz - pending| < thresholdHz then .clearPendingBandMapTune else .ignore
  | none =>
      if thresholdHz ≤ |nextFrequencyHz - previousFrequencyHz| then .clearLogger else .ignore

end Esm

/-- An exchange field of the settings. `defaultText` is what `fieldDefault` returns for it. -/
structure EntryField where
  id : String
  fixed : Bool := false
  defaultText : String := ""
  field : ExchangeField

/-- The texts that were set in the exchange fields, by the ids of the fields. -/
abbrev ExchangeValues := String → Option String

/-- What `previousContactExchangeAutofill` returns where it finds a contact. -/
structure AutofillResult where
  changed : Bool
  values : ExchangeValues

/-- The props of a render, with what the hooks that are not modelled return in it. -/
structure EntryProps where
  radioMode : String := "CW"
  radioFrequencyHz : Int := 14000000
  wsjtxEnabled : Bool := false
  wsjtxTarget : Bool := false
  digitalTextEnabled : Bool := false
  exchange : Option (List EntryField) := none
  modeCatalog : List String := []
  conditionFields : Map := []
  band : String := ""
  stationCallsign : String := ""
  operatorCallsign : String := ""
  serialRequired : Bool := false
  serialAvailable : Bool := false
  serialFieldAdif : Option String := none
  serialCurrent : Option Nat := none
  messages : MessageProps := {}

/-- The data of a contact that is entered. -/
structure EnteredContact where
  force : Bool
  call : String
  band : String
  frequencyHz : Int
  mode : String
  pfx : Option String
  exchange : List (String × String)

/-- How a contact came to be logged. -/
inductive LogCause where
  | enter | button | forced | esm
  deriving DecidableEq

/-- What the window does, and what was done to its fields. The keys that are pressed are noted
with the callsign their messages name, once all they do is done. A correction has a text where one
is sent; elsewhere it is left to the operator. -/
inductive EntryEvent where
  | entered (callsign : String)
  | cleared
  | clearedByKey
  | pressed (keys : List String) (callsign : String)
  | query (text : String)
  | correction (text : Option String) (callsign : String)
  | setFrequency (frequencyHz : Int)
  | setMode (mode : String)
  | logged (cause : LogCause) (contact : EnteredContact)

namespace EntryProps

variable [Platform] (props : EntryProps)

/-- `wsjtxDataModeLocked`. -/
def locked : Bool :=
  props.wsjtxTarget && props.wsjtxEnabled && toUpperCase (trim props.radioMode) = "DATA"

def fields : List EntryField := props.exchange.getD []

def fieldEditable (field : EntryField) : Bool :=
  !field.fixed && !(field.field.direction = .sent && field.field.input.kind = .serial)

/-- `exchangeDefaults`, with the serial number that is reserved for the next contact. -/
def exchangeDefaults : ExchangeValues := fun id =>
  let defaults := (props.fields.reverse.find? (·.id = id)).map (·.defaultText)
  match (if props.serialRequired then props.serialFieldAdif else none), props.serialCurrent with
  | some fieldAdif, some current =>
      let serialField := props.fields.find? fun field =>
        field.field.direction = .sent && field.field.input.kind = .serial
          && toUpperCase field.field.adif = toUpperCase fieldAdif
      match serialField with
      | some field =>
          let maxLength := (field.field.input.maxLength.filter (0 < ·)).getD 8
          if field.id = id then some (String.ofList ((toString current).toList.take maxLength))
          else defaults
      | none => defaults
  | _, _ => defaults

def exchangeValue (field : EntryField) (values : ExchangeValues) : String :=
  (values field.id).getD field.defaultText

variable [RegexEngine] [Browser]

def exchangeValid (field : EntryField) (values : ExchangeValues) : Bool :=
  (validateExchangeField field.field (exchangeValue field values) props.radioMode
    props.conditionFields []).isOk

end EntryProps

/-- `padStart` with zeros. -/
def padStart (width : Nat) (text : String) : String :=
  String.ofList (List.replicate (width - length text) '0' ++ text.toList)

section MessageTexts

variable [Platform]

def messageExchangeFieldValue (field : EntryField) (value radioMode : String) : String :=
  let normalized := toUpperCase (trim value)
  if field.field.adif = "RST_SENT" then cutNumberText (some normalized)
  else if normalized = "" || field.field.direction ≠ .sent || field.field.input.kind ≠ .serial then
    normalized
  else if modeIsCw radioMode then padStart 2 normalized
  else if modeIsDigital radioMode then padStart 3 normalized
  else normalized

def buildSentExchange (props : EntryProps) (values : ExchangeValues) : String :=
  let tokens := (props.fields.filter (·.field.direction = .sent)).map fun field =>
    messageExchangeFieldValue field (EntryProps.exchangeValue field values) props.radioMode
  joinWith " " (tokens.filter (· ≠ ""))

end MessageTexts

structure EntryWindow where
  props : EntryProps := {}
  callSign : String := ""
  exchangeValues : ExchangeValues := fun _ => none
  operatingMode : OperatingMode := .searchAndPounce
  esmEnabled : Bool := false
  esm : EsmState := ⟨"", ""⟩
  pendingBandMapTuneFrequencyHz : Option Int := none
  previousRadioFrequencyHz : Int := 14000000
  previousWsjtxDataLocked : Bool := false
  sending : MessageSending := {}
  events : List EntryEvent := []

namespace EntryWindow

variable (window : EntryWindow)

def record (event : EntryEvent) : EntryWindow :=
  { window with events := window.events ++ [event] }

def messageModeKey : String :=
  match window.operatingMode with
  | .run => runMessageMode
  | .searchAndPounce => searchAndPounceMessageMode

variable [Platform]

def currentCallsign : String := toUpperCase (trim window.callSign)

/-- The field that is named last counts, and the whole exchange before all fields. -/
def currentMessageFields (values : ExchangeValues) : MessageFields := fun name =>
  let props := window.props
  if name = "EXCH" then some (buildSentExchange props values)
  else
    match props.fields.reverse.find? (·.field.adif = name) with
    | some field =>
        some (messageExchangeFieldValue field (EntryProps.exchangeValue field values)
          props.radioMode)
    | none =>
        if name = "CALL" then some window.currentCallsign
        else if name = "STATION_CALLSIGN" then some props.stationCallsign
        else if name = "OPERATOR" then some props.operatorCallsign
        else none

def messageProps : MessageProps :=
  { window.props.messages with
    radioMode := window.props.radioMode
    messageModeKey := window.messageModeKey
    fields := window.currentMessageFields window.exchangeValues
    currentCallsign := window.callSign
    messageSendingEnabled :=
      !modeIsDigital window.props.radioMode || window.props.digitalTextEnabled }

/-- The message sending as this render has it. -/
def messageSending : MessageSending := { window.sending with props := window.messageProps }

/-- `clearEntryFields`. The event says who clears. -/
def clearEntryFields (event : EntryEvent) : EntryWindow :=
  if window.props.locked then window
  else
    { window with
      callSign := ""
      exchangeValues := window.props.exchangeDefaults
      esm := ⟨"", ""⟩
      pendingBandMapTuneFrequencyHz := none
      events := window.events ++ [event] }

/-- What the message sending asks of the window. `callsign` is the one of the last render. -/
def react (event : EntryEvent) (callsign : String) (window : EntryWindow) :
    SendingEvent → EntryWindow
  | .clearEntryFields => window.clearEntryFields event
  | .markEsmExchangeSent =>
      if callsign = "" then window
      else { window with esm := { window.esm with exchangeSentCallsign := callsign } }
  | .sendText .. | .stopKeying | .storeCurrentCqFrequency => window

def takeSending (event : EntryEvent) (callsign : String) (sending : MessageSending) : EntryWindow :=
  (sending.events.drop window.sending.events.length).foldl (react event callsign)
    { window with sending }

def pressKey (key : String) : EntryWindow :=
  if window.props.locked then window
  else
    (window.takeSending .cleared window.currentCallsign
      (window.messageSending.sendMessageKey key)).record (.pressed [key] window.currentCallsign)

/-- The keys that Enter presses in the window as it was rendered. -/
def pressEsmKeys (rendered : EntryWindow) (keys : List String) (values : ExchangeValues) :
    EntryWindow :=
  let sending := { window.sending with props := rendered.messageProps }
  (window.takeSending .clearedByKey rendered.currentCallsign
    (sending.sendEsmKeys keys (some (rendered.currentMessageFields values)))).record
      (.pressed keys rendered.currentCallsign)

def callsignValid : Bool := (validateCallsign window.callSign false).isOk

section Contacts

variable [RegexEngine] [Browser]

def firstInvalidExchangeField (values : ExchangeValues) : Option EntryField :=
  window.props.fields.find? fun field => !window.props.exchangeValid field values

def allRequiredFieldsFilled (values : ExchangeValues) : Bool :=
  window.props.exchange.isSome && trim window.callSign ≠ ""
    && window.props.fields.all fun field => window.props.exchangeValid field values

def canLogContact (force : Bool) (values : ExchangeValues) : Bool :=
  !window.props.locked && !(window.props.serialRequired && !window.props.serialAvailable)
    && window.allRequiredFieldsFilled values
    && (force || (window.callsignValid && (window.firstInvalidExchangeField values).isNone))

def contact (force : Bool) (values : ExchangeValues) : EnteredContact where
  force
  call := window.currentCallsign
  band := window.props.band
  frequencyHz := window.props.radioFrequencyHz
  mode := adifModeForLoggerMode window.props.radioMode
  pfx := callsignPrefix window.currentCallsign
  exchange := window.props.fields.map fun field =>
    (field.field.adif, submittedValue (EntryProps.exchangeValue field values))

/-- `logContact`, in the window as it was rendered. -/
def logContact (rendered : EntryWindow) (cause : LogCause) (force : Bool)
    (values : ExchangeValues) : EntryWindow :=
  if rendered.props.locked || !rendered.canLogContact force values then window
  else (window.record (.logged cause (rendered.contact force values))).clearEntryFields .cleared

def exchangeFieldsValid (values : ExchangeValues) : Bool :=
  window.allRequiredFieldsFilled values && window.callsignValid
    && (window.firstInvalidExchangeField values).isNone

/-- `fieldFilledAndValid` of an exchange field. -/
def fieldFilledAndValid (id : String) (values : ExchangeValues) : Bool :=
  match window.props.fields.find? (·.id = id) with
  | none => false
  | some field =>
      EntryProps.fieldEditable field && trim (EntryProps.exchangeValue field values) ≠ ""
        && window.props.exchangeValid field values

/-- The field that Enter goes to: the next one, round about, that is blank or not valid. -/
def nextInvalidExchangeField (index : Nat) (values : ExchangeValues) : Option EntryField :=
  let fields := window.props.fields
  (fields.drop (index + 1) ++ fields.take (index + 1)).find? fun field =>
    EntryProps.fieldEditable field
      && (trim (EntryProps.exchangeValue field values) = ""
        || !window.props.exchangeValid field values)

def currentEsmAction (values : ExchangeValues) : EsmAction :=
  esmEnterAction window.esmEnabled window.operatingMode window.callSign
    (window.exchangeFieldsValid values) window.esm

/-- `requestPreviousContactAutofill`, where `found` is what a contact of the log with the callsign
fills in, if there is one. -/
def requestPreviousContactAutofill (found : Option AutofillResult) :
    EntryWindow × ExchangeValues :=
  if window.currentCallsign = "" || window.props.exchange.isNone then
    (window, window.exchangeValues)
  else
    match found with
    | none => (window, window.exchangeValues)
    | some result =>
        (if result.changed then { window with exchangeValues := result.values } else window,
          result.values)

/-- What Enter does with an action, short of logging the contact. -/
def takeEsmAction (rendered : EntryWindow) (action : EsmAction) (values : ExchangeValues) :
    EntryWindow :=
  let corrected :=
    if rendered.operatingMode = .run ∧ action.correctionText ≠ "" then
      let text :=
        if modeIsCw rendered.props.radioMode then some (action.correctionText ++ " ") else none
      window.record (.correction text rendered.currentCallsign)
    else window
  { corrected.pressEsmKeys rendered action.keys values with
    esm := ⟨action.nextRunCallsignAttempt, action.nextExchangeSentCallsign⟩ }

/-- Enter with ESM in a field, the callsign for `none`; nothing where ESM is off. -/
def handleEsmEnter (rendered : EntryWindow) (current : Option String) (altKey : Bool)
    (found : Option AutofillResult) : Option EntryWindow :=
  let onCall := !altKey && current.isNone
  if !rendered.esmEnabled then none
  else if onCall && modeIsCw rendered.props.radioMode && callsignHasQuery rendered.callSign then
    some (window.record (.query rendered.callSign))
  else if onCall && shouldBlockEsmCallEnter rendered.callSign rendered.callsignValid then
    some window
  else
    let values :=
      if current.isNone then (rendered.requestPreviousContactAutofill found).2
      else rendered.exchangeValues
    let filled :=
      if current.isNone then (window.requestPreviousContactAutofill found).1 else window
    if altKey then some (filled.logContact rendered .forced true values)
    else
      let action := rendered.currentEsmAction values
      let next := filled.takeEsmAction rendered action values
      if action.shouldLog then some (next.logContact rendered .esm false values) else some next

/-- What was typed for the radio leaves the field without a callsign. -/
def takeCommand (command : EntryEvent) : EntryWindow :=
  { window with
    callSign := "", esm := ⟨"", ""⟩, pendingBandMapTuneFrequencyHz := none
    events := window.events ++ [command, .cleared] }

/-- Enter in the callsign. -/
def handleCallsignEnter (altKey : Bool) (found : Option AutofillResult) : EntryWindow :=
  let value := trim window.callSign
  if isFrequencyInput value then
    window.takeCommand (.setFrequency (round ((parseFloat value).getD 0 * 1000)))
  else
    match typedModeFromCallsignInput value window.props.modeCatalog with
    | some mode => window.takeCommand (.setMode mode)
    | none =>
        -- The next field that is editable is there to be focused, as is the callsign.
        if window.esmEnabled && window.operatingMode ≠ .run && found.isSome
            && window.currentCallsign ≠ "" && window.props.fields.any EntryProps.fieldEditable then
          (window.requestPreviousContactAutofill found).1
        else
          match window.handleEsmEnter window none altKey found with
          | some next => next
          | none =>
              if window.exchangeFieldsValid window.exchangeValues then
                window.logContact window .enter false window.exchangeValues
              else window

/-- Enter in an exchange field. -/
def handleExchangeEnter (index : Nat) (altKey : Bool) : EntryWindow :=
  let values := window.exchangeValues
  match window.props.fields[index]? with
  | none => window
  | some field =>
      let ofField := window.esmEnabled && !field.fixed
      if window.props.locked then window
      else if ofField && altKey then window.logContact window .forced true values
      else if ofField && window.fieldFilledAndValid field.id values
          && (window.nextInvalidExchangeField index values).isSome then window
      else
        match window.handleEsmEnter window (some field.id) altKey none with
        | some next => next
        | none =>
            if window.exchangeFieldsValid values then
              window.logContact window .enter false values
            else window

end Contacts

/-- A callsign that is entered, or that nothing is left of. -/
def noteCallsign (callsign : String) : EntryWindow :=
  if callsign = "" then window.record .cleared else window.record (.entered callsign)

/-- `handleCallsignChange`, and the click on a word of received text. -/
def setTypedCallsign (callsign : String) : EntryWindow :=
  { window with
    sending := window.sending.stopRepeat
    callSign := callsign
    esm := esmStateAfterCallsignEdit callsign window.esm
    pendingBandMapTuneFrequencyHz := none }.noteCallsign callsign

def handleCallsignChange (value : String) : EntryWindow :=
  if window.props.locked then window else window.setTypedCallsign (sanitizeCallsign value)

/-- A word goes to the callsign only where none is entered. -/
def handleDigitalIoTextClick (word : String) : EntryWindow :=
  if window.props.locked || trim window.callSign ≠ "" || sanitizeCallsign word = "" then window
  else window.setTypedCallsign (sanitizeCallsign word)

/-- A spot of the band map, with the exchange that it brings. -/
def selectSpot (callDx : String) (frequencyHz : Int) (values : ExchangeValues) : EntryWindow :=
  if window.props.locked then window
  else
    let callsign := sanitizeCallsign callDx
    let selected := { window with
      operatingMode := .searchAndPounce
      callSign := callsign
      exchangeValues := values
      pendingBandMapTuneFrequencyHz := if frequencyHz = 0 then none else some frequencyHz }
    if callsign = "" then selected else selected.record (.entered callsign)

/-- The effect of `useFrequencyTracker`. -/
def trackFrequency : EntryWindow :=
  let tracked := { window with previousRadioFrequencyHz := window.props.radioFrequencyHz }
  match loggerFrequencyChangeAction window.previousRadioFrequencyHz window.props.radioFrequencyHz
      (callsignClearThresholdHz window.props.radioMode) window.pendingBandMapTuneFrequencyHz with
  | .ignore => tracked
  | .clearPendingBandMapTune => { tracked with pendingBandMapTuneFrequencyHz := none }
  | .clearLogger =>
      { tracked with operatingMode := .searchAndPounce }.clearEntryFields .cleared

/-- The effect that gives the fields to WSJT-X. -/
def lockFields : EntryWindow :=
  let noted := { window with previousWsjtxDataLocked := window.props.locked }
  if !window.props.locked || window.previousWsjtxDataLocked then noted
  else
    { noted with
      sending := { window.sending.stopMessageSending with repeatRunF1 := false }
      esmEnabled := false
      callSign := ""
      exchangeValues := fun _ => none
      esm := ⟨"", ""⟩
      pendingBandMapTuneFrequencyHz := none
      events := window.events ++ [.cleared] }

end EntryWindow

/-- What happens to the window: a render with other props, what the operator does, what the effects
of the hooks set in the exchange fields, and what the radio and the clock do to the messages. -/
inductive EntryMove where
  | render (props : EntryProps)
  | callsignChange (value : String)
  | callsignEnter (altKey : Bool) (found : Option AutofillResult)
  | exchangeChange (values : ExchangeValues)
  | exchangeEnter (index : Nat) (altKey : Bool)
  | digitalIoTextClick (word : String)
  | selectSpot (callDx : String) (frequencyHz : Int) (values : ExchangeValues)
  | clear
  | logIt
  | pressKey (key : String)
  | setOperatingMode (mode : OperatingMode)
  | setEsmEnabled (checked : Bool)
  | setRepeatRunF1 (checked : Bool)
  | stopMessageSending
  | messageSent (requestId : Nat)
  | messageOvertaken (requestId : Nat)
  | messageTimeout (timer : Nat)

namespace EntryWindow

variable [Platform]

/-- The window opens, with ESM as it was stored. -/
def mount (props : EntryProps) (esmEnabled : Bool) : EntryWindow :=
  { props, esmEnabled, previousRadioFrequencyHz := props.radioFrequencyHz : EntryWindow }.lockFields

variable [RegexEngine] [Browser]

def step (window : EntryWindow) : EntryMove → EntryWindow
  | .render props => { window with props }.trackFrequency.lockFields
  | .callsignChange value => window.handleCallsignChange value
  | .callsignEnter altKey found => window.handleCallsignEnter altKey found
  | .exchangeChange values => { window with exchangeValues := values }
  | .exchangeEnter index altKey => window.handleExchangeEnter index altKey
  | .digitalIoTextClick word => window.handleDigitalIoTextClick word
  | .selectSpot callDx frequencyHz values => window.selectSpot callDx frequencyHz values
  | .clear => window.clearEntryFields .cleared
  | .logIt => window.logContact window .button false window.exchangeValues
  | .pressKey key => window.pressKey key
  | .setOperatingMode mode => { window with operatingMode := mode }
  | .setEsmEnabled checked =>
      if window.props.locked then window else { window with esmEnabled := checked }
  | .setRepeatRunF1 checked =>
      { window with sending := { window.sending with repeatRunF1 := checked } }
  | .stopMessageSending => { window with sending := window.sending.stopMessageSending }
  | .messageSent requestId =>
      window.takeSending .cleared window.currentCallsign
        (window.messageSending.step (.reported requestId))
  | .messageOvertaken requestId =>
      window.takeSending .cleared window.currentCallsign
        (window.messageSending.step (.overtaken requestId))
  | .messageTimeout timer =>
      window.takeSending .cleared window.currentCallsign
        (window.messageSending.step (.timeout timer))

def run (moves : List EntryMove) (window : EntryWindow) : EntryWindow :=
  Runs.run step window moves

end EntryWindow

end Log73.Frontend
