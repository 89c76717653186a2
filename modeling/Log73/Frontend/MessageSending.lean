import Log73.Frontend.Messages
import Log73.Library.Runs

/-!
The function keys of the main window (`useMessageSending.js`, with `messageSendingState.js` and
what it needs of `messages.js` and `modes.js`): the messages that are sent when a key is pressed,
the keys that are shown as active until the radio reports their message, and the CQ that is
repeated for as long as nothing interrupts it. The state holds the refs and the React state of
the hook with the timeouts the browser runs for it; the props are those of its last render.
-/

namespace Log73.Frontend

open RadioIo (ParsedMessageEntry runMessageMode searchAndPounceMessageMode)

section Templates

def isFieldCharacter (c : Char) : Bool := isAsciiUppercase c || isAsciiDigit c || c = '_'

/-- What `[A-Z][A-Z0-9_]*` and a closing brace match behind an opening one. -/
def fieldName : List Char → Option (List Char × List Char)
  | [] => none
  | c :: cs =>
      match cs.dropWhile isFieldCharacter with
      | [] => none
      | closing :: rest =>
          if isAsciiUppercase c && closing = '\x7d' then
            some (c :: cs.takeWhile isFieldCharacter, rest)
          else none

theorem length_fieldName {cs name rest : List Char} (h : fieldName cs = some (name, rest)) :
    rest.length < cs.length := by
  cases cs with
  | nil => cases h
  | cons c cs =>
      have hdrop := List.length_dropWhile_le isFieldCharacter cs
      rw [fieldName] at h
      split at h
      · cases h
      · next closing others hrest =>
          split at h
          · cases h
            rw [hrest, List.length_cons] at hdrop
            rw [List.length_cons]
            omega
          · cases h

/-- `replace` with the pattern of a field in braces. -/
def replaceFields (value : String → String) : List Char → List Char
  | [] => []
  | c :: cs =>
      match _hname : if c = '\x7b' then fieldName cs else none with
      | some (name, rest) => (value (String.ofList name)).toList ++ replaceFields value rest
      | none => c :: replaceFields value cs
termination_by cs => cs.length
decreasing_by
  · split at _hname
    · have := length_fieldName _hname
      rw [List.length_cons]
      omega
    · cases _hname
  · exact Nat.lt_succ_self _

/-- `replaceAll` of the field that stands for a line break. -/
def replaceNewlines : List Char → List Char
  | [] => []
  | c :: cs =>
      if "\x7bNEWLINE\x7d".toList.isPrefixOf (c :: cs) then '\n' :: replaceNewlines (cs.drop 8)
      else c :: replaceNewlines cs
termination_by cs => cs.length
decreasing_by all_goals simp only [List.length_drop, List.length_cons]; omega

variable [Platform]

def modeIsPhone (mode : String) : Bool := ["SSB", "FM", "AM"].contains (toUpperCase (trim mode))

def modeIsDigital (mode : String) : Bool := ["DATA", "RTTY"].contains (toUpperCase (trim mode))

def normalizeMessageMode (mode : String) : String :=
  if toAsciiLowercase (trim mode) = "run" then runMessageMode else searchAndPounceMessageMode

def messageEntryForConfig (config : Option String) (mode key : String) :
    Option ParsedMessageEntry :=
  let normalizedMode := normalizeMessageMode mode
  let normalizedKey := toUpperCase (trim key)
  if normalizedKey.isEmpty then none
  else
    (parseMessageEntries (config.getD "")).find? fun candidate =>
      candidate.mode = normalizedMode && candidate.key = normalizedKey

def messageActionForConfig (config : Option String) (mode key : String) : Option String :=
  (messageEntryForConfig config mode key).bind fun entry => actionFromTemplate entry.target

/-- The fields a message can name, with the texts of their values. -/
abbrev MessageFields := String → Option String

def messageFieldText (fields : MessageFields) (key : String) : String := trim ((fields key).getD "")

def cutNumberText (value : Option String) : String :=
  String.ofList ((toUpperCase (trim (value.getD ""))).toList.map fun c =>
    if c = '9' then 'N' else c)

def renderMessageTemplate (template : String) (fields : MessageFields) : String :=
  trim (String.ofList (replaceFields (fun key =>
    if key = "RST_SENT" || key = "SENTRSTCUT" then cutNumberText (fields "RST_SENT")
    else messageFieldText fields key) template.toList))

def renderMessageForConfig (config : Option String) (mode key : String) (fields : MessageFields)
    (replaceNewline : Bool) : Option String :=
  match messageEntryForConfig config mode key with
  | none => none
  | some entry =>
      if (actionFromTemplate entry.target).isSome then none
      else
        let template :=
          if replaceNewline then String.ofList (replaceNewlines entry.target.toList)
          else entry.target
        some (renderMessageTemplate template fields)

end Templates

structure MessageLabel where
  key : String
  label : String

/-- The labels of the function keys in each message mode. -/
abbrev MessageLabels := String → Option (List MessageLabel)

def defaultMessageLabels : List MessageLabel :=
  (List.range 12).map fun index => { key := s!"F{index + 1}", label := "-" }

def messageButtonIsSendable (button : Option MessageLabel) : Bool :=
  trim ((button.map (·.label)).getD "") ≠ "-"

structure SendableMessage where
  key : String
  text : String

structure MessageBatch where
  keys : List String
  text : String

/-- What goes out in one request: each message by itself, or all of them as one text. -/
def messageSendBatches (messages : List SendableMessage) (separateMessages : Bool) :
    List MessageBatch :=
  if messages.isEmpty then []
  else if separateMessages then messages.map fun message => ⟨[message.key], message.text⟩
  else [⟨messages.map (·.key), joinWith " " (messages.map (·.text))⟩]

/-- The props of a render. `fields` is what `currentMessageFields` returns in it. -/
structure MessageProps where
  radioMode : String := ""
  messageModeKey : String := runMessageMode
  cwMessages : Option String := none
  voiceMessages : Option String := none
  digitalMessages : Option String := none
  messageLabels : Option MessageLabels := none
  cwLabels : Option MessageLabels := none
  voiceLabels : Option MessageLabels := none
  digitalLabels : Option MessageLabels := none
  fields : MessageFields := fun _ => none
  currentCallsign : String := ""
  messageSendingEnabled : Bool := true

namespace MessageProps

variable [Platform] (props : MessageProps)

def labels : Option MessageLabels :=
  if modeIsPhone props.radioMode then props.voiceLabels
  else if modeIsDigital props.radioMode then
    (props.digitalLabels.or props.cwLabels).or props.messageLabels
  else props.cwLabels.or props.messageLabels

def config : Option String :=
  if modeIsPhone props.radioMode then props.voiceMessages
  else if modeIsDigital props.radioMode then props.digitalMessages.or props.cwMessages
  else props.cwMessages

/-- `messageActionForRadioMode`, with the configuration of CW where there is no digital one. -/
def action (mode key : String) : Option String := messageActionForConfig props.config mode key

def button (mode key : String) : Option MessageLabel :=
  ((props.labels.bind fun labels => labels mode).getD defaultMessageLabels).find? (·.key = key)

end MessageProps

/-- What the hook asks of the rest of the window. -/
inductive SendingEvent where
  | sendText (requestId : Nat) (text : String)
  | stopKeying
  | clearEntryFields
  | storeCurrentCqFrequency
  | markEsmExchangeSent

/-- What a timeout of the hook does. -/
inductive MessageTimer where
  | clearMessageRequest (requestId : Nat)
  | repeatRunF1
  deriving DecidableEq

/-- `unanswered` are the texts that the radio has not reported, and `loop` the requests of the
repetition that is going on. -/
structure MessageSending where
  props : MessageProps := {}
  repeatRunF1 : Bool := false
  activeMessageKeys : List String := []
  repeatActive : Bool := false
  repeatRequestId : Option Nat := none
  repeatTimeout : Option Nat := none
  activeMessageRequests : List (Nat × List String) := []
  activeMessageTimeouts : List (Nat × Nat) := []
  timers : List (Nat × MessageTimer) := []
  nextRequest : Nat := 0
  nextTimer : Nat := 0
  mounted : Bool := true
  events : List SendingEvent := []
  unanswered : List Nat := []
  loop : List Nat := []

def activeMessageKeysFromRequests (requests : List (Nat × List String)) : List String :=
  (requests.flatMap Prod.snd).eraseDups

namespace MessageSending

variable (sending : MessageSending)

def record (event : SendingEvent) : MessageSending :=
  { sending with events := sending.events ++ [event] }

def clearTimeout (timer : Nat) : MessageSending :=
  { sending with timers := sending.timers.filter (·.1 ≠ timer) }

def stopRepeat : MessageSending :=
  let cleared := sending.repeatTimeout.elim sending sending.clearTimeout
  { cleared with
    repeatActive := false, repeatRequestId := none, repeatTimeout := none, loop := [] }

def clearMessageRequest (requestId : Nat) : MessageSending :=
  if (sending.activeMessageRequests.lookup requestId).isNone then sending
  else
    let requests := sending.activeMessageRequests.filter (·.1 ≠ requestId)
    let cleared :=
      (sending.activeMessageTimeouts.lookup requestId).elim sending sending.clearTimeout
    { cleared with
      activeMessageRequests := requests
      activeMessageTimeouts := sending.activeMessageTimeouts.filter (·.1 ≠ requestId)
      activeMessageKeys := activeMessageKeysFromRequests requests }

def markMessageKeyActive (requestId : Nat) (keys : List String) : MessageSending :=
  let requests := sending.activeMessageRequests ++ [(requestId, keys)]
  { sending with
    activeMessageRequests := requests
    activeMessageKeys := activeMessageKeysFromRequests requests
    timers := sending.timers ++ [(sending.nextTimer, .clearMessageRequest requestId)]
    activeMessageTimeouts := sending.activeMessageTimeouts ++ [(requestId, sending.nextTimer)]
    nextTimer := sending.nextTimer + 1 }

def clearAllMessageRequests : MessageSending :=
  { sending with
    timers := sending.timers.filter fun timer =>
      !(sending.activeMessageTimeouts.map Prod.snd).contains timer.1
    activeMessageTimeouts := []
    activeMessageRequests := []
    activeMessageKeys := [] }

/-- One batch: it is marked and handed to the radio under a request id of its own. -/
def sendBatch (batch : MessageBatch) : MessageSending :=
  let requestId := sending.nextRequest
  let marked := { sending with nextRequest := requestId + 1 }.markMessageKeyActive
      requestId batch.keys
  { marked.record (.sendText requestId batch.text) with
    unanswered := marked.unanswered ++ [requestId] }

/-- The batches one after another, with the request ids they were given. -/
def sendBatches : List MessageBatch → MessageSending → MessageSending × List Nat
  | [], sending => (sending, [])
  | batch :: batches, sending =>
      let sent := sendBatches batches (sending.sendBatch batch)
      (sent.1, sending.nextRequest :: sent.2)

variable [Platform]

/-- A key that is pressed: its action is carried out, or its text is one of those to send. -/
def prepareKey (mode : String) (values : MessageFields) (key : String) :
    MessageSending × Option SendableMessage :=
  let props := sending.props
  if (props.action mode key).any fun action => toAsciiLowercase (trim action) = "clear" then
    (sending.record .clearEntryFields, none)
  else if !messageButtonIsSendable (props.button mode key) then (sending, none)
  else
    match renderMessageForConfig props.config mode key values (modeIsDigital props.radioMode) with
    | none => (sending, none)
    | some text =>
        if text.isEmpty then (sending, none)
        else if mode = runMessageMode && key = "F1" then
          (sending.record .storeCurrentCqFrequency, some ⟨key, text⟩)
        else (sending, some ⟨key, text⟩)

def prepareKeys (mode : String) (values : MessageFields) :
    List String → MessageSending → MessageSending × List SendableMessage
  | [], sending => (sending, [])
  | key :: keys, sending =>
      let first := sending.prepareKey mode values key
      let rest := prepareKeys mode values keys first.1
      (rest.1, first.2.toList ++ rest.2)

def sendMessageKeys (keys : List String) (mode : String) (values : MessageFields) :
    MessageSending × List Nat :=
  let prepared := prepareKeys mode values keys sending
  if !prepared.1.props.messageSendingEnabled then (prepared.1, [])
  else sendBatches (messageSendBatches prepared.2 (modeIsPhone prepared.1.props.radioMode))
    prepared.1

/-- What both ways of pressing keys do once the messages are out. -/
def afterSending (sent : MessageSending × List Nat) (exchange shouldRepeat : Bool) :
    MessageSending :=
  match sent.2 with
  | [] => sent.1
  | requestId :: _ =>
      let marked := if exchange then sent.1.record .markEsmExchangeSent else sent.1
      if shouldRepeat then
        { marked with
          repeatActive := true, repeatRequestId := some requestId, loop := [requestId] }
      else marked

def sendMessageKey (key : String) : MessageSending :=
  let shouldRepeat :=
    sending.props.messageModeKey = runMessageMode && key = "F1" && sending.repeatRunF1
  let sent := sending.stopRepeat.sendMessageKeys [key] sending.props.messageModeKey
      sending.props.fields
  afterSending sent (key = "F2") shouldRepeat

/-- `values` are the fields with the exchange that the caller gives, if it gives one. -/
def sendEsmKeys (keys : List String) (values : Option MessageFields) : MessageSending :=
  let shouldRepeat :=
    sending.props.messageModeKey = runMessageMode && keys = ["F1"] && sending.repeatRunF1
  let sent := sending.stopRepeat.sendMessageKeys keys sending.props.messageModeKey
    (values.getD sending.props.fields)
  afterSending sent (keys.contains "F2") shouldRepeat

omit [Platform] in
def stopMessageSending : MessageSending :=
  sending.stopRepeat.clearAllMessageRequests.record .stopKeying

omit [Platform] in
def unmount : MessageSending :=
  { sending.stopRepeat.clearAllMessageRequests with mounted := false }

/-- The repetition goes on, unless a callsign was entered in the meantime. -/
def repeatSend : MessageSending :=
  let fired := { sending with repeatTimeout := none }
  if !fired.repeatActive || trim fired.props.currentCallsign ≠ "" then fired.stopRepeat
  else
    let sent := fired.sendMessageKeys ["F1"] runMessageMode fired.props.fields
    { sent.1 with
      repeatRequestId := sent.2.head?
      loop := sent.1.loop ++ sent.2.head?.toList }

omit [Platform] in
/-- The effect that a `message_sent` of the radio has. -/
def messageSent (requestId : Nat) : MessageSending :=
  let cleared := sending.clearMessageRequest requestId
  if !cleared.repeatActive || cleared.repeatRequestId ≠ some requestId then cleared
  else
    { cleared with
      repeatTimeout := some cleared.nextTimer
      timers := cleared.timers ++ [(cleared.nextTimer, .repeatRunF1)]
      nextTimer := cleared.nextTimer + 1 }

/-- A timeout that is still set elapses. -/
def timeout (timer : Nat) : MessageSending :=
  match sending.timers.lookup timer with
  | none => sending
  | some (.clearMessageRequest requestId) =>
      { sending with timers := sending.timers.filter (·.1 ≠ timer) }.clearMessageRequest requestId
  | some .repeatRunF1 =>
      { sending with timers := sending.timers.filter (·.1 ≠ timer) }.repeatSend

end MessageSending

/-- What happens to the hook: a render with other props, what the operator does, the radio's
report of a text it was given, which another one can overtake before it is rendered, the end of
a timeout, or that the window goes away. -/
inductive SendingMove where
  | render (props : MessageProps)
  | setRepeatRunF1 (checked : Bool)
  | sendMessageKey (key : String)
  | sendEsmKeys (keys : List String) (values : Option MessageFields)
  | stopMessageSending
  | stopRepeat
  | reported (requestId : Nat)
  | overtaken (requestId : Nat)
  | timeout (timer : Nat)
  | unmount

namespace SendingMove

/-- Whether the operator asks for a message. -/
def presses : SendingMove → Bool
  | sendMessageKey _ | sendEsmKeys _ _ => true
  | _ => false

end SendingMove

namespace MessageSending

def takeReport (sending : MessageSending) (requestId : Nat) : MessageSending :=
  { sending with unanswered := sending.unanswered.filter (· ≠ requestId) }

variable [Platform]

/-- The radio reports a text once at most. -/
def react (sending : MessageSending) : SendingMove → MessageSending
  | .render props => { sending with props }
  | .setRepeatRunF1 checked => { sending with repeatRunF1 := checked }
  | .sendMessageKey key => sending.sendMessageKey key
  | .sendEsmKeys keys values => sending.sendEsmKeys keys values
  | .stopMessageSending => sending.stopMessageSending
  | .stopRepeat => sending.stopRepeat
  | .reported requestId =>
      if sending.unanswered.contains requestId then
        (sending.takeReport requestId).messageSent requestId
      else sending
  | .overtaken requestId => sending.takeReport requestId
  | .timeout timer => sending.timeout timer
  | .unmount => sending.unmount

def step (sending : MessageSending) (move : SendingMove) : MessageSending :=
  if sending.mounted then sending.react move else sending

def run (moves : List SendingMove) (sending : MessageSending) : MessageSending :=
  Runs.run step sending moves

end MessageSending

end Log73.Frontend
