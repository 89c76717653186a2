import Log73.Frontend.EntryWindow
import Log73.Frontend.MessageRepeat
import Log73.Library.Histories
import Log73.Validation.Accepted

/-!
What is logged with ESM. The callsign for which the exchange key was pressed is kept
until the entry is cleared, so that Enter logs only a contact for which it was pressed:
with the callsign that was named, which is the one of the key or a correction of it.
Whether a text goes out is up to the radio.
-/

namespace Log73.Frontend

open Histories
open RadioIo (runMessageMode)

namespace EntryEvent

/-- The callsign is the one the exchange key is pressed for, or the correction of another one. -/
def Announces (callsign : String) : EntryEvent → Prop
  | pressed keys named => "F2" ∈ keys ∧ named = callsign
  | correction _ corrected => corrected = callsign
  | _ => False

def SendsExchange : EntryEvent → Prop
  | pressed keys named => "F2" ∈ keys ∧ named ≠ ""
  | _ => False

def Clears : EntryEvent → Prop
  | cleared => True
  | _ => False

/-- The callsign that was entered before is not the one to log any more. -/
def Replaces : EntryEvent → Prop
  | entered _ | cleared | logged .. => True
  | _ => False

end EntryEvent

open EntryEvent

/-- The exchange key was pressed since the entry was cleared, and the callsign was named. -/
def Told (callsign : String) (events : List EntryEvent) : Prop :=
  Since (Announces callsign) Clears events ∧ Since SendsExchange Clears events

theorem Told.append {callsign : String} {events later : List EntryEvent}
    (h : Told callsign events) (hlater : ∀ e ∈ later, ¬e.Clears) :
    Told callsign (events ++ later) :=
  ⟨h.1.append hlater, h.2.append hlater⟩

section Texts

/-- The characters that are left in the callsign field. -/
def CallsignInput (s : String) : Prop := ∀ c ∈ s.toList, isCallsignInput c = true

theorem isCallsignInput_range {c : Char} (h : isCallsignInput c = true) :
    47 ≤ c.toNat ∧ c.toNat ≤ 90 := by
  rw [isCallsignInput, Bool.or_eq_true] at h
  cases h with
  | inl hchar => exact Validation.isCallsignChar_range hchar
  | inr hquery =>
      rw [of_decide_eq_true hquery]
      decide

theorem callsignInput_empty : CallsignInput "" := fun _ hmem => (List.not_mem_nil hmem).elim

theorem CallsignInput.trim_eq {s : String} (h : CallsignInput s) : trim s = s := by
  have hspace : ∀ c ∈ s.toList, Log73.isWhitespace c = false := by
    intro c hmem
    have hrange := isCallsignInput_range (h c hmem)
    exact isWhitespace_of_printable (by omega) (by omega)
  rw [Frontend.trim_eq, Log73.trim, trimChars_eq_self hspace, String.ofList_toList]
  intro c hmem
  have hrange := isCallsignInput_range (h c hmem)
  omega

variable [Platform]

theorem CallsignInput.toUppercase_eq {s : String} (h : CallsignInput s) : toUppercase s = s := by
  have hself : ∀ c ∈ s.toList, upperChar c = [c] := by
    intro c hmem
    have hrange := isCallsignInput_range (h c hmem)
    rw [upperChar, if_pos (by omega)]
    congr 1
    apply Char.toNat_inj.mp
    rw [toNat_toUpper, if_neg (by omega)]
  rw [toUppercase, List.flatMap_congr hself]
  simp

theorem CallsignInput.normal {s : String} (h : CallsignInput s) : toUpperCase (trim s) = s := by
  rw [h.trim_eq, toUpperCase, h.toUppercase_eq]

theorem callsignInput_sanitize (value : String) : CallsignInput (sanitizeCallsign value) := by
  intro c hmem
  rw [sanitizeCallsign, String.toList_ofList] at hmem
  exact (List.mem_filter.mp ((List.take_subset 12 _) hmem)).2

/-- A text from which the callsign is known to whom the other one was told: the callsign, or what
follows the prefix that the two have in common. -/
def Completes (told text callsign : String) : Prop :=
  text = callsign ++ " " ∨ ∃ pfx rest, callsignPrefix told = some pfx
    ∧ callsignPrefix callsign = some pfx ∧ callsign = pfx ++ rest ∧ rest ≠ "" ∧ text = rest ++ " "

/-- Where there is a correction, another callsign was told before. -/
theorem correctedEsmCallsignText_spec {sent call : String} (hsent : CallsignInput sent)
    (hcall : CallsignInput call) (h : correctedEsmCallsignText sent call ≠ "") :
    sent ≠ "" ∧ sent ≠ call
      ∧ Completes sent (correctedEsmCallsignText sent call ++ " ") call := by
  simp only [correctedEsmCallsignText, hsent.normal, hcall.normal] at h ⊢
  split at h
  · exact absurd rfl h
  · next hne =>
      rw [if_neg hne]
      push Not at hne
      refine ⟨hne.1, hne.2.2, ?_⟩
      split
      · next sentPrefix correctedPrefix hsentPrefix hcorrectedPrefix =>
          split
          · exact Or.inl rfl
          · next hsame =>
              push Not at hsame
              obtain ⟨-, rfl, hstarts⟩ := hsame
              rw [ne_eq, Bool.not_eq_false, startsWith, List.isPrefixOf_iff_prefix] at hstarts
              obtain ⟨rest, hrest⟩ := hstarts
              rw [← hrest, List.drop_left]
              split
              · exact Or.inl rfl
              · next hnonempty =>
                  refine Or.inr ⟨sentPrefix, String.ofList rest, hsentPrefix, hcorrectedPrefix, ?_,
                    hnonempty, rfl⟩
                  apply String.toList_inj.mp
                  rw [String.toList_append, String.toList_ofList, hrest]
      · exact Or.inl rfl

end Texts

variable [Platform]

/-- What comes before an event of the window that a contact is logged or a callsign corrected in. -/
def Justifies (before : List EntryEvent) : EntryEvent → Prop
  | .logged cause contact =>
      Since (· = .entered contact.call) Replaces before
        ∧ (cause ≠ .forced →
          contact.force = false ∧ validateCallsign contact.call false = .ok ())
        ∧ (cause = .esm → Told contact.call before)
  | .correction text callsign =>
      ∃ told, told ≠ "" ∧ told ≠ callsign ∧ Told told before
        ∧ ∀ sent, text = some sent → Completes told sent callsign
  | _ => True

/-- What Enter does next with ESM. -/
structure EsmAction.Follows (mode : OperatingMode) (sent call : String) (action : EsmAction) :
    Prop where
  next : action.nextExchangeSentCallsign = "" ∨ action.nextExchangeSentCallsign = sent
    ∨ action.nextExchangeSentCallsign = call
      ∧ ("F2" ∈ action.keys ∨ mode = .run ∧ action.correctionText ≠ "")
  logs : action.shouldLog = true → action.nextExchangeSentCallsign = call
  corrects : action.correctionText ≠ "" → action.correctionText = correctedEsmCallsignText sent call

theorem follows_esmEnterAction (mode : OperatingMode) {callsign : String} (valid : Bool)
    {state : EsmState} (hcall : CallsignInput callsign)
    (hsent : CallsignInput state.exchangeSentCallsign) :
    (esmEnterAction true mode callsign valid state).Follows mode state.exchangeSentCallsign
      callsign := by
  have hplain {next : String} {keys : List String} {attempt : String}
      (hnext : next = "" ∨ next = state.exchangeSentCallsign ∨ next = callsign ∧ "F2" ∈ keys) :
      EsmAction.Follows mode state.exchangeSentCallsign callsign
        { keys, nextRunCallsignAttempt := attempt, nextExchangeSentCallsign := next } :=
    ⟨hnext.imp_right (Or.imp_right (And.imp_right Or.inl)), fun h => Bool.noConfusion h,
      fun h => absurd rfl h⟩
  simp only [esmEnterAction, hcall.normal, hsent.normal, Bool.not_true, Bool.false_eq_true,
    if_false]
  generalize hcorrected : correctedEsmCallsignText state.exchangeSentCallsign callsign = text
  split
  · exact hplain (Or.inl rfl)
  · split
    · split
      · exact hplain (Or.inr (Or.inl rfl))
      · split
        · exact hplain (Or.inr (Or.inl rfl))
        · exact hplain (Or.inr (Or.inr ⟨rfl, by simp⟩))
    · split
      · next hrun =>
          split
          · next hsame => exact ⟨Or.inr (Or.inl hsame.symm), fun _ => rfl, fun h => absurd rfl h⟩
          · split
            · next hcorrection =>
                exact ⟨Or.inr (Or.inr ⟨rfl, Or.inr ⟨hrun, hcorrection⟩⟩), fun _ => rfl,
                  fun _ => hcorrected.symm⟩
            · exact hplain (Or.inr (Or.inr ⟨rfl, by simp⟩))
      · split
        · next hsame => exact ⟨Or.inr (Or.inl hsame.symm), fun _ => rfl, fun h => absurd rfl h⟩
        · exact ⟨Or.inr (Or.inr ⟨rfl, Or.inl (by simp)⟩), fun _ => rfl, fun h => absurd rfl h⟩

section Asked

omit [Platform]

namespace MessageSending

/-- Only more is asked of the window; that the exchange is marked as sent where `marks` holds. -/
def Asks (marks : Prop) (before after : MessageSending) : Prop :=
  ∃ asked, after.events = before.events ++ asked ∧ (.markEsmExchangeSent ∈ asked → marks)

variable {marks : Prop} {first second third : MessageSending}

theorem Asks.of_events (h : second.events = first.events) : Asks marks first second :=
  ⟨[], h.trans (List.append_nil _).symm, fun hmem => (List.not_mem_nil hmem).elim⟩

theorem Asks.trans (h : Asks marks first second) (h' : Asks marks second third) :
    Asks marks first third := by
  obtain ⟨asked, hasked, hmarks⟩ := h
  obtain ⟨later, hlater, hmarks'⟩ := h'
  refine ⟨asked ++ later, by rw [hlater, hasked, List.append_assoc], fun hmem => ?_⟩
  exact (List.mem_append.mp hmem).elim hmarks hmarks'

theorem asks_record (sending : MessageSending) {event : SendingEvent}
    (h : event = .markEsmExchangeSent → marks) : Asks marks sending (sending.record event) :=
  ⟨[event], rfl, fun hmem => h (List.mem_singleton.mp hmem).symm⟩

theorem asks_sendBatches (batches : List MessageBatch) (sending : MessageSending) :
    Asks marks sending (sendBatches batches sending).1 := by
  induction batches generalizing sending with
  | nil => exact .of_events rfl
  | cons batch batches ih =>
      refine Asks.trans ⟨[.sendText sending.nextRequest batch.text], rfl, fun hmem => ?_⟩ (ih _)
      cases List.mem_singleton.mp hmem

variable [Platform]

theorem asks_prepareKey (sending : MessageSending) (mode : String) (values : MessageFields)
    (key : String) : Asks marks sending (sending.prepareKey mode values key).1 := by
  simp only [prepareKey]
  split
  · exact asks_record sending fun h => by cases h
  · split
    · exact .of_events rfl
    · split
      · exact .of_events rfl
      · split
        · exact .of_events rfl
        · split
          · exact asks_record sending fun h => by cases h
          · exact .of_events rfl

theorem asks_prepareKeys (mode : String) (values : MessageFields) (keys : List String)
    (sending : MessageSending) : Asks marks sending (prepareKeys mode values keys sending).1 := by
  induction keys generalizing sending with
  | nil => exact .of_events rfl
  | cons key keys ih =>
      rw [prepareKeys]
      exact (asks_prepareKey sending mode values key).trans
        (ih (sending.prepareKey mode values key).1)

theorem asks_sendMessageKeys (sending : MessageSending) (keys : List String) (mode : String)
    (values : MessageFields) :
    Asks marks sending (sending.sendMessageKeys keys mode values).1 := by
  have hprepared : Asks marks sending (prepareKeys mode values keys sending).1 :=
    asks_prepareKeys mode values keys sending
  simp only [sendMessageKeys]
  split
  · exact hprepared
  · exact hprepared.trans (asks_sendBatches _ _)

omit [Platform] in
theorem asks_afterSending {sent : MessageSending × List Nat} {exchange : Bool}
    (h : Asks marks first sent.1) (hmarks : exchange = true → marks) (shouldRepeat : Bool) :
    Asks marks first (afterSending sent exchange shouldRepeat) := by
  rw [afterSending]
  split
  · exact h
  · have hmarked : Asks marks first
        (if exchange then sent.1.record .markEsmExchangeSent else sent.1) := by
      split
      · next hexchange => exact h.trans (asks_record _ fun _ => hmarks hexchange)
      · exact h
    simp only
    split
    · exact hmarked.trans (.of_events rfl)
    · exact hmarked

omit [Platform] in
theorem asks_stopRepeat (sending : MessageSending) : Asks marks sending sending.stopRepeat :=
  .of_events (by rw [stopRepeat_eq])

theorem asks_sendMessageKey (sending : MessageSending) (key : String) :
    Asks (key = "F2") sending (sending.sendMessageKey key) := by
  rw [sendMessageKey]
  exact asks_afterSending ((asks_stopRepeat sending).trans (asks_sendMessageKeys _ _ _ _))
    of_decide_eq_true _

theorem asks_sendEsmKeys (sending : MessageSending) (keys : List String)
    (values : Option MessageFields) : Asks True sending (sending.sendEsmKeys keys values) := by
  rw [sendEsmKeys]
  exact asks_afterSending ((asks_stopRepeat sending).trans (asks_sendMessageKeys _ _ _ _))
    (fun _ => trivial) _

omit [Platform] in
theorem asks_clearMessageRequest (sending : MessageSending) (requestId : Nat) :
    Asks marks sending (sending.clearMessageRequest requestId) :=
  .of_events (by rw [clearMessageRequest_eq])

omit [Platform] in
theorem asks_messageSent (sending : MessageSending) (requestId : Nat) :
    Asks marks sending (sending.messageSent requestId) := by
  have hcleared : Asks marks sending (sending.clearMessageRequest requestId) :=
    asks_clearMessageRequest sending requestId
  simp only [messageSent]
  split
  · exact hcleared
  · exact hcleared.trans (.of_events rfl)

theorem asks_repeatSend (sending : MessageSending) : Asks marks sending sending.repeatSend := by
  have hfired : Asks marks sending { sending with repeatTimeout := none } := .of_events rfl
  rw [repeatSend]
  generalize { sending with repeatTimeout := none } = fired at hfired
  have hsent := hfired.trans (asks_sendMessageKeys fired ["F1"] runMessageMode fired.props.fields)
  simp only
  split
  · exact hfired.trans (asks_stopRepeat fired)
  · generalize fired.sendMessageKeys ["F1"] runMessageMode fired.props.fields = sent at hsent ⊢
    exact hsent.trans (.of_events rfl)

/-- What the radio reports and the clock brings about marks no exchange as sent. -/
theorem asks_step (sending : MessageSending) {move : SendingMove}
    (hmove : (∃ requestId, move = .reported requestId) ∨ (∃ requestId, move = .overtaken requestId)
      ∨ ∃ timer, move = .timeout timer) :
    Asks False sending (sending.step move) := by
  rw [step]
  split
  · obtain ⟨requestId, rfl⟩ | ⟨requestId, rfl⟩ | ⟨timer, rfl⟩ := hmove
    · rw [react]
      split
      · exact Asks.trans (.of_events rfl) (asks_messageSent (sending.takeReport requestId) _)
      · exact .of_events rfl
    · exact .of_events rfl
    · have hended : Asks False sending
          { sending with timers := sending.timers.filter (·.1 ≠ timer) } := .of_events rfl
      rw [react, timeout]
      split
      · exact .of_events rfl
      · exact hended.trans (asks_clearMessageRequest _ _)
      · exact hended.trans (asks_repeatSend _)
  · exact .of_events rfl

end MessageSending

end Asked

namespace EntryWindow

section Soundness

/-- The callsign in the field is the one that was entered last, and the one whose exchange was sent
was told, or is about to be. -/
structure Sound (pending : String → Prop) (window : EntryWindow) : Prop where
  input : CallsignInput window.callSign
  sentInput : CallsignInput window.esm.exchangeSentCallsign
  told : window.esm.exchangeSentCallsign ≠ "" → pending window.esm.exchangeSentCallsign ∨
    Told window.esm.exchangeSentCallsign window.events
  entered : window.callSign ≠ "" → Since (· = .entered window.callSign) Replaces window.events
  justified : Justified Justifies window.events

variable {pending : String → Prop} {window : EntryWindow}

theorem Sound.currentCallsign_eq (h : window.Sound pending) :
    window.currentCallsign = window.callSign := h.input.normal

theorem Sound.of_same {next : EntryWindow} (h : window.Sound pending)
    (hcall : next.callSign = window.callSign)
    (hsent : next.esm.exchangeSentCallsign = window.esm.exchangeSentCallsign)
    (hevents : next.events = window.events) : next.Sound pending where
  input := hcall ▸ h.input
  sentInput := hsent ▸ h.sentInput
  told := by
    rw [hsent, hevents]
    exact h.told
  entered := by
    rw [hcall, hevents]
    exact h.entered
  justified := hevents ▸ h.justified

/-- A window without a callsign, where nothing is known to be sent. -/
theorem sound_emptied (hcall : window.callSign = "") (hsent : window.esm.exchangeSentCallsign = "")
    (hevents : Justified Justifies window.events) : window.Sound pending where
  input := hcall ▸ callsignInput_empty
  sentInput := hsent ▸ callsignInput_empty
  told hne := absurd hsent hne
  entered hne := absurd hcall hne
  justified := hevents

/-- What is noted leaves the callsigns as they are. -/
theorem Sound.record (h : window.Sound pending) {event : EntryEvent}
    (hevent : Justifies window.events event) (hclears : ¬event.Clears)
    (hreplaces : ¬event.Replaces) : (window.record event).Sound pending where
  input := h.input
  sentInput := h.sentInput
  told hne := (h.told hne).imp_right fun htold =>
    htold.append (List.forall_mem_singleton.mpr hclears)
  entered hne := (h.entered hne).concat hreplaces
  justified := h.justified.concat hevent

theorem Sound.clearEntryFields (h : window.Sound pending) {event : EntryEvent}
    (hevent : ∀ events, Justifies events event) :
    (window.clearEntryFields event).Sound pending := by
  rw [EntryWindow.clearEntryFields]
  split
  · exact h
  · exact sound_emptied rfl rfl (h.justified.concat (hevent _))

/-- An event that says who clears the fields. -/
def SaysCleared (event : EntryEvent) : Prop := event = .cleared ∨ event = .clearedByKey

theorem SaysCleared.justifies {event : EntryEvent} (h : SaysCleared event)
    (events : List EntryEvent) : Justifies events event := by
  cases h with
  | inl heq => exact heq ▸ trivial
  | inr heq => exact heq ▸ trivial

theorem Sound.react (h : window.Sound pending) {event : EntryEvent} (hevent : SaysCleared event)
    {callsign : String} (hinput : CallsignInput callsign) {asked : SendingEvent}
    (hasked : asked = .markEsmExchangeSent → callsign ≠ "" → pending callsign) :
    (EntryWindow.react event callsign window asked).Sound pending := by
  cases asked with
  | clearEntryFields => exact h.clearEntryFields hevent.justifies
  | markEsmExchangeSent =>
      rw [EntryWindow.react]
      split
      · exact h
      · next hne =>
          exact ⟨h.input, hinput, fun _ => Or.inl (hasked rfl hne), h.entered, h.justified⟩
  | sendText requestId text => exact h
  | stopKeying => exact h
  | storeCurrentCqFrequency => exact h

theorem Sound.foldl_react {event : EntryEvent} (hevent : SaysCleared event) {callsign : String}
    (hinput : CallsignInput callsign) {asked : List SendingEvent}
    (hasked : .markEsmExchangeSent ∈ asked → callsign ≠ "" → pending callsign)
    (h : window.Sound pending) :
    (asked.foldl (EntryWindow.react event callsign) window).Sound pending := by
  induction asked generalizing window with
  | nil => exact h
  | cons first asked ih =>
      refine ih (fun hmem => hasked (List.mem_cons_of_mem first hmem)) ?_
      exact h.react hevent hinput fun heq => hasked (heq ▸ List.mem_cons_self)

theorem Sound.takeSending (h : window.Sound pending) {event : EntryEvent}
    (hevent : SaysCleared event) {callsign : String} (hinput : CallsignInput callsign)
    {marks : Prop} {sending : MessageSending} (hasks : window.sending.Asks marks sending)
    (hmarks : marks → callsign ≠ "" → pending callsign) :
    (window.takeSending event callsign sending).Sound pending := by
  obtain ⟨asked, hasked, hmem⟩ := hasks
  rw [EntryWindow.takeSending, hasked, List.drop_left]
  refine Sound.foldl_react hevent hinput (fun hmark => hmarks (hmem hmark)) ?_
  exact h.of_same rfl rfl rfl

end Soundness

section Continuing

/-- The window goes on under the same props, and what it notes takes no callsign away. -/
structure Continues (before after : EntryWindow) : Prop where
  props : after.props = before.props
  noted : GrowsBy (fun e => ¬e.Clears ∧ ¬e.Replaces) before.events after.events

variable {first second third window : EntryWindow}

section Growing

omit [Platform]

theorem Continues.of_same (hprops : second.props = first.props)
    (hevents : second.events = first.events) : first.Continues second :=
  ⟨hprops, hevents ▸ growsBy_self⟩

theorem Continues.trans (h : first.Continues second) (h' : second.Continues third) :
    first.Continues third :=
  ⟨h'.props.trans h.props, h.noted.trans h'.noted⟩

theorem continues_record (window : EntryWindow) (event : EntryEvent)
    (hevent : ¬event.Clears ∧ ¬event.Replaces) : window.Continues (window.record event) :=
  ⟨rfl, growsBy_concat hevent⟩

theorem Continues.told (h : first.Continues second) {callsign : String}
    (htold : Told callsign first.events) : Told callsign second.events :=
  have hkept : GrowsBy (¬Clears ·) first.events second.events := h.noted.mono fun _ => And.left
  ⟨htold.1.grow hkept, htold.2.grow hkept⟩

theorem Continues.entered (h : first.Continues second) {callsign : String}
    (hentered : Since (· = .entered callsign) Replaces first.events) :
    Since (· = .entered callsign) Replaces second.events :=
  hentered.grow (h.noted.mono fun _ => And.right)

end Growing

/-- What a key of an action clears does not end the entry, as the action counts after its keys. -/
theorem continues_react (callsign : String) (window : EntryWindow) (asked : SendingEvent) :
    window.Continues (EntryWindow.react .clearedByKey callsign window asked) := by
  cases asked with
  | clearEntryFields =>
      rw [EntryWindow.react, EntryWindow.clearEntryFields]
      split
      · exact .of_same rfl rfl
      · exact ⟨rfl, growsBy_concat ⟨id, id⟩⟩
  | markEsmExchangeSent =>
      rw [EntryWindow.react]
      split
      · exact .of_same rfl rfl
      · exact .of_same rfl rfl
  | sendText requestId text => exact .of_same rfl rfl
  | stopKeying => exact .of_same rfl rfl
  | storeCurrentCqFrequency => exact .of_same rfl rfl

theorem continues_foldl_react (callsign : String) (asked : List SendingEvent)
    (window : EntryWindow) :
    window.Continues (asked.foldl (EntryWindow.react .clearedByKey callsign) window) := by
  induction asked generalizing window with
  | nil => exact .of_same rfl rfl
  | cons first asked ih => exact (continues_react callsign window first).trans (ih _)

theorem continues_takeSending {marks : Prop} {sending : MessageSending} (callsign : String)
    (hasks : window.sending.Asks marks sending) :
    window.Continues (window.takeSending .clearedByKey callsign sending) := by
  obtain ⟨asked, hasked, -⟩ := hasks
  rw [takeSending, hasked, List.drop_left]
  have hsame : window.Continues { window with sending } := .of_same rfl rfl
  exact hsame.trans (continues_foldl_react callsign asked { window with sending })

end Continuing

section Logging

variable [RegexEngine] [Browser]

abbrev Kept (window : EntryWindow) : Prop := window.Sound fun _ => False

variable {window rendered : EntryWindow}

omit [RegexEngine] [Browser] in
theorem Sound.told_of_kept (h : window.Kept) (hne : window.esm.exchangeSentCallsign ≠ "") :
    Told window.esm.exchangeSentCallsign window.events :=
  (h.told hne).resolve_left id

theorem ne_of_canLogContact {force : Bool} {values : ExchangeValues}
    (h : window.canLogContact force values = true) : window.callSign ≠ "" := by
  intro hempty
  rw [canLogContact, allRequiredFieldsFilled, hempty] at h
  simp [show trim "" = "" by rfl] at h

theorem valid_of_canLogContact {values : ExchangeValues}
    (h : window.canLogContact false values = true) :
    validateCallsign window.callSign false = .ok () := by
  simp only [canLogContact, Bool.false_or, Bool.and_eq_true, callsignValid] at h
  have hvalid := h.2.1
  cases hcheck : validateCallsign window.callSign false with
  | error message =>
      rw [hcheck] at hvalid
      cases hvalid
  | ok _ => rfl

/-- A contact is logged with the callsign of the last render. -/
theorem Sound.logContact (h : window.Kept) (hprops : window.props = rendered.props)
    (hinput : CallsignInput rendered.callSign) {cause : LogCause} {force : Bool}
    (hentered : rendered.callSign ≠ "" →
      Since (· = .entered rendered.callSign) Replaces window.events)
    (hforce : cause ≠ .forced → force = false)
    (hesm : cause = .esm → rendered.callSign ≠ "" → Told rendered.callSign window.events)
    (values : ExchangeValues) : (window.logContact rendered cause force values).Kept := by
  rw [EntryWindow.logContact]
  split
  · exact h
  · next hloggable =>
      rw [Bool.or_eq_true, not_or, Bool.not_eq_true, Bool.not_eq_true, Bool.not_eq_false']
        at hloggable
      obtain ⟨hunlocked, hloggable⟩ := hloggable
      have hne := ne_of_canLogContact hloggable
      have hcall : (rendered.contact force values).call = rendered.callSign := hinput.normal
      have hjustified :
          Justifies window.events (.logged cause (rendered.contact force values)) := by
        refine ⟨hcall.symm ▸ hentered hne, fun hcause => ?_, fun hcause => ?_⟩
        · have hplain := hforce hcause
          subst hplain
          exact ⟨rfl, hcall.symm ▸ valid_of_canLogContact hloggable⟩
        · exact hcall.symm ▸ hesm hcause hne
      rw [EntryWindow.clearEntryFields, if_neg]
      · exact sound_emptied rfl rfl ((h.justified.concat hjustified).concat trivial)
      · show ¬window.props.locked = true
        rw [hprops, hunlocked]
        exact Bool.false_ne_true

/-- Without ESM, the window logs what it shows. -/
theorem Sound.logContact_self (h : window.Kept) {cause : LogCause} {force : Bool}
    (hcause : cause ≠ .esm) (hforce : cause ≠ .forced → force = false) (values : ExchangeValues) :
    (window.logContact window cause force values).Kept :=
  h.logContact rfl h.input h.entered hforce (fun heq => absurd heq hcause) values

omit [RegexEngine] [Browser] in
theorem Sound.requestPreviousContactAutofill (h : window.Kept) (found : Option AutofillResult) :
    (window.requestPreviousContactAutofill found).1.Kept
      ∧ window.Continues (window.requestPreviousContactAutofill found).1 := by
  unfold EntryWindow.requestPreviousContactAutofill
  split
  · exact ⟨h, .of_same rfl rfl⟩
  · split
    · exact ⟨h, .of_same rfl rfl⟩
    · split
      · exact ⟨h.of_same rfl rfl rfl, .of_same rfl rfl⟩
      · exact ⟨h, .of_same rfl rfl⟩

omit [RegexEngine] [Browser] in
theorem Sound.mono {pending pending' : String → Prop} (h : window.Sound pending)
    (hpending : ∀ callsign, pending callsign → pending' callsign) : window.Sound pending' :=
  ⟨h.input, h.sentInput, fun hne => (h.told hne).imp_left (hpending _), h.entered, h.justified⟩

omit [RegexEngine] [Browser] in
/-- A callsign is corrected only where another one was told. -/
theorem Sound.correction (h : rendered.Kept) {action : EsmAction}
    (haction : action.Follows rendered.operatingMode rendered.esm.exchangeSentCallsign
      rendered.callSign) (hcorrects : action.correctionText ≠ "") {text : Option String}
    (htext : ∀ sent, text = some sent → sent = action.correctionText ++ " ") :
    rendered.esm.exchangeSentCallsign ≠ "" ∧
      ∀ events, Told rendered.esm.exchangeSentCallsign events →
        Justifies events (.correction text rendered.callSign) := by
  have heq := haction.corrects hcorrects
  obtain ⟨hsent, hne, hcompletes⟩ :=
    correctedEsmCallsignText_spec h.sentInput h.input (heq ▸ hcorrects)
  refine ⟨hsent, fun events htold => ⟨_, hsent, hne, htold, ?_⟩⟩
  intro sent hsome
  rw [htext sent hsome, heq]
  exact hcompletes

omit [RegexEngine] [Browser] in
/-- The window once the correction of the callsign is noted, if there is one. -/
theorem Sound.corrected (h : window.Kept) (hrendered : rendered.Kept)
    (hcontinues : rendered.Continues window) {action : EsmAction}
    (haction : action.Follows rendered.operatingMode rendered.esm.exchangeSentCallsign
      rendered.callSign) {corrected : EntryWindow} {text : Option String}
    (htext : ∀ sent, text = some sent → sent = action.correctionText ++ " ")
    (hcorrected : corrected =
      if rendered.operatingMode = .run ∧ action.correctionText ≠ "" then
        window.record (.correction text rendered.currentCallsign)
      else window) :
    corrected.Kept ∧ rendered.Continues corrected
      ∧ (rendered.operatingMode = .run ∧ action.correctionText ≠ "" →
        Told rendered.callSign corrected.events) := by
  subst hcorrected
  rw [hrendered.currentCallsign_eq]
  split
  · next hcorrects =>
      obtain ⟨hsent, hjustifies⟩ := hrendered.correction haction hcorrects.2 htext
      have htold := hcontinues.told (hrendered.told_of_kept hsent)
      refine ⟨h.record (hjustifies _ htold) id id, ?_, fun _ => ?_⟩
      · exact hcontinues.trans (continues_record window _ ⟨id, id⟩)
      · exact ⟨since_concat rfl, htold.2.concat id⟩
  · next hnone => exact ⟨h, hcontinues, fun hcorrects => absurd hcorrects hnone⟩

omit [RegexEngine] [Browser] in
/-- The correction is noted before the keys are pressed, and the action counts after them. -/
theorem Sound.takeEsmAction (h : window.Kept) (hrendered : rendered.Kept)
    (hcontinues : rendered.Continues window) {action : EsmAction}
    (haction : action.Follows rendered.operatingMode rendered.esm.exchangeSentCallsign
      rendered.callSign) (values : ExchangeValues) :
    (window.takeEsmAction rendered action values).Kept
      ∧ rendered.Continues (window.takeEsmAction rendered action values) := by
  have htext : ∀ sent, (if modeIsCw rendered.props.radioMode then
      some (action.correctionText ++ " ") else none) = some sent →
        sent = action.correctionText ++ " " := by
    intro sent hsome
    split at hsome
    · exact (Option.some.inj hsome).symm
    · cases hsome
  rw [EntryWindow.takeEsmAction]
  generalize (if modeIsCw rendered.props.radioMode then some (action.correctionText ++ " ")
    else none) = text at htext ⊢
  generalize hcorrected : (if rendered.operatingMode = .run ∧ action.correctionText ≠ "" then
      window.record (.correction text rendered.currentCallsign) else window) = corrected
  obtain ⟨hkept, hbefore, htold⟩ :=
    h.corrected hrendered hcontinues haction htext hcorrected.symm
  have hasks : corrected.sending.Asks True
      ({ corrected.sending with props := rendered.messageProps }.sendEsmKeys action.keys
        (some (rendered.currentMessageFields values))) :=
    MessageSending.Asks.trans (.of_events rfl) (MessageSending.asks_sendEsmKeys _ _ _)
  have hany : corrected.Sound fun _ => True := hkept.mono fun _ h => h.elim
  have hpressed := hany.takeSending (.inr rfl)
    (hrendered.currentCallsign_eq.symm ▸ hrendered.input) hasks fun _ _ => trivial
  have hkeys := continues_takeSending rendered.currentCallsign hasks
  simp only [pressEsmKeys]
  generalize corrected.takeSending .clearedByKey rendered.currentCallsign
    ({ corrected.sending with props := rendered.messageProps }.sendEsmKeys action.keys
      (some (rendered.currentMessageFields values))) = pressed at *
  have hnoted := hkeys.trans
    (continues_record pressed (.pressed action.keys rendered.currentCallsign) ⟨id, id⟩)
  have hafter := hbefore.trans hnoted
  refine ⟨⟨hpressed.input, ?_, fun hne => Or.inr ?_, fun hne => (hpressed.entered hne).concat id,
    hpressed.justified.concat trivial⟩, hafter.props, hafter.noted⟩
  · obtain hempty | hsent | ⟨hcall, -⟩ := haction.next
    · exact hempty.symm ▸ callsignInput_empty
    · exact hsent.symm ▸ hrendered.sentInput
    · exact hcall.symm ▸ hrendered.input
  · show Told action.nextExchangeSentCallsign
      (pressed.record (.pressed action.keys rendered.currentCallsign)).events
    obtain hempty | hsent | ⟨hcall, hexchange | hcorrects⟩ := haction.next
    · exact absurd hempty hne
    · rw [hsent]
      exact hafter.told (hrendered.told_of_kept (hsent ▸ hne))
    · rw [hcall] at hne ⊢
      rw [hrendered.currentCallsign_eq]
      exact ⟨since_concat ⟨hexchange, rfl⟩, since_concat ⟨hexchange, hne⟩⟩
    · rw [hcall]
      exact hnoted.told (htold hcorrects)

/-- The keys of an action are pressed after the correction of the callsign, if there is one. -/
theorem Sound.handleEsmEnter (h : window.Kept) (current : Option String) (altKey : Bool)
    (found : Option AutofillResult) {next : EntryWindow}
    (hnext : window.handleEsmEnter window current altKey found = some next) : next.Kept := by
  simp only [EntryWindow.handleEsmEnter] at hnext
  split at hnext
  · cases hnext
  · next hesm =>
      rw [Bool.not_eq_true, Bool.not_eq_false'] at hesm
      split at hnext
      · cases hnext
        exact h.record trivial id id
      · split at hnext
        · cases hnext
          exact h
        · generalize (if current.isNone then (window.requestPreviousContactAutofill found).2
            else window.exchangeValues) = values at hnext
          have hfilled : ∃ filled, (if current.isNone then
                (window.requestPreviousContactAutofill found).1 else window) = filled
              ∧ filled.Kept ∧ window.Continues filled := by
            split
            · exact ⟨_, rfl, h.requestPreviousContactAutofill found⟩
            · exact ⟨_, rfl, h, .of_same rfl rfl⟩
          obtain ⟨filled, heq, hkept, hcontinues⟩ := hfilled
          rw [heq] at hnext
          split at hnext
          · cases hnext
            exact hkept.logContact hcontinues.props h.input
              (fun hne => hcontinues.entered (h.entered hne)) (fun hne => absurd rfl hne)
              (fun hcause => by cases hcause) values
          · have haction : (window.currentEsmAction values).Follows window.operatingMode
                window.esm.exchangeSentCallsign window.callSign := by
              rw [currentEsmAction, hesm]
              exact follows_esmEnterAction _ _ h.input h.sentInput
            generalize window.currentEsmAction values = action at haction hnext
            obtain ⟨hacted, hafter⟩ := hkept.takeEsmAction h hcontinues haction values
            split at hnext
            · next hlog =>
                cases hnext
                refine hacted.logContact hafter.props h.input
                  (fun hne => hafter.entered (h.entered hne)) (fun _ => rfl) ?_ values
                intro _ hne
                have hsent := haction.logs hlog
                rw [← hsent] at hne ⊢
                exact hacted.told_of_kept hne
            · cases hnext
              exact hacted

omit [RegexEngine] [Browser] in
theorem Sound.takeCommand (h : window.Kept) {command : EntryEvent}
    (hcommand : ∀ events, Justifies events command) : (window.takeCommand command).Kept := by
  refine sound_emptied rfl rfl ?_
  have hcleared : Justifies (window.events ++ [command]) .cleared := trivial
  have hjustified := (h.justified.concat (hcommand _)).concat hcleared
  rwa [List.append_assoc] at hjustified

theorem Sound.handleCallsignEnter (h : window.Kept) (altKey : Bool)
    (found : Option AutofillResult) : (window.handleCallsignEnter altKey found).Kept := by
  simp only [EntryWindow.handleCallsignEnter]
  split
  · exact h.takeCommand fun _ => trivial
  · split
    · exact h.takeCommand fun _ => trivial
    · split
      · exact (h.requestPreviousContactAutofill found).1
      · split
        · next next hnext => exact h.handleEsmEnter none altKey found hnext
        · split
          · exact h.logContact_self (fun heq => by cases heq) (fun _ => rfl) _
          · exact h

theorem Sound.handleExchangeEnter (h : window.Kept) (index : Nat) (altKey : Bool) :
    (window.handleExchangeEnter index altKey).Kept := by
  simp only [EntryWindow.handleExchangeEnter]
  split
  · exact h
  · next field _ =>
      split
      · exact h
      · split
        · exact h.logContact_self (fun heq => by cases heq) (fun hne => absurd rfl hne) _
        · split
          · exact h
          · split
            · next next hnext => exact h.handleEsmEnter (some field.id) altKey none hnext
            · split
              · exact h.logContact_self (fun heq => by cases heq) (fun _ => rfl) _
              · exact h

end Logging

section Steps

variable {window : EntryWindow}

theorem Sound.setTypedCallsign (h : window.Kept) {callsign : String}
    (hinput : CallsignInput callsign) : (window.setTypedCallsign callsign).Kept := by
  have hnormal := hinput.normal
  have hsent := h.sentInput.normal
  rw [EntryWindow.setTypedCallsign, noteCallsign]
  split
  · next hempty =>
      subst hempty
      refine sound_emptied rfl ?_ (h.justified.concat trivial)
      simp only [EntryWindow.record, esmStateAfterCallsignEdit, hnormal, if_true]
  · next hne =>
      refine ⟨hinput, ?_, fun hsome => Or.inr ?_, fun _ => since_concat rfl,
        h.justified.concat trivial⟩
      · simp only [EntryWindow.record, esmStateAfterCallsignEdit, hnormal, hsent, if_neg hne]
        exact h.sentInput
      · simp only [EntryWindow.record, esmStateAfterCallsignEdit, hnormal, hsent, if_neg hne]
          at hsome ⊢
        exact (h.told_of_kept hsome).append (List.forall_mem_singleton.mpr id)

theorem Sound.selectSpot (h : window.Kept) (callDx : String) (frequencyHz : Int)
    (values : ExchangeValues) : (window.selectSpot callDx frequencyHz values).Kept := by
  have hinput := callsignInput_sanitize callDx
  simp only [EntryWindow.selectSpot]
  split
  · exact h
  · split
    · next hempty =>
        exact ⟨hinput, h.sentInput, h.told, fun hne => absurd hempty hne, h.justified⟩
    · exact ⟨hinput, h.sentInput,
        fun hne => Or.inr ((h.told_of_kept hne).append (List.forall_mem_singleton.mpr id)),
        fun _ => since_concat rfl, h.justified.concat trivial⟩

theorem Sound.trackFrequency (h : window.Kept) : window.trackFrequency.Kept := by
  simp only [EntryWindow.trackFrequency]
  split
  · exact h.of_same rfl rfl rfl
  · exact h.of_same rfl rfl rfl
  · refine Sound.clearEntryFields ?_ fun _ => trivial
    exact h.of_same rfl rfl rfl

theorem Sound.lockFields (h : window.Kept) : window.lockFields.Kept := by
  simp only [EntryWindow.lockFields]
  split
  · exact h.of_same rfl rfl rfl
  · exact sound_emptied rfl rfl (h.justified.concat trivial)

theorem asks_messageSending {marks : Prop} (window : EntryWindow) :
    window.sending.Asks marks window.messageSending := .of_events rfl

/-- What the radio and the clock do to the messages clears the fields at most. -/
theorem Sound.takeStep (h : window.Kept) {move : SendingMove}
    (hmove : (∃ requestId, move = .reported requestId) ∨ (∃ requestId, move = .overtaken requestId)
      ∨ ∃ timer, move = .timeout timer) :
    (window.takeSending .cleared window.currentCallsign
      (window.messageSending.step move)).Kept := by
  have hasks : window.sending.Asks False (window.messageSending.step move) :=
    (asks_messageSending window).trans (MessageSending.asks_step _ hmove)
  exact h.takeSending (.inl rfl) (h.currentCallsign_eq.symm ▸ h.input) hasks fun hfalse _ => hfalse

/-- The callsign whose exchange was sent is noted with the keys that sent it. -/
theorem Sound.pressKey (h : window.Kept) (key : String) : (window.pressKey key).Kept := by
  rw [EntryWindow.pressKey]
  split
  · exact h
  · have hasks : window.sending.Asks (key = "F2") (window.messageSending.sendMessageKey key) :=
      (asks_messageSending window).trans (MessageSending.asks_sendMessageKey _ key)
    generalize window.messageSending.sendMessageKey key = sending at hasks ⊢
    have hpending : window.Sound fun callsign =>
        key = "F2" ∧ callsign = window.callSign ∧ callsign ≠ "" :=
      h.mono fun _ hfalse => hfalse.elim
    have htaken : (window.takeSending .cleared window.callSign sending).Sound _ :=
      hpending.takeSending (.inl rfl) h.input hasks fun hkey hne => ⟨hkey, rfl, hne⟩
    rw [h.currentCallsign_eq]
    generalize window.takeSending .cleared window.callSign sending = taken at htaken
    refine ⟨htaken.input, htaken.sentInput, fun hne => Or.inr ?_,
      fun hne => (htaken.entered hne).concat id, htaken.justified.concat trivial⟩
    cases htaken.told hne with
    | inl hnow =>
        obtain ⟨rfl, hcall, hne⟩ := hnow
        exact ⟨since_concat ⟨List.mem_singleton_self _, hcall.symm⟩,
          since_concat ⟨List.mem_singleton_self _, hcall ▸ hne⟩⟩
    | inr hbefore => exact hbefore.append (List.forall_mem_singleton.mpr id)

variable [RegexEngine] [Browser]

theorem Sound.step (h : window.Kept) (move : EntryMove) : (window.step move).Kept := by
  cases move with
  | render props =>
      have hrendered : Kept { window with props } := h.of_same rfl rfl rfl
      rw [EntryWindow.step]
      exact hrendered.trackFrequency.lockFields
  | callsignChange value =>
      rw [EntryWindow.step, handleCallsignChange]
      split
      · exact h
      · exact h.setTypedCallsign (callsignInput_sanitize value)
  | callsignEnter altKey found => exact h.handleCallsignEnter altKey found
  | exchangeChange values => exact h.of_same rfl rfl rfl
  | exchangeEnter index altKey => exact h.handleExchangeEnter index altKey
  | digitalIoTextClick word =>
      rw [EntryWindow.step, handleDigitalIoTextClick]
      split
      · exact h
      · exact h.setTypedCallsign (callsignInput_sanitize word)
  | selectSpot callDx frequencyHz values => exact h.selectSpot callDx frequencyHz values
  | clear => exact h.clearEntryFields fun _ => trivial
  | logIt => exact h.logContact_self (fun heq => by cases heq) (fun _ => rfl) _
  | pressKey key => exact h.pressKey key
  | setOperatingMode mode => exact h.of_same rfl rfl rfl
  | setEsmEnabled checked =>
      rw [EntryWindow.step]
      split
      · exact h
      · exact h.of_same rfl rfl rfl
  | setRepeatRunF1 checked => exact h.of_same rfl rfl rfl
  | stopMessageSending => exact h.of_same rfl rfl rfl
  | messageSent requestId => exact h.takeStep (Or.inl ⟨requestId, rfl⟩)
  | messageOvertaken requestId => exact h.takeStep (Or.inr (Or.inl ⟨requestId, rfl⟩))
  | messageTimeout timer => exact h.takeStep (Or.inr (Or.inr ⟨timer, rfl⟩))

omit [RegexEngine] [Browser] in
theorem sound_mount (props : EntryProps) (esmEnabled : Bool) : (mount props esmEnabled).Kept :=
  Sound.lockFields (sound_emptied rfl rfl justified_nil)

/-- Whatever the operator, the radio, the clock and the rest of the window do in any order, from
the opening of the window on. -/
theorem run_justified (props : EntryProps) (esmEnabled : Bool) (moves : List EntryMove) :
    Justified Justifies (run moves (mount props esmEnabled)).events :=
  (Runs.invariant_run_of_forall Kept (fun _ move h => h.step move)
    (sound_mount props esmEnabled) moves).justified

end Steps

end EntryWindow

end Log73.Frontend
