import Log73.Validation.Contact

/-!
What validation says of a contact it accepts.
-/

namespace Log73

variable [Platform]

/-- The text of a double has no white space around it. -/
def TrimmedFloats : Prop :=
  ∀ value : ℚ, trim (Platform.floatText value) = Platform.floatText value

namespace Validation

section Callsigns

def isCallsignChar (c : Char) : Bool := isAsciiUppercase c || isAsciiDigit c || c = '/'

omit [Platform] in
theorem isCallsignChar_range {c : Char} (h : isCallsignChar c = true) :
    47 ≤ c.toNat ∧ c.toNat ≤ 90 := by
  rw [isCallsignChar, Bool.or_eq_true, Bool.or_eq_true] at h
  cases h with
  | inl h =>
      cases h with
      | inl h =>
          rw [isAsciiUppercase, Bool.and_eq_true, decide_eq_true_eq, decide_eq_true_eq] at h
          have hlow : 65 ≤ c.toNat := UInt32.le_iff_toNat_le.mp h.1
          have hhigh : c.toNat ≤ 90 := UInt32.le_iff_toNat_le.mp h.2
          omega
      | inr h =>
          have := (isAsciiDigit_iff c).mp h
          omega
  | inr h =>
      rw [of_decide_eq_true h]
      decide

omit [Platform] in
theorem isWhitespace_callsignChar {c : Char} (h : isCallsignChar c = true) :
    isWhitespace c = false := by
  have hrange := isCallsignChar_range h
  by_cases hlow : 33 ≤ c.toNat
  · exact isWhitespace_of_printable hlow (by omega)
  · omega

theorem upperChar_callsignChar {c : Char} (h : isCallsignChar c = true) : upperChar c = [c] := by
  have hrange := isCallsignChar_range h
  rw [upperChar, if_pos (by omega)]
  congr 1
  apply Char.toNat_inj.mp
  rw [toNat_toUpper, if_neg (by omega)]

/-- Text made of the characters of a callsign. -/
def CallsignText (s : String) : Prop := ∀ c ∈ s.toList, isCallsignChar c = true

theorem toUppercase_callsignText {s : String} (h : CallsignText s) : toUppercase s = s := by
  rw [toUppercase, List.flatMap_congr fun c hc => upperChar_callsignChar (h c hc)]
  simp

omit [Platform] in
theorem CallsignText.no_feed {s : String} (h : CallsignText s) : '\n' ∉ s.toList :=
  fun hmem => absurd (h _ hmem) (by decide)

omit [Platform] in
theorem CallsignText.trim_eq {s : String} (h : CallsignText s) : trim s = s := by
  rw [trim, trimChars_eq_self fun c hc => isWhitespace_callsignChar (h c hc), String.ofList_toList]

/-- A callsign that is accepted is, once it is normalized, a text of callsign characters. -/
theorem validateCallsign_spec {label value : String}
    (h : validateCallsign label value false = .ok ()) :
    trim value ≠ "" ∧ CallsignText (Callsign.normalize value) ∧ Callsign.normalize value ≠ "" := by
  obtain ⟨⟨⟩, htext, hrest⟩ := Checks.bind_eq_ok.mp h
  obtain ⟨⟨⟩, hstructure, hbase⟩ := Checks.bind_eq_ok.mp hrest
  refine ⟨?_, ?_, ?_⟩
  · rw [validateRequiredText, Checks.ite_error_eq_ok] at htext
    simpa using htext.1
  · rw [Checks.mapError_eq_ok, Callsign.checkStructure, Checks.ite_error_eq_ok] at hstructure
    intro c hc
    have hchars := hstructure.1
    simp only [Bool.not_eq_true', Bool.not_eq_false, List.all_eq_true] at hchars
    simpa [isCallsignChar, Bool.or_assoc] using hchars c hc
  · intro hempty
    have hlike : Callsign.isCallsignLike ((Callsign.parseBase "".toList).getD []) = false := rfl
    rw [hempty, validateBase, Checks.ite_error_eq_ok, hlike] at hbase
    exact hbase.1 rfl

end Callsigns

/-- What each test of an accepted contact established. -/
structure Accepted [RegexEngine] (rules : ContestRules) (bands : List Band) (logId : Int)
    (contact : Contact) (mode : String) : Prop where
  shape : validateContactShape contact = .ok ()
  ids : validateIds logId contact = .ok ()
  contestId : validateContestId rules contact = .ok ()
  epoch : validateQsoEpoch contact = .ok ()
  station : validateCallsign "station callsign" (trimmedField contact "STATION_CALLSIGN") false
    = .ok ()
  operator : validateOperator contact = .ok ()
  callsign : validateCallsign "callsign" (trimmedField contact "CALL") false = .ok ()
  bandAndFrequency : validateContactBandAndFrequency rules bands contact = .ok ()
  acceptedMode : validateContactMode rules contact = .ok mode
  clientId : validateOptionalMeta contact "client id" "clientId" maxCwRequestIdLen = .ok ()
  sessionId : validateOptionalMeta contact "session id" "sessionId" maxContactStringLen = .ok ()
  exchange : ∀ field ∈ rules.exchange, validateExchangeField field contact mode = .ok ()

theorem validateContact_eq_ok [RegexEngine] {rules : ContestRules} {bands : List Band}
    {logId : Int} {contact : Contact} :
    validateContact rules bands logId contact = .ok () ↔
      ∃ mode, Accepted rules bands logId contact mode := by
  rw [validateContact, Checks.andThen_eq_ok, Checks.andThen_eq_ok, Checks.andThen_eq_ok,
    Checks.andThen_eq_ok, Checks.andThen_eq_ok, Checks.andThen_eq_ok, Checks.andThen_eq_ok,
    Checks.andThen_eq_ok]
  constructor
  · intro h
    obtain ⟨hshape, hids, hcontest, hepoch, hstation, hoperator, hcallsign, hband, h⟩ := h
    obtain ⟨mode, hmode, h⟩ := Checks.bind_eq_ok.mp h
    obtain ⟨hclient, hsession, hexchange⟩ :=
      (Checks.andThen_eq_ok.trans (and_congr_right fun _ => Checks.andThen_eq_ok)).mp h
    exact ⟨mode, hshape, hids, hcontest, hepoch, hstation, hoperator, hcallsign, hband, hmode,
      hclient, hsession, Checks.forM_eq_ok.mp hexchange⟩
  · intro h
    obtain ⟨mode, h⟩ := h
    refine ⟨h.shape, h.ids, h.contestId, h.epoch, h.station, h.operator, h.callsign,
      h.bandAndFrequency, Checks.bind_eq_ok.mpr ⟨mode, h.acceptedMode, ?_⟩⟩
    exact Checks.andThen_eq_ok.mpr ⟨h.clientId, Checks.andThen_eq_ok.mpr ⟨h.sessionId,
      Checks.forM_eq_ok.mpr h.exchange⟩⟩

end Validation

end Log73
