import Log73.Frontend.Messages
import Log73.Library.Checks

/-!
Message configurations are read alike by the frontend and by `messages.rs`, and one that is
accepted has an entry for each of its message lines, under a function key that its section
has once.
-/

namespace Log73.RadioIo

variable [Platform]

/-- A trimmed line that is neither blank nor a header nor a comment. -/
def isMessageLine (line : String) : Bool :=
  line != "" && (parseMessageModeSectionHeader line).isNone && !startsWith line "#"

def messageLines (lines : List String) : List String := (lines.map trim).filter isMessageLine

theorem messageLines_cons (rawLine : String) (rawLines : List String) :
    messageLines (rawLine :: rawLines) =
      if isMessageLine (trim rawLine) then trim rawLine :: messageLines rawLines
      else messageLines rawLines := by
  rw [messageLines, List.map_cons, List.filter_cons]
  rfl

/-- The entry of a line in some section. -/
def EntryOf (line : String) (entry : ParsedMessageEntry) : Prop :=
  ∃ mode, parseMessageLine line (some mode) = some entry

/-- Entries under function keys of their own, none of which the sections have yet. -/
structure Fresh (sections : ValidatedSections) (entries : List ParsedMessageEntry) : Prop where
  valid : ∀ entry ∈ entries, isValidFunctionKey entry.key = true
  distinct : (entries.map fun entry => (entry.mode, entry.key)).Nodup
  absent : ∀ entry ∈ entries, entry.key ∉ sections.keys entry.mode

theorem parseMessageLine_some {line : String} {currentMode : Option String}
    {entry : ParsedMessageEntry} (h : parseMessageLine line currentMode = some entry) :
    entry.mode = currentMode.getD ""
      ∧ ∃ key : String, entry.key = toUppercase (trim key) := by
  obtain ⟨⟨keyAndLabel, target⟩, -, hentry⟩ := Option.bind_eq_some_iff.mp h
  dsimp only at hentry
  split at hentry
  · cases hentry
  · obtain rfl := Option.some.inj hentry
    exact ⟨rfl, _, rfl⟩

theorem validateMessageLine_ok {targetLabel line : String} {sections next : ValidatedSections}
    {lineNumber : Nat} (h : validateMessageLine targetLabel sections lineNumber line = .ok next) :
    ∃ mode entry, sections.currentMode = some mode
      ∧ parseMessageLine line (some mode) = some entry ∧ isValidFunctionKey entry.key = true
      ∧ entry.key ∉ sections.keys mode ∧ next = sections.insertKey mode entry.key := by
  rw [validateMessageLine] at h
  cases hmode : sections.currentMode with
  | none =>
      rw [hmode] at h
      cases h
  | some mode =>
      rw [hmode] at h
      cases hentry : parseMessageLine line (some mode) with
      | none => simp [hentry] at h
      | some entry =>
          simp only [hentry] at h
          split at h
          · cases h
          · next hvalid =>
              split at h
              · cases h
              · next hfresh =>
                  refine ⟨mode, entry, rfl,
                    hentry, by simpa using hvalid, by simpa using hfresh, ?_⟩
                  exact (Except.ok.inj h).symm

omit [Platform] in
theorem mem_keys_insertKey {sections : ValidatedSections} {mode key mode' key' : String}
    (h : key' ∉ (sections.insertKey mode key).keys mode') :
    key' ∉ sections.keys mode' ∧ (mode' = mode → key' ≠ key) := by
  rw [ValidatedSections.insertKey, ValidatedSections.keys] at h
  rw [ValidatedSections.keys]
  by_cases hmode : mode = runMessageMode
  · rw [if_pos hmode] at h
    by_cases hmode' : mode' = runMessageMode
    · rw [if_pos hmode'] at h ⊢
      rw [List.mem_cons, not_or] at h
      exact ⟨h.2, fun _ => h.1⟩
    · rw [if_neg hmode'] at h ⊢
      exact ⟨h, fun heq => absurd (heq.trans hmode) hmode'⟩
  · rw [if_neg hmode] at h
    by_cases hmode' : mode' = runMessageMode
    · rw [if_pos hmode'] at h ⊢
      exact ⟨h, fun heq => absurd (heq ▸ hmode') hmode⟩
    · rw [if_neg hmode'] at h ⊢
      rw [List.mem_cons, not_or] at h
      exact ⟨h.2, fun _ => h.1⟩

omit [Platform] in
@[simp] theorem currentMode_insertKey (sections : ValidatedSections) (mode key : String) :
    (sections.insertKey mode key).currentMode = sections.currentMode := by
  rw [ValidatedSections.insertKey]
  split
  · rfl
  · rfl

/-- An entry more, whose key its section did not have. -/
theorem Fresh.cons {sections : ValidatedSections} {entry : ParsedMessageEntry}
    {entries : List ParsedMessageEntry} {mode : String} (hmode : entry.mode = mode)
    (hvalid : isValidFunctionKey entry.key = true) (hfresh : entry.key ∉ sections.keys mode)
    (h : Fresh (sections.insertKey mode entry.key) entries) :
    Fresh sections (entry :: entries) := by
  constructor
  · intro other hmem
    cases List.mem_cons.mp hmem with
    | inl heq => exact heq ▸ hvalid
    | inr hmem => exact h.valid other hmem
  · rw [List.map_cons, List.nodup_cons]
    refine ⟨fun hmem => ?_, h.distinct⟩
    obtain ⟨other, hother, heq⟩ := List.mem_map.mp hmem
    rw [Prod.mk.injEq] at heq
    exact (mem_keys_insertKey (h.absent other hother)).2 (heq.1.trans hmode) heq.2
  · intro other hmem
    cases List.mem_cons.mp hmem with
    | inl heq => rw [heq, hmode]; exact hfresh
    | inr hmem => exact (mem_keys_insertKey (h.absent other hmem)).1

/-- A line that is accepted has an entry exactly if it is a message line, under a key that
its section did not have. -/
theorem validateLine_ok {targetLabel rawLine : String} {sections next : ValidatedSections}
    {lineNumber : Nat} (h : validateLine targetLabel sections lineNumber rawLine = .ok next) :
    (isMessageLine (trim rawLine) = false ∧ parseLine sections.currentMode rawLine =
        (next.currentMode, none) ∧ next.keys = sections.keys)
      ∨ isMessageLine (trim rawLine) = true ∧ ∃ mode entry,
        parseLine sections.currentMode rawLine = (next.currentMode, some entry)
        ∧ parseMessageLine (trim rawLine) (some mode) = some entry
        ∧ isValidFunctionKey entry.key = true ∧ entry.key ∉ sections.keys mode
        ∧ next = sections.insertKey mode entry.key := by
  rw [validateLine] at h
  rw [parseLine, isMessageLine]
  by_cases hblank : trim rawLine = ""
  · rw [if_pos hblank] at h ⊢
    obtain rfl := Except.ok.inj h
    exact Or.inl ⟨by simp [hblank], rfl, rfl⟩
  · rw [if_neg hblank] at h ⊢
    cases hheader : parseMessageModeSectionHeader (trim rawLine) with
    | some mode =>
        rw [hheader] at h
        obtain rfl := Except.ok.inj h
        exact Or.inl ⟨by simp, rfl, rfl⟩
    | none =>
        simp only [hheader] at h ⊢
        by_cases hcomment : startsWith (trim rawLine) "#" = true
        · rw [if_pos hcomment] at h
          obtain rfl := Except.ok.inj h
          exact Or.inl ⟨by simp [hcomment], if_pos (by simp [hcomment]), rfl⟩
        · rw [if_neg hcomment] at h
          obtain ⟨mode, entry, hmode, hentry, hvalid, hfresh, rfl⟩ := validateMessageLine_ok h
          refine Or.inr ⟨by simp [hblank, hcomment], mode, entry, ?_, hentry, hvalid, hfresh, rfl⟩
          rw [hmode, if_neg (by simp [hcomment]), hentry, currentMode_insertKey, hmode]

/-- Lines that are accepted have an entry each, under keys that are new to their sections. -/
theorem validateLines_ok {targetLabel : String} {rawLines : List String}
    {sections final : ValidatedSections} {index : Nat}
    (h : validateLines targetLabel sections index rawLines = .ok final) :
    List.Forall₂ EntryOf (messageLines rawLines) (parseLines sections.currentMode rawLines)
      ∧ Fresh sections (parseLines sections.currentMode rawLines) := by
  induction rawLines generalizing sections index with
  | nil => exact ⟨.nil, fun _ hmem => absurd hmem List.not_mem_nil, List.nodup_nil,
      fun _ hmem => absurd hmem List.not_mem_nil⟩
  | cons rawLine rawLines ih =>
      obtain ⟨next, hline, hlines⟩ := Checks.bind_eq_ok.mp h
      obtain ⟨hrest, hfresh⟩ := ih hlines
      rw [messageLines_cons, parseLines]
      cases validateLine_ok hline with
      | inl hskip =>
          obtain ⟨hkind, hparse, hkeys⟩ := hskip
          rw [hkind, if_neg Bool.false_ne_true, hparse]
          exact ⟨hrest, hfresh.valid, hfresh.distinct, hkeys ▸ hfresh.absent⟩
      | inr hmessage =>
          obtain ⟨hkind, mode, entry, hparse, hentry, hvalid, hnew, rfl⟩ := hmessage
          rw [if_pos hkind, hparse]
          exact ⟨.cons ⟨mode, hentry⟩ hrest,
            .cons (parseMessageLine_some hentry).1 hvalid hnew hfresh⟩

end Log73.RadioIo

namespace Log73

theorem takeWhile_append_of_not {p : Char → Bool} (cs : List Char) {tail : List Char}
    (h : ∀ c ∈ tail, p c = false) : (cs ++ tail).takeWhile p = cs.takeWhile p := by
  induction cs with
  | nil =>
      cases tail with
      | nil => rfl
      | cons c tail => exact List.takeWhile_cons_of_neg (by simp [h c List.mem_cons_self])
  | cons c cs ih => rw [List.cons_append, List.takeWhile_cons, List.takeWhile_cons, ih]

theorem dropWhile_append_of_not {p : Char → Bool} (cs : List Char) {tail : List Char}
    (h : ∀ c ∈ tail, p c = false) : (cs ++ tail).dropWhile p = cs.dropWhile p ++ tail := by
  induction cs with
  | nil =>
      cases tail with
      | nil => rfl
      | cons c tail => exact List.dropWhile_cons_of_neg (by simp [h c List.mem_cons_self])
  | cons c cs ih =>
      rw [List.cons_append, List.dropWhile_cons, List.dropWhile_cons, ih]
      split
      · rfl
      · rfl

end Log73

namespace Log73.RadioIo

/-- The first word of a text and the rest, which is trimmed later. -/
theorem splitFirstWhitespace_spec (cs : List Char) :
    (splitFirstWhitespace (String.ofList cs)).1 =
        String.ofList (cs.takeWhile fun c => !isWhitespace c)
      ∧ trim ((splitFirstWhitespace (String.ofList cs)).2.getD "") =
        String.ofList (trimChars (cs.dropWhile fun c => !isWhitespace c)) := by
  rw [splitFirstWhitespace, String.toList_ofList]
  cases hdrop : cs.dropWhile fun c => !isWhitespace c with
  | nil =>
      have hwhole : (cs.takeWhile fun c => !isWhitespace c) = cs := by
        have happend := List.takeWhile_append_dropWhile (p := fun c => !isWhitespace c) (l := cs)
        rwa [hdrop, List.append_nil] at happend
      exact ⟨by rw [hwhole], rfl⟩
  | cons c rest =>
      have hspace : isWhitespace c = true := by
        have hhead := List.head?_dropWhile_not (fun c => !isWhitespace c) cs
        rw [hdrop] at hhead
        simpa using hhead
      refine ⟨rfl, ?_⟩
      have hcons : c :: rest = [c] ++ rest := rfl
      dsimp only
      rw [Option.getD_some, trim, String.toList_ofList, hcons, trimChars_append_left]
      exact fun d hd => List.mem_singleton.mp hd ▸ hspace

variable [Platform]

/-- Lines count by what is left of them when they are trimmed. -/
theorem parseLines_congr {rawLines rawLines' : List String}
    (h : rawLines.map trim = rawLines'.map trim) (currentMode : Option String) :
    parseLines currentMode rawLines = parseLines currentMode rawLines' := by
  induction rawLines generalizing rawLines' currentMode with
  | nil =>
      have hnil : rawLines' = [] := List.map_eq_nil_iff.mp h.symm
      rw [hnil]
  | cons rawLine rawLines ih =>
      cases rawLines' with
      | nil => cases h
      | cons rawLine' rawLines' =>
          obtain ⟨hline, hlines⟩ := List.cons_eq_cons.mp h
          have hsame : parseLine currentMode rawLine = parseLine currentMode rawLine' := by
            unfold parseLine
            rw [hline]
          rw [parseLines, parseLines, hsame, ih hlines]

theorem parseLines_append_blank (rawLines : List String) (currentMode : Option String) :
    parseLines currentMode (rawLines ++ [""]) = parseLines currentMode rawLines := by
  induction rawLines generalizing currentMode with
  | nil => rfl
  | cons rawLine rawLines ih => rw [List.cons_append, parseLines, parseLines, ih]

omit [Platform] in
theorem trim_stripSuffix (line : String) :
    trim ((stripSuffix "\r" line).getD line) = trim line := by
  cases hstrip : stripSuffix "\r" line with
  | none => rfl
  | some rest =>
      rw [Option.getD_some, trim, trim, stripSuffix_eq_some.mp hstrip,
        trimChars_append_right (by decide)]

/-- The lines of a text are its parts between newlines, as far as they count. -/
theorem parseLines_lines (text : String) (currentMode : Option String) :
    parseLines currentMode (lines text) =
      parseLines currentMode ((splitOnChar '\n' text.toList).map String.ofList) := by
  have hne : (splitOnChar '\n' text.toList).map String.ofList ≠ [] :=
    mt List.map_eq_nil_iff.mp (splitOnChar_ne_nil '\n' text.toList)
  rw [lines]
  generalize (splitOnChar '\n' text.toList).map String.ofList = parts at hne
  rw [List.getLast?_eq_some_getLast hne]
  have hparts := List.dropLast_append_getLast hne
  have hstrip (tail : List String) : parseLines currentMode
      ((parts.dropLast.map fun line => (stripSuffix "\r" line).getD line) ++ tail) =
      parseLines currentMode (parts.dropLast ++ tail) := by
    apply parseLines_congr
    rw [List.map_append, List.map_append, List.map_map]
    have hmap : parts.dropLast.map (trim ∘ fun line => (stripSuffix "\r" line).getD line) =
        parts.dropLast.map trim := List.map_congr_left fun line _ => trim_stripSuffix line
    rw [hmap]
  dsimp only
  split
  · next hlast =>
      rw [hlast] at hparts
      rw [← hparts, parseLines_append_blank, List.dropLast_concat]
      have hwhole := hstrip []
      rwa [List.append_nil, List.append_nil] at hwhole
  · rw [hstrip, hparts]

/-- A target is part of the line. -/
theorem mem_target {line : String} {currentMode : Option String} {entry : ParsedMessageEntry}
    (h : parseMessageLine line currentMode = some entry) {c : Char}
    (hc : c ∈ entry.target.toList) : c ∈ line.toList := by
  obtain ⟨⟨keyAndLabel, target⟩, hsplit, hentry⟩ := Option.bind_eq_some_iff.mp h
  dsimp only at hentry
  split at hentry
  · cases hentry
  · obtain rfl := Option.some.inj hentry
    rw [splitOnce] at hsplit
    split at hsplit
    · obtain ⟨-, rfl⟩ := Prod.mk.inj (Option.some.inj hsplit)
      have hmem := Frontend.mem_of_mem_trim hc
      rw [String.toList_ofList] at hmem
      exact (List.dropWhile_suffix _).subset (List.mem_of_mem_drop hmem)
    · cases hsplit

theorem parseLine_some {rawLine : String} {currentMode : Option String}
    {entry : ParsedMessageEntry} (h : (parseLine currentMode rawLine).2 = some entry) :
    parseMessageLine (trim rawLine) currentMode = some entry := by
  unfold parseLine at h
  dsimp only at h
  by_cases hblank : trim rawLine = ""
  · rw [if_pos hblank] at h
    cases h
  · rw [if_neg hblank] at h
    cases hheader : parseMessageModeSectionHeader (trim rawLine) with
    | some mode =>
        rw [hheader] at h
        cases h
    | none =>
        simp only [hheader] at h
        by_cases hskip : (startsWith (trim rawLine) "#" || currentMode.isNone) = true
        · rw [if_pos hskip] at h
          cases h
        · rw [if_neg hskip] at h
          dsimp only at h
          exact h

/-- An entry is the one of a line. -/
theorem exists_line_of_mem {rawLines : List String} {currentMode : Option String}
    {entry : ParsedMessageEntry} (h : entry ∈ parseLines currentMode rawLines) :
    ∃ rawLine ∈ rawLines, ∃ mode, parseMessageLine (trim rawLine) mode = some entry := by
  induction rawLines generalizing currentMode with
  | nil => exact absurd h List.not_mem_nil
  | cons rawLine rawLines ih =>
      rw [parseLines, List.mem_append] at h
      cases h with
      | inl hline =>
          exact ⟨rawLine, List.mem_cons_self, currentMode,
            parseLine_some (Option.mem_toList.mp hline)⟩
      | inr hlines =>
          obtain ⟨line, hmem, hentry⟩ := ih hlines
          exact ⟨line, List.mem_cons_of_mem _ hmem, hentry⟩

omit [Platform] in
/-- An action stands between braces, its name before the first colon. -/
theorem actionFromTemplate_eq {template : String} {front back : List Char} (hcolon : ':' ∉ front)
    (h : trimChars template.toList = '\x7b' :: (front ++ ':' :: back) ++ ['\x7d']) :
    actionFromTemplate template =
      if eqIgnoreAsciiCase (String.ofList (trimChars front)) "action"
          && String.ofList (trimChars back) != ""
          && !(trimChars back).any (fun c => c = '\x7b' || c = '\x7d') then
        some (String.ofList (trimChars back))
      else none := by
  have hopen : stripPrefix "\x7b" (trim template) =
      some (String.ofList (front ++ ':' :: back ++ ['\x7d'])) := by
    rw [stripPrefix_eq_some, trim, String.toList_ofList, String.toList_ofList, h]
    simp
  have hclose : stripSuffix "\x7d" (String.ofList (front ++ ':' :: back ++ ['\x7d'])) =
      some (String.ofList (front ++ ':' :: back)) := by
    rw [stripSuffix_eq_some, String.toList_ofList, String.toList_ofList]
    rfl
  have hfirst : ':' ∉ front.dropWhile isWhitespace :=
    fun hmem => hcolon ((List.dropWhile_suffix _).subset hmem)
  have hsplit : splitOnce ':' (trim (String.ofList (front ++ ':' :: back))) =
      some (String.ofList (front.dropWhile isWhitespace),
        String.ofList (back.reverse.dropWhile isWhitespace).reverse) := by
    rw [trim, String.toList_ofList, trimChars_append_cons (by decide), splitOnce_append hfirst]
  rw [actionFromTemplate, hopen, Option.bind_some, hclose, Option.bind_some, hsplit,
    Option.bind_some]
  simp only [trim, String.toList_ofList, trimChars_dropWhile, trimChars_reverse_dropWhile]

omit [Platform] in
theorem exists_of_actionFromTemplate {template value : String}
    (h : actionFromTemplate template = some value) :
    ∃ front back, ':' ∉ front
      ∧ trimChars template.toList = '\x7b' :: (front ++ ':' :: back) ++ ['\x7d'] := by
  rw [actionFromTemplate] at h
  obtain ⟨inner, hinner, haction⟩ := Option.bind_eq_some_iff.mp h
  obtain ⟨rest, hopen, hclose⟩ := Option.bind_eq_some_iff.mp hinner
  rw [stripPrefix_eq_some, trim, String.toList_ofList, stripSuffix_eq_some.mp hclose] at hopen
  have hcolon : ':' ∈ inner.toList := by
    by_contra hcolon
    rw [trim, splitOnce_eq_none] at haction
    · cases haction
    · intro hmem
      obtain ⟨before, after, -, -, htext⟩ := exists_trimChars inner.toList
      rw [htext] at hcolon
      exact hcolon (List.mem_append_right _ (List.mem_append_left _ hmem))
  obtain ⟨front, back, hfront, heq⟩ := Frontend.exists_append_of_mem hcolon
  exact ⟨front, back, hfront, by rw [hopen, heq]; rfl⟩

end Log73.RadioIo

namespace Log73.Frontend

open RadioIo (ParsedMessageEntry)

variable [Platform]

omit [Platform] in
theorem findIdx?_eq (cs : List Char) :
    (cs.findIdx? isWhitespace).elim cs cs.take = (cs.takeWhile fun c => !isWhitespace c)
    ∧ ((cs.findIdx? isWhitespace).elim "" fun index => String.ofList (trimChars (cs.drop index))) =
        String.ofList (trimChars (cs.dropWhile fun c => !isWhitespace c)) := by
  induction cs with
  | nil => exact ⟨rfl, rfl⟩
  | cons c cs ih =>
      rw [List.findIdx?_cons, List.takeWhile_cons, List.dropWhile_cons]
      cases hspace : isWhitespace c with
      | true => exact ⟨rfl, rfl⟩
      | false =>
          cases hfind : cs.findIdx? isWhitespace with
          | none =>
              rw [hfind] at ih
              exact ⟨congrArg (c :: ·) ih.1, ih.2⟩
          | some index =>
              rw [hfind] at ih
              exact ⟨congrArg (c :: ·) ih.1, ih.2⟩

omit [Platform] in
theorem takeWhile_isWhitespace {cs : List Char}
    (h : ∀ c ∈ cs, c.toNat ≠ 0x85 ∧ c.toNat ≠ 0xFEFF) :
    (cs.takeWhile fun c => !isWhitespace c) = (cs.takeWhile fun c => !Log73.isWhitespace c)
      ∧ (cs.dropWhile fun c => !isWhitespace c) = cs.dropWhile fun c => !Log73.isWhitespace c := by
  induction cs with
  | nil => exact ⟨rfl, rfl⟩
  | cons c cs ih =>
      have hrest := ih fun d hd => h d (List.mem_cons_of_mem c hd)
      rw [List.takeWhile_cons, List.takeWhile_cons, List.dropWhile_cons, List.dropWhile_cons,
        isWhitespace_eq (h c List.mem_cons_self), hrest.1, hrest.2]
      exact ⟨rfl, rfl⟩

omit [Platform] in
/-- The text before the comma falls into the same key and label. -/
theorem keyAndLabel_eq {front : List Char} {c : Char}
    (hplain : ∀ d ∈ c :: front, d.toNat ≠ 0x85 ∧ d.toNat ≠ 0xFEFF)
    (hspace : Log73.isWhitespace c = false) :
    ((trimChars (c :: front)).findIdx? isWhitespace).elim (trimChars (c :: front))
        (trimChars (c :: front)).take = ((c :: front).takeWhile fun d => !Log73.isWhitespace d)
    ∧ (((trimChars (c :: front)).findIdx? isWhitespace).elim "" fun index =>
        String.ofList (trimChars ((trimChars (c :: front)).drop index))) =
        String.ofList (Log73.trimChars ((c :: front).dropWhile fun d =>
          !Log73.isWhitespace d)) := by
  rw [trimChars_eq hplain]
  obtain ⟨before, after, hbefore, hafter, htext⟩ := exists_trimChars (c :: front)
  have hnil : before = [] := by
    cases before with
    | nil => rfl
    | cons d before =>
        have hhead := (List.cons_eq_cons.mp htext).1
        rw [hhead, hbefore d List.mem_cons_self] at hspace
        cases hspace
  rw [hnil, List.nil_append] at htext
  have htrimmed : ∀ d ∈ Log73.trimChars (c :: front), d.toNat ≠ 0x85 ∧ d.toNat ≠ 0xFEFF := by
    intro d hd
    apply hplain
    rw [htext]
    exact List.mem_append_left _ hd
  have hstop : ∀ d ∈ after, (!Log73.isWhitespace d) = false := fun d hd => by rw [hafter d hd]; rfl
  obtain ⟨hkey, hlabel⟩ := findIdx?_eq (Log73.trimChars (c :: front))
  obtain ⟨htake, hdrop⟩ := takeWhile_isWhitespace htrimmed
  have hwords : ∀ d ∈ (Log73.trimChars (c :: front)).dropWhile fun d => !Log73.isWhitespace d,
      d.toNat ≠ 0x85 ∧ d.toNat ≠ 0xFEFF :=
    fun d hd => htrimmed d ((List.dropWhile_suffix _).subset hd)
  rw [hkey, hlabel, htake, hdrop, trimChars_eq hwords]
  generalize Log73.trimChars (c :: front) = text at htext
  rw [htext, takeWhile_append_of_not text hstop, dropWhile_append_of_not text hstop,
    trimChars_append_right hafter]
  exact ⟨rfl, rfl⟩

/-- A trimmed line is taken apart alike. -/
theorem parseMessageLine_eq {line : List Char} (hplain : Plain (String.ofList line))
    (htrim : Log73.trimChars line = line) (mode : String) :
    parseMessageLine line mode = RadioIo.parseMessageLine (String.ofList line) (some mode) := by
  rw [Plain, String.toList_ofList] at hplain
  rw [parseMessageLine, RadioIo.parseMessageLine]
  by_cases hcomma : ',' ∈ line
  · obtain ⟨front, back, hfront, rfl⟩ := exists_append_of_mem hcomma
    rw [indexOf_append hfront, splitOnce_append hfront, Option.bind_some]
    cases front with
    | nil => rfl
    | cons c front =>
        have hpos : ¬ (c :: front).length ≤ 0 := Nat.not_le.mpr (Nat.succ_pos _)
        have hback : trimChars back = Log73.trimChars back := by
          apply trimChars_eq
          exact fun d hd => hplain d (List.mem_append_right _ (List.mem_cons_of_mem _ hd))
        have hspace : Log73.isWhitespace c = false :=
          isWhitespace_head_trimChars (by rw [htrim]; rfl)
        obtain ⟨hkey, hlabel⟩ := keyAndLabel_eq
          (fun d hd => hplain d (List.mem_append_left _ hd)) hspace
        obtain ⟨hfirst, hrest⟩ := RadioIo.splitFirstWhitespace_spec (c :: front)
        have hword : Log73.trim (String.ofList ((c :: front).takeWhile fun d =>
            !Log73.isWhitespace d)) =
            String.ofList ((c :: front).takeWhile fun d => !Log73.isWhitespace d) := by
          rw [Log73.trim, String.toList_ofList, trimChars_eq_self]
          intro d hd
          simpa using List.mem_takeWhile_imp hd
        dsimp only
        rw [if_neg hpos, List.take_left, drop_length_append, hkey, hlabel, hfirst, hrest, hword,
          hback]
        simp only [toUpperCase, Log73.trim, String.toList_ofList, Option.getD_some]
        rfl
  · rw [indexOf_eq_none hcomma, splitOnce_eq_none hcomma]
    rfl

theorem parseMessageModeSectionHeader_eq {line : String} (hplain : Plain line) :
    parseMessageModeSectionHeader line = RadioIo.parseMessageModeSectionHeader line := by
  rw [parseMessageModeSectionHeader, RadioIo.parseMessageModeSectionHeader, trim_eq hplain,
    toUpperCase]

/-- Two raw lines that trim to the same plain text have the same effect. -/
theorem parseLine_eq {rawLine : List Char} {line : String} (hplain : Plain line)
    (htrim : trimChars rawLine = Log73.trimChars line.toList) (currentMode : Option String) :
    parseLine currentMode rawLine = RadioIo.parseLine currentMode line := by
  have htext : String.ofList (trimChars rawLine) = Log73.trim line := by rw [htrim]; rfl
  have hblank : trimChars rawLine = [] ↔ Log73.trim line = "" := by
    rw [← htext, ← String.toList_eq_nil_iff, String.toList_ofList]
  unfold parseLine RadioIo.parseLine
  dsimp only
  rw [htext, parseMessageModeSectionHeader_eq hplain.trim]
  by_cases hempty : Log73.trim line = ""
  · rw [if_pos hempty, if_pos (hblank.mpr hempty)]
  · rw [if_neg hempty, if_neg (mt hblank.mp hempty)]
    cases RadioIo.parseMessageModeSectionHeader (Log73.trim line) with
    | some mode => rfl
    | none =>
        cases currentMode with
        | none => simp
        | some mode =>
            have hline : parseMessageLine (trimChars rawLine) mode =
                RadioIo.parseMessageLine (Log73.trim line) (some mode) := by
              rw [← htext]
              apply parseMessageLine_eq
              · rw [htext]
                exact hplain.trim
              · rw [htrim, trimChars_trimChars]
            simp only [Option.isNone_some, Bool.or_false, hline]

/-- Lines that trim to the same plain texts have the same entries. -/
theorem parseLines_eq {rawLines : List (List Char)} {lines : List String}
    (h : List.Forall₂ (fun rawLine line => Plain line
      ∧ trimChars rawLine = Log73.trimChars line.toList) rawLines lines)
    (currentMode : Option String) :
    parseLines currentMode rawLines = RadioIo.parseLines currentMode lines := by
  induction h generalizing currentMode with
  | nil => rfl
  | cons hline _ ih =>
      rw [parseLines, RadioIo.parseLines, parseLine_eq hline.1 hline.2, ih]

omit [Platform] in
/-- A line of the split keeps the carriage return that the frontend takes for its end. -/
theorem splitLines_eq (cs : List Char) :
    List.Forall₂ (fun line part => part = line ∨ part = line ++ ['\r'])
      (splitLines cs) (splitOnChar '\n' cs) := by
  induction cs using splitLines.induct with
  | case1 => exact .cons (Or.inl rfl) .nil
  | case2 cs ih =>
      have hempty : splitOnChar '\n' ('\n' :: cs) = [] :: splitOnChar '\n' cs :=
        splitOnChar_append List.not_mem_nil cs
      rw [splitLines, hempty]
      exact .cons (Or.inl rfl) ih
  | case3 cs ih =>
      have hreturn : splitOnChar '\n' ('\r' :: '\n' :: cs) = ['\r'] :: splitOnChar '\n' cs :=
        splitOnChar_append (by decide : '\n' ∉ ['\r']) cs
      rw [splitLines, hreturn]
      exact .cons (Or.inr rfl) ih
  | case4 c cs hnewline hreturn hnil ih =>
      rw [hnil] at ih
      cases hsplit : splitOnChar '\n' cs with
      | nil => exact absurd hsplit (splitOnChar_ne_nil '\n' cs)
      | cons part parts =>
          rw [hsplit] at ih
          cases ih
  | case5 c cs hnewline hreturn line lines hcons ih =>
      rw [hcons] at ih
      rw [splitLines, hcons, splitOnChar]
      · cases hsplit : splitOnChar '\n' cs with
        | nil => exact absurd hsplit (splitOnChar_ne_nil '\n' cs)
        | cons part parts =>
            rw [hsplit] at ih
            dsimp only
            rw [if_neg hnewline]
            cases ih with
            | cons hpart hparts =>
                exact .cons (hpart.imp (congrArg (c :: ·)) (congrArg (c :: ·))) hparts
      · exact hnewline
      · exact hreturn

omit [Platform] in
theorem mem_of_mem_splitOnChar {sep d : Char} {cs part : List Char}
    (hpart : part ∈ splitOnChar sep cs)
    (hd : d ∈ part) : d ∈ cs := by
  induction cs generalizing part with
  | nil => exact List.mem_singleton.mp hpart ▸ hd
  | cons c cs ih =>
      rw [splitOnChar] at hpart
      cases hsplit : splitOnChar sep cs with
      | nil => exact absurd hsplit (splitOnChar_ne_nil sep cs)
      | cons first parts =>
          rw [hsplit] at hpart ih
          dsimp only at hpart
          split at hpart
          · cases List.mem_cons.mp hpart with
            | inl heq => exact absurd (heq ▸ hd) List.not_mem_nil
            | inr hmem => exact List.mem_cons_of_mem c (ih hmem hd)
          · cases List.mem_cons.mp hpart with
            | inl heq =>
                rw [heq] at hd
                cases List.mem_cons.mp hd with
                | inl hdc => exact hdc ▸ List.mem_cons_self
                | inr hmem => exact List.mem_cons_of_mem c (ih List.mem_cons_self hmem)
            | inr hmem => exact List.mem_cons_of_mem c (ih (List.mem_cons_of_mem first hmem) hd)

/-- Both sides find the same entries in a text. -/
theorem parseMessageEntries_eq {config : String} (hplain : Plain config) :
    parseMessageEntries config = RadioIo.parseMessageEntries config := by
  rw [parseMessageEntries, RadioIo.parseMessageEntries, RadioIo.parseLines_lines]
  apply parseLines_eq
  rw [List.forall₂_map_right_iff]
  have hparts : ∀ part ∈ splitOnChar '\n' config.toList, Plain (String.ofList part) := by
    intro part hpart c hc
    rw [String.toList_ofList] at hc
    exact hplain c (mem_of_mem_splitOnChar hpart hc)
  have hlines := (List.forall₂_and_left _ _).mpr ⟨hparts, (splitLines_eq config.toList).flip⟩
  refine hlines.flip.imp fun line part h => ?_
  obtain ⟨hpart, hline⟩ := h
  refine ⟨hpart, ?_⟩
  rw [Plain, String.toList_ofList] at hpart
  rw [String.toList_ofList]
  cases hline with
  | inl heq => rw [← heq, trimChars_eq hpart]
  | inr heq =>
      have hplainLine : ∀ c ∈ line, c.toNat ≠ 0x85 ∧ c.toNat ≠ 0xFEFF :=
        fun c hc => hpart c (heq ▸ List.mem_append_left _ hc)
      rw [heq, trimChars_append_right (by decide), trimChars_eq hplainLine]

section Actions

omit [Platform]

theorem mem_actionGroups {text group : List Char} :
    group ∈ actionGroups text ↔ ∃ before word mid start tail,
      text = '\x7b' :: (before ++ word ++ mid ++ ':' :: (start ++ (group ++ tail))) ++ ['\x7d']
      ∧ (∀ c ∈ before, isWhitespace c = true) ∧ (∀ c ∈ mid, isWhitespace c = true)
      ∧ (∀ c ∈ start, isWhitespace c = true) ∧ (∀ c ∈ tail, isWhitespace c = true)
      ∧ List.Forall₂ (fun d c => sameLetter d c = true) "action".toList word
      ∧ group ≠ [] ∧ ∀ c ∈ group, isNoBrace c = true := by
  simp only [actionGroups, List.mem_map, List.mem_filter, List.mem_flatMap, List.any_eq_true,
    Prod.exists]
  constructor
  · intro h
    obtain ⟨_, rest, ⟨⟨r₆, ⟨r₁, h₁, r₂, h₂, r₃, h₃, r₄, h₄, r₅, h₅, h₆⟩, hgroup⟩, last,
      ⟨r₇, h₇, h₈⟩, hlast⟩, rfl⟩ := h
    obtain ⟨c, rfl, hopen⟩ := Backtrack.mem_one.mp h₁
    obtain ⟨before, rfl, hbefore⟩ := Backtrack.mem_star.mp h₂
    obtain ⟨word, rfl, hword⟩ := Backtrack.mem_word.mp h₃
    obtain ⟨mid, rfl, hmid⟩ := Backtrack.mem_star.mp h₄
    obtain ⟨d, rfl, hcolon⟩ := Backtrack.mem_one.mp h₅
    obtain ⟨start, rfl, hstart⟩ := Backtrack.mem_star.mp h₆
    obtain ⟨rfl, hne, hclass⟩ := Backtrack.mem_lazyGroup.mp hgroup
    obtain ⟨tail, rfl, htail⟩ := Backtrack.mem_star.mp h₇
    obtain ⟨e, rfl, hclose⟩ := Backtrack.mem_one.mp h₈
    obtain rfl := of_decide_eq_true hopen
    obtain rfl := of_decide_eq_true hcolon
    obtain rfl := of_decide_eq_true hclose
    obtain rfl := List.isEmpty_iff.mp hlast
    exact ⟨before, word, mid, start, tail, by simp, hbefore, hmid, hstart, htail, hword, hne,
      hclass⟩
  · intro h
    obtain ⟨before, word, mid, start, tail, rfl, hbefore, hmid, hstart, htail, hword, hne,
      hclass⟩ := h
    refine ⟨group, tail ++ ['\x7d'], ⟨⟨group ++ (tail ++ ['\x7d']), ⟨_,
      Backtrack.mem_one.mpr ⟨_, rfl, rfl⟩,
      word ++ (mid ++ ':' :: (start ++ (group ++ (tail ++ ['\x7d'])))),
      Backtrack.mem_star.mpr ⟨before, by simp, hbefore⟩, _,
        Backtrack.mem_word.mpr ⟨word, rfl, hword⟩,
      _, Backtrack.mem_star.mpr ⟨mid, rfl, hmid⟩, _, Backtrack.mem_one.mpr ⟨_, rfl, rfl⟩,
      Backtrack.mem_star.mpr ⟨start, rfl, hstart⟩⟩,
      Backtrack.mem_lazyGroup.mpr ⟨rfl, hne, hclass⟩⟩, [], ⟨['\x7d'],
      Backtrack.mem_star.mpr ⟨tail, rfl, htail⟩, Backtrack.mem_one.mpr ⟨_, rfl, rfl⟩⟩, rfl⟩, rfl⟩

/-- The word is matched letter by letter as far as its uppercase is the same. -/
theorem sameLetter_iff (word : List Char) :
    List.Forall₂ (fun d c => sameLetter d c = true) "action".toList word ↔
      toAsciiUppercase (String.ofList word) = toAsciiUppercase "action" := by
  have hletters : List.Forall₂ (fun d c => sameLetter d c = true) "action".toList word ↔
      List.Forall₂ (fun d c => d.toUpper = c.toUpper) "action".toList word := by
    constructor
    · exact fun h => h.imp fun d c hsame => of_decide_eq_true hsame
    · exact fun h => h.imp fun d c hsame => decide_eq_true hsame
  rw [hletters, @eq_comm _ (toAsciiUppercase (String.ofList word)), toAsciiUppercase,
    toAsciiUppercase, String.ofList_inj, String.toList_ofList, ← List.forall₂_eq_eq_eq,
    List.forall₂_map_left_iff, List.forall₂_map_right_iff, String.toList_ofList]

/-- The letters of the word, in any case, are neither white space nor a colon. -/
theorem sameLetter_action {word : List Char}
    (h : List.Forall₂ (fun d c => sameLetter d c = true) "action".toList word) :
    toAsciiUppercase (String.ofList word) = toAsciiUppercase "action"
      ∧ (∀ c ∈ word, Log73.isWhitespace c = false) ∧ ':' ∉ word := by
  have hname := (sameLetter_iff word).mp h
  have hupper : word.map Char.toUpper = "action".toList.map Char.toUpper := by
    rw [toAsciiUppercase, toAsciiUppercase, String.ofList_inj, String.toList_ofList] at hname
    exact hname
  have hletter {c : Char} (hc : c ∈ word) : c.toUpper ∈ ['A', 'C', 'T', 'I', 'O', 'N'] := by
    have hmem : c.toUpper ∈ "action".toList.map Char.toUpper :=
      hupper ▸ List.mem_map_of_mem hc
    exact (by decide : ∀ d ∈ "action".toList.map Char.toUpper, d ∈ ['A', 'C', 'T', 'I', 'O', 'N'])
      _ hmem
  refine ⟨hname, fun c hc => ?_, fun hcolon => ?_⟩
  · rw [← isWhitespace_toUpper]
    exact (by decide : ∀ d ∈ ['A', 'C', 'T', 'I', 'O', 'N'], Log73.isWhitespace d = false) _
      (hletter hc)
  · exact absurd (hletter hcolon) (by decide)

section Groups

variable {template : String} (hplain : Plain template)

include hplain

theorem plain_trimChars {c : Char} (hc : c ∈ Log73.trimChars template.toList) :
    isWhitespace c = Log73.isWhitespace c := by
  apply isWhitespace_eq
  apply hplain
  apply mem_of_mem_trim
  rwa [Log73.trim, String.toList_ofList]

/-- Whatever group is found, the backend finds the same action. -/
theorem actionFromTemplate_of_mem {group : List Char}
    (h : group ∈ actionGroups (Log73.trimChars template.toList)) :
    RadioIo.actionFromTemplate template =
      (some (String.ofList (Log73.trimChars group))).filter (· ≠ "") := by
  have hspace {c : Char} (hc : c ∈ Log73.trimChars template.toList)
      (hblank : isWhitespace c = true) :
      Log73.isWhitespace c = true := plain_trimChars hplain hc ▸ hblank
  obtain ⟨before, word, mid, start, tail, htext, hbefore, hmid, hstart, htail, hword, -, hbraces⟩ :=
    mem_actionGroups.mp h
  rw [htext] at hspace
  have hbefore : ∀ c ∈ before, Log73.isWhitespace c = true :=
    fun c hc => hspace (by simp [hc]) (hbefore c hc)
  have hmid : ∀ c ∈ mid, Log73.isWhitespace c = true :=
    fun c hc => hspace (by simp [hc]) (hmid c hc)
  have hstart : ∀ c ∈ start, Log73.isWhitespace c = true :=
    fun c hc => hspace (by simp [hc]) (hstart c hc)
  have htail : ∀ c ∈ tail, Log73.isWhitespace c = true :=
    fun c hc => hspace (by simp [hc]) (htail c hc)
  obtain ⟨hname, hletters, hnoColon⟩ := sameLetter_action hword
  have hcolon : ':' ∉ before ++ word ++ mid := by
    have hnospace : ¬ Log73.isWhitespace ':' = true := by decide
    rw [List.mem_append, List.mem_append, not_or, not_or]
    exact ⟨⟨fun hmem => hnospace (hbefore _ hmem), hnoColon⟩, fun hmem => hnospace (hmid _ hmem)⟩
  have hfront : Log73.trimChars (before ++ word ++ mid) = word := by
    rw [trimChars_append_right hmid, trimChars_append_left hbefore, trimChars_eq_self hletters]
  have hback : Log73.trimChars (start ++ (group ++ tail)) = Log73.trimChars group := by
    rw [trimChars_append_left hstart, trimChars_append_right htail]
  have hsame : eqIgnoreAsciiCase (String.ofList word) "action" = true := beq_iff_eq.mpr hname
  have hnobrace : (Log73.trimChars group).any (fun c => c = '\x7b' || c = '\x7d') = false := by
    rw [List.any_eq_false]
    intro c hc
    obtain ⟨front, back, -, -, hgroup⟩ := exists_trimChars group
    have hclass := hbraces c (by rw [hgroup]; simp [hc])
    simpa [isNoBrace] using hclass
  rw [RadioIo.actionFromTemplate_eq hcolon htext, hfront, hback, hsame, hnobrace,
    Option.filter_some]
  by_cases hempty : String.ofList (Log73.trimChars group) = ""
  · simp [hempty]
  · simp [hempty]

/-- An action of the backend is a group of the frontend. -/
theorem exists_mem_actionGroups {value : String}
    (h : RadioIo.actionFromTemplate template = some value) :
    ∃ group, group ∈ actionGroups (Log73.trimChars template.toList) := by
  obtain ⟨front, back, hcolon, htext⟩ := RadioIo.exists_of_actionFromTemplate h
  rw [RadioIo.actionFromTemplate_eq hcolon htext] at h
  split at h
  · next htests =>
      simp only [Bool.and_eq_true, bne_iff_ne, Bool.not_eq_true', List.any_eq_false] at htests
      obtain ⟨⟨hname, hvalue⟩, hbraces⟩ := htests
      have hspace {c : Char} (hc : c ∈ Log73.trimChars template.toList)
          (hblank : Log73.isWhitespace c = true) : isWhitespace c = true :=
        plain_trimChars hplain hc ▸ hblank
      obtain ⟨before, mid, hbefore, hmid, hfront⟩ := exists_trimChars front
      obtain ⟨start, tail, hstart, htail, hback⟩ := exists_trimChars back
      have hwhole : Log73.trimChars template.toList = '\x7b' ::
          (before ++ Log73.trimChars front ++ mid
          ++ ':' :: (start ++ (Log73.trimChars back ++ tail))) ++ ['\x7d'] := by
        rw [htext, List.append_assoc before, ← hfront, ← hback]
      rw [hwhole] at hspace ⊢
      refine ⟨_, mem_actionGroups.mpr ⟨before, _, mid, start, tail, rfl,
        fun c hc => hspace (by simp [hc]) (hbefore c hc),
        fun c hc => hspace (by simp [hc]) (hmid c hc),
        fun c hc => hspace (by simp [hc]) (hstart c hc),
        fun c hc => hspace (by simp [hc]) (htail c hc),
        (sameLetter_iff _).mpr (beq_iff_eq.mp hname), fun hempty => ?_, fun c hc => ?_⟩⟩
      · rw [hempty] at hvalue
        exact hvalue rfl
      · have hclass := hbraces c hc
        simpa [isNoBrace] using hclass
  · cases h

theorem actionFromTemplate_eq :
    actionFromTemplate template = RadioIo.actionFromTemplate template := by
  have htrim : trimChars template.toList = Log73.trimChars template.toList := trimChars_eq hplain
  rw [actionFromTemplate, htrim]
  cases hgroups : (actionGroups (Log73.trimChars template.toList)).head? with
  | none =>
      cases haction : RadioIo.actionFromTemplate template with
      | none => rfl
      | some value =>
          obtain ⟨group, hgroup⟩ := exists_mem_actionGroups hplain haction
          rw [List.head?_eq_none_iff.mp hgroups] at hgroup
          exact absurd hgroup List.not_mem_nil
  | some group =>
      have hgroup := List.mem_of_head? hgroups
      have hchars : ∀ c ∈ group, c.toNat ≠ 0x85 ∧ c.toNat ≠ 0xFEFF := by
        obtain ⟨before, word, mid, start, tail, htext, -⟩ := mem_actionGroups.mp hgroup
        intro c hc
        apply hplain.trim c
        rw [Log73.trim, String.toList_ofList, htext]
        simp [hc]
      rw [actionFromTemplate_of_mem hplain hgroup, Option.map_some, trimChars_eq hchars]

end Groups

end Actions

/-- The targets of plain text are plain. -/
theorem plain_target {config : String} (hplain : Plain config) {entry : ParsedMessageEntry}
    (h : entry ∈ RadioIo.parseMessageEntries config) : Plain entry.target := by
  rw [RadioIo.parseMessageEntries, RadioIo.parseLines_lines] at h
  obtain ⟨rawLine, hline, mode, hentry⟩ := RadioIo.exists_line_of_mem h
  obtain ⟨part, hpart, rfl⟩ := List.mem_map.mp hline
  intro c hc
  have hmem := mem_of_mem_trim (RadioIo.mem_target hentry hc)
  rw [String.toList_ofList] at hmem
  exact hplain c (mem_of_mem_splitOnChar hpart hmem)

/-- A key that counts as a function key is one. -/
theorem mem_functionKeys (law : UppercaseLaw) {entry : ParsedMessageEntry} {line : String}
    {mode : Option String} (hentry : RadioIo.parseMessageLine line mode = some entry)
    (hvalid : RadioIo.isValidFunctionKey entry.key = true) : entry.key ∈ RadioIo.functionKeys := by
  obtain ⟨key, hkey⟩ := (RadioIo.parseMessageLine_some hentry).2
  have hidem : toUppercase (Log73.trim entry.key) = entry.key := by
    rw [hkey]
    exact normalize_idem law key
  rw [RadioIo.isValidFunctionKey, hidem] at hvalid
  exact List.contains_iff_mem.mp hvalid

/-- The entries of a text and their actions are the same on both sides. A configuration that is
accepted has an entry for each message line, under a function key that its section has once. -/
theorem message_entries_agree (law : UppercaseLaw) (config : String) :
    (Plain config →
      ((parseMessageEntries config).map fun entry => (entry, actionFromTemplate entry.target)) =
        (RadioIo.parseMessageEntries config).map fun entry =>
          (entry, RadioIo.actionFromTemplate entry.target))
    ∧ ∀ targetLabel, RadioIo.validateMessageConfig config targetLabel = .ok () →
      ((RadioIo.parseMessageEntries config).map fun entry => (entry.mode, entry.key)).Nodup
        ∧ (∀ entry ∈ RadioIo.parseMessageEntries config, entry.key ∈ RadioIo.functionKeys)
        ∧ List.Forall₂ RadioIo.EntryOf (RadioIo.messageLines (RadioIo.lines config))
          (RadioIo.parseMessageEntries config) := by
  constructor
  · intro hplain
    rw [parseMessageEntries_eq hplain]
    refine List.map_congr_left fun entry hmem => ?_
    rw [actionFromTemplate_eq (plain_target hplain hmem)]
  · intro targetLabel h
    rw [RadioIo.validateMessageConfig] at h
    split at h
    · cases h
    · next sections hlines =>
        obtain ⟨hentries, hfresh⟩ := RadioIo.validateLines_ok hlines
        refine ⟨hfresh.distinct, fun entry hmem => ?_, hentries⟩
        obtain ⟨line, -, mode, hentry⟩ := RadioIo.exists_line_of_mem hmem
        exact mem_functionKeys law hentry (hfresh.valid entry hmem)

end Log73.Frontend

namespace Log73.Frontend

attribute [local instance] asciiPlatform

/-- One message for each mode. -/
def sampleConfig : String := "# RUN Messages\nF1 Cq,CQ\n# S&P Messages\nf2,{CALL}"

theorem message_entries_agree_sample :
    (((parseMessageEntries sampleConfig).map fun entry =>
      (entry, actionFromTemplate entry.target)) =
        (RadioIo.parseMessageEntries sampleConfig).map fun entry =>
          (entry, RadioIo.actionFromTemplate entry.target))
      ∧ ((RadioIo.parseMessageEntries sampleConfig).map fun entry => (entry.mode, entry.key)).Nodup
      ∧ (∀ entry ∈ RadioIo.parseMessageEntries sampleConfig, entry.key ∈ RadioIo.functionKeys)
      ∧ List.Forall₂ RadioIo.EntryOf (RadioIo.messageLines (RadioIo.lines sampleConfig))
        (RadioIo.parseMessageEntries sampleConfig) :=
  ⟨(message_entries_agree uppercaseLaw_ascii sampleConfig).1 (by decide +kernel),
    (message_entries_agree uppercaseLaw_ascii sampleConfig).2 "Message" (by decide +kernel)⟩

end Log73.Frontend
