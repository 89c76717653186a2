import Log73.Cabrillo.Render
import Log73.Validation.Accepted

/-!
The lines of a Cabrillo text that are read as contacts, and which of them the header
brings in.
-/

namespace Log73.Cabrillo

section Lines

def isQsoLine (line : List Char) : Bool := "QSO:".toList.isPrefixOf line

/-- The lines of a text that are read as contacts. -/
def qsoLines (text : String) : List String :=
  ((text.toList.splitOn '\n').filter isQsoLine).map String.ofList

/-- A tag that makes a header line read as a contact. -/
def opensQsoLine (tag : String) : Bool := ((tag ++ ":").toList.splitOn '\n').any isQsoLine

theorem qsoLines_eq_nil {text : String} :
    qsoLines text = [] ↔ (text.toList.splitOn '\n').any isQsoLine = false := by
  rw [qsoLines, List.map_eq_nil_iff, List.filter_eq_nil_iff, List.any_eq_false]

/-- Each line of a rendered text is read by itself, with the carriage return it ends in. -/
theorem qsoLines_joinWith (lines : List String) (hne : lines ≠ []) :
    qsoLines (joinWith "\r\n" lines ++ "\r\n") = lines.flatMap fun line =>
      qsoLines (line ++ "\r") := by
  have htext : (joinWith "\r\n" lines ++ "\r\n").toList =
      (lines.map fun line => line.toList ++ ['\r']).flatMap fun part => part ++ ['\n'] := by
    induction lines with
    | nil => exact absurd rfl hne
    | cons line lines ih =>
        cases lines with
        | nil => simp [joinWith]
        | cons next lines =>
            have hrest := ih (List.cons_ne_nil next lines)
            rw [List.map_cons, List.flatMap_cons, ← hrest, joinWith, String.intercalate_cons_cons,
              ← joinWith]
            simp [String.toList_append]
  rw [qsoLines, htext, Words.splitOn_flatMap_append, List.filter_append, List.filter_flatMap,
    List.flatMap_map, List.map_append, List.map_flatMap]
  have hlast : ([[]] : List (List Char)).filter isQsoLine = [] := rfl
  rw [hlast, List.map_nil, List.append_nil]
  refine List.flatMap_congr fun line _ => ?_
  rw [qsoLines, String.toList_append]
  rfl

theorem splitOn_of_not_mem {sep : Char} {text : List Char} (h : sep ∉ text) :
    text.splitOn sep = [text] := by
  rw [List.splitOn_eq_splitOnP]
  apply List.splitOnP_eq_singleton
  intro c hc
  rw [beq_eq_false_iff_ne]
  intro heq
  exact h (heq ▸ hc)

/-- What follows the tag up to the end of the line does not decide how it is read. -/
theorem any_isQsoLine_append {back back' : List Char} (hback : '\n' ∉ back)
    (hback' : '\n' ∉ back') (h : ∀ front, isQsoLine (front ++ back) = isQsoLine (front ++ back'))
    (text : List Char) :
    ((text ++ back).splitOn '\n').any isQsoLine = ((text ++ back').splitOn '\n').any isQsoLine := by
  suffices hfront : ∀ front, '\n' ∉ front →
      ((front ++ (text ++ back)).splitOn '\n').any isQsoLine =
        ((front ++ (text ++ back')).splitOn '\n').any isQsoLine from
    hfront [] List.not_mem_nil
  induction text with
  | nil =>
      intro front hfront
      have hsplit {back : List Char} (hback : '\n' ∉ back) :
          (front ++ ([] ++ back)).splitOn '\n' = [front ++ back] :=
        splitOn_of_not_mem fun hmem => (List.mem_append.mp hmem).elim hfront hback
      rw [hsplit hback, hsplit hback', List.any_cons, List.any_cons, h front]
  | cons c text ih =>
      intro front hfront
      by_cases hc : c = '\n'
      · rw [hc, List.cons_append, List.cons_append,
          List.splitOn_append_cons_self_of_not_mem hfront,
          List.splitOn_append_cons_self_of_not_mem hfront, List.any_cons, List.any_cons]
        exact congrArg _ (ih [] List.not_mem_nil)
      · have hnext : '\n' ∉ front ++ [c] := by
          intro hmem
          cases List.mem_append.mp hmem with
          | inl hmem => exact hfront hmem
          | inr hmem => exact hc (List.mem_singleton.mp hmem).symm
        have hih := ih (front ++ [c]) hnext
        rwa [List.append_assoc, List.append_assoc] at hih

theorem isQsoLine_colon (front back : List Char) :
    isQsoLine (front ++ ':' :: back) = isQsoLine (front ++ [':']) := by
  have hquery : "QSO:".toList = ['Q', 'S', 'O', ':'] := rfl
  rw [isQsoLine, isQsoLine, hquery]
  cases front with
  | nil => rfl
  | cons a front =>
      cases front with
      | nil => simp [List.isPrefixOf]
      | cons b front =>
          cases front with
          | nil => simp [List.isPrefixOf]
          | cons c front =>
              cases front with
              | nil => simp [List.isPrefixOf]
              | cons d front => simp [List.isPrefixOf]

/-- A line that holds no contact. -/
def PlainLine (line : String) : Prop := qsoLines (line ++ "\r") = []

theorem plainLine_header {tag value : String} (h : '\n' ∉ value.toList) :
    PlainLine (tag ++ ": " ++ value) ↔ opensQsoLine tag = false := by
  have htext : (tag ++ ": " ++ value ++ "\r").toList =
      tag.toList ++ ':' :: ' ' :: (value.toList ++ ['\r']) := by
    simp [String.toList_append]
  have hback : '\n' ∉ ':' :: ' ' :: (value.toList ++ ['\r']) := by simpa using h
  rw [PlainLine, qsoLines_eq_nil, htext, opensQsoLine, String.toList_append,
    any_isQsoLine_append hback (by decide : '\n' ∉ ":".toList)
      fun front => isQsoLine_colon front _]

end Lines

end Log73.Cabrillo
