import Mathlib.Data.List.InsertIdx
import Log73.ContestRules.Keys
import Log73.ContestRules.Merge
import Log73.Library.Checks
import Log73.Library.Placement

/-!
What laying one list of identified items over another does to the ids: the merge is a run of
edits of the list of ids, whatever the merged items hold besides.
-/

namespace Log73

open YamlValue YamlMapping Placement

namespace YamlMapping

def idEntries (entries : YamlMapping) : YamlMapping :=
  entries.filter fun entry => eq (.string "id") entry.1

theorem length_idEntries {entries : YamlMapping} (h : DistinctKeys entries) :
    (idEntries entries).length ≤ 1 :=
  h.textKeysOnce "id"

theorem idEntries_remove {entries : YamlMapping} (hlength : (idEntries entries).length ≤ 1)
    (key : YamlValue) (hkey : key ≠ .string "id") :
    idEntries (remove entries key) = idEntries entries :=
  keyEntries_remove hlength key hkey

end YamlMapping

/-- A text is laid over anything. -/
theorem mergeYaml_text {overlay : YamlValue} {s : String} (h : overlay.asStr = some s)
    (base : YamlValue) (context : String) : mergeYaml base overlay context = .ok overlay := by
  cases overlay with
  | null | bool _ | number _ | sequence _ | mapping _ => cases h
  | string _ | tagged _ _ =>
      rw [mergeYaml]
      · rfl
      all_goals
        intros
        contradiction

theorem mergeEntries_cons_eq_ok {base overlay result : YamlMapping} {key value : YamlValue}
    {context : String} (h : mergeEntries base ((key, value) :: overlay) context = .ok result) :
    ∃ merged, (mergeYaml ((get base key).getD .null) value context = .ok merged ∨ merged = value) ∧
      mergeEntries (insertNew (remove base key) key merged) overlay context = .ok result := by
  rw [mergeEntries] at h
  cases hget : get base key with
  | none =>
      rw [hget] at h
      exact ⟨value, Or.inr rfl, h⟩
  | some existing =>
      rw [hget] at h
      obtain ⟨merged, hmerged, h⟩ := Checks.bind_eq_ok.mp h
      exact ⟨merged, Or.inl hmerged, h⟩

/-- Mappings are merged under the id of the one that is laid over. -/
theorem idEntries_mergeEntries {overlay base result : YamlMapping} {context : String}
    (hbase : (idEntries base).length ≤ 1) (hoverlay : (idEntries overlay).length ≤ 1)
    (htext : ∀ entry ∈ idEntries overlay, entry.2.asStr.isSome = true)
    (h : mergeEntries base overlay context = .ok result) :
    idEntries result = if idEntries overlay = [] then idEntries base else idEntries overlay := by
  induction overlay generalizing base with
  | nil =>
      rw [mergeEntries] at h
      cases h
      exact (if_pos rfl).symm
  | cons entry overlay ih =>
      obtain ⟨key, value⟩ := entry
      obtain ⟨merged, hmerged, h⟩ := mergeEntries_cons_eq_ok h
      by_cases hkey : key = .string "id"
      · have hids : idEntries ((key, value) :: overlay) = (key, value) :: idEntries overlay :=
          List.filter_cons_of_pos ((eq_string _ _).mpr hkey)
        rw [hids] at hoverlay htext
        rw [hids, if_neg (List.cons_ne_nil _ _)]
        have hnone : idEntries overlay = [] :=
          List.eq_nil_of_length_eq_zero (by rw [List.length_cons] at hoverlay; omega)
        obtain ⟨s, hs⟩ := Option.isSome_iff_exists.mp (htext _ List.mem_cons_self)
        have hvalue : merged = value := by
          refine hmerged.elim (fun hmerged => ?_) id
          rw [mergeYaml_text hs] at hmerged
          exact (Except.ok.inj hmerged).symm
        have hnew : idEntries (insertNew (remove base key) key merged) = [(key, value)] := by
          have hremoved : keyEntries "id" (remove base (.string "id")) = [] :=
            keyEntries_remove_self hbase
          subst hkey
          rw [hvalue]
          refine (keyEntries_insertNew "id" _ _ _).trans ?_
          rw [hremoved, if_pos ((eq_string _ _).mpr rfl), List.nil_append]
        rw [ih (by rw [hnew]; exact Nat.le_refl 1) (by rw [hnone]; exact Nat.zero_le 1)
          (by rw [hnone]; exact fun _ hmem => absurd hmem List.not_mem_nil) h, hnone,
            if_pos rfl, hnew]
      · have hids : idEntries ((key, value) :: overlay) = idEntries overlay :=
          List.filter_cons_of_neg fun heq => hkey ((eq_string _ _).mp heq)
        have hnew : idEntries (insertNew (remove base key) key merged) = idEntries base := by
          refine (keyEntries_insertNew "id" _ _ _).trans ?_
          rw [if_neg fun heq => hkey ((eq_string _ _).mp heq), List.append_nil]
          exact idEntries_remove hbase key hkey
        rw [hids] at hoverlay htext
        rw [hids, ih (by rw [hnew]; exact hbase) hoverlay htext h, hnew]

/-- A mapping that has at most one id. -/
def IdOnce (item : YamlValue) : Prop := (idEntries (itemMapping item)).length ≤ 1

theorem itemId_eq (item : YamlValue) :
    itemId item = ((idEntries (itemMapping item)).head?.map Prod.snd).bind asStr := by
  rw [itemId, itemMapping]
  cases item.asMapping with
  | none => rfl
  | some entries => rw [Option.bind_some, Option.getD_some, get_text, keyEntries, idEntries]

theorem idEntries_cleanItem {item : YamlValue} (h : IdOnce item) :
    idEntries (cleanItem item) = idEntries (itemMapping item) := by
  have hremove := idEntries_remove h (.string "remove") (by simp)
  have hbefore := idEntries_remove (by rw [hremove]; exact h) (.string "before") (by simp)
  have hafter := idEntries_remove (by rw [hbefore, hremove]; exact h)
    (.string "after") (by simp)
  rw [cleanItem, hafter, hbefore, hremove]

/-- A clean item keeps its id, whatever it is laid over. -/
theorem idEntries_merged {existing item merged : YamlValue} {context id : String}
    (hexisting : IdOnce existing) (hitem : IdOnce item) (hid : itemId item = some id)
    (h : mergeYaml existing (.mapping (cleanItem item)) context = .ok merged) :
    idEntries (itemMapping merged) = idEntries (itemMapping item) := by
  have hclean := idEntries_cleanItem hitem
  rw [itemId_eq] at hid
  cases existing with
  | mapping entries =>
      rw [mergeYaml] at h
      obtain ⟨result, hresult, h⟩ := Checks.bind_eq_ok.mp h
      cases h
      cases hentries : idEntries (itemMapping item) with
      | nil =>
          rw [hentries] at hid
          cases hid
      | cons entry rest =>
          have hrest : rest = [] := by
            rw [IdOnce, hentries] at hitem
            exact List.eq_nil_of_length_eq_zero (by rw [List.length_cons] at hitem; omega)
          subst hrest
          rw [hentries] at hid hclean
          have hids := idEntries_mergeEntries hexisting (by rw [hclean]; exact Nat.le_refl 1)
            (fun other hmem => by
              rw [hclean] at hmem
              rw [List.mem_singleton.mp hmem]
              exact Option.isSome_iff_exists.mpr ⟨id, hid⟩) hresult
          rw [hclean, if_neg (List.cons_ne_nil _ _)] at hids
          exact hids
  | _ =>
      rw [mergeYaml] at h
      · cases h
        exact hclean
      all_goals
        intros
        contradiction

/-- The item that is put into the list. -/
theorem putItem {existing : Option YamlValue} {item merged : YamlValue} {context id : String}
    (hexisting : ∀ value ∈ existing, IdOnce value) (hitem : IdOnce item)
    (hid : itemId item = some id)
    (h : (match existing with
      | some existing => mergeYaml existing (.mapping (cleanItem item)) context
      | none => pure (.mapping (cleanItem item))) = .ok merged) :
    IdOnce merged ∧ itemId merged = some id := by
  have hids : idEntries (itemMapping merged) = idEntries (itemMapping item) := by
    cases existing with
    | none =>
        cases h
        exact idEntries_cleanItem hitem
    | some value => exact idEntries_merged (hexisting value rfl) hitem hid h
  rw [IdOnce, itemId_eq, hids, ← itemId_eq]
  exact ⟨hitem, hid⟩

/-- The ids of a list of items. -/
def itemIds (items : List YamlValue) : List String := items.filterMap itemId

/-- Whether an overlay item takes the one with its id out. -/
def removesItem (item : YamlValue) : Bool :=
  ((get (itemMapping item) (.string "remove")).bind asBool).getD false

/-- The item that an overlay item is to stand next to. -/
def itemAnchor (item : YamlValue) : Option (Anchor String) :=
  match (get (itemMapping item) (.string "before")).bind asStr with
  | some target => some (.before target)
  | none => ((get (itemMapping item) (.string "after")).bind asStr).map .after

/-- What an overlay item does to the ids. -/
def itemEdit (item : YamlValue) : Edit String :=
  let id := (itemId item).getD ""
  if removesItem item then .remove id
  else match itemAnchor item with
    | some anchor => .place id anchor
    | none => .keep id

section Ids

def Identified (items : List YamlValue) : Prop := ∀ item ∈ items, (itemId item).isSome = true

theorem itemIds_eq {items : List YamlValue} (h : Identified items) :
    itemIds items = items.map fun item => (itemId item).getD "" := by
  induction items with
  | nil => rfl
  | cons item items ih =>
      obtain ⟨id, hid⟩ := Option.isSome_iff_exists.mp (h item List.mem_cons_self)
      have hrest := ih fun other hmem => h other (List.mem_cons_of_mem _ hmem)
      rw [itemIds, List.filterMap_cons_some hid, ← itemIds, hrest, List.map_cons, hid]
      rfl

theorem length_itemIds {items : List YamlValue} (h : Identified items) :
    (itemIds items).length = items.length := by
  rw [itemIds_eq h, List.length_map]

theorem item_itemEdit (item : YamlValue) : (itemEdit item).item = (itemId item).getD "" := by
  rw [itemEdit]
  split
  · rfl
  · split <;> rfl

theorem map_item_itemEdit {overlay : List YamlValue} (h : Identified overlay) :
    (overlay.map itemEdit).map Edit.item = itemIds overlay := by
  rw [itemIds_eq h, List.map_map]
  exact List.map_congr_left fun item _ => item_itemEdit item

/-- Positions of items are those of their ids. -/
theorem positionOf_eq {items : List YamlValue} (h : Identified items) (id : String) :
    positionOf items id = if id ∈ itemIds items then some ((itemIds items).idxOf id) else none := by
  rw [positionOf, itemIds_eq h]
  induction items with
  | nil => rfl
  | cons item items ih =>
      obtain ⟨other, hother⟩ := Option.isSome_iff_exists.mp (h item List.mem_cons_self)
      rw [List.findIdx?_cons, ih fun other hmem => h other (List.mem_cons_of_mem _ hmem),
        List.map_cons, hother, Option.getD_some]
      by_cases heq : other = id
      · simp [heq]
      · have hne : ¬id = other := fun h => heq h.symm
        rw [List.idxOf_cons_ne _ heq]
        simp only [Option.some_beq_some, beq_iff_eq, heq, if_false, List.mem_cons, hne, false_or]
        split <;> rfl

theorem eraseIdx_idxOf {ids : List String} (id : String) :
    ids.eraseIdx (ids.idxOf id) = ids.erase id := by
  induction ids with
  | nil => rfl
  | cons other ids ih =>
      by_cases heq : other = id
      · rw [heq, List.idxOf_cons_self, List.erase_cons_head]
        rfl
      · rw [List.idxOf_cons_ne _ heq, List.erase_cons_tail (by simpa using heq),
          List.eraseIdx_cons_succ, ih]

theorem Identified.eraseIdx {items : List YamlValue} (h : Identified items) (position : Nat) :
    Identified (items.eraseIdx position) :=
  fun item hmem => h item (List.mem_of_mem_eraseIdx hmem)

theorem Identified.insertIdx {items : List YamlValue} (h : Identified items) {item : YamlValue}
    {id : String} (hid : itemId item = some id) (position : Nat) :
    Identified (items.insertIdx position item) := by
  intro other hmem
  rcases List.eq_or_mem_of_mem_insertIdx hmem with rfl | hmem
  · rw [hid]
    rfl
  · exact h other hmem

theorem itemIds_eraseIdx {items : List YamlValue} (h : Identified items) (position : Nat) :
    itemIds (items.eraseIdx position) = (itemIds items).eraseIdx position := by
  rw [itemIds_eq (h.eraseIdx position), itemIds_eq h, List.eraseIdx_map]

theorem itemIds_insertIdx {items : List YamlValue} (h : Identified items) {item : YamlValue}
    {id : String} (hid : itemId item = some id) (position : Nat) :
    itemIds (items.insertIdx position item) = (itemIds items).insertIdx position id := by
  rw [itemIds_eq (h.insertIdx hid position), itemIds_eq h, List.map_insertIdx, hid]
  rfl

end Ids

/-- What one pass of the loop over an overlaid list has done when it does not fail. -/
theorem mergeItems_cons_eq_ok {base overlay result : List YamlValue} {item : YamlValue}
    {context : String} (h : mergeItems base (item :: overlay) context = .ok result) :
    ∃ id, itemId item = some id ∧
      ((removesItem item = true ∧ ∃ position, positionOf base id = some position ∧
          mergeItems (base.eraseIdx position) overlay context = .ok result) ∨
        (removesItem item = false ∧ ∃ before after merged target,
          optionalString (get (itemMapping item) (.string "before")) "before" = .ok before ∧
          optionalString (get (itemMapping item) (.string "after")) "after" = .ok after ∧
          ¬(before.isSome = true ∧ after.isSome = true) ∧
          (match (positionOf base id).bind fun position => base[position]? with
            | some existing => mergeYaml existing (.mapping (cleanItem item)) context
            | none => pure (.mapping (cleanItem item))) = .ok merged ∧
          targetPosition ((positionOf base id).elim base base.eraseIdx) id before after
            (positionOf base id) context = .ok target ∧
          mergeItems (((positionOf base id).elim base base.eraseIdx).insertIdx target merged)
            overlay
            context = .ok result)) := by
  rw [mergeItems] at h
  cases hid : itemId item with
  | none =>
      rw [hid] at h
      cases h
  | some id =>
      rw [hid] at h
      refine ⟨id, rfl, ?_⟩
      dsimp only at h
      rw [← removesItem] at h
      by_cases hremove : removesItem item = true
      · rw [if_pos hremove] at h
        cases hposition : positionOf base id with
        | none =>
            rw [hposition] at h
            cases h
        | some position =>
            rw [hposition] at h
            exact Or.inl ⟨hremove, position, rfl, h⟩
      · rw [if_neg hremove] at h
        refine Or.inr ⟨Bool.eq_false_iff.mpr hremove, ?_⟩
        obtain ⟨before, hbefore, h⟩ := Checks.bind_eq_ok.mp h
        obtain ⟨after, hafter, h⟩ := Checks.bind_eq_ok.mp h
        by_cases hboth : before.isSome = true ∧ after.isSome = true
        · rw [if_pos (by rw [hboth.1, hboth.2]; rfl)] at h
          cases h
        · rw [if_neg (by rwa [Bool.and_eq_true])] at h
          cases hexisting : (positionOf base id).bind fun position => base[position]? with
          | none =>
              rw [hexisting] at h
              obtain ⟨merged, hmerged, h⟩ := Checks.bind_eq_ok.mp h
              obtain ⟨target, htarget, h⟩ := Checks.bind_eq_ok.mp h
              exact ⟨before, after, merged, target, hbefore, hafter, hboth, hmerged, htarget, h⟩
          | some existing =>
              rw [hexisting] at h
              obtain ⟨merged, hmerged, h⟩ := Checks.bind_eq_ok.mp h
              obtain ⟨target, htarget, h⟩ := Checks.bind_eq_ok.mp h
              exact ⟨before, after, merged, target, hbefore, hafter, hboth, hmerged, htarget, h⟩

theorem optionalString_eq_ok {value : Option YamlValue} {name : String} {text : Option String}
    (h : optionalString value name = .ok text) : text = value.bind asStr := by
  cases value with
  | none =>
      cases h
      rfl
  | some value =>
      rw [optionalString] at h
      split at h
      · next hstr =>
          cases h
          exact hstr.symm
      · cases h

/-- The position where an item is put, as an edit of the ids. -/
theorem step_targetPosition {base : List YamlValue} (hbase : Identified base) {item : YamlValue}
    {id context : String} {before after : Option String} {target : Nat}
    (hid : itemId item = some id) (hremove : removesItem item = false)
    (hbefore : before = (get (itemMapping item) (.string "before")).bind asStr)
    (hafter : after = (get (itemMapping item) (.string "after")).bind asStr)
    (h : targetPosition ((positionOf base id).elim base base.eraseIdx) id before after
      (positionOf base id) context = .ok target) :
    step (itemIds base) (itemEdit item) =
      some ((itemIds ((positionOf base id).elim base base.eraseIdx)).insertIdx target id) := by
  have hrest : Identified ((positionOf base id).elim base base.eraseIdx) := by
    cases positionOf base id with
    | none => exact hbase
    | some position => exact hbase.eraseIdx position
  have hids : itemIds ((positionOf base id).elim base base.eraseIdx) = (itemIds base).erase id := by
    rw [positionOf_eq hbase]
    by_cases hmem : id ∈ itemIds base
    · rw [if_pos hmem, Option.elim_some, itemIds_eraseIdx hbase, eraseIdx_idxOf]
    · rw [if_neg hmem, Option.elim_none, List.erase_of_not_mem hmem]
  rw [itemEdit, hremove, if_neg Bool.false_ne_true, itemAnchor, ← hbefore, ← hafter, hid,
    Option.getD_some]
  rw [hids]
  cases before with
  | some anchor =>
      rw [targetPosition, positionOf_eq hrest, hids] at h
      by_cases hmem : anchor ∈ (itemIds base).erase id
      · rw [if_pos hmem] at h
        cases h
        exact if_pos hmem
      · rw [if_neg hmem] at h
        cases h
  | none =>
      cases after with
      | some anchor =>
          rw [targetPosition, positionOf_eq hrest, hids] at h
          by_cases hmem : anchor ∈ (itemIds base).erase id
          · rw [if_pos hmem] at h
            cases h
            exact if_pos hmem
          · rw [if_neg hmem] at h
            cases h
      | none =>
          have hlength := length_itemIds hrest
          rw [hids, positionOf_eq hbase] at hlength
          rw [positionOf_eq hbase] at h
          show some (if id ∈ itemIds base then itemIds base else itemIds base ++ [id]) = _
          by_cases hmem : id ∈ itemIds base
          · rw [if_pos hmem] at h hlength
            cases h
            rw [if_pos hmem, ← hlength]
            obtain ⟨front, back, hcut, hfront⟩ := List.eq_append_cons_of_mem hmem
            rw [hcut, List.idxOf_append_of_notMem hfront, List.idxOf_cons_self, Nat.add_zero,
              List.erase_append_right _ hfront, List.erase_cons_head, List.length_append,
              Nat.min_eq_left (Nat.le_add_right _ _), insertIdx_length]
          · rw [if_neg hmem, List.erase_of_not_mem hmem, Option.elim_none] at hlength
            rw [if_neg hmem] at h
            cases h
            rw [if_neg hmem, List.erase_of_not_mem hmem, Option.elim_none, ← hlength]
            exact congrArg some List.insertIdx_length_self.symm

/-- The merge of two lists is a run of edits of the ids. -/
theorem mergeItems_run {overlay base result : List YamlValue} {context : String}
    (hbase : Identified base) (honce : ∀ item ∈ base ++ overlay, IdOnce item)
    (h : mergeItems base overlay context = .ok result) :
    Identified result ∧
      run (itemIds base) (overlay.map itemEdit) = some (itemIds result) := by
  induction overlay generalizing base with
  | nil =>
      rw [mergeItems] at h
      cases h
      exact ⟨hbase, rfl⟩
  | cons item overlay ih =>
      obtain ⟨id, hid, ⟨hremove, position, hposition, h⟩ | ⟨hremove, before, after, merged, target,
        hbefore, hafter, -, hmerged, htarget, h⟩⟩ := mergeItems_cons_eq_ok h
      · have hstep : step (itemIds base) (itemEdit item) =
            some (itemIds (base.eraseIdx position)) := by
          rw [positionOf_eq hbase] at hposition
          split at hposition
          · next hmem =>
              cases hposition
              rw [itemEdit, if_pos hremove, hid, Option.getD_some, step, if_pos hmem,
                itemIds_eraseIdx hbase, eraseIdx_idxOf]
          · cases hposition
        obtain ⟨hresult, hrun⟩ := ih (hbase.eraseIdx position) (fun other hmem => honce other (by
          rcases List.mem_append.mp hmem with hmem | hmem
          · exact List.mem_append_left _ (List.mem_of_mem_eraseIdx hmem)
          · exact List.mem_append_right _ (List.mem_cons_of_mem _ hmem))) h
        exact ⟨hresult, by rw [List.map_cons, run, hstep, Option.bind_some, hrun]⟩
      · have hrest : Identified ((positionOf base id).elim base base.eraseIdx) := by
          cases positionOf base id with
          | none => exact hbase
          | some position => exact hbase.eraseIdx position
        have hsub : ∀ other ∈ (positionOf base id).elim base base.eraseIdx, other ∈ base := by
          cases positionOf base id with
          | none => exact fun _ hmem => hmem
          | some position => exact fun _ hmem => List.mem_of_mem_eraseIdx hmem
        obtain ⟨honceMerged, hidMerged⟩ := putItem (fun value hvalue => honce value (by
          obtain ⟨position, -, hget⟩ := Option.bind_eq_some_iff.mp hvalue
          exact List.mem_append_left _ (List.mem_of_getElem? hget)))
          (honce item (List.mem_append_right _ List.mem_cons_self)) hid hmerged
        have hstep := step_targetPosition hbase hid hremove (optionalString_eq_ok hbefore)
          (optionalString_eq_ok hafter) htarget
        rw [← itemIds_insertIdx hrest hidMerged] at hstep
        obtain ⟨hresult, hrun⟩ := ih (hrest.insertIdx hidMerged target) (fun other hmem => by
          rcases List.mem_append.mp hmem with hmem | hmem
          · rcases List.eq_or_mem_of_mem_insertIdx hmem with rfl | hmem
            · exact honceMerged
            · exact honce other (List.mem_append_left _ (hsub other hmem))
          · exact honce other (List.mem_append_right _ (List.mem_cons_of_mem _ hmem))) h
        exact ⟨hresult, by rw [List.map_cons, run, hstep, Option.bind_some, hrun]⟩

theorem foldlM_validateUniqueIds {values : List YamlValue} {context : String}
    {seen ids : List String}
    (h : values.foldlM (fun ids value =>
      match itemId value with
      | none => Except.ok ids
      | some id =>
          if id ∈ ids then .error ("duplicate id " ++ id ++ " in " ++ context)
          else .ok (id :: ids)) seen = .ok ids) :
    (itemIds values).Nodup ∧ ∀ id ∈ itemIds values, id ∉ seen := by
  induction values generalizing seen with
  | nil => exact ⟨List.nodup_nil, fun _ hmem => absurd hmem List.not_mem_nil⟩
  | cons value values ih =>
      rw [List.foldlM_cons] at h
      obtain ⟨next, hnext, h⟩ := Checks.bind_eq_ok.mp h
      cases hid : itemId value with
      | none =>
          rw [hid] at hnext
          cases hnext
          rw [itemIds, List.filterMap_cons_none hid]
          exact ih h
      | some id =>
          rw [hid] at hnext
          obtain ⟨hnew, hnext⟩ := Checks.ite_error_eq_ok.mp hnext
          cases hnext
          obtain ⟨hnodup, hseen⟩ := ih h
          rw [itemIds, List.filterMap_cons_some hid, ← itemIds, List.nodup_cons,
            List.forall_mem_cons]
          exact ⟨⟨fun hmem => hseen id hmem List.mem_cons_self, hnodup⟩, hnew,
            fun other hmem hother => hseen other hmem (List.mem_cons_of_mem _ hother)⟩

theorem nodup_of_validateUniqueIds {values : List YamlValue} {context : String}
    (h : validateUniqueIds values context = .ok ()) : (itemIds values).Nodup := by
  obtain ⟨ids, hids, -⟩ := Checks.bind_eq_ok.mp h
  exact (foldlM_validateUniqueIds hids).1

/-- What a merge that is accepted has checked. -/
theorem mergeKeyedCollection_eq_ok {base overlay result : List YamlValue} {context : String}
    (h : mergeKeyedCollection base overlay context = .ok result) :
    Identified (base ++ overlay) ∧ (itemIds base).Nodup ∧ (itemIds overlay).Nodup ∧
      (overlay = [] ∧ result = [] ∨
        overlay ≠ [] ∧ mergeItems base overlay context = .ok result) := by
  rw [mergeKeyedCollection] at h
  split at h
  · cases h
  · next hmixed =>
      obtain ⟨⟨⟩, hbase, h⟩ := Checks.bind_eq_ok.mp h
      obtain ⟨⟨⟩, hoverlay, h⟩ := Checks.bind_eq_ok.mp h
      have hids : Identified (base ++ overlay) := fun item hmem => by
        rw [Bool.not_eq_true, List.any_eq_false] at hmixed
        simpa [Option.isSome_iff_ne_none] using hmixed item hmem
      refine ⟨hids, nodup_of_validateUniqueIds hbase, nodup_of_validateUniqueIds hoverlay, ?_⟩
      split at h
      · next hempty =>
          cases h
          exact Or.inl ⟨List.isEmpty_iff.mp hempty, rfl⟩
      · next hempty =>
          obtain ⟨merged, hmerged, h⟩ := Checks.bind_eq_ok.mp h
          obtain ⟨⟨⟩, -, h⟩ := Checks.bind_eq_ok.mp h
          cases h
          exact Or.inr ⟨fun hnil => hempty (List.isEmpty_iff.mpr hnil), hmerged⟩

/-- An overlay leaves an item where it is: no item of it with that id removes or places it. -/
def leavesInPlace (overlay : List YamlValue) (id : String) : Bool :=
  overlay.all fun item =>
    itemId item != some id || (!removesItem item && (itemAnchor item).isNone)

def Removed (overlay : List YamlValue) (id : String) : Prop :=
  ∃ item ∈ overlay, itemId item = some id ∧ removesItem item = true

/-- What laying a list of identified items over another makes of it. -/
structure Merged (base overlay result : List YamlValue) : Prop where
  identified : Identified result
  distinct : (itemIds result).Nodup
  ids : ∀ id, id ∈ itemIds result ↔
    (id ∈ itemIds base ∨ id ∈ itemIds overlay) ∧ ¬Removed overlay id
  order : (itemIds result).filter (leavesInPlace overlay) =
    (itemIds base ++ (itemIds overlay).filter (· ∉ itemIds base)).filter (leavesInPlace overlay)
  sides : ∀ front item rest id anchor, overlay = front ++ item :: rest → itemId item = some id →
    removesItem item = false → itemAnchor item = some anchor →
    leavesInPlace rest anchor.target = true → anchor.Holds (itemIds result) id

/-- An overlay that cannot be laid over a list. -/
inductive FaultyOverlay (base overlay : List YamlValue) : Prop
  | duplicate (h : ¬(itemIds base).Nodup ∨ ¬(itemIds overlay).Nodup)
  | removal {item : YamlValue} {id : String} (hmem : item ∈ overlay) (hid : itemId item = some id)
      (hremove : removesItem item = true) (hmissing : id ∉ itemIds base)
  | anchor {front rest : List YamlValue} {item : YamlValue} {id : String} {anchor : Anchor String}
      (hsplit : overlay = front ++ item :: rest) (hid : itemId item = some id)
      (hremove : removesItem item = false) (hanchor : itemAnchor item = some anchor)
      (hunknown : anchor.target = id ∨ Removed front anchor.target ∨
        (anchor.target ∉ itemIds base ∧ anchor.target ∉ itemIds front))

section Accepted

variable {base overlay result : List YamlValue}

theorem keeps_itemEdit {item : YamlValue} :
    (itemEdit item).Keeps ↔ removesItem item = false ∧ itemAnchor item = none := by
  rw [itemEdit]
  split
  · next hremove => simp [Edit.Keeps, hremove]
  · next hremove =>
      split
      · next hanchor => simp [Edit.Keeps, hanchor]
      · next hanchor => simp [Edit.Keeps, hremove, hanchor]

theorem removes_itemEdit {item : YamlValue} :
    (itemEdit item).Removes ↔ removesItem item = true := by
  rw [itemEdit]
  split
  · next hremove => simp [Edit.Removes, hremove]
  · next hremove => split <;> simp [Edit.Removes, hremove]

theorem leavesInPlace_iff (hoverlay : Identified overlay) (id : String) :
    leavesInPlace overlay id = true ↔
      ∀ edit ∈ overlay.map itemEdit, edit.item = id → edit.Keeps := by
  rw [leavesInPlace, List.all_eq_true, List.forall_mem_map]
  refine forall₂_congr fun item hmem => ?_
  obtain ⟨other, hother⟩ := Option.isSome_iff_exists.mp (hoverlay item hmem)
  rw [keeps_itemEdit, item_itemEdit, hother, Option.getD_some]
  simp only [bne_iff_ne, ne_eq, Option.some.injEq, Bool.or_eq_true, Bool.and_eq_true,
    Bool.not_eq_true', Option.isNone_iff_eq_none]
  tauto

theorem removed_iff (hoverlay : Identified overlay) (id : String) :
    Removed overlay id ↔ ¬∀ edit ∈ overlay.map itemEdit, edit.Removes → id ≠ edit.item := by
  rw [List.forall_mem_map, Removed]
  push Not
  refine exists_congr fun item => and_congr_right fun hmem => ?_
  obtain ⟨other, hother⟩ := Option.isSome_iff_exists.mp (hoverlay item hmem)
  rw [removes_itemEdit, item_itemEdit, hother, Option.getD_some, Option.some.injEq]
  tauto

theorem itemEdit_anchor {item : YamlValue} {id : String} {anchor : Anchor String}
    (hid : itemId item = some id) (hremove : removesItem item = false)
    (hanchor : itemAnchor item = some anchor) : itemEdit item = .place id anchor := by
  rw [itemEdit, hremove, if_neg Bool.false_ne_true, hanchor, hid]
  rfl

/-- What the ids are after a run of edits. -/
theorem mem_itemIds_run (hoverlay : Identified overlay) (hbase : (itemIds base).Nodup)
    (hdistinct : (itemIds overlay).Nodup) {ids : List String}
    (h : run (itemIds base) (overlay.map itemEdit) = some ids) (id : String) :
    id ∈ ids ↔ (id ∈ itemIds base ∨ id ∈ itemIds overlay) ∧ ¬Removed overlay id := by
  rw [mem_run hbase (by rwa [map_item_itemEdit hoverlay]) h, map_item_itemEdit hoverlay,
    removed_iff hoverlay, not_not]

theorem merged_of_run (hresult : Identified result) (hoverlay : Identified overlay)
    (hbase : (itemIds base).Nodup) (hdistinct : (itemIds overlay).Nodup)
    (h : run (itemIds base) (overlay.map itemEdit) = some (itemIds result)) :
    Merged base overlay result where
  identified := hresult
  distinct := nodup_run hbase h
  ids := mem_itemIds_run hoverlay hbase hdistinct h
  order := by
    have hfilter := filter_run hbase (by rwa [map_item_itemEdit hoverlay]) h (leavesInPlace overlay)
      fun edit hmem hleaves => (leavesInPlace_iff hoverlay _).mp hleaves edit hmem rfl
    rwa [map_item_itemEdit hoverlay] at hfilter
  sides := by
    rintro front item rest id anchor rfl hid hremove hanchor hrest
    have hrestIds : Identified rest := fun other hmem =>
      hoverlay other (List.mem_append_right _ (List.mem_cons_of_mem _ hmem))
    have hedits := hdistinct
    rw [← map_item_itemEdit hoverlay] at hedits
    rw [List.map_append, List.map_cons, itemEdit_anchor hid hremove hanchor] at h hedits
    exact placed_run hbase hedits h ((leavesInPlace_iff hrestIds _).mp hrest)

/-- The ids in front of an item, which its edit can be made to. -/
theorem exists_step {front rest : List YamlValue} {item : YamlValue} {ids : List String}
    (hoverlay : Identified (front ++ item :: rest)) (hbase : (itemIds base).Nodup)
    (hdistinct : (itemIds (front ++ item :: rest)).Nodup)
    (h : run (itemIds base) ((front ++ item :: rest).map itemEdit) = some ids) :
    ∃ before after, step before (itemEdit item) = some after ∧ before.Nodup ∧
      ∀ id, id ∈ before ↔ (id ∈ itemIds base ∨ id ∈ itemIds front) ∧ ¬Removed front id := by
  rw [List.map_append, run_append] at h
  obtain ⟨before, hbefore, h⟩ := Option.bind_eq_some_iff.mp h
  obtain ⟨after, hstep, -⟩ := Option.bind_eq_some_iff.mp h
  rw [itemIds, List.filterMap_append] at hdistinct
  exact ⟨before, after, hstep, nodup_run hbase hbefore,
    mem_itemIds_run (fun other hmem => hoverlay other (List.mem_append_left _ hmem)) hbase
      (List.nodup_append.mp hdistinct).1 hbefore⟩

/-- A fault is found by the run. -/
theorem not_faulty_of_run (hoverlay : Identified overlay) (hbase : (itemIds base).Nodup)
    (hdistinct : (itemIds overlay).Nodup) {ids : List String}
    (h : run (itemIds base) (overlay.map itemEdit) = some ids) : ¬FaultyOverlay base overlay := by
  rintro (hnodup | ⟨hmem, hid, hremove, hmissing⟩ | ⟨rfl, hid, hremove, hanchor, hunknown⟩)
  · exact hnodup.elim (absurd hbase) (absurd hdistinct)
  · obtain ⟨front, rest, rfl⟩ := List.append_of_mem hmem
    obtain ⟨before, after, hstep, -, hbefore⟩ := exists_step hoverlay hbase hdistinct h
    rw [itemEdit, if_pos hremove, hid, Option.getD_some, step] at hstep
    split at hstep
    · next hknown =>
        have hfront := ((hbefore _).mp hknown).1.resolve_left hmissing
        rw [itemIds, List.filterMap_append, List.filterMap_cons_some hid] at hdistinct
        exact (List.nodup_append.mp hdistinct).2.2 _ hfront _ List.mem_cons_self rfl
    · cases hstep
  · obtain ⟨before, after, hstep, hnodup, hbefore⟩ := exists_step hoverlay hbase hdistinct h
    rw [itemEdit_anchor hid hremove hanchor, step] at hstep
    have htarget := isSome_place.mp (Option.isSome_iff_exists.mpr ⟨after, hstep⟩)
    rw [hnodup.mem_erase_iff, hbefore] at htarget
    tauto

end Accepted

/-- Laying identified items over a list: an empty overlay clears the list, any other one that is
accepted leaves distinct items, the known and the new ones without those it removes, in their
order except for those it places, which stand next to what they name; an overlay that names an
unknown item is rejected. -/
theorem mergeKeyedCollection_merged {base overlay : List YamlValue} (context : String)
    (hkeys : ∀ item ∈ base ++ overlay, DistinctKeys (itemMapping item)) :
    (∀ result, mergeKeyedCollection base overlay context = .ok result →
      (overlay = [] → result = []) ∧ (overlay ≠ [] → Merged base overlay result)) ∧
    (FaultyOverlay base overlay →
      ∃ message, mergeKeyedCollection base overlay context = .error message) := by
  have honce : ∀ item ∈ base ++ overlay, IdOnce item := fun item hmem =>
    length_idEntries (hkeys item hmem)
  constructor
  · intro result h
    obtain ⟨hids, hbase, hdistinct, ⟨rfl, rfl⟩ | ⟨hsome, hitems⟩⟩ := mergeKeyedCollection_eq_ok h
    · exact ⟨fun _ => rfl, fun hne => absurd rfl hne⟩
    · refine ⟨fun hnil => absurd hnil hsome, fun _ => ?_⟩
      obtain ⟨hresult, hrun⟩ := mergeItems_run
        (fun item hmem => hids item (List.mem_append_left _ hmem)) honce hitems
      exact merged_of_run hresult (fun item hmem => hids item (List.mem_append_right _ hmem)) hbase
        hdistinct hrun
  · intro hfaulty
    cases h : mergeKeyedCollection base overlay context with
    | error message => exact ⟨message, rfl⟩
    | ok result =>
        exfalso
        obtain ⟨hids, hbase, hdistinct, ⟨rfl, rfl⟩ | ⟨hsome, hitems⟩⟩ :=
          mergeKeyedCollection_eq_ok h
        · have hrun : run (itemIds base) (([] : List YamlValue).map itemEdit) =
              some (itemIds base) := rfl
          exact not_faulty_of_run (fun _ hmem => absurd hmem List.not_mem_nil) hbase hdistinct hrun
            hfaulty
        · obtain ⟨-, hrun⟩ := mergeItems_run
            (fun item hmem => hids item (List.mem_append_left _ hmem)) honce hitems
          exact not_faulty_of_run (fun item hmem => hids item (List.mem_append_right _ hmem)) hbase
            hdistinct hrun hfaulty

/-- Two fields of an exchange, and an overlay that puts a third between them. -/
def exchangeItems : List YamlValue :=
  [.mapping [(.string "id", .string "rst")], .mapping [(.string "id", .string "section")]]

def exchangeOverlay : List YamlValue :=
  [.mapping [(.string "id", .string "serial"), (.string "before", .string "section")]]

theorem mergeKeyedCollection_merged_exchange :
    (∀ result, mergeKeyedCollection exchangeItems exchangeOverlay "contest" = .ok result →
      (exchangeOverlay = [] → result = []) ∧
        (exchangeOverlay ≠ [] → Merged exchangeItems exchangeOverlay result)) ∧
    (FaultyOverlay exchangeItems exchangeOverlay →
      ∃ message, mergeKeyedCollection exchangeItems exchangeOverlay "contest" = .error message) :=
  mergeKeyedCollection_merged "contest" (by
    simp [exchangeItems, exchangeOverlay, DistinctKeys, itemMapping, asMapping, eq])

end Log73
