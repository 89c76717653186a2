import Log73.Db.Cache

/-!
The contacts of a log in memory: the ordered list and the index of serials are
determined by the contacts that are held by id.
-/

namespace Log73

open SortedAssoc Std

/-- A serial of a contact: its field, the band of the contact and the value. -/
structure SerialEntry where
  field : String
  band : String
  value : Int
  deriving DecidableEq

def serialEntries (contact : Contact) : List SerialEntry :=
  ((contactAdif contact).getD []).filterMap fun entry =>
    (jsonSerialValue entry.2).map fun value => ⟨entry.1, contactBand contact, value⟩

def fieldCount (entries : List SerialEntry) (field : String) (value : Int) : Nat :=
  entries.countP fun entry => entry.field = field && entry.value = value

def bandCount (entries : List SerialEntry) (field band : String) (value : Int) : Nat :=
  entries.countP fun entry => entry.field = field && entry.value = value && entry.band = band

/-- The tallies of one field. -/
structure SerialValues.Holds (values : SerialValues) (entries : List SerialEntry)
    (field : String) : Prop where
  global : Tally.Represents values.global (fieldCount entries field)
  bands : ∀ band : String,
    Tally.Represents (values.bands[band]?.getD ∅) (bandCount entries field band)
  nonempty : ∀ band : String, values.bands[band]? ≠ some ∅

/-- The index holds the entries, and no field without one. -/
def IndexesSerials (serials : KeyMap SerialValues) (entries : List SerialEntry) : Prop :=
  ∀ field : String, (serials[field]?.getD {}).Holds entries field ∧
    ∀ values, serials[field]? = some values → values.global ≠ ∅

section Counts

variable {entries entries' : List SerialEntry}

theorem bandCount_le_fieldCount (entries : List SerialEntry) (field band : String) (value : Int) :
    bandCount entries field band value ≤ fieldCount entries field value := by
  apply List.countP_mono_left
  intro entry _ h
  simp only [Bool.and_eq_true] at h ⊢
  exact h.1

theorem fieldCount_cons (entry : SerialEntry) (entries : List SerialEntry) (field : String)
    (value : Int) : fieldCount (entry :: entries) field value =
      fieldCount entries field value +
        if entry.field = field ∧ entry.value = value then 1 else 0 := by
  rw [fieldCount, List.countP_cons, ← fieldCount]
  simp

theorem bandCount_cons (entry : SerialEntry) (entries : List SerialEntry) (field band : String)
    (value : Int) : bandCount (entry :: entries) field band value =
      bandCount entries field band value +
        if entry.field = field ∧ entry.value = value ∧ entry.band = band then 1 else 0 := by
  rw [bandCount, List.countP_cons, ← bandCount]
  simp [and_assoc]

end Counts

namespace IndexesSerials

variable {serials : KeyMap SerialValues} {entries entries' : List SerialEntry}

theorem empty : IndexesSerials ∅ [] := by
  intro field
  refine ⟨⟨?_, fun band => ?_, fun band => by simp⟩, fun values h => by simp at h⟩
  · exact Tally.Represents.empty.congr fun value => by simp [fieldCount]
  · rw [ExtTreeMap.getElem?_empty, Option.getD_none, ExtTreeMap.getElem?_empty, Option.getD_none]
    exact Tally.Represents.empty.congr fun value => by simp [bandCount]

theorem perm (h : IndexesSerials serials entries) (hperm : entries.Perm entries') :
    IndexesSerials serials entries' := by
  intro field
  obtain ⟨hvalues, hne⟩ := h field
  refine ⟨⟨?_, fun band => ?_, hvalues.nonempty⟩, hne⟩
  · exact hvalues.global.congr fun value => hperm.countP_eq _
  · exact (hvalues.bands band).congr fun value => hperm.countP_eq _

/-- Only one key of a map changes when its entry is replaced, or dropped once it is empty. -/
theorem getElem?_eraseOrInsert {ν : Type} (values : KeyMap ν) {key other : String} (value : ν)
    (drop : Bool) (hother : other ≠ key) :
    (if drop then values.erase key else values.insert key value)[other]? = values[other]? := by
  have hne : ¬compare key other = .eq := fun h => hother (LawfulEqOrd.eq_of_compare h).symm
  split
  · rw [ExtTreeMap.getElem?_erase, if_neg hne]
  · rw [ExtTreeMap.getElem?_insert, if_neg hne]

/-- What an update writes to the tallies of its field. -/
theorem update_holds {values : SerialValues} {field band : String} {global : ExtTreeMap Int Nat}
    {bandValues : ExtTreeMap Int Nat} (h : values.Holds entries field)
    (hglobal : Tally.Represents global (fieldCount entries' field))
    (hband : Tally.Represents bandValues (bandCount entries' field band))
    (hother : ∀ other, other ≠ band → ∀ value,
      bandCount entries field other value = bandCount entries' field other value) :
    SerialValues.Holds
      { global := global
        bands := if bandValues.isEmpty then values.bands.erase band
          else values.bands.insert band bandValues } entries' field := by
  refine ⟨hglobal, fun other => ?_, fun other => ?_⟩
  · by_cases heq : other = band
    · subst heq
      split
      · next hempty =>
          rw [ExtTreeMap.getElem?_erase_self, Option.getD_none]
          rwa [ExtTreeMap.isEmpty_iff.mp hempty] at hband
      · rw [ExtTreeMap.getElem?_insert_self, Option.getD_some]
        exact hband
    · rw [getElem?_eraseOrInsert _ _ _ heq]
      exact (h.bands other).congr (hother other heq)
  · by_cases heq : other = band
    · subst heq
      split
      · rw [ExtTreeMap.getElem?_erase_self]
        simp
      · next hne =>
          rw [ExtTreeMap.getElem?_insert_self, ne_eq, Option.some.injEq]
          intro hempty
          exact hne (ExtTreeMap.isEmpty_iff.mpr hempty)
    · rw [getElem?_eraseOrInsert _ _ _ heq]
      exact h.nonempty other

/-- An update brings the index from one list of entries to another. -/
theorem update (h : IndexesSerials serials entries) {field band : String} {value : Int}
    {insert : Bool}
    (hglobal : Tally.Represents (updateCount (serials[field]?.getD {}).global value insert)
      (fieldCount entries' field))
    (hband : Tally.Represents
      (updateCount ((serials[field]?.getD {}).bands[band]?.getD ∅) value insert)
      (bandCount entries' field band))
    (hbands : ∀ other, other ≠ band → ∀ v,
      bandCount entries field other v = bandCount entries' field other v)
    (hfields : ∀ other, other ≠ field →
      (∀ v, fieldCount entries other v = fieldCount entries' other v) ∧
      ∀ b v, bandCount entries other b v = bandCount entries' other b v) :
    IndexesSerials (updateSerial serials field band value insert) entries' := by
  have hvalues := (h field).1
  intro other
  by_cases heq : other = field
  · subst heq
    have hholds := update_holds hvalues hglobal hband hbands
    simp only [updateSerial]
    split
    · next hempty =>
        rw [ExtTreeMap.getElem?_erase_self, Option.getD_none]
        refine ⟨⟨?_, fun b => ?_, fun b => by simp⟩, fun values hv => by simp at hv⟩
        · rwa [ExtTreeMap.isEmpty_iff.mp hempty] at hglobal
        · have hzero : ∀ v, bandCount entries' other b v = 0 := by
            intro v
            have hle := bandCount_le_fieldCount entries' other b v
            have hcount := hglobal.getD v
            rw [ExtTreeMap.isEmpty_iff.mp hempty] at hcount
            simp only [ExtTreeMap.getElem?_empty, Option.getD_none] at hcount
            omega
          simpa using Tally.Represents.empty.congr fun v => (hzero v).symm
    · next hne =>
        rw [ExtTreeMap.getElem?_insert_self, Option.getD_some]
        refine ⟨hholds, fun values hv hempty => ?_⟩
        obtain rfl := Option.some.inj hv
        exact hne (ExtTreeMap.isEmpty_iff.mpr hempty)
  · have hget : (updateSerial serials field band value insert)[other]? = serials[other]? :=
      getElem?_eraseOrInsert _ _ _ heq
    obtain ⟨hfieldCount, hbandCount⟩ := hfields other heq
    rw [hget]
    obtain ⟨hold, hne⟩ := h other
    exact ⟨⟨hold.global.congr hfieldCount, fun b => (hold.bands b).congr (hbandCount b),
      hold.nonempty⟩, hne⟩

/-- One more serial. -/
theorem insert (h : IndexesSerials serials entries) (entry : SerialEntry) :
    IndexesSerials (updateSerial serials entry.field entry.band entry.value true)
      (entry :: entries) := by
  have hvalues := (h entry.field).1
  apply h.update
  · rw [updateCount, if_pos rfl]
    refine (hvalues.global.increment entry.value).congr fun value => ?_
    rw [fieldCount_cons]
    simp [eq_comm]
  · rw [updateCount, if_pos rfl]
    refine ((hvalues.bands entry.band).increment entry.value).congr fun value => ?_
    rw [bandCount_cons]
    simp [eq_comm]
  · intro other hother value
    rw [bandCount_cons]
    simp [Ne.symm hother]
  · intro other hother
    refine ⟨fun value => ?_, fun band value => ?_⟩
    · rw [fieldCount_cons]
      simp [Ne.symm hother]
    · rw [bandCount_cons]
      simp [Ne.symm hother]

/-- One serial less. -/
theorem remove {entry : SerialEntry} (h : IndexesSerials serials (entry :: entries)) :
    IndexesSerials (updateSerial serials entry.field entry.band entry.value false) entries := by
  have hvalues := (h entry.field).1
  apply h.update
  · rw [updateCount, if_neg Bool.false_ne_true]
    refine (hvalues.global.decrement entry.value).congr fun value => ?_
    rw [fieldCount_cons]
    by_cases heq : value = entry.value
    · simp [heq]
    · simp [heq, Ne.symm heq]
  · rw [updateCount, if_neg Bool.false_ne_true]
    refine ((hvalues.bands entry.band).decrement entry.value).congr fun value => ?_
    rw [bandCount_cons]
    by_cases heq : value = entry.value
    · simp [heq]
    · simp [heq, Ne.symm heq]
  · intro other hother value
    rw [bandCount_cons]
    simp [Ne.symm hother]
  · intro other hother
    refine ⟨fun value => ?_, fun band value => ?_⟩
    · rw [fieldCount_cons]
      simp [Ne.symm hother]
    · rw [bandCount_cons]
      simp [Ne.symm hother]

theorem updateSerials_eq (serials : KeyMap SerialValues) (contact : Contact) (insert : Bool) :
    updateSerials serials contact insert = (serialEntries contact).foldl (fun serials entry =>
      updateSerial serials entry.field entry.band entry.value insert) serials := by
  rw [updateSerials, serialEntries, List.foldl_filterMap]
  congr 1
  funext serials entry
  cases jsonSerialValue entry.2 <;> rfl

theorem insertContact (h : IndexesSerials serials entries) (contact : Contact) :
    IndexesSerials (updateSerials serials contact true) (serialEntries contact ++ entries) := by
  rw [updateSerials_eq]
  generalize serialEntries contact = more
  induction more generalizing serials entries with
  | nil => exact h
  | cons entry more ih => exact (ih (h.insert entry)).perm List.perm_middle

theorem removeContact {contact : Contact}
    (h : IndexesSerials serials (serialEntries contact ++ entries)) :
    IndexesSerials (updateSerials serials contact false) entries := by
  rw [updateSerials_eq]
  generalize serialEntries contact = fewer at h ⊢
  induction fewer generalizing serials with
  | nil => exact h
  | cons entry fewer ih => exact ih h.remove

/-- The greatest key of a tally bounds every entry. -/
theorem le_maxKey? (h : IndexesSerials serials entries) {entry : SerialEntry}
    (hmem : entry ∈ entries) :
    ∃ largest, (serials[entry.field]?.bind fun values => values.global.maxKey?) = some largest ∧
      entry.value ≤ largest := by
  obtain ⟨hvalues, hne⟩ := h entry.field
  have hpos : 0 < fieldCount entries entry.field entry.value :=
    List.countP_pos_iff.mpr ⟨entry, hmem, by simp⟩
  have hglobal := hvalues.global entry.value
  rw [if_neg (by omega)] at hglobal
  cases hget : serials[entry.field]? with
  | none => simp [hget] at hglobal
  | some values =>
      rw [hget, Option.getD_some] at hglobal
      have hkey : entry.value ∈ values.global := by
        rw [ExtTreeMap.mem_iff_isSome_getElem?, hglobal]
        rfl
      cases hmax : values.global.maxKey? with
      | none =>
          rw [ExtTreeMap.maxKey?_eq_none_iff] at hmax
          exact absurd hmax (hne values hget)
      | some largest =>
          refine ⟨largest, by rw [Option.bind_some, hmax], ?_⟩
          exact Std.isLE_compare.mp
            ((ExtTreeMap.maxKey?_eq_some_iff_mem_and_forall.mp hmax).2 entry.value hkey)

end IndexesSerials

end Log73
