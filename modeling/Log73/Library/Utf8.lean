import Mathlib.Data.List.Basic

/-!
UTF-8 as lists of bytes: encoding, decoding, and the characters that are one byte.
-/

namespace Utf8

def encode (cs : List Char) : List UInt8 := cs.flatMap String.utf8EncodeChar

/-- The characters that a list of bytes encodes, if it encodes any. -/
def decode? (bytes : List UInt8) : Option (List Char) :=
  bytes.toByteArray.utf8Decode?.map Array.toList

def asciiByte (c : Char) : UInt8 := c.val.toUInt8

@[simp] theorem encode_nil : encode [] = [] := rfl

theorem encode_append (as bs : List Char) : encode (as ++ bs) = encode as ++ encode bs :=
  List.flatMap_append

theorem decode?_encode (cs : List Char) : decode? (encode cs) = some cs := by
  have h : cs.utf8Encode.utf8Decode? = some cs.toArray := List.utf8Decode?_utf8Encode
  rw [decode?, encode]
  rw [List.utf8Encode] at h
  rw [h, Option.map_some]

theorem utf8Size_ascii {c : Char} (h : c.toNat < 128) : c.utf8Size = 1 := by
  rw [Char.utf8Size_eq_one_iff, UInt32.le_iff_toNat_le]
  exact Nat.le_of_lt_succ h

theorem utf8ByteSize_ascii {cs : List Char} (h : ∀ c ∈ cs, c.toNat < 128) :
    (String.ofList cs).utf8ByteSize = cs.length := by
  induction cs with
  | nil => rfl
  | cons c cs ih =>
      have hc : (String.ofList [c]).utf8ByteSize = 1 :=
        String.utf8ByteSize_singleton.trans (utf8Size_ascii (h c List.mem_cons_self))
      rw [← List.singleton_append, String.ofList_append, String.utf8ByteSize_append, hc,
        ih fun d hmem => h d (List.mem_cons_of_mem c hmem), List.length_append]
      rfl

/-- A character of the ASCII range is its own code. -/
theorem encode_ascii {cs : List Char} (h : ∀ c ∈ cs, c.toNat < 128) :
    encode cs = cs.map asciiByte := by
  induction cs with
  | nil => rfl
  | cons c cs ih =>
      have hsize : c.utf8Size = 1 := utf8Size_ascii (h c List.mem_cons_self)
      rw [← List.singleton_append, encode_append,
        ih fun c hmem => h c (List.mem_cons_of_mem _ hmem)]
      rw [encode, List.flatMap_singleton, String.utf8EncodeChar_eq_singleton hsize]
      rfl

/-- A byte of the ASCII range is a character of its own. -/
theorem toNat_of_mem_utf8EncodeChar {c : Char} {byte : UInt8}
    (hmem : byte ∈ String.utf8EncodeChar c) (hbyte : byte.toNat < 128) : c.toNat = byte.toNat := by
  have hchar : c.toNat = c.val.toNat := rfl
  rw [String.utf8EncodeChar] at hmem
  split_ifs at hmem <;> simp only [List.mem_cons, List.not_mem_nil, or_false] at hmem
  · rw [hmem, UInt8.toNat_ofNat']
    omega
  all_goals
    rcases hmem with rfl | rfl | rfl | rfl
  all_goals
    rw [UInt8.toNat_ofNat'] at hbyte
    omega

theorem exists_of_mem_encode {cs : List Char} {byte : UInt8} (hmem : byte ∈ encode cs)
    (hbyte : byte.toNat < 128) : ∃ c ∈ cs, c.toNat = byte.toNat := by
  obtain ⟨c, hc, hmem⟩ := List.mem_flatMap.mp hmem
  exact ⟨c, hc, toNat_of_mem_utf8EncodeChar hmem hbyte⟩

theorem toByteArray_inj {as bs : List UInt8} (h : as.toByteArray = bs.toByteArray) : as = bs := by
  have := congrArg (fun b : ByteArray => b.data.toList) h
  simpa using this

/-- What decodes is an encoding. -/
theorem encode_of_decode? {bytes : List UInt8} {cs : List Char} (h : decode? bytes = some cs) :
    encode cs = bytes := by
  obtain ⟨chars, hchars, rfl⟩ := Option.map_eq_some_iff.mp h
  have hencode := ByteArray.utf8Encode_get_utf8Decode? (b := bytes.toByteArray)
    (h := by rw [hchars]; rfl)
  simp only [hchars, Option.get_some] at hencode
  exact toByteArray_inj hencode

theorem utf8EncodeChar_append_inj {c d : Char} {xs ys : List UInt8}
    (h : String.utf8EncodeChar c ++ xs = String.utf8EncodeChar d ++ ys) : c = d := by
  have hdecode := congrArg (fun bytes : List UInt8 => bytes.toByteArray.utf8DecodeChar? 0) h
  simpa [List.toByteArray_append, ByteArray.utf8DecodeChar?_utf8EncodeChar_append] using hdecode

/-- The encoding of a text starts with the encoding of no other text than its own starts. -/
theorem prefix_of_encode {cs ds : List Char} {back : List UInt8}
    (h : encode cs = encode ds ++ back) : ds <+: cs := by
  induction ds generalizing cs with
  | nil => exact List.nil_prefix
  | cons d ds ih =>
      rw [encode, encode, List.flatMap_cons, List.append_assoc] at h
      cases cs with
      | nil =>
          have hnil := congrArg List.length h
          rw [List.flatMap_nil, List.length_nil, List.length_append,
            String.length_utf8EncodeChar] at hnil
          have := d.utf8Size_pos
          omega
      | cons c cs =>
          rw [List.flatMap_cons] at h
          obtain rfl := utf8EncodeChar_append_inj h
          rw [List.cons_prefix_cons]
          exact ⟨rfl, ih (List.append_cancel_left h)⟩

/-- A piece of an encoding that is an encoding itself encodes a piece of the text: no character
starts inside another one. -/
theorem infix_of_encode {cs ds : List Char} {front back : List UInt8}
    (h : encode cs = front ++ (encode ds ++ back)) : ds <:+: cs := by
  cases ds with
  | nil => exact List.nil_infix
  | cons d ds =>
      induction cs generalizing front with
      | nil =>
          have hnil := congrArg List.length h
          rw [encode_nil, encode, List.flatMap_cons, List.length_nil, List.length_append,
            List.length_append, List.length_append, String.length_utf8EncodeChar] at hnil
          have := d.utf8Size_pos
          omega
      | cons c cs ih =>
          have hcons : encode (c :: cs) = String.utf8EncodeChar c ++ encode cs := List.flatMap_cons
          by_cases hfront : front = []
          · rw [hfront, List.nil_append] at h
            exact (prefix_of_encode h).isInfix
          · have hle : (String.utf8EncodeChar c).length ≤ front.length := by
              by_contra hlt
              have hpos : 0 < (String.utf8EncodeChar d).length := by
                rw [String.length_utf8EncodeChar]
                exact d.utf8Size_pos
              have hread : (encode (c :: cs))[front.length]? = _ := congrArg (·[front.length]?) h
              rw [hcons, List.getElem?_append_left (Nat.lt_of_not_le hlt),
                List.getElem?_append_right (Nat.le_refl _), Nat.sub_self, encode,
                List.flatMap_cons, List.append_assoc,
                List.getElem?_append_left hpos, List.getElem?_eq_getElem (Nat.lt_of_not_le hlt),
                List.getElem?_eq_getElem hpos, Option.some_inj] at hread
              have hfirst : (String.utf8EncodeChar c)[front.length].IsUTF8FirstByte := by
                rw [hread]
                exact UInt8.isUTF8FirstByte_getElem_utf8EncodeChar.mpr rfl
              rw [UInt8.isUTF8FirstByte_getElem_utf8EncodeChar] at hfirst
              exact hfront (List.length_eq_zero_iff.mp hfirst)
            obtain ⟨rest, hrest⟩ : String.utf8EncodeChar c <+: front := by
              have hchar : String.utf8EncodeChar c <+: encode (c :: cs) :=
                hcons ▸ List.prefix_append _ _
              exact List.prefix_of_prefix_length_le hchar (h ▸ List.prefix_append _ _) hle
            rw [hcons, ← hrest, List.append_assoc] at h
            exact (ih (List.append_cancel_left h)).trans (List.suffix_cons c cs).isInfix

end Utf8
