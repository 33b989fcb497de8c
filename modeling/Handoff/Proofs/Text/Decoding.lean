import Handoff.Text.CharClass
import Handoff.Text.Utf8
import Mathlib.Data.List.TakeWhile
/-!
# What decoding and trimming leave

Decoding that puts U+FFFD in the place of ill-formed parts shows where there were any, and a text
that is trimmed comes apart into the blanks around it and what stands between them.  So the text
that is left of some bytes tells what the bytes were, unless U+FFFD is in it.
-/

namespace Handoff.Text

/-! ## Decoding -/

theorem extract_of_utf8DecodeChar? {bytes : ByteArray} {i : Nat} {c : Char}
    (h : bytes.utf8DecodeChar? i = some c) :
    bytes.extract i bytes.size =
      [c].utf8Encode ++ bytes.extract (i + c.utf8Size) bytes.size := by
  rw [ByteArray.utf8DecodeChar?_eq_utf8DecodeChar?_extract] at h
  obtain ⟨rest, hrest⟩ := ByteArray.exists_of_utf8DecodeChar?_eq_some h
  rw [← List.utf8Encode_singleton] at hrest
  have hsize : [c].utf8Encode.size = c.utf8Size := by
    rw [List.utf8Encode_singleton, List.size_toByteArray, String.length_utf8EncodeChar]
  have htotal : bytes.size - i = c.utf8Size + rest.size := by
    have hlength := congrArg ByteArray.size hrest
    rwa [ByteArray.size_extract, Nat.min_self, ByteArray.size_append, hsize] at hlength
  have hlater : rest = bytes.extract (i + c.utf8Size) bytes.size := by
    calc rest = ([c].utf8Encode ++ rest).extract c.utf8Size (c.utf8Size + rest.size) := by
          rw [ByteArray.extract_append_eq_right hsize.symm (by rw [hsize])]
      _ = bytes.extract (i + c.utf8Size) (min (i + (c.utf8Size + rest.size)) bytes.size) := by
          rw [← hrest, ByteArray.extract_extract]
      _ = bytes.extract (i + c.utf8Size) bytes.size := by
          have := c.utf8Size_pos
          congr 1
          omega
  rw [hrest, ← hlater]

/-- Text that was decoded without U+FFFD is what the bytes encode. -/
theorem utf8Encode_decodeFrom {bytes : ByteArray} {i : Nat} (h : '\uFFFD' ∉ decodeFrom bytes i) :
    (decodeFrom bytes i).utf8Encode = bytes.extract i bytes.size := by
  fun_induction decodeFrom bytes i with
  | case1 i hi c hc ih =>
      have hrest := ih fun hmem => h (List.mem_cons_of_mem _ hmem)
      rw [List.utf8Encode_cons, hrest, extract_of_utf8DecodeChar? hc]
  | case2 i hi hc ih => exact absurd List.mem_cons_self h
  | case3 i hi =>
      rw [List.utf8Encode_nil]
      exact (ByteArray.extract_eq_empty_iff.2 (by omega)).symm

theorem mem_decodeLossy_of_decode?_eq_none {bytes : ByteArray} (h : decode? bytes = none) :
    '\uFFFD' ∈ (decodeLossy bytes).toList := by
  by_contra hclean
  rw [decodeLossy, h, String.toList_ofList] at hclean
  have hbytes : (String.ofList (decodeFrom bytes 0)).toUTF8 = bytes := by
    rw [String.toUTF8_eq_toByteArray, String.toByteArray_ofList, utf8Encode_decodeFrom hclean,
      ByteArray.extract_zero_size]
  rw [← hbytes, decode?_toUTF8] at h
  contradiction

/-- Some bytes decode to a text without U+FFFD when they encode it. -/
theorem decodeLossy_eq_iff {bytes : ByteArray} {text : String} (hclean : '\uFFFD' ∉ text.toList) :
    decodeLossy bytes = text ↔ text.toUTF8 = bytes := by
  constructor
  · intro h
    cases hdecode : decode? bytes with
    | none => exact absurd (h ▸ mem_decodeLossy_of_decode?_eq_none hdecode) hclean
    | some found =>
        have hfound : found = text := by rwa [decodeLossy, hdecode] at h
        exact hfound ▸ toUTF8_of_decode? hdecode
  · rintro rfl
    exact decodeLossy_toUTF8 text

/-! ## Trimming -/

def AllBlank (s : List Char) : Prop :=
  ∀ c ∈ s, isBlank c = true

instance (s : List Char) : Decidable (AllBlank s) :=
  inferInstanceAs (Decidable (∀ c ∈ s, isBlank c = true))

theorem trimBlanks_append {before after s : List Char} (hbefore : AllBlank before)
    (hafter : AllBlank after) : trimBlanks (before ++ s ++ after) = trimBlanks s := by
  have hback (t : List Char) : (t ++ after).reverse.dropWhile isBlank =
      t.reverse.dropWhile isBlank := by
    rw [List.reverse_append, List.dropWhile_append_of_pos]
    exact fun c hc => hafter c (List.mem_reverse.1 hc)
  have hfront : (before ++ s ++ after).dropWhile isBlank = (s ++ after).dropWhile isBlank := by
    rw [List.append_assoc, List.dropWhile_append_of_pos hbefore]
  rw [trimBlanks, hfront, List.dropWhile_append]
  split
  · next hempty =>
    -- Nothing but blanks: the text has no other character.
    have hnone : s.dropWhile isBlank = [] := List.isEmpty_iff.1 hempty
    rw [List.dropWhile_eq_nil_iff.2 hafter, trimBlanks, hnone]
  · rw [hback, trimBlanks]

theorem exists_trimBlanks (s : List Char) :
    ∃ before after, AllBlank before ∧ AllBlank after ∧ s = before ++ trimBlanks s ++ after := by
  have hcut (t : List Char) : AllBlank (t.takeWhile isBlank) := fun c hc =>
    List.mem_takeWhile_imp hc
  let rest := s.dropWhile isBlank
  refine ⟨s.takeWhile isBlank, (rest.reverse.takeWhile isBlank).reverse, hcut s, ?_, ?_⟩
  · intro c hc
    exact hcut _ c (List.mem_reverse.1 hc)
  · have hrest : rest = trimBlanks s ++ (rest.reverse.takeWhile isBlank).reverse := by
      rw [trimBlanks, ← List.reverse_append, List.takeWhile_append_dropWhile, List.reverse_reverse]
    rw [List.append_assoc, ← hrest, List.takeWhile_append_dropWhile]

theorem trim_trim (text : String) : trim (trim text) = trim text := by
  obtain ⟨before, after, hbefore, hafter, htext⟩ := exists_trimBlanks text.toList
  have hkept : trimBlanks (trimBlanks text.toList) = trimBlanks text.toList :=
    (trimBlanks_append hbefore hafter).symm.trans (congrArg trimBlanks htext.symm)
  rw [trim, trim, String.toList_ofList, hkept]

theorem trimBlanks_eq_self_iff {s : List Char} :
    trimBlanks s = s ↔ (∀ c ∈ s.head?, isBlank c = false) ∧ ∀ c ∈ s.getLast?, isBlank c = false := by
  have hself {t : List Char} : t.dropWhile isBlank = t ↔ ∀ c ∈ t.head?, isBlank c = false := by
    cases t <;> simp [List.dropWhile_eq_self_iff]
  rw [← List.head?_reverse]
  constructor
  · intro h
    have hfront : s.dropWhile isBlank = s := by
      refine (List.dropWhile_suffix isBlank).eq_of_length_le ?_
      calc s.length = (trimBlanks s).length := by rw [h]
        _ ≤ (s.dropWhile isBlank).length := by
          rw [trimBlanks, List.length_reverse, ← (s.dropWhile isBlank).length_reverse]
          exact (List.dropWhile_suffix isBlank).length_le
    have hback : s.reverse.dropWhile isBlank = s.reverse := by
      rw [trimBlanks, hfront] at h
      exact List.reverse_eq_iff.1 h
    exact ⟨hself.1 hfront, hself.1 hback⟩
  · rintro ⟨hfirst, hlast⟩
    rw [trimBlanks, hself.2 hfirst, hself.2 hlast, List.reverse_reverse]

theorem trim_eq_self_iff {text : String} :
    trim text = text ↔ (∀ c ∈ text.toList.head?, isBlank c = false) ∧
      ∀ c ∈ text.toList.getLast?, isBlank c = false := by
  rw [← trimBlanks_eq_self_iff, ← String.toList_inj, trim, String.toList_ofList]

/-- A text that has no blank at either end is what is left of it with blanks around it. -/
theorem trim_eq_iff {raw text : String} (htrimmed : trim text = text) :
    trim raw = text ↔ ∃ before after : String, AllBlank before.toList ∧ AllBlank after.toList ∧
      raw = before ++ text ++ after := by
  constructor
  · rintro rfl
    obtain ⟨before, after, hbefore, hafter, hraw⟩ := exists_trimBlanks raw.toList
    refine ⟨.ofList before, .ofList after, by simpa using hbefore, by simpa using hafter, ?_⟩
    rw [← String.toList_inj, String.toList_append, String.toList_append, trim]
    simpa only [String.toList_ofList] using hraw
  · rintro ⟨before, after, hbefore, hafter, rfl⟩
    rw [trim, String.toList_append, String.toList_append, trimBlanks_append hbefore hafter]
    exact htrimmed

end Handoff.Text
