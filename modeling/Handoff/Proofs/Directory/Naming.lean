import Mathlib.Data.String.Basic
import Handoff.Blob.Directory
import Handoff.Proofs.Blob.Reference
import Handoff.Proofs.Files.Directories
import Handoff.Proofs.Text.Decimal
/-!
# The names of files in a directory store

The segments of a key are names of directory entries, and so is what a temporary file is
called, which tells its writer and the serial number of the write.
-/

namespace Handoff

namespace BlobKey

theorem segments_ne_nil (key : BlobKey) : key.segments ≠ [] :=
  segmentsOf_ne_nil key.text

theorem intercalate_segments (key : BlobKey) : "/".intercalate key.segments = key.text :=
  intercalate_segmentsOf key.text

theorem segments_injective {a b : BlobKey} (h : a.segments = b.segments) : a = b :=
  congrArg BlobKey.mk (segmentsOf_injective h)

theorem exists_segments (key : BlobKey) : ∃ front last, key.segments = front ++ [last] :=
  ⟨_, _, (List.dropLast_concat_getLast key.segments_ne_nil).symm⟩

theorem size_segments (key : BlobKey) :
    Path.sizeOf key.segments = key.text.utf8ByteSize + 1 := by
  rw [← Path.size_intercalate key.segments_ne_nil, key.intercalate_segments]

/-- Just the texts that keep every rule are accepted, and none is changed. -/
theorem ofText_eq_ok_iff {text : String} {key : BlobKey} :
    ofText text = .ok key ↔ key.text = text ∧ key.Valid := by
  rw [ofText]
  constructor
  · intro h
    split at h
    · next hfault =>
      cases h
      exact ⟨rfl, hfault⟩
    · cases h
  · rintro ⟨rfl, hvalid⟩
    rw [hvalid]

theorem Valid.segmentFault?_eq_none {key : BlobKey} (h : key.Valid) :
    ∀ segment ∈ key.segments, segmentFault? segment = none := by
  rw [Valid, fault?] at h
  split_ifs at h with _ _ _
  exact List.findSome?_eq_none_iff.1 h

theorem Built.segmentFault?_eq_none {key : BlobKey} (h : key.Built) :
    ∀ segment ∈ key.segments, segmentFault? segment = none := by
  cases h with
  | checked valid => exact valid.segmentFault?_eq_none
  | signal s => cases s <;> decide
  | status id => exact (valid_status id).segmentFault?_eq_none
  | log id label field =>
      rw [segments, segmentsOf_log]
      have hfield : segmentFault? field.name = none := by cases field <;> decide
      simp [segmentFault?_id, segmentFault?_label, hfield]

theorem Built.isPlain {key : BlobKey} (h : key.Built) :
    ∀ segment ∈ key.segments, Path.IsPlain segment := by
  intro segment hsegment
  have hfault := h.segmentFault?_eq_none segment hsegment
  rw [segmentFault?] at hfault
  split_ifs at hfault with hempty hdots
  rw [not_or] at hdots
  exact {
    not_idle := by simp [Path.isIdle, hempty, hdots.1]
    not_up := hdots.2
    slash := slash_notMem_of_mem_segmentsOf hsegment
    nul := nul_notMem_iff.1 h.nul_notMem segment hsegment }

end BlobKey

namespace DirectoryStore

theorem pathFor_eq (root : Path) (key : BlobKey) : pathFor root key = root.joins key.segments :=
  rfl

theorem toList_temporaryName (stamp : WriterStamp) : (temporaryName stamp).toList =
    temporaryStart.toList ++ (Nat.toDigits 10 stamp.process ++
      '-' :: Nat.toDigits 10 stamp.serial) := by
  simp [temporaryName]

theorem isPrefixOf_temporaryName (stamp : WriterStamp) :
    temporaryStart.toList.isPrefixOf (temporaryName stamp).toList = true := by
  rw [List.isPrefixOf_iff_prefix, toList_temporaryName]
  exact List.prefix_append _ _

theorem notMem_toDigits {c : Char} (h : Text.isDigit c = false) (n : Nat) :
    c ∉ Nat.toDigits 10 n := fun hc => by
  rw [Text.isDigit_of_mem_toDigits hc] at h
  cases h

/-- The name of a temporary file tells the writer and the write. -/
theorem temporaryName_injective {a b : WriterStamp} (h : temporaryName a = temporaryName b) :
    a = b := by
  have hlist := congrArg String.toList h
  rw [toList_temporaryName, toList_temporaryName] at hlist
  obtain ⟨hprocess, hserial⟩ := append_cons_inj (notMem_toDigits (by decide) _)
    (notMem_toDigits (by decide) _) (List.append_cancel_left hlist)
  have digits {m n : Nat} (h : Nat.toDigits 10 m = Nat.toDigits 10 n) : m = n := by
    rw [← Nat.ofDigitChars_ten_toDigits (n := m), h, Nat.ofDigitChars_ten_toDigits]
  cases a
  cases b
  rw [WriterStamp.mk.injEq]
  exact ⟨digits hprocess, digits hserial⟩

theorem isPlain_temporaryName (stamp : WriterStamp) : Path.IsPlain (temporaryName stamp) := by
  have hlist := toList_temporaryName stamp
  have hlength : 8 ≤ (temporaryName stamp).toList.length := by
    rw [hlist, List.length_append]
    exact Nat.le_add_right_of_le (by decide)
  have hnot (text : String) (hshort : text.toList.length < 8) : temporaryName stamp ≠ text := by
    rintro rfl
    omega
  have hmem (c : Char) (hdigit : Text.isDigit c = false) (hdash : c ≠ '-')
      (hstart : c ∉ temporaryStart.toList) : c ∉ (temporaryName stamp).toList := by
    rw [hlist]
    simp [hstart, hdash, notMem_toDigits hdigit]
  exact {
    not_idle := by simp [Path.isIdle, hnot "" (by decide), hnot "." (by decide)]
    not_up := hnot ".." (by decide)
    slash := hmem '/' (by decide) (by decide) (by decide)
    nul := hmem '\x00' (by decide) (by decide) (by decide) }

theorem size_toString_le {n digits : Nat} (hdigits : 0 < digits) (h : n < 10 ^ digits) :
    (toString n).utf8ByteSize ≤ digits := by
  have ascii (chars : List Char) (hchars : ∀ c ∈ chars, Text.isDigit c = true) :
      String.utf8Len chars = chars.length := by
    induction chars with
    | nil => rfl
    | cons c rest ih =>
        obtain ⟨hc, hrest⟩ := List.forall_mem_cons.1 hchars
        have hsize : c.utf8Size = 1 := by
          rw [Char.utf8Size_eq_one_iff]
          simp only [Text.isDigit, Bool.and_eq_true, decide_eq_true_eq] at hc
          exact Nat.le_trans hc.2 (by decide)
        rw [String.utf8Len_cons, ih hrest, hsize, List.length_cons]
  rw [Nat.toString_eq_ofList_toDigits, String.utf8ByteSize_ofList,
    ascii _ fun c hc => Text.isDigit_of_mem_toDigits hc]
  exact (Nat.length_toDigits_le_iff (by decide) hdigits).2 h

/-- The stamps of real writers, whose numbers have 32 and 64 bits. -/
structure Bounded (stamp : WriterStamp) : Prop where
  process : stamp.process < 2 ^ 32
  serial : stamp.serial < 2 ^ 64

theorem size_temporaryName_le {stamp : WriterStamp} (h : Bounded stamp) :
    (temporaryName stamp).utf8ByteSize ≤ FileTree.nameMax := by
  have hprocess : (toString stamp.process).utf8ByteSize ≤ 10 :=
    size_toString_le (by decide) (Nat.lt_trans h.process (by decide))
  have hserial : (toString stamp.serial).utf8ByteSize ≤ 20 :=
    size_toString_le (by decide) (Nat.lt_trans h.serial (by decide))
  have hstart : temporaryStart.utf8ByteSize = 8 := by decide
  have hdash : "-".utf8ByteSize = 1 := by decide
  have hmax : 39 ≤ FileTree.nameMax := by decide
  simp only [temporaryName, String.utf8ByteSize_append]
  omega

theorem isName_temporaryName {stamp : WriterStamp} (h : Bounded stamp) :
    FileTree.IsName (temporaryName stamp) :=
  (isPlain_temporaryName stamp).isName (size_temporaryName_le h)

end DirectoryStore

end Handoff
