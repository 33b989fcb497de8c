import Handoff.Blob.Spec
import Handoff.Proofs.Text.Decoding
import Mathlib.Data.List.Infix
/-!
# What store specs mean

A text names one store, in one of four ways, or it is malformed.  Blanks around it go before that is
told, and a bare path may look like another spec once its scheme is printed, so that a spec reads
back as itself is a matter of what stands at both ends of the text.
-/

namespace Handoff.StoreSpec

open Text

/-! ## Names of stores -/

def HasScheme (scheme text : String) : Prop :=
  scheme.toList <+: text.toList

def LooksLikeUrl (text : String) : Prop :=
  "://".toList <:+: text.toList

instance (text : String) : Decidable (LooksLikeUrl text) :=
  inferInstanceAs (Decidable ("://".toList <:+: text.toList))

inductive Names : String → StoreSpec → Prop
  | memory : Names memoryScheme memory
  | directory {path : String} (hpath : path ≠ "") :
      Names (directoryScheme ++ path) (directory ⟨path⟩)
  | database {path : String} (hpath : path ≠ "") :
      Names (databaseScheme ++ path) (database ⟨path⟩)
  | bare {path : String} (hpath : path ≠ "") (hmemory : path ≠ memoryScheme)
      (hdirectory : ¬HasScheme directoryScheme path) (hdatabase : ¬HasScheme databaseScheme path)
      (hurl : ¬LooksLikeUrl path) : Names path (directory ⟨path⟩)

inductive Malformed : String → Prop
  | empty : Malformed ""
  | directory : Malformed directoryScheme
  | database : Malformed databaseScheme
  | url {text : String} (hurl : LooksLikeUrl text) (hdirectory : ¬HasScheme directoryScheme text)
      (hdatabase : ¬HasScheme databaseScheme text) : Malformed text

variable {scheme other text path raw : String} {spec : StoreSpec}

theorem hasScheme_iff : HasScheme scheme text ↔ ∃ path, text = scheme ++ path := by
  constructor
  · rintro ⟨path, hpath⟩
    exact ⟨.ofList path, String.toList_inj.1 (by rw [String.toList_append, String.toList_ofList, hpath])⟩
  · rintro ⟨path, rfl⟩
    exact ⟨path.toList, String.toList_append.symm⟩

theorem names_or_malformed (text : String) : (∃ spec, Names text spec) ∨ Malformed text := by
  by_cases hempty : text = ""
  · exact .inr (hempty ▸ Malformed.empty)
  by_cases hmemory : text = memoryScheme
  · exact .inl ⟨_, hmemory ▸ Names.memory⟩
  by_cases hdirectory : HasScheme directoryScheme text
  · obtain ⟨path, rfl⟩ := hasScheme_iff.1 hdirectory
    by_cases hpath : path = ""
    · rw [hpath, String.append_empty]
      exact .inr .directory
    · exact .inl ⟨_, .directory hpath⟩
  by_cases hdatabase : HasScheme databaseScheme text
  · obtain ⟨path, rfl⟩ := hasScheme_iff.1 hdatabase
    by_cases hpath : path = ""
    · rw [hpath, String.append_empty]
      exact .inr .database
    · exact .inl ⟨_, .database hpath⟩
  by_cases hurl : LooksLikeUrl text
  · exact .inr (.url hurl hdirectory hdatabase)
  · exact .inl ⟨_, .bare hempty hmemory hdirectory hdatabase hurl⟩

/-! ## Reading -/

theorem hasAuthority_iff {s : List Char} : hasAuthority s = true ↔ "://".toList <:+: s := by
  induction s with
  | nil => simp [hasAuthority]
  | cons c rest ih =>
      rw [hasAuthority, Bool.or_eq_true, ih, List.isPrefixOf_iff_prefix, List.infix_cons_iff]
      rfl

theorem afterScheme?_append (scheme path : String) :
    afterScheme? scheme (scheme ++ path) = some path := by
  have hprefix : scheme.toList.isPrefixOf? (scheme.toList ++ path.toList) = some path.toList :=
    List.isPrefixOf?_eq_some_iff_append_eq.2 rfl
  rw [afterScheme?, String.toList_append, hprefix, Option.map_some, String.ofList_toList]

theorem afterScheme?_eq_none (h : ¬HasScheme scheme text) : afterScheme? scheme text = none := by
  rw [afterScheme?, Option.map_eq_none_iff, Option.eq_none_iff_forall_ne_some]
  intro path hpath
  exact h ⟨path, List.isPrefixOf?_eq_some_iff_append_eq.1 hpath⟩

/-- A text starts with no scheme but its own, unless one of the two starts with the other. -/
theorem not_hasScheme_append (path : String)
    (hapart : ¬(scheme.toList <+: other.toList ∨ other.toList <+: scheme.toList)) :
    ¬HasScheme scheme (other ++ path) := by
  intro h
  have hother : HasScheme other (other ++ path) := hasScheme_iff.2 ⟨path, rfl⟩
  exact hapart (List.prefix_or_prefix_of_prefix h hother)

theorem append_ne_memoryScheme (path : String)
    (hapart : ¬(memoryScheme.toList <+: other.toList ∨ other.toList <+: memoryScheme.toList)) :
    other ++ path ≠ memoryScheme := by
  intro h
  have hmemory : HasScheme memoryScheme (other ++ path) := h ▸ List.prefix_rfl
  exact not_hasScheme_append path hapart hmemory

theorem ofText_of_names (h : Names (trim raw) spec) : ofText raw = .ok spec := by
  unfold ofText
  dsimp only
  generalize trim raw = text at h ⊢
  cases h with
  | memory => rfl
  | @directory path hpath =>
      rw [if_neg (by simp [directoryScheme]), if_neg (append_ne_memoryScheme path (by decide)),
        afterScheme?_append]
      exact if_neg hpath
  | @database path hpath =>
      rw [if_neg (by simp [databaseScheme]), if_neg (append_ne_memoryScheme path (by decide)),
        afterScheme?_eq_none (not_hasScheme_append path (by decide)), afterScheme?_append]
      exact if_neg hpath
  | bare hpath hmemory hdirectory hdatabase hurl =>
      rw [if_neg hpath, if_neg hmemory, afterScheme?_eq_none hdirectory,
        afterScheme?_eq_none hdatabase]
      exact if_neg (mt hasAuthority_iff.1 hurl)

theorem ofText_of_malformed (h : Malformed (trim raw)) :
    ofText raw = .error (.invalidSpec raw) := by
  unfold ofText
  dsimp only
  generalize trim raw = text at h ⊢
  cases h with
  | empty => rfl
  | directory => rfl
  | database => rfl
  | url hurl hdirectory hdatabase =>
      by_cases hpath : text = ""
      · exact if_pos hpath
      have hmemory : text ≠ memoryScheme := by
        rintro rfl
        exact absurd hurl (by decide)
      rw [if_neg hpath, if_neg hmemory, afterScheme?_eq_none hdirectory,
        afterScheme?_eq_none hdatabase]
      exact if_pos (hasAuthority_iff.2 hurl)

theorem ofText_eq_ok_iff : ofText raw = .ok spec ↔ Names (trim raw) spec := by
  refine ⟨fun h => ?_, ofText_of_names⟩
  rcases names_or_malformed (trim raw) with ⟨named, hnamed⟩ | hmalformed
  · rw [ofText_of_names hnamed] at h
    cases h
    exact hnamed
  · rw [ofText_of_malformed hmalformed] at h
    cases h

theorem ofText_eq_error_iff {fault : StoreFault} :
    ofText raw = .error fault ↔ Malformed (trim raw) ∧ fault = .invalidSpec raw := by
  constructor
  · intro h
    rcases names_or_malformed (trim raw) with ⟨named, hnamed⟩ | hmalformed
    · rw [ofText_of_names hnamed] at h
      cases h
    · rw [ofText_of_malformed hmalformed] at h
      cases h
      exact ⟨hmalformed, rfl⟩
  · rintro ⟨hmalformed, rfl⟩
    exact ofText_of_malformed hmalformed

/-! ## Reading what is printed -/

theorem Names.display (h : Names text spec) : Names spec.display spec := by
  cases h with
  | memory => exact .memory
  | directory hpath => exact .directory hpath
  | database hpath => exact .database hpath
  | bare hpath => exact .directory hpath

/-- The scheme before a trimmed path keeps blanks out. -/
theorem trim_directoryScheme_append (hpath : path ≠ "") (htrimmed : trim path = path) :
    trim (directoryScheme ++ path) = directoryScheme ++ path := by
  obtain ⟨last, hlast⟩ : ∃ last, path.toList.getLast? = some last :=
    Option.ne_none_iff_exists'.1 (by simpa using hpath)
  have hend := (trim_eq_self_iff.1 htrimmed).2
  rw [trim_eq_self_iff, String.toList_append, List.getLast?_append, hlast]
  rw [hlast] at hend
  exact ⟨by simp [directoryScheme, isBlank], hend⟩

theorem Names.trim_display (h : Names text spec) (htrimmed : trim text = text) :
    trim spec.display = spec.display := by
  cases h with
  | memory => exact htrimmed
  | directory => exact htrimmed
  | database => exact htrimmed
  | bare hpath => exact trim_directoryScheme_append hpath htrimmed

/-- A text is read as the store it names, and is refused just when it is malformed.  What is printed
of a spec that was read is read as the same spec, and so is printed alike. -/
theorem ofText_exact (raw : String) :
    (∀ fault, ofText raw = .error fault ↔ Malformed (trim raw) ∧ fault = .invalidSpec raw) ∧
      (∀ spec, ofText raw = .ok spec ↔ Names (trim raw) spec) ∧
      ∀ spec, ofText raw = .ok spec → ofText spec.display = .ok spec := by
  refine ⟨fun _ => ofText_eq_error_iff, fun _ => ofText_eq_ok_iff, fun spec h => ?_⟩
  have hnamed : Names (trim raw) spec := ofText_eq_ok_iff.1 h
  rw [ofText_eq_ok_iff, hnamed.trim_display (trim_trim raw)]
  exact hnamed.display

-- A bare path that would be a spec of its own without the scheme that is printed.
example : (ofText " memory:x\n").map display = .ok "dir:memory:x" := by rfl

end Handoff.StoreSpec
