import Handoff.Command
/-!
# Labels of commands

Which texts are labels: those that can be read back as one and hold neither a space nor a
backslash.  Such a text, as the only word of a command, is the label of that command.
-/

namespace Handoff.CommandLabel

theorem text_injective : Function.Injective text := by
  intro a b h
  cases a
  cases b
  simpa using h

theorem accepts_iff {text : String} :
    accepts text = true ↔
      text ≠ "" ∧ text ≠ "." ∧ text ≠ ".." ∧ text ≠ statusSegment ∧
        ∀ c ∈ text.toList, c ≠ '/' ∧ Text.isControl c = false := by
  simp [accepts, and_assoc]

theorem ofText?_eq_some_iff {text : String} {label : CommandLabel} :
    ofText? text = some label ↔ label.text = text := by
  constructor
  · intro h
    unfold ofText? at h
    split at h
    · cases h
      rfl
    · cases h
  · rintro rfl
    exact ofText?_text label

/-! ## Characters -/

theorem sanitize_eq_self_iff {c : Char} :
    sanitize c = c ↔ c ≠ ' ' ∧ c ≠ '/' ∧ c ≠ '\\' ∧ Text.isControl c = false := by
  have hmark : ' ' ≠ '_' ∧ '/' ≠ '_' ∧ '\\' ≠ '_' ∧ Text.isControl '_' = false := by decide
  unfold sanitize
  split
  · next h =>
    constructor
    · rintro rfl
      simp [hmark] at h
    · rintro ⟨hspace, hslash, hback, hcontrol⟩
      simp [hspace, hslash, hback, hcontrol] at h
  · next h => simpa [not_or] using h

theorem sanitize_sanitize (c : Char) : sanitize (sanitize c) = sanitize c := by
  by_cases h : sanitize c = c
  · rw [h, h]
  · have hmark : sanitize c = '_' := by
      unfold sanitize at h ⊢
      split
      · rfl
      · next hkept => exact absurd (if_neg hkept) h
    rw [hmark]
    decide

/-- A repaired name has no new characters but underscores. -/
theorem mem_repair {name : List Char} {c : Char} (h : c ∈ repair name) : c ∈ name ∨ c = '_' := by
  unfold repair at h
  split at h
  · exact .inr (by simpa using h)
  split at h
  · exact .inr (by simpa using h)
  split at h
  · exact .inr (by simpa using h)
  split at h
  · simpa using h
  · exact .inl h

theorem repair_of_accepts {text : String} (h : accepts text = true) :
    repair text.toList = text.toList := by
  obtain ⟨hempty, hdot, hdots, hstatus, -⟩ := accepts_iff.1 h
  have hne {name : List Char} (hother : text ≠ String.ofList name) : text.toList ≠ name := by
    rintro rfl
    exact hother String.ofList_toList.symm
  rw [repair, if_neg (hne hempty), if_neg (hne hdot), if_neg (hne hdots), if_neg]
  exact fun heq => hstatus (String.toList_injective heq)

/-! ## Plain texts -/

/-- A text that may stand as a label and that no space or backslash breaks up. -/
structure IsPlain (text : String) : Prop where
  accepted : accepts text = true
  no_space : ' ' ∉ text.toList
  no_backslash : '\\' ∉ text.toList

theorem isPlain_of_ofArgv {argv : List String} {label : CommandLabel}
    (h : ofArgv argv = some label) : IsPlain label.text := by
  have hkept (c : Char) (hc : c ∈ label.text.toList) : sanitize c = c := by
    cases argv with
    | nil => cases h
    | cons first rest =>
        cases h
        rw [String.toList_ofList] at hc
        rcases mem_repair hc with hc | rfl
        · obtain ⟨d, -, rfl⟩ := List.mem_map.1 hc
          exact sanitize_sanitize d
        · decide
  exact {
    accepted := label.accepted
    no_space := fun hc => (sanitize_eq_self_iff.1 (hkept _ hc)).1 rfl
    no_backslash := fun hc => (sanitize_eq_self_iff.1 (hkept _ hc)).2.2.1 rfl }

theorem IsPlain.ofArgv_singleton {text : String} (h : IsPlain text) :
    ofArgv [text] = some ⟨text, h.accepted⟩ := by
  obtain ⟨-, -, -, -, hchars⟩ := accepts_iff.1 h.accepted
  have hkept : ∀ c ∈ text.toList, sanitize c = c := fun c hc => sanitize_eq_self_iff.2
    ⟨fun heq => h.no_space (heq ▸ hc), (hchars c hc).1, fun heq => h.no_backslash (heq ▸ hc),
      (hchars c hc).2⟩
  have hname : repair ((" ".intercalate [text]).toList.map sanitize) = text.toList := by
    rw [String.intercalate_singleton, List.map_congr_left hkept, List.map_id',
      repair_of_accepts h.accepted]
  simp only [ofArgv, hname, String.ofList_toList]

/-- The labels of commands are the texts that can be read back as a label and hold neither a space
nor a backslash.  Every command with a word has a label; it is read back from its own text, and
as the only word of a command it is the label of that. -/
theorem range_ofArgv :
    (∀ text, (∃ argv label, ofArgv argv = some label ∧ label.text = text) ↔
      (ofText? text).isSome ∧ ' ' ∉ text.toList ∧ '\\' ∉ text.toList) ∧
    ∀ first rest, ∃ label, ofArgv (first :: rest) = some label ∧
      ofText? label.text = some label ∧ ofArgv [label.text] = some label := by
  refine ⟨fun text => ⟨?_, ?_⟩, fun first rest => ?_⟩
  · rintro ⟨argv, label, hargv, rfl⟩
    have hplain := isPlain_of_ofArgv hargv
    exact ⟨by rw [ofText?_text]; rfl, hplain.no_space, hplain.no_backslash⟩
  · rintro ⟨hread, hspace, hback⟩
    obtain ⟨label, hlabel⟩ := Option.isSome_iff_exists.1 hread
    obtain rfl := ofText?_eq_some_iff.1 hlabel
    have hplain : IsPlain label.text := ⟨label.accepted, hspace, hback⟩
    exact ⟨[label.text], label, hplain.ofArgv_singleton, rfl⟩
  · have hlabel : ∃ label, ofArgv (first :: rest) = some label := ⟨_, rfl⟩
    obtain ⟨label, hlabel⟩ := hlabel
    exact ⟨label, hlabel, ofText?_text label, (isPlain_of_ofArgv hlabel).ofArgv_singleton⟩

end Handoff.CommandLabel
