import Handoff.Blob.Key
/-!
# The key layout keeps its parts apart

Ids, labels and field names hold no slash, so a key of the layout can be cut at its
slashes in one way only.  Signal keys, status keys and log keys never coincide.
-/

namespace Handoff

/-- Texts that do not hold a separator are determined by what they start, up to the first
one. -/
theorem append_cons_inj {c : Char} {a b x y : List Char} (ha : c ∉ a) (hb : c ∉ b)
    (h : a ++ c :: x = b ++ c :: y) : a = b ∧ x = y := by
  induction a generalizing b with
  | nil =>
      cases b with
      | nil => simpa using h
      | cons d b =>
          simp only [List.nil_append, List.cons_append, List.cons.injEq] at h
          exact absurd (h.1 ▸ List.mem_cons_self) hb
  | cons d a ih =>
      cases b with
      | nil =>
          simp only [List.nil_append, List.cons_append, List.cons.injEq] at h
          exact absurd (h.1 ▸ List.mem_cons_self) ha
      | cons e b =>
          simp only [List.cons_append, List.cons.injEq] at h
          obtain ⟨rfl, hrest⟩ := h
          have := ih (fun hc => ha (List.mem_cons_of_mem _ hc))
            (fun hd => hb (List.mem_cons_of_mem _ hd)) hrest
          simpa using this

theorem append_slash_inj {a b x y : List Char} (ha : '/' ∉ a) (hb : '/' ∉ b)
    (h : a ++ '/' :: x = b ++ '/' :: y) : a = b ∧ x = y :=
  append_cons_inj ha hb h

theorem Signal.name_injective : Function.Injective Signal.name := by
  intro a b
  cases a <;> cases b <;> decide

theorem WorkUnitId.text_injective : Function.Injective WorkUnitId.text := by
  intro a b h
  cases a
  cases b
  simpa using h

namespace CommandLabel

theorem slash_notMem (label : CommandLabel) : '/' ∉ label.text.toList := by
  intro h
  have := label.accepted
  simp only [accepts, Bool.and_eq_true, List.all_eq_true] at this
  simpa using this.2 _ h

end CommandLabel

namespace BlobKey

theorem toList_signal (signal : Signal) :
    (BlobKey.signal signal).text.toList = signalSegment.toList ++ '/' :: signal.name.toList := by
  simp [BlobKey.signal]

theorem toList_status (id : WorkUnitId) :
    (BlobKey.status id).text.toList = id.text.toList ++ '/' :: statusSegment.toList := by
  simp [BlobKey.status, unitStart]

theorem toList_log (id : WorkUnitId) (label : CommandLabel) (field : LogField) :
    (BlobKey.log id label field).text.toList =
      id.text.toList ++ '/' :: (label.text.toList ++ '/' :: field.name.toList) := by
  simp [BlobKey.log, unitStart]

theorem slash_notMem_signalSegment : '/' ∉ signalSegment.toList := by decide

theorem toList_ne_signalSegment (id : WorkUnitId) :
    id.text.toList ≠ signalSegment.toList := fun h =>
  (WorkUnitId.fault?_eq_none_iff.1 id.sound).2.2.1.1 (String.toList_injective h)

theorem signal_injective {a b : Signal} (h : BlobKey.signal a = BlobKey.signal b) : a = b := by
  have hlist := congrArg (fun key => key.text.toList) h
  simp only [toList_signal] at hlist
  have hname := (append_slash_inj slash_notMem_signalSegment slash_notMem_signalSegment hlist).2
  exact Signal.name_injective (String.toList_injective hname)

@[simp] theorem signal_inj {a b : Signal} : BlobKey.signal a = BlobKey.signal b ↔ a = b :=
  ⟨signal_injective, fun h => h ▸ rfl⟩

theorem status_injective {a b : WorkUnitId} (h : BlobKey.status a = BlobKey.status b) :
    a = b := by
  have hlist := congrArg (fun key => key.text.toList) h
  simp only [toList_status] at hlist
  have htext := (append_slash_inj a.slash_notMem b.slash_notMem hlist).1
  exact WorkUnitId.text_injective (String.toList_injective htext)

@[simp] theorem status_inj {a b : WorkUnitId} : BlobKey.status a = BlobKey.status b ↔ a = b :=
  ⟨status_injective, fun h => h ▸ rfl⟩

@[simp] theorem status_ne_signal (id : WorkUnitId) (signal : Signal) :
    BlobKey.status id ≠ BlobKey.signal signal := by
  intro h
  have hlist := congrArg (fun key => key.text.toList) h
  simp only [toList_status, toList_signal] at hlist
  exact toList_ne_signalSegment id
    (append_slash_inj id.slash_notMem slash_notMem_signalSegment hlist).1

@[simp] theorem signal_ne_status (id : WorkUnitId) (signal : Signal) :
    BlobKey.signal signal ≠ BlobKey.status id :=
  Ne.symm (status_ne_signal id signal)

@[simp] theorem log_ne_signal (id : WorkUnitId) (label : CommandLabel) (field : LogField)
    (signal : Signal) : BlobKey.log id label field ≠ BlobKey.signal signal := by
  intro h
  have hlist := congrArg (fun key => key.text.toList) h
  simp only [toList_log, toList_signal] at hlist
  exact toList_ne_signalSegment id
    (append_slash_inj id.slash_notMem slash_notMem_signalSegment hlist).1

@[simp] theorem signal_ne_log (id : WorkUnitId) (label : CommandLabel) (field : LogField)
    (signal : Signal) : BlobKey.signal signal ≠ BlobKey.log id label field :=
  Ne.symm (log_ne_signal id label field signal)

@[simp] theorem log_ne_status (id other : WorkUnitId) (label : CommandLabel)
    (field : LogField) : BlobKey.log id label field ≠ BlobKey.status other := by
  intro h
  have hlist := congrArg (fun key => key.text.toList) h
  simp only [toList_log, toList_status] at hlist
  have hrest := (append_slash_inj id.slash_notMem other.slash_notMem hlist).2
  have hslash : '/' ∈ statusSegment.toList := by
    rw [← hrest]
    simp
  exact absurd hslash (by decide)

@[simp] theorem status_ne_log (id other : WorkUnitId) (label : CommandLabel)
    (field : LogField) : BlobKey.status other ≠ BlobKey.log id label field :=
  Ne.symm (log_ne_status id other label field)

end BlobKey

end Handoff
