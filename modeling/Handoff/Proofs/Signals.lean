import Handoff.Proofs.Blob.Running
import Handoff.Proofs.Blob.UnitKeys
import Handoff.Proofs.Round.Exchange
/-!
# What a signal holds

A signal reads as the unit it was raised for.  Any other bytes under its key read as the unit
that their text names once the blanks around it are gone, and are told apart from those that
name none and from those that are no text.
-/

namespace Handoff

namespace Text

theorem decode?_eq_some_iff {bytes : ByteArray} {text : String} :
    decode? bytes = some text ↔ text.toUTF8 = bytes :=
  ⟨toUTF8_of_decode?, fun h => h ▸ decode?_toUTF8 text⟩

theorem decode?_eq_none_iff {bytes : ByteArray} :
    decode? bytes = none ↔ ¬∃ text : String, text.toUTF8 = bytes := by
  simp only [← decode?_eq_some_iff, Option.eq_none_iff_forall_ne_some, not_exists, ne_eq]

end Text

namespace WorkUnitId

structure IsName (text : String) : Prop where
  nonempty : 1 ≤ text.utf8ByteSize
  short : text.utf8ByteSize ≤ 256
  free : text ≠ "magic" ∧ text ≠ "." ∧ text ≠ ".."
  chars : ∀ c ∈ text.toList, c ≠ '/' ∧ Text.isBlank c = false ∧ Text.isControl c = false

theorem isName_iff {text : String} : IsName text ↔ fault? text = none := by
  rw [fault?_eq_none_iff]
  constructor
  · intro h
    refine ⟨?_, h.short, h.free, fun c hc => ?_⟩
    · rintro rfl
      exact absurd h.nonempty (by decide)
    · obtain ⟨hslash, hblank, hcontrol⟩ := h.chars c hc
      exact ⟨hslash, hcontrol, hblank⟩
  · rintro ⟨hempty, hshort, hfree, hchars⟩
    refine ⟨?_, hshort, hfree, fun c hc => ?_⟩
    · exact Nat.one_le_iff_ne_zero.2 fun h => hempty (String.utf8ByteSize_eq_zero_iff.1 h)
    · obtain ⟨hslash, hcontrol, hblank⟩ := hchars c hc
      exact ⟨hslash, hblank, hcontrol⟩

theorem ofText_of_sound {raw : String} (h : fault? (Text.trim raw) = none) :
    ofText raw = .ok ⟨Text.trim raw, h⟩ := by
  unfold ofText
  dsimp only
  split
  · rfl
  · next fault hfault =>
    rw [h] at hfault
    contradiction

theorem ofText_of_fault {raw : String} {fault : IdFault}
    (h : fault? (Text.trim raw) = some fault) : ofText raw = .error fault := by
  unfold ofText
  dsimp only
  split
  · next hnone =>
    rw [h] at hnone
    contradiction
  · next found hfound =>
    rw [h, Option.some.injEq] at hfound
    rw [hfound]

theorem ofText_eq_ok_iff {raw : String} {id : WorkUnitId} :
    ofText raw = .ok id ↔ id.text = Text.trim raw := by
  constructor
  · intro h
    cases hfault : fault? (Text.trim raw) with
    | none =>
        rw [ofText_of_sound hfault] at h
        cases h
        rfl
    | some fault =>
        rw [ofText_of_fault hfault] at h
        cases h
  · intro h
    have hsound : fault? (Text.trim raw) = none := h ▸ id.sound
    rw [ofText_of_sound hsound]
    exact congrArg Except.ok (text_injective h.symm)

/-- A text is read when what is left of it is the text of an id. -/
theorem ofText_ok_iff {raw : String} :
    (∃ id, ofText raw = .ok id) ↔ IsName (Text.trim raw) := by
  simp only [ofText_eq_ok_iff, isName_iff]
  exact ⟨fun ⟨id, h⟩ => h ▸ id.sound, fun h => ⟨⟨_, h⟩, rfl⟩⟩

theorem ofText_error_iff {raw : String} :
    (∃ fault, ofText raw = .error fault) ↔ ¬IsName (Text.trim raw) := by
  rw [← ofText_ok_iff]
  cases ofText raw with
  | ok id => simp
  | error fault => simp

end WorkUnitId

open WorkUnitId (IsName)

namespace SignalBoard

variable {signal : Signal} {payload : ByteArray}

theorem decodePayload_toUTF8 (text : String) :
    decodePayload signal text.toUTF8 =
      (WorkUnitId.ofText text).mapError (.invalidPayload (.signal signal)) := by
  rw [decodePayload, Text.decode?_toUTF8]
  cases htext : WorkUnitId.ofText text <;> simp [htext, Except.mapError]

theorem decodePayload_of_no_text (h : ¬∃ text : String, text.toUTF8 = payload) :
    decodePayload signal payload = .error (.notUtf8 (.signal signal)) := by
  rw [decodePayload, Text.decode?_eq_none_iff.2 h]

/-- What the reply to a look at a signal says of the bytes under it. -/
structure Judges (signal : Signal) (payload : ByteArray)
    (reply : Except StoreFault (Option WorkUnitId)) : Prop where
  /-- The unit is the one that the text names, without the blanks around it. -/
  unit : ∀ id, reply = .ok (some id) ↔
    ∃ text : String, text.toUTF8 = payload ∧ id.text = Text.trim text
  named : (∃ id, reply = .ok (some id)) ↔
    ∃ text : String, text.toUTF8 = payload ∧ IsName (Text.trim text)
  no_text : reply = .error (.notUtf8 (.signal signal)) ↔ ¬∃ text : String, text.toUTF8 = payload
  no_name : (∃ fault, reply = .error (.invalidPayload (.signal signal) fault)) ↔
    ∃ text : String, text.toUTF8 = payload ∧ ¬IsName (Text.trim text)

theorem exists_toUTF8_iff {text : String} {p : String → Prop} :
    (∃ other : String, other.toUTF8 = text.toUTF8 ∧ p other) ↔ p text := by
  constructor
  · rintro ⟨other, hother, h⟩
    rw [← Text.decode?_eq_some_iff, Text.decode?_toUTF8, Option.some.injEq] at hother
    exact hother ▸ h
  · exact fun h => ⟨text, rfl, h⟩

theorem judges_reading (signal : Signal) (payload : ByteArray) :
    Judges signal payload (reading signal (.ok (some payload))) := by
  by_cases htext : ∃ text : String, text.toUTF8 = payload
  · obtain ⟨text, rfl⟩ := htext
    cases hid : WorkUnitId.ofText text with
    | ok id =>
        have hreply : reading signal (.ok (some text.toUTF8)) = .ok (some id) := by
          rw [reading, decodePayload_toUTF8, hid]
          rfl
        have hname : IsName (Text.trim text) := WorkUnitId.ofText_ok_iff.1 ⟨id, hid⟩
        rw [hreply]
        exact {
          unit := fun other => by
            rw [exists_toUTF8_iff, ← WorkUnitId.ofText_eq_ok_iff, hid]
            simp
          named := iff_of_true ⟨id, rfl⟩ ⟨text, rfl, hname⟩
          no_text := iff_of_false (by simp) fun h => h ⟨text, rfl⟩
          no_name := iff_of_false (by simp) fun h => exists_toUTF8_iff.1 h hname }
    | error fault =>
        have hreply : reading signal (.ok (some text.toUTF8)) =
            .error (.invalidPayload (.signal signal) fault) := by
          rw [reading, decodePayload_toUTF8, hid]
          rfl
        have hname : ¬IsName (Text.trim text) := WorkUnitId.ofText_error_iff.1 ⟨fault, hid⟩
        rw [hreply]
        exact {
          unit := fun other => by
            rw [exists_toUTF8_iff, ← WorkUnitId.ofText_eq_ok_iff, hid]
            simp
          named := by
            rw [exists_toUTF8_iff]
            exact iff_of_false (by simp) hname
          no_text := iff_of_false (by simp) fun h => h ⟨text, rfl⟩
          no_name := iff_of_true ⟨fault, rfl⟩ ⟨text, rfl, hname⟩ }
  · have hreply : reading signal (.ok (some payload)) = .error (.notUtf8 (.signal signal)) := by
      rw [reading, decodePayload_of_no_text htext]
      rfl
    have hno (p : String → Prop) : ¬∃ text : String, text.toUTF8 = payload ∧ p text :=
      fun h => htext (h.imp fun _ => And.left)
    rw [hreply]
    exact {
      unit := fun _ => iff_of_false (by simp) (hno _)
      named := iff_of_false (by simp) (hno _)
      no_text := iff_of_true rfl htext
      no_name := iff_of_false (by simp) (hno _) }

end SignalBoard

namespace KeyValue

open SignalBoard

variable {σ : Type} {model : StoreModel σ} (map : KeyValue model)
include map

theorem run_readSignal (signal : Signal) (s : σ) :
    model.run (read signal).run s =
      (reading signal (.ok (map.contents s (.signal signal))), s) := by
  rw [run_read]
  change (reading signal (model (.get (.signal signal)) s).1, _) = _
  rw [map.get_eq]

theorem run_read_raised (signal : Signal) (id : WorkUnitId) (s : σ) :
    ∃ t, model.run (put signal id).run s = (.ok (), t) ∧
      (model.run (read signal).run t).1 = .ok (some id) := by
  refine ⟨_, map.run_put _ _ s, ?_⟩
  rw [map.run_readSignal, map.contents_snd, StoreCall.effect_put, Function.update_self]
  exact reading_payload signal id

end KeyValue

namespace SignalBoard

variable {σ : Type} {model : StoreModel σ}

/-- On a store that behaves as a map, a signal that was raised for a unit reads as that unit.
Whatever bytes stand under a signal, they read as the unit that their text names, as no text, or as
a text that names no unit, each of these exactly when they are that.  The text of an id reads as
the id. -/
theorem payloads_told_apart (map : KeyValue model) (signal : Signal) :
    (∀ id s, ∃ t, model.run (put signal id).run s = (.ok (), t) ∧
      (model.run (read signal).run t).1 = .ok (some id)) ∧
    (∀ payload s, map.contents s (.signal signal) = some payload →
      Judges signal payload (model.run (read signal).run s).1) ∧
    ∀ id : WorkUnitId, WorkUnitId.ofText id.text = .ok id := by
  refine ⟨map.run_read_raised signal, fun payload s hpayload => ?_, WorkUnitId.ofText_text⟩
  rw [map.run_readSignal, hpayload]
  exact judges_reading signal payload

def offering (payload : ByteArray) : MemoryStore :=
  StringMap.empty.insert (BlobKey.signal .offered).text payload

/-- Blanks of any script do not count, also where what they surround is reserved. -/
theorem payloads_told_apart_on_padded :
    (∀ payload, MemoryStore.keyValue.contents (offering payload) (.signal .offered) =
        some payload) ∧
      (MemoryStore.answer.run (read .offered).run (offering "\u3000r7\n".toUTF8)).1 =
        .ok (some BlobKey.plainUnit) ∧
      (∃ fault, (MemoryStore.answer.run (read .offered).run
        (offering "\u3000magic\n".toUTF8)).1 = .error (.invalidPayload (.signal .offered) fault)) ∧
      (MemoryStore.answer.run (read .offered).run (offering ⟨#[0xc3, 0x28]⟩)).1 =
        .error (.notUtf8 (.signal .offered)) := by
  have hheld (payload : ByteArray) :
      MemoryStore.keyValue.contents (offering payload) (.signal .offered) = some payload :=
    (StringMap.get?_insert _ _ _ _).trans (if_pos rfl)
  have hjudges (payload : ByteArray) :=
    (payloads_told_apart MemoryStore.keyValue .offered).2.1 payload _ (hheld payload)
  have hunit : BlobKey.plainUnit.text = Text.trim "\u3000r7\n" := by decide
  have hreserved : ¬IsName (Text.trim "\u3000magic\n") := fun h => absurd h.free.1 (by decide)
  have hbroken : Text.decode? ⟨#[0xc3, 0x28]⟩ = none := by decide +kernel
  exact ⟨hheld, ((hjudges _).unit _).2 ⟨_, rfl, hunit⟩, (hjudges _).no_name.2 ⟨_, rfl, hreserved⟩,
    (hjudges _).no_text.2 (Text.decode?_eq_none_iff.1 hbroken)⟩

end SignalBoard

end Handoff
