import Handoff.Proofs.Json.Number
import Handoff.Proofs.Plan.Parts
/-!
# Plans are read as they are meant

The fields of a plan are read in the order of the document, each into the draft.  A plan is read
from a document exactly when the document has the format of one, and it is the plan that the
document means.
-/

namespace Handoff

namespace PlanDraft

open Json

/-! ## Fields -/

def write (draft : PlanDraft) (value : Json) : PlanField → PlanDraft
  | .env => { draft with env := value.environment }
  | .commandLimit => { draft with commandLimit := value.limit? }
  | .cleanupLimit => { draft with cleanupLimit := value.limit? }
  | .commands => { draft with commands := value.elements.map Json.command }
  | .cleanup => { draft with cleanup := value.command? }
  | .report => { draft with report := value.command? }

theorem readField_eq_ok_iff {draft result : PlanDraft} {value : Json} {field : PlanField} :
    draft.readField value field = .ok result ↔
      value.fault? = none ∧ field.Format value ∧ result = draft.write value field := by
  cases field with
  | env => exact reads_textObject.map _
  | commandLimit => exact reads_limit.map _
  | cleanupLimit => exact reads_limit.map _
  | commands => exact reads_commands.map _
  | cleanup => exact reads_optionalCommand.map _
  | report => exact reads_optionalCommand.map _

/-- The draft with what all the fields mean that are given. -/
def fill (draft : PlanDraft) (fields : PlanFields) : PlanDraft where
  env := ((fields.lookup .env).map environment).getD draft.env
  commandLimit := ((fields.lookup .commandLimit).map limit?).getD draft.commandLimit
  cleanupLimit := ((fields.lookup .cleanupLimit).map limit?).getD draft.cleanupLimit
  commands := ((fields.lookup .commands).map fun value =>
    value.elements.map Json.command).getD draft.commands
  cleanup := ((fields.lookup .cleanup).map Json.command?).getD draft.cleanup
  report := ((fields.lookup .report).map Json.command?).getD draft.report

theorem fill_nil (draft : PlanDraft) : draft.fill [] = draft := rfl

theorem lookup_cons (other field : PlanField) (value : Json) (fields : PlanFields) :
    List.lookup other ((field, value) :: fields) =
      if other = field then some value else fields.lookup other := by
  rw [List.lookup_cons]
  by_cases h : other = field
  · rw [if_pos h, beq_iff_eq.2 h]
  · rw [if_neg h, beq_eq_false_iff_ne.2 h]

theorem fill_cons (draft : PlanDraft) {field : PlanField} (value : Json) {fields : PlanFields}
    (h : field ∉ fields.map Prod.fst) :
    draft.fill ((field, value) :: fields) = (draft.write value field).fill fields := by
  have hnone : fields.lookup field = none :=
    List.lookup_eq_none_iff.2 fun e he => bne_iff_ne.2 fun heq =>
      h (List.mem_map.2 ⟨e, he, heq.symm⟩)
  cases field <;> simp [fill, write, lookup_cons, hnone]

/-! ## Plans -/

theorem ofName?_eq_some_iff {key : String} {field : PlanField} :
    PlanField.ofName? key = some field ↔ key = field.name := by
  constructor
  · intro h
    simpa [eq_comm] using List.find?_some h
  · rintro rfl
    cases field <;> decide

theorem freshField_eq_ok_iff {seen : List PlanField} {key : String} {field : PlanField} :
    freshField seen key = .ok field ↔ key = field.name ∧ field ∉ seen := by
  rw [← ofName?_eq_some_iff]
  unfold freshField
  cases PlanField.ofName? key with
  | none => simp
  | some found =>
      dsimp only
      split
      · next hseen =>
        constructor
        · intro h
          cases h
        · rintro ⟨⟨⟩, hfresh⟩
          exact absurd hseen hfresh
      · next hfresh =>
        constructor
        · intro h
          cases h
          exact ⟨rfl, hfresh⟩
        · rintro ⟨⟨⟩, -⟩
          rfl

def Unseen (seen : List PlanField) (fields : PlanFields) : Prop :=
  (fields.map Prod.fst).Nodup ∧ ∀ field ∈ fields.map Prod.fst, field ∉ seen

theorem unseen_cons {seen : List PlanField} {field : PlanField} {value : Json}
    {fields : PlanFields} :
    Unseen seen ((field, value) :: fields) ↔ field ∉ seen ∧ Unseen (field :: seen) fields := by
  unfold Unseen
  rw [List.map_cons, List.nodup_cons, List.forall_mem_cons]
  constructor
  · rintro ⟨⟨hnew, honce⟩, hunseen, hothers⟩
    refine ⟨hunseen, honce, fun other hother hseen => ?_⟩
    rcases List.mem_cons.1 hseen with rfl | hbefore
    · exact hnew hother
    · exact hothers other hother hbefore
  · rintro ⟨hunseen, honce, hothers⟩
    exact ⟨⟨fun hmem => hothers field hmem List.mem_cons_self, honce⟩, hunseen,
      fun other hother hseen => hothers other hother (List.mem_cons_of_mem field hseen)⟩

theorem Unseen.not_mem {seen : List PlanField} {field : PlanField} {fields : PlanFields}
    (h : Unseen (field :: seen) fields) : field ∉ fields.map Prod.fst :=
  fun hmem => h.2 field hmem List.mem_cons_self

/-- What is read of the members of a plan, where some fields were seen before them. -/
theorem readMembers_eq_ok_iff : ∀ {members : JsonMembers} {seen : List PlanField}
    {draft result : PlanDraft}, readMembers members seen draft = .ok result ↔
      members.fault? = none ∧ ∃ fields : PlanFields,
        members.toList = fields.map (fun e => (e.1.name, e.2)) ∧ Unseen seen fields ∧
        (∀ e ∈ fields, e.1.Format e.2) ∧ result = draft.fill fields
  | .closed, seen, draft, result => by
      constructor
      · intro h
        cases h
        exact ⟨rfl, [], rfl, ⟨List.nodup_nil, nofun⟩, nofun, rfl⟩
      · rintro ⟨-, fields, hfields, -, -, rfl⟩
        obtain rfl : fields = [] := List.map_eq_nil_iff.1 hfields.symm
        rfl
  | .cut fault, _, _, _ => by simp [readMembers, JsonMembers.fault?]
  | .dangling key fault, seen, _, _ => by
      constructor
      · intro h
        rw [readMembers] at h
        split at h <;> cases h
      · rintro ⟨h, -⟩
        cases h
  | .more key value tail, seen, draft, result => by
      rw [readMembers, JsonMembers.fault?, Option.or_eq_none_iff, JsonMembers.toList]
      constructor
      · intro h
        split at h
        · cases h
        · next field hfresh =>
          obtain ⟨rfl, hunseen⟩ := freshField_eq_ok_iff.1 hfresh
          split at h
          · next written hfield =>
            obtain ⟨hwhole, hformat, rfl⟩ := readField_eq_ok_iff.1 hfield
            obtain ⟨htail, fields, hfields, hothers, hformats, rfl⟩ := readMembers_eq_ok_iff.1 h
            refine ⟨⟨hwhole, htail⟩, (field, value) :: fields, ?_,
              unseen_cons.2 ⟨hunseen, hothers⟩, List.forall_mem_cons.2 ⟨hformat, hformats⟩, ?_⟩
            · rw [hfields, List.map_cons]
            · exact (fill_cons draft value hothers.not_mem).symm
          · cases h
      · rintro ⟨⟨hwhole, htail⟩, fields, hfields, honce, hformats, rfl⟩
        cases fields with
        | nil => cases hfields
        | cons first fields =>
            obtain ⟨field, given⟩ := first
            obtain ⟨hfirst, hrest⟩ := List.cons.inj hfields
            obtain ⟨rfl, rfl⟩ := Prod.mk.inj hfirst
            obtain ⟨hunseen, hothers⟩ := unseen_cons.1 honce
            obtain ⟨hformat, hformats⟩ := List.forall_mem_cons.1 hformats
            rw [freshField_eq_ok_iff.2 ⟨rfl, hunseen⟩]
            dsimp only
            rw [readField_eq_ok_iff.2 ⟨hwhole, hformat, rfl⟩,
              fill_cons draft value hothers.not_mem]
            exact readMembers_eq_ok_iff.2 ⟨htail, fields, hrest, hothers, hformats, rfl⟩

/-- What is read of the elements of a plan, where some fields are left for them. -/
theorem readItems_eq_ok_iff : ∀ {items : JsonItems} {left : List PlanField}
    {draft result : PlanDraft}, left.Nodup → (readItems items left draft = .ok result ↔
      items.fault? = none ∧ items.toList.length ≤ left.length ∧
        (∀ e ∈ left.zip items.toList, e.1.Format e.2) ∧
        result = draft.fill (left.zip items.toList))
  | .closed, left, draft, result, _ => by
      rw [readItems, JsonItems.toList, List.zip_nil_right]
      simp [JsonItems.fault?, fill_nil, eq_comm]
  | .cut fault, _, _, _, _ => by simp [readItems, JsonItems.fault?]
  | .more head tail, [], _, _, _ => by
      rw [readItems, JsonItems.toList]
      simp
  | .more head tail, field :: left, draft, result, h => by
      obtain ⟨hfield, hleft⟩ := List.nodup_cons.1 h
      rw [readItems, JsonItems.fault?, Option.or_eq_none_iff, JsonItems.toList,
        List.zip_cons_cons, List.forall_mem_cons, List.length_cons, List.length_cons,
        Nat.add_le_add_iff_right]
      have hnew : field ∉ (left.zip tail.toList).map Prod.fst := fun hmem => by
        obtain ⟨e, he, rfl⟩ := List.mem_map.1 hmem
        exact hfield (List.of_mem_zip he).1
      rw [fill_cons draft head hnew]
      cases hread : draft.readField head field with
      | error fault =>
          constructor
          · intro hfilled
            cases hfilled
          · rintro ⟨⟨hwhole, -⟩, -, ⟨hformat, -⟩, -⟩
            rw [readField_eq_ok_iff.2 ⟨hwhole, hformat, rfl⟩] at hread
            cases hread
      | ok written =>
          obtain ⟨hwhole, hformat, rfl⟩ := readField_eq_ok_iff.1 hread
          rw [and_iff_right hwhole, and_iff_right hformat]
          exact readItems_eq_ok_iff hleft

theorem ofJson_eq_ok_iff {root : Json} {draft : PlanDraft} :
    ofJson root = .ok draft ↔ root.fault? = none ∧ ∃ fields : PlanFields,
      fields.GivenBy root ∧ (∀ e ∈ fields, e.1.Format e.2) ∧ draft = blank.fill fields := by
  cases root with
  | object members =>
      rw [ofJson, readMembers_eq_ok_iff, fault?]
      refine and_congr_right fun _ => exists_congr fun fields => ?_
      constructor
      · rintro ⟨hknown, ⟨honce, -⟩, hformats, hdraft⟩
        exact ⟨.object hknown honce, hformats, hdraft⟩
      · rintro ⟨⟨hknown, honce⟩, hformats, hdraft⟩
        exact ⟨hknown, ⟨honce, fun _ _ => List.not_mem_nil⟩, hformats, hdraft⟩
  | array items =>
      rw [ofJson, readItems_eq_ok_iff (by decide), fault?]
      refine and_congr_right fun _ => ?_
      constructor
      · rintro ⟨hfew, hformats, hdraft⟩
        exact ⟨_, .array hfew rfl, hformats, hdraft⟩
      · rintro ⟨fields, ⟨⟩ | ⟨hfew, rfl⟩, hformats, hdraft⟩
        exact ⟨hfew, hformats, hdraft⟩
  | _ =>
      constructor
      · intro h
        cases h
      · rintro ⟨-, fields, hgiven, -⟩
        cases hgiven

theorem ofDocument_eq_ok_iff {document : JsonDocument} {draft : PlanDraft} :
    ofDocument document = .ok draft ↔ document.IsWhole ∧ ∃ fields : PlanFields,
      fields.GivenBy document.root ∧ (∀ e ∈ fields, e.1.Format e.2) ∧
        draft = blank.fill fields := by
  unfold ofDocument
  constructor
  · intro h
    split at h
    · cases h
    · next read hread =>
      split at h
      · cases h
      · next htrailing =>
        cases h
        obtain ⟨hwhole, hfields⟩ := ofJson_eq_ok_iff.1 hread
        exact ⟨⟨hwhole, Bool.eq_false_iff.2 htrailing⟩, hfields⟩
  · rintro ⟨⟨hwhole, htrailing⟩, hfields⟩
    rw [ofJson_eq_ok_iff.2 ⟨hwhole, hfields⟩]
    dsimp only
    rw [if_neg (Bool.eq_false_iff.1 htrailing)]

/-! ## The meaning -/

theorem get?_env_fill (fields : PlanFields) (x : String) :
    (blank.fill fields).env.get? x = lastValue x fields.shared := by
  show (((fields.lookup .env).map environment).getD StringMap.empty).get? x =
    lastValue x (((fields.lookup .env).map assignments).getD [])
  cases fields.lookup .env with
  | none => rfl
  | some value => exact StringMap.get?_ofList value.assignments x

theorem means_inEnvironment (fields : PlanFields) (written : Json) :
    fields.MeansCommand written (inEnvironment (blank.fill fields).env written.command) where
  argv := rfl
  env x := by
    have hown : written.command.env.get? x = lastValue x written.ownVariables :=
      StringMap.get?_ofList written.ownVariables x
    rw [← hown, ← get?_env_fill]
    exact StringMap.get?_overlay _ _ x

theorem means_command? (fields : PlanFields) (field : PlanField) :
    Option.Rel fields.MeansCommand (fields.command? field)
      (((((fields.lookup field).map Json.command?).getD none).map
        (inEnvironment (blank.fill fields).env)).filter fun c => !c.isEmpty) := by
  unfold PlanFields.command?
  cases fields.lookup field with
  | none => exact .none
  | some value =>
      rw [Option.map_some, Option.getD_some, Option.filter_some]
      by_cases hnull : value = .null
      · subst hnull
        exact .none
      rw [command?_eq_some hnull, Option.map_some, Option.filter_some]
      have hsame : (inEnvironment (blank.fill fields).env value.command).isEmpty =
          value.argv.isEmpty := rfl
      rw [hsame]
      by_cases hempty : value.argv = []
      · rw [if_neg (by simp [hempty]), if_neg (by simp [hempty])]
        exact .none
      · rw [if_pos (by simp [hempty]), if_pos (by simp [hempty])]
        exact .some (means_inEnvironment fields value)

theorem means_toPlan (fields : PlanFields) : fields.Means (blank.fill fields).toPlan where
  commands := by
    have hcommands : (blank.fill fields).commands = fields.commands.map Json.command := by
      show ((fields.lookup .commands).map fun value =>
          value.elements.map Json.command).getD [] =
        (((fields.lookup .commands).map Json.elements).getD []).map Json.command
      cases fields.lookup .commands <;> rfl
    show List.Forall₂ fields.MeansCommand fields.commands
      ((blank.fill fields).commands.map (inEnvironment (blank.fill fields).env))
    rw [hcommands, List.forall₂_map_right_iff, List.forall₂_map_right_iff, List.forall₂_same]
    exact fun written _ => means_inEnvironment fields written
  cleanup := means_command? fields .cleanup
  report := means_command? fields .report
  commandLimit := by
    show (((fields.lookup .commandLimit).map limit?).getD none).map Duration.ofSecs =
      ((fields.lookup .commandLimit).bind limit?).map Duration.ofSecs
    cases fields.lookup .commandLimit <;> rfl
  cleanupLimit := by
    show (((fields.lookup .cleanupLimit).map limit?).getD none).map Duration.ofSecs =
      ((fields.lookup .cleanupLimit).bind limit?).map Duration.ofSecs
    cases fields.lookup .cleanupLimit <;> rfl

end PlanDraft

theorem PlanFields.GivenBy.unique {fields others : PlanFields} {root : Json}
    (h : fields.GivenBy root) (hothers : others.GivenBy root) : fields = others := by
  cases h with
  | object hknown _ =>
      cases hothers with
      | object hothers _ =>
          refine List.map_injective_iff.2 ?_ (hknown.symm.trans hothers)
          rintro ⟨field, value⟩ ⟨other, given⟩ heq
          obtain ⟨hname, rfl⟩ := Prod.mk.inj heq
          have hfield := PlanDraft.ofName?_eq_some_iff.2 (rfl : field.name = field.name)
          rw [PlanDraft.ofName?_eq_some_iff.2 hname] at hfield
          obtain rfl : other = field := Option.some.inj hfield
          rfl
  | array _ hfields =>
      cases hothers with
      | array _ hothers => exact hfields.trans hothers.symm

namespace Plan

/-- A plan is read from a document when it has the fields of a plan, all in their format. -/
theorem ofDocument_eq_ok_iff {path : Path} {document : JsonDocument} {plan : Plan} :
    ofDocument path document = .ok plan ↔ document.IsWhole ∧ ∃ fields : PlanFields,
      fields.GivenBy document.root ∧ fields.Valid ∧
        plan = (PlanDraft.blank.fill fields).toPlan := by
  have hzero (fields : PlanFields) : (PlanDraft.blank.fill fields).commandLimit = some 0 ↔
      fields.lookup .commandLimit = some (.number (.natural 0)) := by
    show ((fields.lookup .commandLimit).map Json.limit?).getD none = some 0 ↔ _
    cases fields.lookup .commandLimit with
    | none => exact ⟨nofun, nofun⟩
    | some value =>
        rw [Option.map_some, Option.getD_some, Option.some.injEq]
        exact PlanDraft.limit?_eq_some_iff
  unfold ofDocument
  constructor
  · intro h
    split at h
    · cases h
    · next draft hdraft =>
      obtain ⟨hwhole, fields, hgiven, hformats, rfl⟩ := PlanDraft.ofDocument_eq_ok_iff.1 hdraft
      split at h
      · cases h
      · next hpositive =>
        cases h
        exact ⟨hwhole, fields, hgiven, ⟨hformats, fun h => hpositive ((hzero fields).2 h)⟩, rfl⟩
  · rintro ⟨hwhole, fields, hgiven, ⟨hformats, hpositive⟩, rfl⟩
    rw [PlanDraft.ofDocument_eq_ok_iff.2 ⟨hwhole, fields, hgiven, hformats, rfl⟩]
    dsimp only
    rw [if_neg fun h => hpositive ((hzero fields).1 h)]

/-- A document is read as a plan exactly when it has the format of one, and the plan is then what
the document means.  Its unsigned integers are the ones that are spelled as such. -/
theorem read_as_meant (path : Path) (document : JsonDocument) :
    ((∃ plan, ofDocument path document = .ok plan) ↔ document.IsWhole ∧
      ∃ fields : PlanFields, fields.GivenBy document.root ∧ fields.Valid) ∧
    (∀ plan (fields : PlanFields), ofDocument path document = .ok plan →
      fields.GivenBy document.root → fields.Means plan) ∧
    ∀ text rest value, Json.readNumber text = .ok (.natural value, rest) ↔
      ∃ digits, text = digits ++ rest ∧ Json.IsPlain digits ∧ Json.EndsBefore rest ∧
        Nat.ofDigitChars 10 digits 0 = value.toNat := by
  refine ⟨⟨?_, ?_⟩, ?_, fun _ _ _ => Json.readNumber_eq_natural_iff⟩
  · rintro ⟨plan, hplan⟩
    obtain ⟨hwhole, fields, hgiven, hvalid, -⟩ := ofDocument_eq_ok_iff.1 hplan
    exact ⟨hwhole, fields, hgiven, hvalid⟩
  · rintro ⟨hwhole, fields, hgiven, hvalid⟩
    exact ⟨_, ofDocument_eq_ok_iff.2 ⟨hwhole, fields, hgiven, hvalid, rfl⟩⟩
  · intro plan fields hplan hgiven
    obtain ⟨-, read, hread, -, rfl⟩ := ofDocument_eq_ok_iff.1 hplan
    obtain rfl := hgiven.unique hread
    exact PlanDraft.means_toPlan fields

/-- The fields of a plan with common variables, of which one command sets one itself, and with a
command that is empty. -/
def sampleFields : PlanFields :=
  [(.env, .object (.more "CORES" (.string "16") (.more "MODE" (.string "ci") .closed))),
    (.commandLimit, .number (.natural 30)),
    (.commands, .array (.more (.array (.more (.string "test") (.more (.string "--slow") .closed)))
      (.more (.object (.more "env" (.object (.more "MODE" (.string "apps") .closed))
        (.more "note" (.bool true)
          (.more "argv" (.array (.more (.string "run") .closed)) .closed))))
      (.more (.array .closed) .closed)))),
    (.cleanup, .null)]

def sample : JsonDocument where
  root := .object (sampleFields.foldr (fun e => .more e.1.name e.2) .closed)
  trailing := false

theorem read_as_meant_on_sample :
    ∃ plan, ofDocument ⟨"plan.json"⟩ sample = .ok plan ∧ sampleFields.GivenBy sample.root ∧
      sampleFields.Means plan := by
  have hgiven : sampleFields.GivenBy sample.root := .object rfl (by decide)
  exact ⟨_, rfl, hgiven, (read_as_meant ⟨"plan.json"⟩ sample).2.1 _ _ rfl hgiven⟩

end Plan

end Handoff
