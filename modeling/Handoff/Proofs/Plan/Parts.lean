import Handoff.Proofs.Plan.Format
/-!
# Commands are read as they are meant

Each reader of a part of a plan accepts the whole values of its format, and nothing else, and what
it reads is what the value means.
-/

namespace Handoff

namespace Json

theorem map_eq_ok_iff {α β : Type} {read : Except JsonFault α} {f : α → β} {result : β} :
    read.map f = .ok result ↔ ∃ part, read = .ok part ∧ result = f part := by
  cases read with
  | error fault => exact ⟨nofun, nofun⟩
  | ok part => exact ⟨fun h => ⟨part, rfl, (Except.ok.inj h).symm⟩, fun ⟨_, hpart, h⟩ => by
      rw [h, Except.ok.inj hpart]
      rfl⟩

/-- The reader accepts the whole values of a format, and reads them as they are meant. -/
def Reads {α : Type} (read : Json → Except JsonFault α) (format : Json → Prop)
    (meaning : Json → α) : Prop :=
  ∀ {value result}, read value = .ok result ↔
    value.fault? = none ∧ format value ∧ result = meaning value

def environment (value : Json) : StringMap String :=
  StringMap.ofList value.assignments

def command (value : Json) : Command where
  argv := value.argv
  env := StringMap.ofList value.ownVariables

def command? : Json → Option Command
  | .null => none
  | value => some value.command

def readAll {α : Type} (read : Json → Except JsonFault α) :
    JsonItems → Except JsonFault (List α)
  | .closed => .ok []
  | .cut fault => .error fault
  | .more head tail =>
      match read head with
      | .error fault => .error fault
      | .ok value => (readAll read tail).map (value :: ·)

variable {α β : Type} {read : Json → Except JsonFault α} {format : Json → Prop}
  {meaning : Json → α}

theorem Reads.refused (h : Reads read format meaning) {value : Json} {fault : JsonFault}
    (hread : read value = .error fault) : ¬(value.fault? = none ∧ format value) := by
  rintro ⟨hwhole, hformat⟩
  rw [h.2 ⟨hwhole, hformat, rfl⟩] at hread
  cases hread

/-- For a value that is not of the format there is nothing to show when it is refused. -/
theorem refused_iff (read : Json → Except JsonFault α) (format : Json → Prop) (meaning : Json → α)
    {value : Json} {result : α} {fault : JsonFault}
    (hread : read value = .error fault) (hformat : ¬format value) :
    read value = .ok result ↔ value.fault? = none ∧ format value ∧ result = meaning value := by
  rw [hread]
  constructor
  · intro h
    cases h
  · intro h
    exact absurd h.2.1 hformat

theorem Reads.map (h : Reads read format meaning) (f : α → β) :
    Reads (fun value => (read value).map f) format (fun value => f (meaning value)) := by
  intro value result
  rw [map_eq_ok_iff]
  constructor
  · rintro ⟨part, hpart, rfl⟩
    obtain ⟨hwhole, hformat, rfl⟩ := h.1 hpart
    exact ⟨hwhole, hformat, rfl⟩
  · rintro ⟨hwhole, hformat, rfl⟩
    exact ⟨meaning value, h.2 ⟨hwhole, hformat, rfl⟩, rfl⟩

theorem Reads.all (h : Reads read format meaning) : ∀ {items : JsonItems} {results : List α},
    readAll read items = .ok results ↔ items.fault? = none ∧
      (∀ item ∈ items.toList, format item) ∧ results = items.toList.map meaning
  | .closed, results => by simp [readAll, JsonItems.fault?, JsonItems.toList, eq_comm]
  | .cut fault, results => by simp [readAll, JsonItems.fault?]
  | .more head tail, results => by
      rw [readAll, JsonItems.fault?, Option.or_eq_none_iff, JsonItems.toList,
        List.forall_mem_cons, List.map_cons]
      cases hhead : read head with
      | error fault =>
          constructor
          · intro hread
            cases hread
          · rintro ⟨⟨hwhole, -⟩, ⟨hformat, -⟩, -⟩
            exact absurd ⟨hwhole, hformat⟩ (h.refused hhead)
      | ok value =>
          obtain ⟨hwhole, hformat, rfl⟩ := h.1 hhead
          dsimp only
          rw [map_eq_ok_iff]
          constructor
          · rintro ⟨rest, hrest, rfl⟩
            obtain ⟨htail, hformats, rfl⟩ := h.all.1 hrest
            exact ⟨⟨hwhole, htail⟩, ⟨hformat, hformats⟩, rfl⟩
          · rintro ⟨⟨-, htail⟩, ⟨-, hformats⟩, rfl⟩
            exact ⟨_, h.all.2 ⟨htail, hformats, rfl⟩, rfl⟩

end Json

namespace PlanDraft

open Json

/-! ## Texts -/

theorem reads_text : Reads readText IsText text := by
  intro value result
  cases value with
  | string text => simp [readText, fault?, IsText, Json.text, eq_comm]
  | _ =>
      refine refused_iff readText IsText text rfl ?_
      rintro ⟨text, htext⟩
      cases htext

theorem readTextItems_eq : ∀ items, readTextItems items = readAll readText items
  | .closed => rfl
  | .cut _ => rfl
  | .more head tail => by
      rw [readTextItems, readAll, readTextItems_eq tail]
      cases readText head <;> rfl

theorem reads_textArray : Reads readArgv IsTextArray texts := by
  intro value result
  cases value with
  | array items =>
      rw [readArgv, readTextItems_eq, reads_text.all, fault?]
      simp [IsTextArray, texts, elements]
  | _ =>
      refine refused_iff readArgv IsTextArray texts rfl ?_
      rintro ⟨items, hitems, -⟩
      cases hitems

theorem readTextMembers_eq_ok_iff : ∀ {members : JsonMembers} {found result : StringMap String},
    readTextMembers members found = .ok result ↔ members.fault? = none ∧
      (∀ e ∈ members.toList, e.2.IsText) ∧
        result = ((members.toList.map fun e => (e.1, e.2.text)).foldl
          (fun map e => map.insert e.1 e.2) found)
  | .closed, found, result => by
      simp [readTextMembers, JsonMembers.fault?, JsonMembers.toList, eq_comm]
  | .cut fault, found, result => by simp [readTextMembers, JsonMembers.fault?]
  | .dangling key fault, found, result => by simp [readTextMembers, JsonMembers.fault?]
  | .more key value tail, found, result => by
      rw [readTextMembers, JsonMembers.fault?, Option.or_eq_none_iff, JsonMembers.toList,
        List.forall_mem_cons, List.map_cons, List.foldl_cons]
      cases hvalue : readText value with
      | error fault =>
          constructor
          · intro hread
            cases hread
          · rintro ⟨⟨hwhole, -⟩, ⟨hformat, -⟩, -⟩
            exact absurd ⟨hwhole, hformat⟩ (reads_text.refused hvalue)
      | ok text =>
          obtain ⟨hwhole, hformat, rfl⟩ := reads_text.1 hvalue
          dsimp only
          rw [readTextMembers_eq_ok_iff, and_iff_right hwhole, and_iff_right hformat]

theorem reads_textObject : Reads readTexts IsTextObject environment := by
  intro value result
  cases value with
  | object members =>
      rw [readTexts, readTextMembers_eq_ok_iff, fault?]
      simp [IsTextObject, environment, assignments, Json.members, StringMap.ofList]
  | _ =>
      refine refused_iff readTexts IsTextObject environment rfl ?_
      rintro ⟨members, hmembers, -⟩
      cases hmembers

/-! ## Limits -/

theorem reads_limit : Reads readLimit IsLimit limit? := by
  intro value result
  cases value with
  | null => simp [readLimit, fault?, IsLimit, limit?, eq_comm]
  | number number =>
      cases number with
      | natural limit => simp [readLimit, fault?, IsLimit, limit?, eq_comm]
      | other => simp [readLimit, IsLimit]
  | _ =>
      refine refused_iff readLimit IsLimit limit? rfl ?_
      rintro (hnull | ⟨limit, hlimit⟩)
      · cases hnull
      · cases hlimit

theorem limit?_eq_some_iff {value : Json} {limit : UInt64} :
    value.limit? = some limit ↔ value = .number (.natural limit) := by
  constructor
  · intro h
    unfold limit? at h
    split at h
    · cases h
      rfl
    · cases h
  · rintro rfl
    rfl

/-! ## Commands -/

theorem valuesOf_closed (key : String) : (Json.object .closed).valuesOf key = [] := rfl

theorem valuesOf_more (key name : String) (value : Json) (tail : JsonMembers) :
    (Json.object (.more name value tail)).valuesOf key =
      if name = key then value :: (Json.object tail).valuesOf key
      else (Json.object tail).valuesOf key := by
  show (((name, value) :: tail.toList).filter fun e => e.1 = key).map Prod.snd = _
  rw [List.filter_cons]
  by_cases hname : name = key
  · rw [if_pos hname, if_pos (decide_eq_true hname)]
    rfl
  · rw [if_neg hname, if_neg fun h => hname (of_decide_eq_true h)]
    rfl

/-- What is read of the members of a command, with what was read of them before.  The values of
other members have to be whole; they are not looked at. -/
theorem readCommandMembers_eq_ok_iff : ∀ {members : JsonMembers} {argv : Option (List String)}
    {env : Option (StringMap String)} {command : Command}, members.fault? = none →
    (readCommandMembers members argv env = .ok command ↔
      (∀ value ∈ (Json.object members).valuesOf "argv", value.IsTextArray) ∧
      (∀ value ∈ (Json.object members).valuesOf "env", value.IsTextObject) ∧
      argv.toList ++ ((Json.object members).valuesOf "argv").map texts = [command.argv] ∧
      (env.toList ++ ((Json.object members).valuesOf "env").map environment).length ≤ 1 ∧
      command.env = (env.toList ++
        ((Json.object members).valuesOf "env").map environment).head?.getD StringMap.empty)
  | .closed, argv, env, command, _ => by
      rw [valuesOf_closed, valuesOf_closed]
      cases argv with
      | none => simp [readCommandMembers]
      | some argv =>
          obtain ⟨found, own⟩ := command
          cases env <;> simp [readCommandMembers, eq_comm]
  | .cut fault, _, _, _, h => by cases h
  | .dangling key fault, _, _, _, h => by cases h
  | .more key value tail, argv, env, command, h => by
      rw [JsonMembers.fault?, Option.or_eq_none_iff] at h
      obtain ⟨hvalue, htail⟩ := h
      rw [readCommandMembers, valuesOf_more, valuesOf_more]
      split
      · next hkey =>
        subst hkey
        have hother : ¬("argv" = "env") := by decide
        rw [if_neg hother, List.forall_mem_cons, List.map_cons]
        cases argv with
        | some argv => simp
        | none =>
            cases hread : readArgv value with
            | error fault =>
                constructor
                · intro hfound
                  cases hfound
                · rintro ⟨⟨hformat, -⟩, -⟩
                  exact absurd ⟨hvalue, hformat⟩ (reads_textArray.refused hread)
            | ok found =>
                obtain ⟨-, hformat, rfl⟩ := reads_textArray.1 hread
                rw [and_iff_right hformat]
                exact readCommandMembers_eq_ok_iff htail
      split
      · next hkey =>
        subst hkey
        rw [List.forall_mem_cons, List.map_cons]
        cases env with
        | some env => simp
        | none =>
            cases hread : readTexts value with
            | error fault =>
                constructor
                · intro hfound
                  cases hfound
                · rintro ⟨-, ⟨hformat, -⟩, -⟩
                  exact absurd ⟨hvalue, hformat⟩ (reads_textObject.refused hread)
            | ok found =>
                obtain ⟨-, hformat, rfl⟩ := reads_textObject.1 hread
                rw [and_iff_right hformat]
                exact readCommandMembers_eq_ok_iff htail
      · exact readCommandMembers_eq_ok_iff htail

theorem command_array (items : JsonItems) :
    (Json.array items).command = ⟨items.toList.map text, StringMap.empty⟩ := by
  simp only [Json.command, Json.argv, Json.ownVariables, Json.texts, Json.elements, valuesOf,
    members]
  simp [StringMap.ofList]

theorem argv_command {members : JsonMembers} {argv : Json}
    (h : (Json.object members).valuesOf "argv" = [argv]) :
    (Json.object members).command.argv = argv.texts := by
  show (Json.object members).texts ++ ((Json.object members).valuesOf "argv").flatMap texts = _
  rw [h]
  exact List.append_nil _

theorem env_command {value : Json} (h : (value.valuesOf "env").length ≤ 1) :
    value.command.env =
      ((value.valuesOf "env").map environment).head?.getD StringMap.empty := by
  show StringMap.ofList ((value.valuesOf "env").flatMap assignments) = _
  match value.valuesOf "env", h with
  | [], _ => rfl
  | [env], _ => exact congrArg StringMap.ofList (List.append_nil _)

theorem readCommandShape_eq_ok_iff {value : Json} {result : Command} (h : value.fault? = none) :
    readCommandShape value = .ok result ↔ value.IsCommand ∧ result = value.command := by
  cases value with
  | array items =>
      have hitems : items.fault? = none := h
      rw [readCommandShape, readTextItems_eq, map_eq_ok_iff, command_array]
      constructor
      · rintro ⟨argv, hargv, rfl⟩
        obtain ⟨-, htexts, rfl⟩ := reads_text.all.1 hargv
        exact ⟨.inl ⟨items, rfl, htexts⟩, rfl⟩
      · rintro ⟨⟨_, ⟨⟩, htexts⟩ | hfull, rfl⟩
        · exact ⟨_, reads_text.all.2 ⟨hitems, htexts, rfl⟩, rfl⟩
        · obtain ⟨_, hobject⟩ := hfull.object
          cases hobject
  | object members =>
      rw [readCommandShape, readCommandMembers_eq_ok_iff h, Option.toList_none, List.nil_append,
        Option.toList_none, List.nil_append]
      constructor
      · rintro ⟨hargv, henv, hsingle, honce, hown⟩
        rw [List.length_map] at honce
        obtain ⟨argv, hvalues, htexts⟩ := List.map_eq_singleton_iff.1 hsingle
        have hformat : argv.IsTextArray := hargv argv (hvalues ▸ List.mem_singleton_self argv)
        refine ⟨.inr ⟨⟨members, rfl⟩, ⟨argv, hvalues, hformat⟩, honce, henv⟩, ?_⟩
        have hsame : result.argv = (Json.object members).command.argv := by
          rw [argv_command hvalues, htexts]
        have hset : result.env = (Json.object members).command.env := by
          rw [env_command honce, hown]
        exact congrArg₂ Command.mk hsame hset
      · rintro ⟨⟨_, ⟨⟩, -⟩ | ⟨-, ⟨argv, hvalues, hformat⟩, honce, henv⟩, rfl⟩
        refine ⟨?_, henv, ?_, by rwa [List.length_map], env_command honce⟩
        · rw [hvalues]
          exact List.forall_mem_singleton.2 hformat
        · rw [argv_command hvalues, hvalues, List.map_singleton]
  | broken fault => cases h
  | _ =>
      constructor
      · intro hread
        cases hread
      · rintro ⟨⟨_, hitems, -⟩ | hfull, -⟩
        · cases hitems
        · obtain ⟨_, hobject⟩ := hfull.object
          cases hobject

theorem reads_command : Reads readCommand IsCommand Json.command := by
  intro value result
  unfold readCommand
  split
  · next fault hfault =>
    constructor
    · intro hread
      cases hread
    · rintro ⟨hwhole, -⟩
      rw [hfault] at hwhole
      cases hwhole
  · next hwhole => rw [readCommandShape_eq_ok_iff hwhole, and_iff_right hwhole]

theorem command?_eq_some {value : Json} (h : value ≠ .null) :
    value.command? = some value.command := by
  cases value with
  | null => exact absurd rfl h
  | _ => rfl

theorem reads_optionalCommand : Reads readOptionalCommand IsOptionalCommand Json.command? := by
  intro value result
  by_cases hnull : value = .null
  · subst hnull
    simp [readOptionalCommand, fault?, IsOptionalCommand, Json.command?, eq_comm]
  · have hread : readOptionalCommand value = (readCommand value).map some := by
      cases value with
      | null => exact absurd rfl hnull
      | _ => rfl
    rw [hread, reads_command.map some, command?_eq_some hnull, IsOptionalCommand,
      or_iff_right hnull]

theorem readCommandItems_eq : ∀ items, readCommandItems items = readAll readCommand items
  | .closed => rfl
  | .cut _ => rfl
  | .more head tail => by
      rw [readCommandItems, readAll, readCommandItems_eq tail]
      cases readCommand head <;> rfl

theorem reads_commands :
    Reads readCommands IsCommandArray fun value => value.elements.map Json.command := by
  intro value result
  cases value with
  | array items =>
      rw [readCommands, readCommandItems_eq, reads_command.all, fault?]
      simp [IsCommandArray, elements]
  | _ =>
      refine refused_iff readCommands IsCommandArray
        (fun value => value.elements.map Json.command) rfl ?_
      rintro ⟨items, hitems, -⟩
      cases hitems

end PlanDraft

end Handoff
