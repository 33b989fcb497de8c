import Handoff.Proofs.Conduct
import Handoff.Proofs.Files.Directories
/-!
# File calls that fail

A file system may refuse any call, as when the disk is full, and may stop in the middle of a
write.  The program itself may be cut off between two calls.  The courses of a program are all
the ways that it can take then.
-/

namespace Handoff

namespace FileTree

def refusal (fault : OsFault) : (request : FileCall) → request.Answer
  | .isDir _ => false
  | .isThere _ => false
  | .makeDir _ => .error fault
  | .read _ => .error fault
  | .write _ _ => .error fault
  | .rename _ _ => .error fault
  | .remove _ => .error fault
  | .entries _ => .error fault

/-- What may come of a file call: it is carried out, or refused, or it is a write that breaks
off when a first part of the content is in the file. -/
inductive Befalls (cwd : Location) (tree : FileTree) :
    (request : FileCall) → request.Answer → FileTree → Prop
  | served (request : FileCall) :
      Befalls cwd tree request (answer cwd request tree).1 (answer cwd request tree).2
  | refused (request : FileCall) (fault : OsFault) :
      Befalls cwd tree request (refusal fault request) tree
  | brokeOff {path : Path} {part rest : ByteArray} {after : FileTree} (fault : OsFault)
      (begun : tree.write cwd path.text part = .ok after) :
      Befalls cwd tree (.write path (part ++ rest)) (.error fault) after

/-- A way that a program can take: it is cut off, and leaves no value, or goes on to its end. -/
inductive Course (cwd : Location) {α : Type} :
    Program Files α → FileTree → Option α → FileTree → Prop
  | cutOff (program : Program Files α) (tree : FileTree) : Course cwd program tree none tree
  | ended (value : α) (tree : FileTree) : Course cwd (.done value) tree (some value) tree
  | ask {request : FileCall} {next : request.Answer → Program Files α} {given : request.Answer}
      {tree middle after : FileTree} {outcome : Option α}
      (befalls : Befalls cwd tree request given middle)
      (later : Course cwd (next given) middle outcome after) :
      Course cwd (.ask (I := Files) request next) tree outcome after

variable {tree middle after : FileTree} {cwd : Location} {path target : Path}

/-! ## Single calls -/

theorem befalls_isDir {given : Bool} (h : Befalls cwd tree (.isDir path) given after) :
    after = tree := by
  cases h <;> rfl

theorem befalls_read {given : Except OsFault ByteArray}
    (h : Befalls cwd tree (.read path) given after) : after = tree := by
  cases h <;> rfl

theorem befalls_entries {given : Except OsFault (List (FileName × FileKind))}
    (h : Befalls cwd tree (.entries path) given after) : after = tree := by
  cases h <;> rfl

section Changes

variable {given : Except OsFault Unit}

theorem befalls_makeDir (h : Befalls cwd tree (.makeDir path) given after) :
    (∃ fault, given = .error fault ∧ after = tree) ∨
      given = .ok () ∧ tree.makeDir cwd path.text = .ok after := by
  cases h with
  | served => exact changed_cases rfl
  | refused _ fault => exact .inl ⟨fault, rfl, rfl⟩

theorem befalls_rename (h : Befalls cwd tree (.rename path target) given after) :
    (∃ fault, given = .error fault ∧ after = tree) ∨
      given = .ok () ∧ tree.rename cwd path.text target.text = .ok after := by
  cases h with
  | served => exact changed_cases rfl
  | refused _ fault => exact .inl ⟨fault, rfl, rfl⟩

theorem befalls_remove (h : Befalls cwd tree (.remove path) given after) :
    (∃ fault, given = .error fault ∧ after = tree) ∨
      given = .ok () ∧ tree.remove cwd path.text = .ok after := by
  cases h with
  | served => exact changed_cases rfl
  | refused _ fault => exact .inl ⟨fault, rfl, rfl⟩

/-- A write that fails can have left something. -/
theorem befalls_write {content : ByteArray}
    (h : Befalls cwd tree (.write path content) given after) :
    (∃ fault, given = .error fault ∧
        (after = tree ∨ ∃ part, tree.write cwd path.text part = .ok after)) ∨
      given = .ok () ∧ tree.write cwd path.text content = .ok after := by
  cases h with
  | served =>
      rcases changed_cases (rfl : answer.changed tree (tree.write cwd path.text content) =
          ((answer cwd (.write path content) tree).1, (answer cwd (.write path content) tree).2))
        with ⟨fault, hfault, hafter⟩ | hok
      · exact .inl ⟨fault, hfault, .inl hafter⟩
      · exact .inr hok
  | refused _ fault => exact .inl ⟨fault, rfl, .inl rfl⟩
  | brokeOff fault begun => exact .inl ⟨fault, rfl, .inr ⟨_, begun⟩⟩

end Changes

/-! ## Whole courses -/

theorem Course.of_run {α : Type} {program : Program Files α} {value : α}
    (h : run cwd program tree = (value, after)) : Course cwd program tree (some value) after := by
  induction program generalizing tree with
  | done _ =>
      cases h
      exact .ended _ _
  | ask request next ih => exact .ask (.served request) (ih _ h)

theorem Course.of_run_bind {α β : Type} {program : Program Files α} {next : α → Program Files β}
    {value : α} {outcome : Option β} (hrun : run cwd program tree = (value, middle))
    (h : Course cwd (next value) middle outcome after) :
    Course cwd (program >>= next) tree outcome after := by
  induction program generalizing tree with
  | done _ =>
      cases hrun
      exact h
  | ask request next ih => exact .ask (.served request) (ih _ hrun)

/-- What holds in every phase of a program that keeps to the rules holds on every course, to its
end or to where it is cut off. -/
theorem Course.follows {α ρ : Type} {moves : Conduct Files ρ} {ends : α → ρ → Prop}
    {program : Program Files α} {phase : ρ} {outcome : Option α} (stands : ρ → FileTree → Prop)
    (hstep : ∀ {phase request given later tree middle}, moves phase request given later →
      stands phase tree → Befalls cwd tree request given middle → stands later middle)
    (h : Course cwd program tree outcome after) (hfollows : program.Follows moves ends phase)
    (hstands : stands phase tree) :
    ∃ later, stands later after ∧ ∀ value, outcome = some value → ends value later := by
  induction h generalizing phase with
  | cutOff program tree => exact ⟨phase, hstands, nofun⟩
  | ended value tree =>
      refine ⟨phase, hstands, ?_⟩
      rintro _ ⟨⟩
      exact Program.follows_done.1 hfollows
  | @ask _ _ given _ _ _ _ befalls _ ih =>
      obtain ⟨later, hmove, hnext⟩ := hfollows.step given
      exact ih hnext (hstep hmove hstands befalls)

end FileTree

end Handoff
