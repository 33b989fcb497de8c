import Handoff.StringMap
import Handoff.Text.CharClass
import Handoff.Text.Utf8
/-!
# Commands, labels and records

An external command, the storage-safe label it is archived under, and the outcome
of running it.
-/

namespace Handoff

/-- One external command: its argument vector and its environment overrides.  An
empty vector runs nothing. -/
structure Command where
  argv : List String
  env : StringMap String

namespace Command

def display (command : Command) : String :=
  " ".intercalate command.argv

def isEmpty (command : Command) : Bool :=
  command.argv.isEmpty

end Command

/-- The name of the status entry, which shares the namespace of the labels. -/
def statusSegment : String := "status"

namespace CommandLabel

def accepts (text : String) : Bool :=
  text != "" && text != "." && text != ".." && text != statusSegment &&
    text.toList.all fun c => c != '/' && !Text.isControl c

def sanitize (c : Char) : Char :=
  if c = ' ' ∨ c = '/' ∨ c = '\\' ∨ Text.isControl c = true then '_' else c

/-- Renames the few names that may not stand as a label. -/
def repair (name : List Char) : List Char :=
  if name = [] then ['_']
  else if name = ['.'] then ['_']
  else if name = ['.', '.'] then ['_', '_']
  else if name = statusSegment.toList then name ++ ['_']
  else name

theorem sanitize_allowed (c : Char) :
    sanitize c ≠ '/' ∧ Text.isControl (sanitize c) = false := by
  unfold sanitize
  split
  · decide
  · next h =>
    rw [not_or, not_or, not_or] at h
    exact ⟨h.2.1, Bool.eq_false_iff.2 h.2.2.2⟩

theorem accepts_repair {name : List Char}
    (h : ∀ c ∈ name, c ≠ '/' ∧ Text.isControl c = false) :
    accepts (String.ofList (repair name)) = true := by
  unfold repair
  split
  · decide
  split
  · decide
  split
  · decide
  split
  · next hs => subst hs; decide
  · next h1 h2 h3 h4 =>
    have ne (t : String) (ht : name ≠ t.toList) : (String.ofList name != t) = true := by
      rw [bne_iff_ne]
      rintro rfl
      simp at ht
    simp only [accepts, Bool.and_eq_true, String.toList_ofList, List.all_eq_true]
    refine ⟨⟨⟨⟨ne "" h1, ne "." h2⟩, ne ".." h3⟩, ne statusSegment h4⟩, fun c hc => ?_⟩
    simp [(h c hc).1, (h c hc).2]

end CommandLabel

/-- The name of a command in the archive.  It is never the name of the status entry. -/
structure CommandLabel where
  text : String
  accepted : CommandLabel.accepts text = true
  deriving DecidableEq

namespace CommandLabel

def ofArgv : List String → Option CommandLabel
  | [] => none
  | argv =>
      some ⟨String.ofList (repair ((" ".intercalate argv).toList.map sanitize)),
        accepts_repair fun c hc => by
          obtain ⟨d, -, rfl⟩ := List.mem_map.1 hc
          exact sanitize_allowed d⟩

def ofText? (raw : String) : Option CommandLabel :=
  if h : accepts raw = true then some ⟨raw, h⟩ else none

theorem ofText?_text (label : CommandLabel) : ofText? label.text = some label := by
  simp [ofText?, label.accepted]

end CommandLabel

def Command.label (command : Command) : Option CommandLabel :=
  CommandLabel.ofArgv command.argv

/-- The outcome of one supervised command.  The streams are kept for failed commands
only. -/
structure ExecutionRecord where
  exitCode : Int32
  timedOut : Bool
  stdout : ByteArray
  stderr : ByteArray
  deriving DecidableEq

/-- A command that timed out failed, whatever it exited with. -/
def ExecutionRecord.failed (record : ExecutionRecord) : Bool :=
  record.exitCode != 0 || record.timedOut

end Handoff
