import Handoff.Host.Regex
import Handoff.Host.Tool.LineInput
/-!
# Searching

Shows the lines of files in which an expression is found.
-/

namespace Handoff.Tool

namespace Search

structure Plan where
  patterns : List Regex
  given : List GivenOption
  folded : Bool
  /-- Whether lines are shown under the names of their files. -/
  named : Bool
  /-- How many lines of each file are enough. -/
  most : Option Nat
  before : Nat
  after : Nat

namespace Plan

def has (plan : Plan) (letter : Char) : Bool :=
  Tool.has plan.given letter

def selects (plan : Plan) (text : String) : Bool :=
  let subject : Regex.Subject := { chars := text.toList.toArray, folded := plan.folded }
  (plan.patterns.any fun regex => regex.test subject) != plan.has 'v'

def parts (plan : Plan) (subject : Regex.Subject) : Nat → Nat → List String
  | 0, _ => []
  | fuel + 1, start =>
      let found := plan.patterns.filterMap fun regex => regex.search subject start
      let first := found.foldl
        (fun (best : Option Regex.Match) found =>
          match best with
          | some known =>
              if found.start < known.start ||
                  (found.start == known.start && known.stop < found.stop) then some found
              else best
          | none => some found)
        none
      match first with
      | none => []
      | some found =>
          let text := String.ofList (subject.chars.extract found.start found.stop).toList
          if found.stop = found.start then plan.parts subject fuel (found.stop + 1)
          else text :: plan.parts subject fuel found.stop

end Plan

structure Progress where
  number : Nat
  selected : Nat
  /-- The lines before this one that have not been shown. -/
  recent : List (Nat × String)
  /-- How many lines after a selected one are still to be shown. -/
  owed : Nat
  /-- The number of the line that was shown last. -/
  shown : Option Nat

def label (plan : Plan) (name : String) (number : Nat) (mark : String) : String :=
  (if plan.named then name ++ mark else "") ++
    (if plan.has 'n' then toString number ++ mark else "")

def reveal (call : ToolCall) (plan : Plan) (name mark : String) (progress : Progress)
    (number : Nat) (text : String) : Program Machine Progress := do
  let gap := (plan.before != 0 || plan.after != 0) &&
    progress.shown.any fun last => last + 1 < number
  print call ((if gap then "--\n" else "") ++ label plan name number mark ++ text ++ "\n")
  return { progress with shown := some number }

def isSilent (plan : Plan) : Bool :=
  plan.has 'q' || plan.has 'c' || plan.has 'l' || plan.has 'L'

def searchLines (call : ToolCall) (plan : Plan)
    (complaint : String → OsFault → Program Machine Unit) (name : String) :
    Nat → LineInput → Progress → Program Machine (Progress × LineInput)
  | 0, input, progress => return (progress, input)
  | fuel + 1, input, progress => do
      match ← input.lineOfFile complaint readings with
      | (none, input) => return (progress, input)
      | (some line, input) => do
          let number := progress.number + 1
          let progress := { progress with number }
          let enough := plan.most.any (· ≤ progress.selected)
          if !enough && plan.selects line.text then
            let progress := { progress with selected := progress.selected + 1 }
            if plan.has 'q' || plan.has 'l' || plan.has 'L' then return (progress, input)
            else if isSilent plan then searchLines call plan complaint name fuel input progress
            else if plan.has 'o' then
              unless plan.has 'v' do
                let subject : Regex.Subject :=
                  { chars := line.text.toList.toArray, folded := plan.folded }
                for part in plan.parts subject (line.text.length + 2) 0 do
                  print call (label plan name number ":" ++ part ++ "\n")
              searchLines call plan complaint name fuel input progress
            else
              let mut after := progress
              for (earlier, text) in progress.recent.reverse do
                after ← reveal call plan name "-" after earlier text
              after ← reveal call plan name ":" after number line.text
              searchLines call plan complaint name fuel input
                { after with recent := [], owed := plan.after }
          else if 0 < progress.owed then
            let progress ← reveal call plan name "-" progress number line.text
            searchLines call plan complaint name fuel input
              { progress with owed := progress.owed - 1 }
          else if enough then return (progress, input)
          else
            let recent := ((number, line.text) :: progress.recent).take plan.before
            searchLines call plan complaint name fuel input { progress with recent }

/-- Searches the files; whether anything was found, and whether all went well. -/
def searchFiles (call : ToolCall) (plan : Plan) :
    List String → Bool → Bool → Program Machine (Bool × Bool)
  | [], found, ok => return (found, ok)
  | path :: rest, found, ok => do
      let complaint (path : String) (fault : OsFault) : Program Machine Unit :=
        if has plan.given 's' then return
        else complain call (path ++ ": " ++ fault.reason)
      match ← inspect path true with
      | .ok (_, .directory) =>
          if path = "-" then pure ()
          else do
            unless has plan.given 's' do complain call (path ++ ": Is a directory")
      | _ => pure ()
      let isDirectory := match ← inspect path true with
        | .ok (_, .directory) => path != "-"
        | _ => false
      if isDirectory then searchFiles call plan rest found ok
      else
        match ← (LineInput.ofFiles [path]).openNext complaint 2 with
        | (false, _) => searchFiles call plan rest found false
        | (true, input) => do
            let name := if path = "-" then "(standard input)" else path
            let (progress, input) ← searchLines call plan complaint name readings input
              { number := 0, selected := 0, recent := [], owed := 0, shown := none }
            match input.current with
            | some descriptor => if descriptor != 0 then Machine.call (.close descriptor)
            | none => pure ()
            let any := progress.selected != 0
            if plan.has 'q' then
              if any then return (true, ok)
            else if plan.has 'l' then
              if any then print call (name ++ "\n")
            else if plan.has 'L' then
              if !any then print call (name ++ "\n")
            else if plan.has 'c' then
              print call ((if plan.named then name ++ ":" else "") ++
                toString progress.selected ++ "\n")
            searchFiles call plan rest (found || any) (ok && !input.failed)

def filesBelow : Nat → String → Program Machine (List String)
  | 0, _ => return []
  | fuel + 1, path => do
      match ← inspect path false with
      | .ok (location, .directory) => do
          let mut all := []
          for name in ← namesIn location do all := all ++ (← filesBelow fuel (under path name))
          return all
      | .ok (_, .link _) => return []
      | .ok _ => return [path]
      | .error _ => return [path]

def table : OptionTable where
  plain := "EFGivclLnqowxshHrRazU"
  valued := "efmABC"
  long := [("extended-regexp", 'E'), ("fixed-strings", 'F'), ("basic-regexp", 'G'),
    ("ignore-case", 'i'), ("invert-match", 'v'), ("count", 'c'), ("files-with-matches", 'l'),
    ("files-without-match", 'L'), ("line-number", 'n'), ("quiet", 'q'), ("silent", 'q'),
    ("only-matching", 'o'), ("word-regexp", 'w'), ("line-regexp", 'x'), ("no-messages", 's'),
    ("no-filename", 'h'), ("with-filename", 'H'), ("recursive", 'r'), ("regexp", 'e'),
    ("file", 'f'), ("max-count", 'm'), ("text", 'a')]
  code := 2

def patternsOf (call : ToolCall) (given : List GivenOption) (texts : List String) :
    Program Machine (List Regex) :=
  (texts.flatMap fun text => text.splitOn "\n").mapM fun text => do
    let regex ← if has given 'F' then pure (Regex.literal text.toList)
      else
        match Regex.ofText (has given 'E') text.toList with
        | .ok (regex, _) => pure regex
        | .error complaint => refuse call 2 complaint
    return if has given 'x' then regex.wholeLine else if has given 'w' then regex.wholeWord
      else regex

end Search

def search : Tool := fun call => do
  let (given, operands) ← options call Search.table
  let expressions := (given.filter fun e => e.1 == 'e').map Prod.snd
  let (listed, ok) ← readOperands call plainly ((given.filter fun e => e.1 == 'f').map Prod.snd)
  if !ok then return exited 2
  let texts := expressions ++ listed.map fun e =>
    "\n".intercalate (textLines e.2)
  let fromFile := has given 'f'
  let (texts, operands) ← match texts, operands with
    | [], text :: rest => if fromFile then pure ([], operands) else pure ([text], rest)
    | [], [] => do
        if fromFile then pure ([], [])
        else do
          remark ("Usage: " ++ call.name ++ " [OPTION]... PATTERNS [FILE]...\n" ++
            "Try '" ++ call.name ++ " --help' for more information.\n")
          Machine.exit (exited 2)
    | texts, operands => pure (texts, operands)
  let deep := has given 'r' || has given 'R'
  let number (letter : Char) : Nat :=
    (((valueOf? given letter).or (valueOf? given 'C')).bind natural?).getD 0
  let patterns ← Search.patternsOf call given texts
  let operands := if operands.isEmpty then [if deep then "." else "-"] else operands
  let files ← if deep then do
      pure (← operands.mapM fun path => do
        let files ← Search.filesBelow 1000 path
        return if path = "." && !(call.arguments.contains ".") then
          files.map fun file => (file.drop 2).toString else files).flatten
    else pure operands
  let plan : Search.Plan :=
    { patterns, given, folded := has given 'i'
      named := has given 'H' || (!has given 'h' && (1 < operands.length || deep))
      most := (valueOf? given 'm').bind natural?, before := number 'B', after := number 'A' }
  let (found, ok) ← Search.searchFiles call plan files false true
  let found := if plan.has 'L' && !plan.has 'q' then !found else found
  return exited (if plan.has 'q' && found then 0 else if !ok then 2 else if found then 0 else 1)

end Handoff.Tool
