import Handoff.Host.Tool.Files
/-!
# Comparing files

The tools that tell in which lines two files differ.
-/

namespace Handoff.Tool

/-- The lines of two sorted lists side by side: those of the first one only, of the second
one only, and of both. -/
def sideBySide : Nat → List String → List String → List (Option String × Option String)
  | 0, _, _ => []
  | _, [], [] => []
  | fuel + 1, a :: as, [] => (some a, none) :: sideBySide fuel as []
  | fuel + 1, [], b :: bs => (none, some b) :: sideBySide fuel [] bs
  | fuel + 1, a :: as, b :: bs =>
      if a = b then (some a, some b) :: sideBySide fuel as bs
      else if a < b then (some a, none) :: sideBySide fuel as (b :: bs)
      else (none, some b) :: sideBySide fuel (a :: as) bs

def isSorted : List String → Bool
  | a :: b :: rest => !(b < a) && isSorted (b :: rest)
  | _ => true

def commonLines : Tool := fun call => do
  let (given, operands) ← options call { plain := "123z" }
  match operands with
  | [] => missingOperand call
  | [only] => misuse call 1 ("missing operand after " ++ quoted only)
  | [first, second] => do
      let (contents, ok) ← readOperands call plainly [first, second]
      if !ok then return exited 1
      let sides := contents.map fun e => textLines e.2
      let a := sides[0]?.getD []
      let b := sides[1]?.getD []
      let gap (letter : Char) : String := if has given letter then "" else "\t"
      for pair in sideBySide (a.length + b.length) a b do
        match pair with
        | (some line, none) => unless has given '1' do print call (line ++ "\n")
        | (none, some line) => unless has given '2' do print call (gap '1' ++ line ++ "\n")
        | (some line, some _) =>
            unless has given '3' do print call (gap '1' ++ gap '2' ++ line ++ "\n")
        | (none, none) => pure ()
      unless isSorted a do complain call "file 1 is not in sorted order"
      unless isSorted b do complain call "file 2 is not in sorted order"
      if isSorted a && isSorted b then return success
      else refuse call 1 "input is not in sorted order"
  | _ :: _ :: extra :: _ => misuse call 1 ("extra operand " ++ quoted extra)

namespace Difference

/-- A line of a file; the last one may lack its end. -/
abbrev Line := List UInt8

/-- One step from the first file to the second one. -/
inductive Edit where
  | keep (line : Line)
  | remove (line : Line)
  | insert (line : Line)

/-- For every rest of `a`, from the whole list to the empty one, how many lines it has in
common with every rest of `b`, in order. -/
def commonTable (a b : List Line) : List (List Nat) :=
  a.foldr
    (fun line table =>
      let below := table.head?.getD []
      row line b below :: table)
    [List.replicate (b.length + 1) 0]
where
  /-- The row of a line, given the row below it. -/
  row (line : Line) : List Line → List Nat → List Nat
    | [], _ => [0]
    | other :: rest, below =>
        let right := row line rest below.tail
        let diagonal := (below.tail.head?).getD 0
        let best := if line = other then diagonal + 1
          else max (below.head?.getD 0) (right.head?.getD 0)
        best :: right

/-- The shortest way from `a` to `b`; lines are removed before others are inserted. -/
def edits : Nat → List Line → List Line → List (List Nat) → List Edit
  | 0, _, _, _ => []
  | _, [], b, _ => b.map .insert
  | _, a, [], _ => a.map .remove
  | fuel + 1, x :: as, y :: bs, table =>
      let below := table.tail
      let skip (table : List (List Nat)) : List (List Nat) := table.map List.tail
      if x = y then .keep x :: edits fuel as bs (skip below)
      else
        let down := (below.head?.bind List.head?).getD 0
        let right := (table.head?.bind fun row => row.tail.head?).getD 0
        if right ≤ down then .remove x :: edits fuel as (y :: bs) below
        else .insert y :: edits fuel (x :: as) bs (skip table)

/-- A change: lines that are removed and lines that stand in their place, with how many
lines come before them in each of the files. -/
structure Hunk where
  oldBefore : Nat
  newBefore : Nat
  removed : List Line
  inserted : List Line

def hunks : List Edit → Nat → Nat → Option Hunk → List Hunk
  | [], _, _, current => current.toList
  | .keep _ :: rest, old, new, current =>
      current.toList ++ hunks rest (old + 1) (new + 1) none
  | .remove line :: rest, old, new, current =>
      let hunk := current.getD ⟨old, new, [], []⟩
      hunks rest (old + 1) new (some { hunk with removed := hunk.removed ++ [line] })
  | .insert line :: rest, old, new, current =>
      let hunk := current.getD ⟨old, new, [], []⟩
      hunks rest old (new + 1) (some { hunk with inserted := hunk.inserted ++ [line] })

/-- A range of lines, such as `3` or `3,5`. -/
def range (before count : Nat) : String :=
  if count = 0 then toString before
  else if count = 1 then toString (before + 1)
  else toString (before + 1) ++ "," ++ toString (before + count)

def marked (mark : String) (line : Line) : String :=
  if line.getLast? = some 10 then mark ++ Text.byteText (ofBytes line)
  else mark ++ Text.byteText (ofBytes line) ++ "\n\\ No newline at end of file\n"

def Hunk.text (hunk : Hunk) : String :=
  let letter := if hunk.inserted.isEmpty then "d" else if hunk.removed.isEmpty then "a" else "c"
  range hunk.oldBefore hunk.removed.length ++ letter ++
    range hunk.newBefore hunk.inserted.length ++ "\n" ++
    String.join (hunk.removed.map (marked "< ")) ++
    (if letter = "c" then "---\n" else "") ++
    String.join (hunk.inserted.map (marked "> "))

def groups (context : Nat) : List Hunk → List (List Hunk)
  | [] => []
  | hunk :: rest =>
      match groups context rest with
      | (next :: more) :: others =>
          if next.oldBefore ≤ hunk.oldBefore + hunk.removed.length + 2 * context then
            (hunk :: next :: more) :: others
          else [hunk] :: (next :: more) :: others
      | others => [hunk] :: others

def counted (before count : Nat) : String :=
  let start := if count = 0 then before else before + 1
  if count = 1 then toString start else toString start ++ "," ++ toString count

def body (old : List Line) : List Hunk → Nat → Nat → String
  | [], here, last => String.join (((old.drop here).take (last - here)).map (marked " "))
  | hunk :: rest, here, last =>
      String.join (((old.drop here).take (hunk.oldBefore - here)).map (marked " ")) ++
        String.join (hunk.removed.map (marked "-")) ++
        String.join (hunk.inserted.map (marked "+")) ++
        body old rest (hunk.oldBefore + hunk.removed.length) last

/-- Changes with `context` lines around them. -/
def unified (context : Nat) (old : List Line) (group : List Hunk) : String :=
  match group, group.getLast? with
  | first :: _, some last =>
      let start := first.oldBefore - context
      let lead := first.oldBefore - start
      let stop := min old.length (last.oldBefore + last.removed.length + context)
      let newStart := first.newBefore - lead
      let trail := stop - (last.oldBefore + last.removed.length)
      let newStop := last.newBefore + last.inserted.length + trail
      "@@ -" ++ counted start (stop - start) ++ " +" ++ counted newStart (newStop - newStart) ++
        " @@\n" ++ body old group start stop
  | _, _ => ""

def between (a b : List Line) : List Hunk :=
  -- What both begin with cannot differ.
  let same := (a.zip b).takeWhile fun (x, y) => x = y
  let count := same.length
  let as := a.drop count
  let bs := b.drop count
  hunks (edits (as.length + bs.length) as bs (commonTable as bs)) count count none

end Difference

open Difference in
def showDifferences : Tool := fun call => do
  let (given, operands) ← options call
    { plain := "qsuabBiNrwyetc", valued := "U", code := 2
      long := [("brief", 'q'), ("report-identical-files", 's'), ("unified", 'u')] }
  let complainTwice (text : String) : Program Machine ExitStatus := do
    complain call text
    refuse call 2 (helpHint call)
  match operands with
  | [] => complainTwice ("missing operand after " ++ quoted call.name)
  | [only] => complainTwice ("missing operand after " ++ quoted only)
  | [first, second] => do
      let place (path other : String) : Program Machine String := do
        if path != "-" && (← isDirectory path) && !(← isDirectory other) then
          return under path (lastPart other)
        else return path
      let a ← place first second
      let b ← place second first
      let (contents, ok) ← readOperands call plainly [a, b]
      if !ok then return exited 2
      let old := contents[0]?.map Prod.snd |>.getD ByteArray.empty
      let new := contents[1]?.map Prod.snd |>.getD ByteArray.empty
      if old == new then
        if has given 's' then
          print call ("Files " ++ a ++ " and " ++ b ++ " are identical\n")
        return success
      else if has given 'q' then
        print call ("Files " ++ a ++ " and " ++ b ++ " differ\n")
        return exited 1
      else
        let changes := between (linesOf old) (linesOf new)
        if has given 'u' || has given 'U' then
          let context := ((valueOf? given 'U').bind natural?).getD 3
          print call ("--- " ++ a ++ "\n+++ " ++ b ++ "\n")
          print call (String.join ((groups context changes).map (unified context (linesOf old))))
        else print call (String.join (changes.map Hunk.text))
        return exited 1
  | _ :: _ :: extra :: _ => complainTwice ("extra operand " ++ quoted extra)

end Handoff.Tool
