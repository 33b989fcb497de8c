import Handoff.Host.Tool.Basic
/-!
# Reading by lines

Files that are read one after the other, a line at a time and no further than the lines
that are asked for need.
-/

namespace Handoff.Tool

structure Line where
  text : String
  ended : Bool

structure LineInput where
  /-- The files that have not been opened. -/
  files : List String
  /-- The descriptor of the file that is read. -/
  current : Option Nat
  /-- The name of the file that was opened last. -/
  name : String
  /-- The lines that have been read but not taken. -/
  ready : List (List UInt8)
  /-- The start of a line whose end has not been read. -/
  begun : List UInt8
  /-- Whether a file could not be read. -/
  failed : Bool

namespace LineInput

def ofFiles (files : List String) : LineInput :=
  { files, current := none, name := "-", ready := [], begun := [], failed := false }

def lineOf (bytes : List UInt8) : Line :=
  let ended := bytes.getLast? == some 10
  { text := Text.byteText (ofBytes (if ended then bytes.dropLast else bytes)), ended }

/-- Opens the next file that can be opened; the flag says whether there is one. -/
def openNext (complaint : String → OsFault → Program Machine Unit) :
    Nat → LineInput → Program Machine (Bool × LineInput)
  | 0, input => return (false, input)
  | fuel + 1, input => do
      match input.files with
      | [] => return (false, input)
      | path :: files => do
          let opened ← if path = "-" then pure (Except.ok 0) else openFile path .read
          match opened with
          | .ok descriptor =>
              return (true, { input with files, current := some descriptor, name := path })
          | .error fault => do
              complaint path fault
              openNext complaint fuel { input with files, failed := true }

/-- The next line of the file that is read; at its end `none`, and the file is closed. -/
def lineOfFile (complaint : String → OsFault → Program Machine Unit) :
    Nat → LineInput → Program Machine (Option Line × LineInput)
  | 0, input => return (none, input)
  | fuel + 1, input => do
      match input.ready, input.current with
      | line :: rest, _ => return (some (lineOf line), { input with ready := rest })
      | [], none => return (none, input)
      | [], some descriptor => do
          match ← Machine.call (.read descriptor chunk) with
          | .error fault => do
              complaint input.name fault
              if descriptor != 0 then Machine.call (.close descriptor)
              return (none, { input with current := none, failed := true })
          | .ok content =>
              if !content.isEmpty then
                let lines := linesOf (ofBytes input.begun ++ content)
                let complete := lines.filter fun line => line.getLast? == some 10
                let begun := (lines.getLast?.filter fun line => line.getLast? != some 10).getD []
                lineOfFile complaint fuel { input with ready := complete, begun }
              else if !input.begun.isEmpty then
                return (some (lineOf input.begun), { input with begun := [] })
              else do
                if descriptor != 0 then Machine.call (.close descriptor)
                return (none, { input with current := none })

def next (complaint : String → OsFault → Program Machine Unit) :
    Nat → LineInput → Program Machine (Option Line × LineInput)
  | 0, input => return (none, input)
  | fuel + 1, input => do
      match input.current with
      | some _ => do
          match ← lineOfFile complaint readings input with
          | (some line, input) => return (some line, input)
          | (none, input) => next complaint fuel input
      | none => do
          match ← openNext complaint (input.files.length + 1) input with
          | (true, input) => next complaint fuel input
          | (false, input) => return (none, input)

end LineInput

end Handoff.Tool
