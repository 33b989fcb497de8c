import Handoff.Host.Shell.Expansion
/-!
# Redirections

Lets descriptors lead elsewhere while a command is run, and back afterwards.
-/

namespace Handoff.Shell

inductive RedirectAction where
  | openFile (path : String) (mode : OpenMode) (creates : Bool)
  /-- A file that must not be overwritten if it is a regular one. -/
  | protectedFile (path : String)
  | document (number : Nat)
  | duplicate (source : Nat)
  | close

/-- Where the descriptors that were redirected have been kept; `none` if they led
nowhere. -/
abbrev KeptDescriptors := List (Nat × Option Nat)

namespace Redirection

def firstSpare : Nat := 10

def documentMax : Nat := 4096

def resolve (substitute : Script → ShellM String) : Redirect → ShellM (Nat × RedirectAction)
  | .to descriptor kind target => do
      let file (mode : OpenMode) (creates : Bool) : ShellM (Nat × RedirectAction) := do
        return (descriptor, .openFile (← Expansion.text substitute .text target) mode creates)
      let duplicate : ShellM (Nat × RedirectAction) := do
        match (← Expansion.text substitute .text target).toList with
        | ['-'] => return (descriptor, .close)
        | [digit] =>
            if digit.isDigit then return (descriptor, .duplicate (digit.toNat - '0'.toNat))
            else fail "Syntax error: Bad fd number"
        | _ => fail "Syntax error: Bad fd number"
      match kind with
      | .read => file .read false
      | .write =>
          if (← get).hasOption 'C' then
            return (descriptor, .protectedFile (← Expansion.text substitute .text target))
          else file .replace true
      | .clobber => file .replace true
      | .append => file .append true
      | .readWrite => file .both true
      | .duplicateIn => duplicate
      | .duplicateOut => duplicate
      | .document number => return (descriptor, .document number)

def resolveAll (substitute : Script → ShellM String) :
    List Redirect → ShellM (List (Nat × RedirectAction))
  | [] => return []
  | first :: rest => do
      let action ← resolve substitute first
      return action :: (← resolveAll substitute rest)

def reasonOf (creates : Bool) : OsFault → String
  | .notFound => if creates then "Directory nonexistent" else "No such file"
  | .notDirectory => if creates then "Directory nonexistent" else "No such file"
  | fault => fault.reason

def openAt (path : String) (mode : OpenMode) (creates : Bool) : ShellM Nat := do
  match ← call (.openFile (Text.unspelled path) mode) with
  | .ok descriptor => return descriptor
  | .error fault =>
      fail ("cannot " ++ (if creates then "create " else "open ") ++ path ++ ": " ++
        reasonOf creates fault)

def openDocument (substitute : Script → ShellM String) (number : Nat) : ShellM Nat := do
  let parts := ((← get).documents.lookup number).getD []
  let text := textOf (← Expansion.word substitute .text false false parts)
  let (out, into) ← call .makePipe
  let content := Text.bytesOf text
  if content.size ≤ documentMax then
    unless content.isEmpty do
      let _ ← call (.write into content)
  else
    let process ← call .fork
    if process = 0 then
      call (.close out)
      let _ ← call (.write into content)
      machine (Machine.exit (.exited 0))
  call (.close into)
  return out

/-- Keeps what a descriptor leads to, unless that has been done. -/
def keep (kept : KeptDescriptors) (descriptor : Nat) : ShellM KeptDescriptors := do
  if (kept.lookup descriptor).isSome then return kept
  else
    match ← call (.duplicate descriptor firstSpare true) with
    | .ok spare => return (descriptor, some spare) :: kept
    | .error _ => return (descriptor, none) :: kept

/-- Lets `descriptor` lead where the newly opened `source` does. -/
def move (source descriptor : Nat) : ShellM Unit := do
  if source != descriptor then
    let _ ← call (.duplicateTo source descriptor)
    call (.close source)

/-- Carries out one redirection.  With `keeps`, what the descriptor led to is kept.  The
flag says whether it could be carried out. -/
def perform (substitute : Script → ShellM String) (keeps : Bool) (kept : KeptDescriptors)
    (descriptor : Nat) (action : RedirectAction) : ShellM (KeptDescriptors × Bool) := do
  let aside (source : Option Nat) : ShellM KeptDescriptors :=
    if !keeps then return kept
    else if source = some descriptor && (kept.lookup descriptor).isNone then
      return (descriptor, none) :: kept
    else keep kept descriptor
  let install (source : Nat) : ShellM (KeptDescriptors × Bool) := do
    let kept ← aside (some source)
    move source descriptor
    return (kept, true)
  match action with
  | .openFile path mode creates => do install (← openAt path mode creates)
  | .protectedFile path => do
      match ← call (.inspect (Text.unspelled path) true) with
      | .ok (_, .file _ _ _) => fail ("cannot create " ++ path ++ ": File exists")
      | _ => install (← openAt path .replace true)
  | .document number => do install (← openDocument substitute number)
  | .duplicate source =>
      if source = descriptor then return (kept, true)
      else do
        let kept ← aside none
        match ← call (.duplicateTo source descriptor) with
        | .ok () => return (kept, true)
        | .error fault => do
            complain (toString source ++ ": " ++ fault.reason)
            setStatus failure
            return (kept, false)
  | .close => do
      let kept ← aside none
      call (.close descriptor)
      return (kept, true)

/-- Lets the descriptors lead again where they did. -/
def restore : KeptDescriptors → ShellM Unit
  | [] => return
  | (descriptor, spare) :: rest => do
      match spare with
      | some spare => do
          let _ ← call (.duplicateTo spare descriptor)
          call (.close spare)
      | none => call (.close descriptor)
      restore rest

def forget : KeptDescriptors → ShellM Unit
  | [] => return
  | (_, spare) :: rest => do
      match spare with
      | some spare => call (.close spare)
      | none => pure ()
      forget rest

/-- Carries out redirections whose targets have been worked out.  The flag says whether
all could be. -/
def performAll (substitute : Script → ShellM String) (keeps : Bool) :
    List (Nat × RedirectAction) → KeptDescriptors → ShellM (KeptDescriptors × Bool)
  | [], kept => return (kept, true)
  | (descriptor, action) :: rest, kept => do
      match ← attempt (perform substitute keeps kept descriptor action) with
      | .ok (kept, true) => performAll substitute keeps rest kept
      | .ok (kept, false) => return (kept, false)
      | .error .failed => return (kept, false)
      | .error leave => throw leave

end Redirection

end Handoff.Shell
