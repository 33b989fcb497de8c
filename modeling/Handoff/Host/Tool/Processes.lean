import Handoff.Host.Shell.State
import Handoff.Host.Tool.Basic
/-!
# Running other programs

The tools that wait, that show or change the settings of a process, and that run other
programs: once, with a time limit, or for what they read.
-/

namespace Handoff.Tool

/-- The nanoseconds of a time such as `0.5` or `2m`. -/
def nanosOf? (text : String) : Option Nat :=
  let chars := text.toList
  let (digits, unit) := match chars.getLast? with
    | some 's' => (chars.dropLast, 1)
    | some 'm' => (chars.dropLast, 60)
    | some 'h' => (chars.dropLast, 3600)
    | some 'd' => (chars.dropLast, 86400)
    | _ => (chars, 1)
  let whole := digits.takeWhile Char.isDigit
  let rest := digits.drop whole.length
  let fraction := match rest with
    | '.' :: rest => rest.takeWhile Char.isDigit
    | _ => []
  let rest := match rest with
    | '.' :: rest => rest.drop fraction.length
    | rest => rest
  let number := (natural? (String.ofList (whole ++ fraction.take 9))).getD 0
  let nanos := number * Nat.pow 10 (9 - (fraction.take 9).length) * unit
  if whole.isEmpty && fraction.isEmpty then
    if ["inf", "infinity"].contains (String.ofList (digits.map Char.toLower)) then
      some 1000000000000000000
    else none
  else
    match rest with
    | [] => some nanos
    | e :: sign :: power =>
        if e != 'e' && e != 'E' then none
        else
          let (down, power) := if sign == '-' then (true, power)
            else if sign == '+' then (false, power) else (false, sign :: power)
          (natural? (String.ofList power)).map fun power =>
            if down then nanos / Nat.pow 10 (min power 30) else nanos * Nat.pow 10 (min power 9)
    | _ => none

def sleepThrough : Nat → Nat → Program Machine Unit
  | 0, _ => return
  | fuel + 1, nanos => do
      match ← Machine.call (.sleep nanos) with
      | none => return
      | some left => sleepThrough fuel left

def pause : Tool := fun call => do
  let (_, operands) ← options call { plain := "" }
  if operands.isEmpty then missingOperand call
  let bad := operands.filter fun text => (nanosOf? text).isNone
  match bad.reverse with
  | [] => do
      sleepThrough readings ((operands.filterMap nanosOf?).foldl (· + ·) 0)
      return success
  | last :: others => do
      others.reverse.forM fun text => complain call ("invalid time interval " ++ quoted text)
      misuse call 1 ("invalid time interval " ++ quoted last)

def failureCode (fault : OsFault) : Nat :=
  if fault = .notFound then 127 else 126

def becomeOther (call : ToolCall) (complaint : String → String) (argv : List String)
    (env : StringMap String) : Program Machine ExitStatus := do
  let fault ← Launch.execute call.launch argv env
  complain call (complaint (argv.head?.getD "") ++ ": " ++ fault.reason)
  return exited (failureCode fault)

/-- Runs another program as a process of its own; the answer is its number. -/
def spawn (call : ToolCall) (complaint : String → String) (argv : List String) :
    Program Machine Nat := do
  let process ← Machine.call .fork
  if process = 0 then
    Machine.exit (← becomeOther call complaint argv call.env)
  else return process

def await (process : Nat) : Program Machine ExitStatus := do
  match ← Machine.call (.wait (some process) .endless) with
  | .ended _ status => return status
  | _ => return success

def runOther (call : ToolCall) (complaint : String → String) (argv : List String) :
    Program Machine ExitStatus := do
  await (← spawn call complaint argv)

def takeSettings : List String → StringMap String → List String × StringMap String
  | [], env => ([], env)
  | text :: rest, env =>
      let name := text.toList.takeWhile (· != '=')
      if name.length < text.length then
        takeSettings rest
          (env.insert (String.ofList name) (String.ofList (text.toList.drop (name.length + 1))))
      else (text :: rest, env)

def printSettings (call : ToolCall) (ending : String) (env : StringMap String) :
    Program Machine Unit :=
  print call (String.join ((Launch.settingTexts env).map (· ++ ending)))

def withSettings : Tool := fun call => do
  let (given, operands) ← options call
    { plain := "i0v", valued := "uCS", anywhere := false, code := 125
      long := [("ignore-environment", 'i'), ("unset", 'u'), ("chdir", 'C'), ("null", '0'),
        ("split-string", 'S')] }
  let (dash, operands) := match operands with
    | "-" :: rest => (true, rest)
    | rest => (false, rest)
  let split := (valueOf? given 'S').map fun text => (text.splitOn " ").filter (· != "")
  let operands := split.getD [] ++ operands
  let env := if has given 'i' || dash then StringMap.empty else call.env
  let env := given.foldl
    (fun env (letter, name) => if letter == 'u' then env.erase name else env) env
  let (argv, env) := takeSettings operands env
  match valueOf? given 'C' with
  | some directory =>
      match ← Machine.call (.changeDir (Text.unspelled directory)) with
      | .ok () => pure ()
      | .error fault =>
          refuse call 125 ("cannot change directory to " ++ quoted directory ++ ": " ++ fault.reason)
  | none => pure ()
  if argv.isEmpty then
    printSettings call (if has given '0' then "\x00" else "\n") env
    return success
  else
    -- The search goes along the path that the new settings give.
    becomeOther call quoted argv env

def showSettings : Tool := fun call => do
  let (given, operands) ← options call { plain := "0", code := 2, anywhere := false }
  let ending := if has given '0' then "\x00" else "\n"
  if operands.isEmpty then
    printSettings call ending call.env
    return success
  else
    let found := operands.map call.env.get?
    print call (String.join ((found.filterMap id).map (· ++ ending)))
    return codeOf (found.all Option.isSome)

structure TimeLimit where
  nanos : Nat
  /-- The signal that is sent when the time is over. -/
  signal : Nat
  /-- After how much more time the process is killed. -/
  killAfter : Option Nat
  foreground : Bool
  /-- Whether the code of the other program counts all the same. -/
  preserves : Bool

def sendAll (limit : TimeLimit) (process signal : Nat) : Program Machine Unit := do
  -- The signal reaches this process too, which is not to end by it.
  if signal != SignalNumber.kill then
    Machine.call (.setDisposition signal .ignored)
  let _ ← Machine.call (.signal (.process process) signal)
  if !limit.foreground then
    let _ ← Machine.call (.signal .ownGroup signal)
    if signal != SignalNumber.kill && signal != SignalNumber.goOn then
      let _ ← Machine.call (.signal (.process process) SignalNumber.goOn)
      let _ ← Machine.call (.signal .ownGroup SignalNumber.goOn)

def watchOver (limit : TimeLimit) (process : Nat) :
    Nat → Option Nat → Bool → Nat → Program Machine (ExitStatus × Bool)
  | 0, _, late, _ => return (success, late)
  | fuel + 1, span, late, signal => do
      let patience : Patience := match span with
        | some nanos => .upTo nanos
        | none => .endless
      match ← Machine.call (.wait (some process) patience) with
      | .ended _ status => return (status, late)
      | _ => do
          sendAll limit process signal
          match limit.killAfter, late with
          | some more, false =>
              watchOver limit process fuel (some more) true SignalNumber.kill
          | _, _ => watchOver limit process fuel none true signal

def limitTime : Tool := fun call => do
  let (given, operands) ← options call
    { plain := "vfp", valued := "sk", anywhere := false, code := 125
      long := [("signal", 's'), ("kill-after", 'k'), ("foreground", 'f'),
        ("preserve-status", 'p'), ("verbose", 'v')] }
  let spanOf (text : String) : Program Machine Nat :=
    match nanosOf? text with
    | some nanos => return nanos
    | none => misuse call 125 ("invalid time interval " ++ quoted text)
  let killAfter ← match valueOf? given 'k' with
    | some text => do pure (some (← spanOf text))
    | none => pure none
  let signal ← match valueOf? given 's' with
    | none => pure SignalNumber.terminate
    | some text =>
        let name := if text.startsWith "SIG" then (text.drop 3).toString else text
        match Shell.signalNumber? name with
        | some signal => pure signal
        | none => misuse call 125 (quoted text ++ ": invalid signal")
  match operands with
  | time :: program :: arguments => do
      let limit : TimeLimit :=
        { nanos := ← spanOf time, signal, killAfter, foreground := has given 'f'
          preserves := has given 'p' }
      if !limit.foreground then Machine.call .leadGroup
      let process ← spawn call (fun name => "failed to run command " ++ quoted name)
        (program :: arguments)
      let span := if limit.nanos = 0 then none else some limit.nanos
      let (status, late) ← watchOver limit process 4 span false signal
      match status with
      | .exited code => return if late && !limit.preserves then exited 124 else .exited code
      | .signalled number =>
          if late && number != SignalNumber.kill then
            return if limit.preserves then exited (128 + number) else exited 124
          else return .signalled number
  | _ => do
      remark (helpHint call ++ "\n")
      return exited 125

def ignoreHangUp : Tool := fun call => do
  let (_, operands) ← options call { plain := "", anywhere := false, code := 125 }
  if operands.isEmpty then misuse call 125 "missing operand"
  Machine.call (.setDisposition 1 .ignored)
  becomeOther call (fun name => "failed to run command " ++ quoted name) operands call.env

/-- The arguments after `-5`, the short form of an adjustment. -/
def afterAdjustment (arguments : List String) : List String :=
  match arguments with
  | first :: rest =>
      match first.toList with
      | '-' :: digits => if natural? (String.ofList digits) |>.isSome then rest else arguments
      | _ => arguments
  | [] => []

def runNicely : Tool := fun call => do
  let (given, operands) ← options { call with arguments := afterAdjustment call.arguments }
    { plain := "", valued := "n", long := [("adjustment", 'n')], anywhere := false, code := 125 }
  match valueOf? given 'n' with
  | some text =>
      let digits := text.toList.dropWhile fun c => c == '-' || c == '+'
      if (natural? (String.ofList digits)).isNone then
        refuse call 125 ("invalid adjustment " ++ quoted text)
  | none => pure ()
  if operands.isEmpty then
    print call "0\n"
    return success
  else becomeOther call quoted operands call.env

def runBuffered : Tool := fun call => do
  let (_, operands) ← options call { plain := "", valued := "ioe", anywhere := false, code := 125 }
  if operands.isEmpty then misuse call 125 "missing operand"
  becomeOther call (fun name => "failed to run command " ++ quoted name) operands call.env

def runApart : Tool := fun call => do
  let (given, operands) ← options call
    { plain := "cfw", anywhere := false, long := [("wait", 'w'), ("fork", 'f')] }
  if operands.isEmpty then misuse call 1 "no command specified"
  let complaint (name : String) := "failed to execute " ++ name
  let (process, _) ← Machine.call .identify
  let leads ← Machine.call (.signal (.group process) 0)
  let goOn : Program Machine ExitStatus := do
    Machine.call .leadGroup
    becomeOther call complaint operands call.env
  match leads with
  | .error _ => if has given 'f' then apart goOn (has given 'w') else goOn
  | .ok () => apart goOn (has given 'w')
where
  /-- Goes on in a process of its own. -/
  apart (goOn : Program Machine ExitStatus) (waits : Bool) : Program Machine ExitStatus := do
    let child ← Machine.call .fork
    if child = 0 then goOn
    else if waits then await child
    else return success

def sendSignals : Tool := fun call => do
  let (signal, targets) : Option Nat × List String := match call.arguments with
    | "-s" :: name :: rest => (Shell.signalNumber? name, rest)
    | first :: rest =>
        match first.toList with
        | '-' :: name =>
            let name := String.ofList name
            (Shell.signalNumber? (if name.startsWith "SIG" then (name.drop 3).toString else name),
              rest)
        | _ => (some SignalNumber.terminate, first :: rest)
    | [] => (some SignalNumber.terminate, [])
  let targets := if targets.head? = some "--" then targets.tail else targets
  match signal with
  | none => refuse call 1 ("invalid argument " ++
      ((call.arguments.head?.getD "").drop 1).toString)
  | some signal =>
      let one (text : String) : Program Machine Bool := do
        let target : Option SignalTarget := match text.toList with
          | '-' :: digits => (natural? (String.ofList digits)).map .group
          | _ => (natural? text).map fun n => if n = 0 then .ownGroup else .process n
        match target with
        | none => do
            complain call ("failed to parse argument: " ++ quoted text)
            return false
        | some target =>
            match ← Machine.call (.signal target signal) with
            | .ok () => return true
            | .error fault => do
                complain call ("(" ++ text ++ "): " ++ fault.reason)
                return false
      let oks ← targets.mapM one
      return codeOf (!targets.isEmpty && oks.all id)

/-- How arguments are read from the input. -/
structure ArgumentSplit where
  /-- The byte that ends an argument, when quotes mean nothing. -/
  separator : Option Char
  /-- Whether every line is one argument. -/
  byLine : Bool

structure WordReading where
  /-- The words so far, each with the number of its line; the last comes first. -/
  words : List (Nat × String)
  current : Option String
  quote : Option Char
  escaped : Bool
  line : Nat

namespace WordReading

def add (reading : WordReading) (c : Char) : WordReading :=
  { reading with current := some (reading.current.getD "" |>.push c), escaped := false }

def close (reading : WordReading) : WordReading :=
  match reading.current with
  | some word =>
      { reading with words := (reading.line, word) :: reading.words, current := none }
  | none => reading

def step (byLine : Bool) (reading : WordReading) (c : Char) : WordReading :=
  if reading.escaped then reading.add c
  else
    match reading.quote with
    | some quote => if c == quote then { reading with quote := none } else reading.add c
    | none =>
        if c == '\\' then { reading with escaped := true, current := some (reading.current.getD "") }
        else if c == '"' || c == '\'' then
          { reading with quote := some c, current := some (reading.current.getD "") }
        else if c == '\n' then
          let closed := reading.close
          { closed with line := closed.line + 1 }
        else if (c == ' ' || c == '\t') && (!byLine || reading.current.isNone) then reading.close
        else reading.add c

end WordReading

/-- The arguments in a text, each with the number of its line, and why there are no more of
them if the text ends inside quotes. -/
def argumentsIn (split : ArgumentSplit) (text : String) :
    List (Nat × String) × Option String :=
  match split.separator with
  | some separator =>
      let parts := text.splitOn (String.singleton separator)
      let parts := if parts.getLast? = some "" then parts.dropLast else parts
      (parts.zipIdx.map fun (part, line) => (line, part), none)
  | none =>
      let last := (text.toList.foldl (WordReading.step split.byLine)
        ⟨[], none, none, false, 0⟩)
      match last.quote with
      | some quote =>
          (last.words.reverse,
            some ("unmatched " ++ (if quote == '"' then "double" else "single") ++
              " quote; by default quotes are special to xargs unless you use the -0 option"))
      | none => (last.close.words.reverse, none)

/-- The list in pieces of at most `size`. -/
def pieces {α : Type} (size : Nat) : Nat → List α → List (List α)
  | 0, _ => []
  | _, [] => []
  | fuel + 1, items => items.take size :: pieces size fuel (items.drop size)

/-- The words of every `count` lines. -/
def byLines (count : Nat) (words : List (Nat × String)) : List (List (Nat × String)) :=
  let lines := (words.map Prod.fst).eraseDups
  (pieces count lines.length lines).map fun chosen =>
    words.filter fun e => chosen.contains e.1

/-- Runs programs one after the other; the code tells what went wrong. -/
def runEach (call : ToolCall) (talks : Bool) : List (List String) → Nat →
    Program Machine Nat
  | [], code => return code
  | argv :: rest, code => do
      let name := argv.head?.getD ""
      if talks then remark (" ".intercalate argv ++ "\n")
      match ← runOther call id argv with
      | .signalled signal => do
          complain call (name ++ ": terminated by signal " ++ toString signal)
          return 125
      | .exited status =>
          if status = 0 then runEach call talks rest code
          else if status = 255 then do
            complain call (name ++ ": exited with status 255; aborting")
            return 124
          else if status = 126 || status = 127 then return status.toNat
          else runEach call talks rest 123

def runForWords : Tool := fun call => do
  let (given, operands) ← options call
    { plain := "0rtpxio", valued := "nIdLPsEa", anywhere := false
      long := [("null", '0'), ("no-run-if-empty", 'r'), ("max-args", 'n'), ("max-lines", 'L'),
        ("delimiter", 'd'), ("verbose", 't'), ("max-procs", 'P'), ("arg-file", 'a')] }
  let numberOf (letter : Char) : Program Machine (Option Nat) :=
    match valueOf? given letter with
    | none => return none
    | some text =>
        match natural? text with
        | some 0 =>
            misuse call 1 ("value 0 for -" ++ String.singleton letter ++ " option should be >= 1")
        | some n => return some n
        | none =>
            misuse call 1 ("invalid number " ++ quoted text ++ " for -" ++ String.singleton letter ++
              " option")
  let count ← numberOf 'n'
  let lines ← numberOf 'L'
  let mark := if has given 'i' then some "\x7b\x7d" else valueOf? given 'I'
  let separator := if has given '0' then some '\x00' else
    (valueOf? given 'd').map fun text => match text with
      | "\\n" => '\n'
      | "\\t" => '\t'
      | "\\0" => '\x00'
      | text => text.toList.head?.getD '\n'
  let input ← match valueOf? given 'a' with
    | some path => readFile path
    | none => drain 0 readings ByteArray.empty
  let text ← match input with
    | .ok content => pure (Text.byteText content)
    | .error fault => refuse call 1 ("Cannot open input file: " ++ fault.reason)
  let (words, complaint) := argumentsIn { separator, byLine := mark.isSome } text
  let words := match valueOf? given 'E' with
    | some ending => words.takeWhile fun e => e.2 != ending
    | none => words
  let base := if operands.isEmpty then ["echo"] else operands
  let runs : List (List String) := match mark with
    | some mark => words.map fun e => base.map fun part => part.replace mark e.2
    | none =>
        let groups := match count, lines with
          | some n, _ => pieces n words.length words
          | none, some n => byLines n words
          | none, none => if words.isEmpty then [] else [words]
        let groups := if groups.isEmpty && !has given 'r' && complaint.isNone then [[]] else groups
        groups.map fun group => base ++ group.map Prod.snd
  let code ← runEach call (has given 't') runs 0
  match complaint with
  | some complaint => refuse call 1 complaint
  | none => return exited code

end Handoff.Tool
