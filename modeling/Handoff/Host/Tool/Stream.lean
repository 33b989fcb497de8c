import Handoff.Host.Tool.Basic
/-!
# Streams

The tools that pass on what they read: whole, from one end, to several files or counted.
-/

namespace Handoff.Tool

def passOn (call : ToolCall) (descriptor : Nat) : Nat → Program Machine (Except OsFault Unit)
  | 0 => return .ok ()
  | fuel + 1 => do
      match ← Machine.call (.read descriptor chunk) with
      | .error fault => return .error fault
      | .ok content =>
          if content.isEmpty then return .ok ()
          else do
            emit call content
            passOn call descriptor fuel

def isOutput (descriptor : Nat) : Program Machine Bool := do
  match ← Machine.call (.identity descriptor), ← Machine.call (.identity 1) with
  | some input, some output => return input == output
  | _, _ => return false

/-- Passes on a file; a dash stands for the input. -/
def passFile (call : ToolCall) (path : String) : Program Machine (Except OsFault Unit) := do
  let opened ← if path = "-" then pure (Except.ok 0) else openFile path .read
  match opened with
  | .error fault => return .error fault
  | .ok descriptor => do
      if ← isOutput descriptor then
        match ← Machine.call (.read descriptor 1) with
        | .ok content =>
            if content.isEmpty then return .ok ()
            else return .error (.other "input file is output file")
        | .error fault => return .error fault
      else
        let result ← passOn call descriptor readings
        if path != "-" then Machine.call (.close descriptor)
        return result

def columned (width n : Nat) : String :=
  let digits := toString n
  String.ofList (List.replicate (width - digits.length) ' ') ++ digits

def markLines (options : List GivenOption) (content : ByteArray) : String :=
  let all := has options 'A'
  let mark (line : List UInt8) : String :=
    let ended := line.getLast? == some 10
    let text := Text.byteText (ofBytes (if ended then line.dropLast else line))
    let text := if all || has options 'T' then text.replace "\t" "^I" else text
    text ++ (if ended && (all || has options 'E') then "$" else "") ++ if ended then "\n" else ""
  let step (state : String × Nat × Bool) (line : List UInt8) : String × Nat × Bool :=
    let (text, number, wasBlank) := state
    let blank := line == [10]
    if has options 's' && blank && wasBlank then state
    else if (has options 'b' && !blank) || (has options 'n' && !has options 'b') then
      (text ++ columned 6 number ++ "\t" ++ mark line, number + 1, blank)
    else (text ++ mark line, number, blank)
  ((linesOf content).foldl step ("", 1, false)).1

def concatenate : Tool := fun call => do
  let (given, operands) ← options call { plain := "AbEnsTu", long := [("number", 'n')] }
  if given.all fun e => e.1 == 'u' then
    let ok ← forEach call plainly (passFile call) (orInput operands)
    return codeOf ok
  else
    let (contents, ok) ← readOperands call plainly (orInput operands)
    print call (markLines given (contents.foldl (fun all e => all ++ e.2) ByteArray.empty))
    return codeOf ok

structure Amount where
  inBytes : Bool
  count : Nat
  /-- Whether it is counted from the other end. -/
  reversed : Bool

/-- The number with a unit such as `1K`. -/
def sized? (text : String) : Option Nat :=
  let digits := text.toList.takeWhile Char.isDigit
  let unit := String.ofList (text.toList.drop digits.length)
  let factor : Option Nat := match unit with
    | "" => some 1
    | "b" => some 512
    | "kB" => some 1000
    | "K" => some 1024
    | "k" => some 1024
    | "KiB" => some 1024
    | "MB" => some 1000000
    | "M" => some 1048576
    | "G" => some 1073741824
    | _ => none
  match natural? (String.ofList digits), factor with
  | some n, some factor => some (n * factor)
  | _, _ => none

/-- The amount that an option asks for; `sign` counts from the other end. -/
def amountOf (call : ToolCall) (sign : Char) (inBytes : Bool) (text : String) :
    Program Machine Amount := do
  let (reversed, digits) := match text.toList with
    | c :: rest => if c == sign then (true, String.ofList rest)
        else if c == '-' || c == '+' then (false, String.ofList rest) else (false, text)
    | [] => (false, text)
  match sized? digits with
  | some count => return { inBytes, count, reversed }
  | none =>
      refuse call 1 ("invalid number of " ++ (if inBytes then "bytes" else "lines") ++ ": " ++
        quoted text)

/-- The arguments with an old form of the count, such as `-5`, in place of the new one. -/
def modernCount (arguments : List String) : List String :=
  match arguments with
  | first :: rest =>
      match first.toList with
      | '-' :: c :: more =>
          if c.isDigit then
            let digits := (c :: more).takeWhile Char.isDigit
            let letters := (c :: more).drop digits.length
            if letters = ['c'] then "-c" :: String.ofList digits :: rest
            else "-n" :: String.ofList digits :: rest
          else arguments
      | _ => arguments
  | [] => []

def endOptions : OptionTable :=
  { plain := "qvfFz", valued := "nc", long := [("lines", 'n'), ("bytes", 'c'), ("quiet", 'q'),
      ("silent", 'q'), ("verbose", 'v'), ("follow", 'f')] }

def givenAmount (call : ToolCall) (sign : Char) (given : List GivenOption) :
    Program Machine Amount :=
  match given.reverse.find? fun e => e.1 == 'n' || e.1 == 'c' with
  | some (letter, text) => amountOf call sign (letter == 'c') text
  | none => return { inBytes := false, count := 10, reversed := false }

def showFiles (call : ToolCall) (titled : Bool)
    (showOne : Nat → Program Machine (Except OsFault Unit)) :
    List String → Bool → Bool → Program Machine Bool
  | [], _, ok => return ok
  | path :: rest, first, ok => do
      let opened ← if path = "-" then pure (Except.ok 0) else openFile path .read
      match opened with
      | .error fault => do
          complain call ("cannot open " ++ quoted path ++ " for reading: " ++ fault.reason)
          showFiles call titled showOne rest first false
      | .ok descriptor => do
          if titled then
            let name := if path = "-" then "standard input" else path
            print call ((if first then "" else "\n") ++ "==> " ++ name ++ " <==\n")
          let result ← showOne descriptor
          if path != "-" then Machine.call (.close descriptor)
          match result with
          | .ok () => showFiles call titled showOne rest false ok
          | .error fault => do
              complain call ("error reading " ++ quoted path ++ ": " ++ fault.reason)
              showFiles call titled showOne rest false false

/-- How many bytes the first `count` lines have. -/
def lineBytes (count : Nat) (content : ByteArray) : Nat :=
  ((linesOf content).take count).foldl (fun size line => size + line.length) 0

def endedLines (content : ByteArray) : Nat :=
  content.data.foldl (fun count byte => if byte = 10 then count + 1 else count) 0

def headOf (call : ToolCall) (inBytes : Bool) :
    Nat → Nat → Nat → Program Machine (Except OsFault Unit)
  | 0, _, _ => return .ok ()
  | fuel + 1, descriptor, count => do
      if count = 0 then return .ok ()
      else
        match ← Machine.call (.read descriptor (if inBytes then min count chunk else chunk)) with
        | .error fault => return .error fault
        | .ok content =>
            if content.isEmpty then return .ok ()
            else if inBytes then
              emit call content
              headOf call inBytes fuel descriptor (count - content.size)
            else
              let ended := endedLines content
              if ended < count then
                emit call content
                headOf call inBytes fuel descriptor (count - ended)
              else
                let size := lineBytes count content
                emit call (content.extract 0 size)
                Machine.call (.moveBy descriptor ((size : Int) - content.size))
                return .ok ()

def withoutEnd (amount : Amount) (content : ByteArray) : ByteArray :=
  if amount.inBytes then content.extract 0 (content.size - amount.count)
  else
    let lines := linesOf content
    content.extract 0 (lineBytes (lines.length - amount.count) content)

def head : Tool := fun call => do
  let call := { call with arguments := modernCount call.arguments }
  let (given, operands) ← options call endOptions
  let amount ← givenAmount call '-' given
  let operands := orInput operands
  let titled := (1 < operands.length && !has given 'q') || has given 'v'
  let ok ← showFiles call titled
    (fun descriptor => do
      if amount.reversed then
        match ← drain descriptor readings ByteArray.empty with
        | .ok content => do
            emit call (withoutEnd amount content)
            return .ok ()
        | .error fault => return .error fault
      else headOf call amount.inBytes readings descriptor amount.count)
    operands true true
  return codeOf ok

/-- The end of the content: so many bytes or lines, or all from a certain one on. -/
def endOf (amount : Amount) (content : ByteArray) : ByteArray :=
  let start :=
    match amount.inBytes, amount.reversed with
    | true, true => amount.count - 1
    | true, false => content.size - amount.count
    | false, true => lineBytes (amount.count - 1) content
    | false, false => lineBytes ((linesOf content).length - amount.count) content
  content.extract start content.size

def tail : Tool := fun call => do
  let call := { call with arguments := modernCount call.arguments }
  let (given, operands) ← options call endOptions
  let amount ← givenAmount call '+' given
  let operands := orInput operands
  let titled := (1 < operands.length && !has given 'q') || has given 'v'
  let ok ← showFiles call titled
    (fun descriptor => do
      match ← drain descriptor readings ByteArray.empty with
      | .ok content => do
          emit call (endOf amount content)
          return .ok ()
      | .error fault => return .error fault)
    operands true true
  return codeOf ok

/-- The descriptors of the files that the input is copied to; the flag says whether all
could be opened. -/
def openCopies (call : ToolCall) (mode : OpenMode) :
    List String → Program Machine (List Nat × Bool)
  | [] => return ([], true)
  | path :: rest => do
      match ← openFile path mode with
      | .ok descriptor => do
          let (others, ok) ← openCopies call mode rest
          return (descriptor :: others, ok)
      | .error fault => do
          complain call (plainly path fault)
          let (others, _) ← openCopies call mode rest
          return (others, false)

def copyInput (targets : List Nat) : Nat → Program Machine Unit
  | 0 => return
  | fuel + 1 => do
      match ← Machine.call (.read 0 chunk) with
      | .error _ => return
      | .ok content =>
          unless content.isEmpty do
            for target in targets do
              let _ ← Machine.call (.write target content)
            copyInput targets fuel

def tee : Tool := fun call => do
  let (given, operands) ← options call
    { plain := "aip", long := [("append", 'a'), ("ignore-interrupts", 'i')] }
  if has given 'i' then Machine.call (.setDisposition SignalNumber.interrupt .ignored)
  let (targets, ok) ← openCopies call (if has given 'a' then .append else .replace) operands
  copyInput (1 :: targets) readings
  return codeOf ok

structure Count where
  lines : Nat
  words : Nat
  bytes : Nat

def Count.add (a b : Count) : Count :=
  ⟨a.lines + b.lines, a.words + b.words, a.bytes + b.bytes⟩

def countOf (content : ByteArray) : Count :=
  let (lines, words, _) := content.data.foldl
    (fun (lines, words, inside) byte =>
      let blank := byte == 32 || (9 ≤ byte && byte ≤ 13)
      (if byte = 10 then lines + 1 else lines, if !blank && !inside then words + 1 else words,
        !blank))
    (0, 0, false)
  { lines, words, bytes := content.size }

/-- The size of a regular file, as far as it is one. -/
def sizeAt (path : String) : Program Machine (Option Nat) := do
  match ← inspect path true with
  | .ok (_, .file _ content _) => return some content.size
  | .ok (_, .database id rows) => return some (FileTree.contentOf (.database id rows)).size
  | _ => return none

def countWidth (operands : List String) : Program Machine Nat := do
  let sizes ← operands.mapM fun path => do
    if path = "-" then
      return (← Machine.call (.identity 0)).map fun _ => 0
    else sizeAt path
  let total := sizes.foldl (fun total size => total + size.getD 0) 0
  let least := if sizes.all Option.isSome then 1 else 7
  return max least (toString total).length

def count : Tool := fun call => do
  let (given, operands) ← options call
    { plain := "lwcm", long := [("lines", 'l'), ("words", 'w'), ("bytes", 'c'), ("chars", 'm')] }
  let standard := given.isEmpty
  let columns (c : Count) : List Nat :=
    (if standard || has given 'l' then [c.lines] else []) ++
      (if standard || has given 'w' then [c.words] else []) ++
      (if has given 'm' then [c.bytes] else []) ++
      (if standard || has given 'c' then [c.bytes] else [])
  let paths := orInput operands
  let single := (columns ⟨0, 0, 0⟩).length == 1
  let inputs := operands.isEmpty && (← Machine.call (.identity 0)).isSome
  let width ← if paths.length = 1 && single then pure 1 else countWidth paths
  let row (c : Count) (name : String) (width : Nat) : String :=
    " ".intercalate ((columns c).map (columned width)) ++
      (if name = "" then "" else " " ++ name) ++ "\n"
  let mut total : Count := ⟨0, 0, 0⟩
  let mut ok := true
  for path in paths do
    match ← readFile path with
    | .ok content => do
        let c := countOf content
        let width := if inputs && !single then
          max 1 (toString content.size).length else width
        print call (row c (if operands.isEmpty then "" else named path) width)
        total := total.add c
    | .error fault => do
        complain call (plainly path fault)
        if fault == .isDirectory then print call (row ⟨0, 0, 0⟩ (named path) width)
        ok := false
  if 1 < paths.length then print call (row total "total" width)
  return codeOf ok

def repeatLine (call : ToolCall) (content : ByteArray) : Nat → Program Machine Unit
  | 0 => return
  | fuel + 1 => do
      emit call content
      repeatLine call content fuel

def yes : Tool := fun call => do
  let (_, operands) ← options call { plain := "" }
  let line := Text.bytesOf (" ".intercalate (if operands.isEmpty then ["y"] else operands) ++ "\n")
  let content := (List.range (8192 / line.size)).foldl (fun content _ => content ++ line) line
  repeatLine call content readings
  return success

structure Decimal where
  units : Int
  places : Nat

def decimal? (text : String) : Option Decimal :=
  let (negative, rest) := match text.toList with
    | '-' :: rest => (true, rest)
    | '+' :: rest => (false, rest)
    | rest => (false, rest)
  let whole := rest.takeWhile Char.isDigit
  let fraction? : Option (List Char) := match rest.drop whole.length with
    | [] => some []
    | '.' :: digits => if digits.all Char.isDigit then some digits else none
    | _ => none
  match fraction? with
  | some fraction =>
      if whole.isEmpty && fraction.isEmpty then none
      else
        let n : Int := ((String.ofList (whole ++ fraction)).toNat?.getD 0 : Nat)
        some { units := if negative then -n else n, places := fraction.length }
  | none => none

def Decimal.scaled (d : Decimal) (places : Nat) : Int :=
  d.units * (Nat.pow 10 (places - d.places) : Nat)

def decimalText (units : Int) (places width : Nat) : String :=
  let digits := Nat.toDigits 10 units.natAbs
  let digits := List.replicate (places + 1 - digits.length) '0' ++ digits
  let whole := digits.take (digits.length - places)
  let body := if places = 0 then whole else whole ++ '.' :: digits.drop whole.length
  let sign := if units < 0 then ['-'] else []
  String.ofList (sign ++ List.replicate (width - sign.length - body.length) '0' ++ body)

def steps (last step : Int) : Nat → Int → List Int
  | 0, _ => []
  | fuel + 1, n =>
      if (0 < step && last < n) || (step < 0 && n < last) || step = 0 then []
      else n :: steps last step fuel (n + step)

def sequence : Tool := fun call => do
  let isNumber (text : String) : Bool := (decimal? text).isSome
  -- A negative number is no option.
  let call := { call with arguments := call.arguments.flatMap fun argument =>
    if argument.startsWith "-" && isNumber argument then ["--", argument] else [argument] }
  let guarded := call.arguments
  let seen := guarded.takeWhile (· != "--")
  let rest := (guarded.drop seen.length).filter (· != "--")
  let (given, operands) ← options
    { call with arguments := if rest.isEmpty then seen else seen ++ "--" :: rest }
    { plain := "w", valued := "sf", anywhere := false, long := [("separator", 's'), ("equal-width", 'w')] }
  let numbers ← operands.mapM fun text => do
    match decimal? text with
    | some number => return number
    | none =>
        misuse call 1 ("invalid floating point argument: " ++ quoted text)
  let one : Decimal := ⟨1, 0⟩
  let (first, step, last) ← match numbers with
    | [last] => pure (one, one, last)
    | [first, last] => pure (first, one, last)
    | [first, step, last] => pure (first, step, last)
    | [] => missingOperand call
    | _ => misuse call 1 ("extra operand " ++ quoted (operands[3]?.getD ""))
  if step.units = 0 then misuse call 1 ("invalid Zero increment value: " ++ quoted (operands[1]?.getD ""))
  let places := max first.places step.places
  let scale := max places last.places
  let all := steps (last.scaled scale) (step.scaled scale)
    (((last.scaled scale - first.scaled scale) / step.scaled scale).natAbs + 2) (first.scaled scale)
  let shrink : Int := (Nat.pow 10 (scale - places) : Nat)
  let all := all.map fun n => n / shrink
  let texts := all.map fun n => decimalText n places 0
  let width := if has given 'w' then (texts.map String.length).foldl max 0 else 0
  let texts := all.map fun n => decimalText n places width
  unless texts.isEmpty do
    print call ((valueOf? given 's').getD "\n" |>.intercalate texts |> (· ++ "\n"))
  return success

/-- Where two contents differ first: the byte and the line, counted from one. -/
def firstDifference (a b : ByteArray) : Option (Nat × Nat) :=
  let pairs := (a.data.toList.zip b.data.toList).takeWhile fun (x, y) => x == y
  if pairs.length < min a.size b.size then
    some (pairs.length + 1, (pairs.filter fun p => p.1 == 10).length + 1)
  else none

def compareFiles : Tool := fun call => do
  let (given, operands) ← options call { plain := "sl", long := [("silent", 's'), ("quiet", 's')], code := 2 }
  match operands with
  | a :: rest => do
      let b := rest.head?.getD "-"
      let (contents, ok) ← readOperands call plainly [a, b]
      match contents with
      | [(_, first), (_, second)] =>
          match firstDifference first second with
          | some (byte, line) => do
              unless has given 's' do
                print call (a ++ " " ++ b ++ " differ: byte " ++ toString byte ++ ", line " ++
                  toString line ++ "\n")
              return exited 1
          | none =>
              if first.size = second.size then return success
              else do
                let (short, size) := if first.size < second.size then (a, first.size)
                  else (b, second.size)
                unless has given 's' do
                  complain call ("EOF on " ++ short ++ if size = 0 then " which is empty"
                    else " after byte " ++ toString size ++ ", in line " ++
                      toString (endedLines (if first.size < second.size then first else second) + 1))
                return exited 1
      | _ => return exited (if ok then 0 else 2)
  | [] => misuse call 2 ("missing operand after " ++ quoted call.name)

end Handoff.Tool
