import Handoff.Host.Tool.Stream
/-!
# Showing and rewriting bytes

The tools that show bytes as numbers or letters, that copy them block by block, and that
write them in other ways.
-/

namespace Handoff.Tool

inductive UnitForm where
  | octal
  | hex
  | signed
  | unsigned
  /-- Letters and escapes. -/
  | letters
  /-- The names of the characters. -/
  | names

/-- How a dump is written: the form and the number of bytes of each unit, and whether the
text is shown at the end of the line. -/
structure UnitStyle where
  form : UnitForm
  size : Nat
  withText : Bool

namespace UnitStyle

def width (style : UnitStyle) : Nat :=
  1 + match style.form, style.size with
    | .octal, 1 => 3
    | .octal, 2 => 6
    | .octal, 4 => 11
    | .octal, _ => 22
    | .hex, size => 2 * size
    | .signed, 1 => 4
    | .signed, 2 => 6
    | .signed, 4 => 11
    | .signed, _ => 20
    | .unsigned, 1 => 3
    | .unsigned, 2 => 5
    | .unsigned, 4 => 10
    | .unsigned, _ => 20
    | .letters, _ => 3
    | .names, _ => 3

def controlNames : List String :=
  ["nul", "soh", "stx", "etx", "eot", "enq", "ack", "bel", "bs", "ht", "nl", "vt", "ff", "cr",
    "so", "si", "dle", "dc1", "dc2", "dc3", "dc4", "nak", "syn", "etb", "can", "em", "sub",
    "esc", "fs", "gs", "rs", "us", "sp"]

def nameOf (byte : Nat) : String :=
  let byte := byte % 128
  if byte = 127 then "del" else controlNames[byte]?.getD (String.singleton (Char.ofNat byte))

/-- `n` in a base, with zeros in front up to `count` digits. -/
def digits (base count n : Nat) : String :=
  let text := String.ofList (Nat.toDigits base n)
  String.ofList (List.replicate (count - text.length) '0') ++ text

def letterOf (byte : Nat) : String :=
  match byte with
  | 0 => "\\0"
  | 7 => "\\a"
  | 8 => "\\b"
  | 9 => "\\t"
  | 10 => "\\n"
  | 11 => "\\v"
  | 12 => "\\f"
  | 13 => "\\r"
  | _ =>
      if 32 ≤ byte && byte < 127 then String.singleton (Char.ofNat byte) else digits 8 3 byte

def number (bytes : List UInt8) : Nat :=
  bytes.foldr (fun byte n => n * 256 + byte.toNat) 0

def shown (style : UnitStyle) (bytes : List UInt8) : String :=
  let n := number bytes
  match style.form with
  | .octal => digits 8 (style.width - 1) n
  | .hex => digits 16 (2 * style.size) n
  | .unsigned => toString n
  | .signed =>
      let limit := Nat.pow 256 style.size
      if limit ≤ 2 * n then "-" ++ toString (limit - n) else toString n
  | .letters => letterOf n
  | .names => nameOf n

def units (size : Nat) : Nat → List UInt8 → List (List UInt8)
  | 0, _ => []
  | _, [] => []
  | fuel + 1, bytes => bytes.take size :: units size fuel (bytes.drop size)

def textOf (bytes : List UInt8) : String :=
  String.ofList (bytes.map fun byte =>
    if 32 ≤ byte.toNat && byte.toNat < 127 then Char.ofNat byte.toNat else '.')

/-- One line of a dump; every unit takes `room` characters. -/
def line (style : UnitStyle) (room perLine : Nat) (bytes : List UInt8) : String :=
  let parts := (units style.size bytes.length bytes).map fun unit =>
    let text := style.shown unit
    String.ofList (List.replicate (room - text.length) ' ') ++ text
  let whole := String.join parts
  if style.withText then
    let rest := (perLine / style.size - parts.length) * room
    whole ++ String.ofList (List.replicate rest ' ') ++ "  >" ++ textOf bytes ++ "<"
  else whole

/-- The styles that a text such as `x1` or `oC` asks for. -/
def ofText : Nat → List Char → Except String (List UnitStyle)
  | 0, _ => .ok []
  | _, [] => .ok []
  | fuel + 1, letter :: rest =>
      let form? : Option UnitForm := match letter with
        | 'o' => some .octal
        | 'x' => some .hex
        | 'd' => some .signed
        | 'u' => some .unsigned
        | 'c' => some .letters
        | 'a' => some .names
        | _ => none
      match form? with
      | none => .error (String.singleton letter)
      | some form =>
          let (size, rest) := sizeOf form rest
          let withText := rest.head? == some 'z'
          let rest := if withText then rest.tail else rest
          (ofText fuel rest).map ({ form, size, withText } :: ·)
where
  /-- The size behind a letter. -/
  sizeOf (form : UnitForm) (rest : List Char) : Nat × List Char :=
    match form, rest with
    | .letters, rest => (1, rest)
    | .names, rest => (1, rest)
    | _, 'C' :: rest => (1, rest)
    | _, 'S' :: rest => (2, rest)
    | _, 'I' :: rest => (4, rest)
    | _, 'L' :: rest => (8, rest)
    | _, rest =>
        let digits := rest.takeWhile Char.isDigit
        ((natural? (String.ofList digits)).getD 4, rest.drop digits.length)

end UnitStyle

def addressText (radix : Char) (address : Nat) : String :=
  match radix with
  | 'd' => UnitStyle.digits 10 7 address
  | 'x' => UnitStyle.digits 16 6 address
  | 'n' => ""
  | _ => UnitStyle.digits 8 7 address

/-- The room that the units of each style take.  Units of several styles stand below each
other. -/
def withRooms (styles : List UnitStyle) : List (UnitStyle × Nat) :=
  match styles with
  | [style] => [(style, style.width)]
  | _ =>
      let perByte := (styles.map fun style => (style.width + style.size - 1) / style.size)
      styles.map fun style => (style, perByte.foldl max 0 * style.size)

/-- The lines of a dump; what repeats the line before is left out unless `all` is asked
for. -/
def dumpLines (styles : List (UnitStyle × Nat)) (radix : Char) (perLine : Nat) (all : Bool) :
    Nat → Nat → List UInt8 → Option (List UInt8) → Bool → List String
  | 0, address, _, _, _ => [addressText radix address]
  | _, address, [], _, _ => [addressText radix address]
  | fuel + 1, address, bytes, before, starred =>
      let here := bytes.take perLine
      let rest := bytes.drop perLine
      let next := address + here.length
      if !all && before == some here && !rest.isEmpty then
        let more := dumpLines styles radix perLine all fuel next rest before true
        if starred then more else "*" :: more
      else
        let gap := String.ofList (List.replicate (addressText radix 0).length ' ')
        let lines := styles.zipIdx.map fun ((style, room), index) =>
          (if index = 0 then addressText radix address else gap) ++ style.line room perLine here
        lines ++ dumpLines styles radix perLine all fuel next rest (some here) false

def shortStyle? : Char → Option UnitStyle
  | 'a' => some ⟨.names, 1, false⟩
  | 'b' => some ⟨.octal, 1, false⟩
  | 'c' => some ⟨.letters, 1, false⟩
  | 'd' => some ⟨.unsigned, 2, false⟩
  | 'i' => some ⟨.signed, 4, false⟩
  | 'l' => some ⟨.signed, 8, false⟩
  | 'o' => some ⟨.octal, 2, false⟩
  | 's' => some ⟨.signed, 2, false⟩
  | 'x' => some ⟨.hex, 2, false⟩
  | _ => none

def dump : Tool := fun call => do
  let (given, operands) ← options call
    { plain := "abcdilosxv", valued := "AtNjw",
      long := [("address-radix", 'A'), ("format", 't'), ("read-bytes", 'N'),
        ("skip-bytes", 'j'), ("width", 'w'), ("output-duplicates", 'v')] }
  let styles ← given.mapM fun (letter, text) => do
    if letter == 't' then
      match UnitStyle.ofText text.length text.toList with
      | .ok styles => return styles
      | .error bad =>
          refuse call 1 ("invalid character " ++ quoted bad ++ " in type string " ++ quoted text)
    else return (shortStyle? letter).toList
  let styles := styles.flatten
  let styles := if styles.isEmpty then [⟨.octal, 2, false⟩] else styles
  let radix := ((valueOf? given 'A').bind fun text => text.toList.head?).getD 'o'
  let perLine := ((valueOf? given 'w').bind natural?).getD 16
  let (contents, ok) ← readOperands call plainly (orInput operands)
  let bytes := contents.flatMap fun e => e.2.data.toList
  let skipped := ((valueOf? given 'j').bind sized?).getD 0
  if bytes.length < skipped then refuse call 1 "cannot skip past end of combined input"
  let bytes := bytes.drop skipped
  let bytes := match (valueOf? given 'N').bind sized? with
    | some most => bytes.take most
    | none => bytes
  let lines := dumpLines (withRooms styles) radix perLine (has given 'v') (bytes.length + 1)
    skipped bytes none false
  let lines := lines.filter fun line => radix != 'n' || line != ""
  print call (String.join (lines.map (· ++ "\n")))
  return codeOf ok

def sextetLetters : List Char :=
  "ABCDEFGHIJKLMNOPQRSTUVWXYZabcdefghijklmnopqrstuvwxyz0123456789+/".toList

def sextets : List UInt8 → List Char
  | a :: b :: c :: rest =>
      let n := (a.toNat * 256 + b.toNat) * 256 + c.toNat
      digit (n / 262144) :: digit (n / 4096) :: digit (n / 64) :: digit n :: sextets rest
  | [a, b] =>
      let n := (a.toNat * 256 + b.toNat) * 4
      [digit (n / 4096), digit (n / 64), digit n, '=']
  | [a] => [digit (a.toNat / 4), digit (a.toNat * 16), '=', '=']
  | [] => []
where
  digit (n : Nat) : Char :=
    sextetLetters[n % 64]?.getD 'A'

def ofSextets : Nat → List Char → List UInt8 × Bool
  | 0, _ => ([], true)
  | _, [] => ([], true)
  | fuel + 1, a :: b :: c :: d :: rest =>
      match value? a, value? b, value? c, value? d with
      | some x, some y, some z, some w =>
          let n := ((x * 64 + y) * 64 + z) * 64 + w
          let (more, ok) := ofSextets fuel rest
          (byte (n / 65536) :: byte (n / 256) :: byte n :: more, ok)
      | some x, some y, some z, none =>
          ([byte (x * 4 + y / 16), byte (y * 16 + z / 4)], d == '=' && rest.isEmpty)
      | some x, some y, none, none =>
          ([byte (x * 4 + y / 16)], c == '=' && d == '=' && rest.isEmpty)
      | _, _, _, _ => ([], false)
  | _, _ => ([], false)
where
  value? (c : Char) : Option Nat :=
    sextetLetters.idxOf? c
  byte (n : Nat) : UInt8 :=
    UInt8.ofNat (n % 256)

/-- The characters in lines of `width`. -/
def wrapped (width : Nat) : Nat → List Char → String
  | 0, _ => ""
  | _, [] => ""
  | fuel + 1, chars =>
      String.ofList (chars.take width) ++ "\n" ++ wrapped width fuel (chars.drop width)

def rewriteInSextets : Tool := fun call => do
  let (given, operands) ← options call
    { plain := "di", valued := "w", long := [("decode", 'd'), ("wrap", 'w'),
        ("ignore-garbage", 'i')] }
  match ← readFile (operands.head?.getD "-") with
  | .error fault => refuse call 1 (plainly (operands.head?.getD "-") fault)
  | .ok content =>
      if has given 'd' then
        let chars := (Text.byteText content).toList.filter fun c =>
          c != '\n' && (!has given 'i' || sextetLetters.contains c || c == '=')
        let (bytes, ok) := ofSextets chars.length chars
        emit call (ofBytes bytes)
        if ok then return success else refuse call 1 "invalid input"
      else
        let width := ((valueOf? given 'w').bind natural?).getD 76
        let chars := sextets content.data.toList
        print call (if width = 0 then String.ofList chars else wrapped width chars.length chars)
        return success

/-- A line in pieces of at most `width` characters; with `atBlanks` a piece ends after its
last blank if it has one. -/
def folded (width : Nat) (atBlanks : Bool) : Nat → List Char → List (List Char)
  | 0, line => [line]
  | fuel + 1, line =>
      if line.length ≤ width then [line]
      else
        let piece := line.take width
        let after := piece.reverse.takeWhile fun c => c != ' ' && c != '\t'
        let count := if atBlanks && after.length < width then width - after.length else width
        line.take count :: folded width atBlanks fuel (line.drop count)

def foldLines : Tool := fun call => do
  let (given, operands) ← options call
    { plain := "bs", valued := "w", long := [("width", 'w'), ("spaces", 's'), ("bytes", 'b')] }
  let width ← match valueOf? given 'w' with
    | none => pure 80
    | some text =>
        match natural? text with
        | some (width + 1) => pure (width + 1)
        | _ => refuse call 1 ("invalid number of columns: " ++ quoted text)
  let (contents, ok) ← readOperands call plainly (orInput operands)
  for (_, content) in contents do
    for line in linesOf content do
      let ended := line.getLast? == some 10
      let chars := (Text.byteText (ofBytes (if ended then line.dropLast else line))).toList
      let pieces := folded width (has given 's') chars.length chars
      print call ("\n".intercalate (pieces.map String.ofList) ++ if ended then "\n" else "")
  return codeOf ok

def untabbed (stop : Nat) (line : List Char) : List Char :=
  let step (state : List Char × Nat) (c : Char) : List Char × Nat :=
    let (text, column) := state
    if c == '\t' then
      let count := stop - column % stop
      (List.replicate count ' ' ++ text, column + count)
    else (c :: text, column + 1)
  (line.foldl step ([], 0)).1.reverse

def expandTabs : Tool := fun call => do
  let (given, operands) ← options call { plain := "i", valued := "t", long := [("tabs", 't')] }
  let stop := match (valueOf? given 't').bind natural? with
    | some (stop + 1) => stop + 1
    | _ => 8
  let (contents, ok) ← readOperands call plainly (orInput operands)
  for (_, content) in contents do
    for line in linesOf content do
      let ended := line.getLast? == some 10
      let chars := (Text.byteText (ofBytes (if ended then line.dropLast else line))).toList
      print call (String.ofList (untabbed stop chars) ++ if ended then "\n" else "")
  return codeOf ok

structure BlockCopy where
  source : Option String := none
  target : Option String := none
  block : Nat := 512
  most : Option Nat := none
  skip : Nat := 0
  seek : Nat := 0
  conversions : List String := []
  status : String := ""

def BlockCopy.apply (call : ToolCall) (copy : BlockCopy) (operand : String) :
    Program Machine BlockCopy := do
  let name := String.ofList (operand.toList.takeWhile (· != '='))
  let value := (operand.drop (name.length + 1)).toString
  let number : Program Machine Nat :=
    match sized? value with
    | some n => return n
    | none => refuse call 1 ("invalid number: " ++ quoted value)
  match name with
  | "if" => return { copy with source := some value }
  | "of" => return { copy with target := some value }
  | "bs" => return { copy with block := ← number }
  | "ibs" => return { copy with block := ← number }
  | "obs" => return copy
  | "count" => return { copy with most := some (← number) }
  | "skip" => return { copy with skip := ← number }
  | "seek" => return { copy with seek := ← number }
  | "conv" => return { copy with conversions := value.splitOn "," }
  | "status" => return { copy with status := value }
  | "iflag" => return copy
  | "oflag" => return copy
  | _ => misuse call 1 ("unrecognized operand " ++ quoted operand)

/-- Reads blocks: all bytes, and how many blocks were whole and how many were not. -/
def readBlocks (descriptor block : Nat) : Nat → ByteArray → Nat × Nat →
    Program Machine (Except OsFault (ByteArray × Nat × Nat))
  | 0, content, counts => return .ok (content, counts)
  | left + 1, content, (whole, broken) => do
      match ← Machine.call (.read descriptor block) with
      | .error fault => return .error fault
      | .ok bytes =>
          if bytes.isEmpty then return .ok (content, whole, broken)
          else if bytes.size = block then
            readBlocks descriptor block left (content ++ bytes) (whole + 1, broken)
          else readBlocks descriptor block left (content ++ bytes) (whole, broken + 1)

def copyBlocks : Tool := fun call => do
  let operands := if call.arguments.head? = some "--" then call.arguments.tail else call.arguments
  let copy ← operands.foldlM (BlockCopy.apply call) {}
  let failed (path : String) (fault : OsFault) : Program Machine Nat :=
    refuse call 1 ("failed to open " ++ quoted path ++ ": " ++ fault.reason)
  let input ← match copy.source with
    | none => pure 0
    | some path =>
        match ← openFile path .read with
        | .ok descriptor => pure descriptor
        | .error fault => failed path fault
  let keeps := copy.conversions.contains "notrunc"
  let output ← match copy.target with
    | none => pure 1
    | some path =>
        match ← openFile path (if keeps || 0 < copy.seek then .change else .replace) with
        | .ok descriptor => pure descriptor
        | .error fault => failed path fault
  let start := copy.seek * copy.block
  if copy.target.isSome && 0 < copy.seek && !keeps then
    let _ ← Machine.call (.setSize output start)
  let _ ← readBlocks input copy.block copy.skip ByteArray.empty (0, 0)
  match ← readBlocks input copy.block (copy.most.getD readings) ByteArray.empty (0, 0) with
  | .error fault =>
      refuse call 1 ("error reading " ++ quoted (copy.source.getD "standard input") ++ ": " ++
        fault.reason)
  | .ok (content, whole, broken) => do
      let content := if copy.conversions.contains "ucase" then
          ofBytes (content.data.toList.map fun b => if 97 ≤ b && b ≤ 122 then b - 32 else b)
        else if copy.conversions.contains "lcase" then
          ofBytes (content.data.toList.map fun b => if 65 ≤ b && b ≤ 90 then b + 32 else b)
        else content
      Machine.call (.moveBy output start)
      let written ← Machine.call (.write output content)
      if copy.status != "none" then
        let counts := toString whole ++ "+" ++ toString broken ++ " records "
        remark (counts ++ "in\n" ++ counts ++ "out\n")
        if copy.status != "noxfer" then
          remark (toString content.size ++ " bytes copied, 0 s, Infinity B/s\n")
      match written with
      | .ok () => return success
      | .error fault =>
          refuse call 1 ("error writing " ++ quoted (copy.target.getD "standard output") ++ ": " ++
            fault.reason)

end Handoff.Tool
