import Handoff.Host.Shell.Format
import Handoff.Host.Shell.Pattern
import Handoff.Host.Tool.Stream
/-!
# Lines

The tools that change, arrange or pick out bytes and lines.
-/

namespace Handoff.Tool

/-- The bytes in a class such as `alpha`. -/
def classBytes? (name : String) : Option (List UInt8) :=
  let known := ["alpha", "digit", "alnum", "upper", "lower", "space", "blank", "punct", "print",
    "graph", "cntrl", "xdigit"]
  if known.contains name then
    some (((List.range 128).filter fun n => Shell.SetItem.classHas name (Char.ofNat n)).map
      UInt8.ofNat)
  else none

def setEscape : List Char → Char × List Char
  | [] => ('\\', [])
  | c :: rest =>
      match Shell.Format.escape? c with
      | some found => (found, rest)
      | none =>
          let digits := ((c :: rest).take 3).takeWhile Shell.Format.isOctal
          if digits.isEmpty then (c, rest)
          else
            (Shell.Format.byteChar (Shell.Arithmetic.digits 8 digits 0 0).1,
              (c :: rest).drop digits.length)

def setChar : List Char → Option (Char × List Char)
  | [] => none
  | '\\' :: rest => some (setEscape rest)
  | c :: rest => some (c, rest)

/-- The bytes that a set stands for, in order.  A repetition without a number fills up the
set to `size`. -/
def setBytes (size : Nat) : Nat → List Char → Except String (List UInt8)
  | 0, _ => .ok []
  | _ + 1, [] => .ok []
  | fuel + 1, text =>
      let byte (c : Char) : UInt8 := UInt8.ofNat c.toNat
      let single : Except String (List UInt8) :=
        match setChar text with
        | none => .ok []
        | some (first, '-' :: more) =>
            match setChar more with
            | some (last, rest) =>
                if last < first then
                  .error ("range-endpoints of '" ++ String.ofList [first, '-', last] ++
                    "' are in reverse collating sequence order")
                else
                  (setBytes size fuel rest).map fun others =>
                    (List.range (last.toNat - first.toNat + 1)).map
                      (fun n => UInt8.ofNat (first.toNat + n)) ++ others
            | none => .ok [byte first, 45]
        | some (first, rest) => (setBytes size fuel rest).map (byte first :: ·)
      match text with
      | '[' :: ':' :: rest =>
          let name := rest.takeWhile (· != ':')
          match rest.drop name.length with
          | ':' :: ']' :: rest =>
              match classBytes? (String.ofList name) with
              | some bytes => (setBytes size fuel rest).map (bytes ++ ·)
              | none => .error ("invalid character class '" ++ String.ofList name ++ "'")
          | _ => single
      | '[' :: '=' :: c :: '=' :: ']' :: rest => (setBytes size fuel rest).map (byte c :: ·)
      | '[' :: c :: '*' :: rest =>
          let digits := rest.takeWhile Char.isDigit
          match rest.drop digits.length with
          | ']' :: rest =>
              let count := (String.ofList digits).toNat?.getD 0
              (setBytes size fuel rest).map fun others =>
                List.replicate (if count = 0 then size - others.length else count) (byte c) ++ others
          | _ => single
      | _ => single

def squeeze (isIn : UInt8 → Bool) (bytes : List UInt8) : List UInt8 :=
  let (kept, _) := bytes.foldl
    (fun (kept, last) byte =>
      if some byte == last && isIn byte then (kept, last) else (byte :: kept, some byte))
    (([] : List UInt8), (none : Option UInt8))
  kept.reverse

def membership (bytes : List UInt8) : UInt8 → Bool :=
  let table := bytes.foldl (fun (table : Array Bool) byte => table.set! byte.toNat true)
    (Array.replicate 256 false)
  fun byte => table[byte.toNat]?.getD false

def transliterate : Tool := fun call => do
  let (given, operands) ← options call { plain := "cCdst", anywhere := false, long := [("complement", 'c'), ("delete", 'd'), ("squeeze-repeats", 's'), ("truncate-set1", 't')] }
  let deletes := has given 'd'
  let squeezes := has given 's'
  let setOf (size : Nat) (text : String) : Program Machine (List UInt8) :=
    match setBytes size (text.length + 1) text.toList with
    | .ok bytes => return bytes
    | .error complaint => refuse call 1 complaint
  let (first, second) ← match operands with
    | [] => misuse call 1 "missing operand"
    | [first] =>
        if !deletes && !squeezes then
          misuse call 1 ("missing operand after " ++ quoted first ++
            "\nTwo strings must be given when translating.")
        else if deletes && squeezes then
          misuse call 1 ("missing operand after " ++ quoted first ++
            "\nTwo strings must be given when both deleting and squeezing repeats.")
        else pure (first, none)
    | first :: second :: rest =>
        if deletes && !squeezes then
          misuse call 1 ("extra operand " ++ quoted second ++
            "\nOnly one string may be given when deleting without squeezing repeats.")
        else if !rest.isEmpty then misuse call 1 ("extra operand " ++ quoted (rest.head?.getD ""))
        else pure (first, some second)
  let source ← setOf 0 first
  let source := if has given 'c' || has given 'C' then
      let isIn := membership source
      ((List.range 256).map UInt8.ofNat).filter fun byte => !isIn byte
    else source
  let target ← match second with
    | some text => do pure (some (← setOf source.length text))
    | none => pure none
  let inSource := membership source
  let inLast := membership (target.getD source)
  let map : UInt8 → UInt8 := match target with
    | some target =>
        if deletes then id
        else
          let source := if has given 't' then source.take target.length else source
          let last := target.getLast?.getD 0
          let padded := target ++ List.replicate (source.length - target.length) last
          let table := (source.zip padded).foldl
            (fun (table : Array UInt8) (a, b) => table.set! a.toNat b)
            ((List.range 256).map UInt8.ofNat).toArray
          fun byte => table[byte.toNat]?.getD byte
    | none => id
  match target with
  | some [] =>
      if !deletes then refuse call 1 "when not truncating set1, string2 must be non-empty"
  | _ => pure ()
  match ← drain 0 readings ByteArray.empty with
  | .error fault => refuse call 1 ("read error: " ++ fault.reason)
  | .ok content => do
      let bytes := content.data.toList
      let bytes := if deletes then bytes.filter fun byte => !inSource byte else bytes.map map
      emit call (ofBytes (if squeezes then squeeze inLast bytes else bytes))
      return success

structure SortOrder where
  numeric : Bool
  reversed : Bool
  folded : Bool
  blanks : Bool
  dictionary : Bool
  deriving Inhabited

def orderOf (letters : List Char) : SortOrder where
  numeric := letters.contains 'n' || letters.contains 'g'
  reversed := letters.contains 'r'
  folded := letters.contains 'f'
  blanks := letters.contains 'b'
  dictionary := letters.contains 'd'

/-- A key to sort by: where it starts and ends, as a field and a character in it. -/
structure SortKey where
  startField : Nat
  startChar : Nat
  endField : Option Nat
  endChar : Nat
  order : SortOrder

def isBlankChar (c : Char) : Bool :=
  c == ' ' || c == '\t'

/-- The fields of a line: between separators, or with the blanks in front of them. -/
def sortFields (separator : Option Char) : Nat → List Char → List (List Char)
  | 0, _ => []
  | fuel + 1, text =>
      match separator with
      | some c =>
          let field := text.takeWhile (· != c)
          match text.drop field.length with
          | [] => [field]
          | _ :: rest => field :: sortFields separator fuel rest
      | none =>
          let blanks := text.takeWhile isBlankChar
          let field := (text.drop blanks.length).takeWhile fun c => !isBlankChar c
          let all := blanks ++ field
          match text.drop all.length with
          | [] => [all]
          | rest => all :: sortFields separator fuel rest

/-- A position in a key, such as `2.1`, with the letters after it. -/
def keyPosition? (text : List Char) : Option (Nat × Option Nat × List Char × List Char) :=
  let digits := text.takeWhile Char.isDigit
  let rest := text.drop digits.length
  let (char, rest) : Option Nat × List Char := match rest with
    | '.' :: more =>
        let digits := more.takeWhile Char.isDigit
        ((String.ofList digits).toNat?, more.drop digits.length)
    | _ => (none, rest)
  let letters := rest.takeWhile Char.isAlpha
  (String.ofList digits).toNat?.map fun field => (field, char, letters, rest.drop letters.length)

def sortKey? (letters : List Char) (text : String) : Option SortKey :=
  match keyPosition? text.toList with
  | some (field, char, own, rest) =>
      let make (endField : Option Nat) (endChar : Nat) (own : List Char) : SortKey :=
        { startField := field, startChar := char.getD 1, endField, endChar
          order := orderOf (if own.isEmpty then letters else own) }
      if field = 0 then none
      else
        match rest with
        | [] => some (make none 0 own)
        | ',' :: more =>
            match keyPosition? more with
            | some (last, char, others, []) => some (make (some last) (char.getD 0) (own ++ others))
            | _ => none
        | _ => none
  | none => none

def keyText (separator : Option Char) (key : SortKey) (line : String) : String :=
  let fields := sortFields separator (line.length + 1) line.toList
  let lengthBefore (count : Nat) : Nat :=
    (fields.take count).foldl (fun size field => size + field.length) 0 +
      if separator.isSome then count else 0
  let skip (count : Nat) : Nat :=
    if key.order.blanks then
      (((fields[count]?).getD []).takeWhile isBlankChar).length
    else 0
  let start := if fields.length < key.startField then line.length
    else lengthBefore (key.startField - 1) + skip (key.startField - 1) + (key.startChar - 1)
  let stop := match key.endField with
    | none => line.length
    | some field =>
        if key.endChar = 0 then
          let all := lengthBefore field
          if separator.isSome && field ≤ fields.length then all - 1 else all
        else lengthBefore (field - 1) + skip (field - 1) + key.endChar
  String.ofList ((line.toList.take stop).drop start)

def leadingNumber (text : String) : Decimal :=
  let rest := text.toList.dropWhile isBlankChar
  let (negative, rest) := match rest with
    | '-' :: rest => (true, rest)
    | rest => (false, rest)
  let whole := rest.takeWhile Char.isDigit
  let fraction := match rest.drop whole.length with
    | '.' :: more => more.takeWhile Char.isDigit
    | _ => []
  let n : Int := ((String.ofList (whole ++ fraction)).toNat?.getD 0 : Nat)
  { units := if negative then -n else n, places := fraction.length }

def compareBy (order : SortOrder) (a b : String) : Ordering :=
  let plain (text : String) : String :=
    let chars := if order.blanks then text.toList.dropWhile isBlankChar else text.toList
    let chars := if order.dictionary then
        chars.filter fun c => c.isAlphanum || isBlankChar c
      else chars
    String.ofList (if order.folded then chars.map Char.toUpper else chars)
  let result := if order.numeric then
      let first := leadingNumber a
      let second := leadingNumber b
      let places := max first.places second.places
      compare (first.scaled places) (second.scaled places)
    else compare (plain a) (plain b)
  if order.reversed then result.swap else result

def sortLines : Tool := fun call => do
  let (given, operands) ← options call
    { plain := "nrufbdsghicmzV", valued := "ktoS", code := 2
      long := [("numeric-sort", 'n'), ("reverse", 'r'), ("unique", 'u'), ("key", 'k'),
        ("field-separator", 't'), ("output", 'o'), ("stable", 's'), ("check", 'c')] }
  let letters := given.map Prod.fst
  let separator := (valueOf? given 't').bind fun text =>
    if text = "\\0" then some '\x00' else text.toList.head?
  let keys ← (given.filter fun e => e.1 == 'k').mapM fun (_, text) => do
    match sortKey? letters text with
    | some key => return key
    | none => refuse call 2 ("-: invalid field specification " ++ quoted text)
  let whole := orderOf letters
  let (contents, ok) ← readOperands call
    (fun path fault =>
      (if fault == .isDirectory then "read failed: " else "cannot read: ") ++ plainly path fault)
    (orInput operands)
  if !ok then return exited 2
  let lines := contents.flatMap fun content => textLines content.2
  let byKeys (a b : String) : Ordering :=
    if keys.isEmpty then compareBy whole a b
    else
      keys.foldl
        (fun result key =>
          if result == .eq then
            compareBy key.order (keyText separator key a) (keyText separator key b)
          else result)
        .eq
  let final (a b : String) : Ordering :=
    match byKeys a b with
    | .eq =>
        if has given 's' || has given 'u' then .eq
        else if whole.reversed then compare b a else compare a b
    | other => other
  if has given 'c' then
    let pairs := (lines.zip lines.tail).zipIdx
    match pairs.find? fun ((a, b), _) =>
        final a b == .gt || (has given 'u' && final a b == .eq) with
    | some ((_, b), index) => do
        complain call ((operands.head?.getD "-") ++ ":" ++ toString (index + 2) ++ ": disorder: " ++ b)
        return exited 1
    | none => return success
  else
    let lines := lines.mergeSort fun a b => final a b != .gt
    let lines := if has given 'u' then
        (lines.foldl
          (fun kept line =>
            match kept with
            | last :: _ => if byKeys last line == .eq then kept else line :: kept
            | [] => [line])
          []).reverse
      else lines
    let text := Text.bytesOf (String.join (lines.map (· ++ "\n")))
    match valueOf? given 'o' with
    | none => emit call text
    | some path =>
        match ← openFile path .replace with
        | .ok descriptor => do
            let _ ← Machine.call (.write descriptor text)
        | .error fault => refuse call 2 ("open failed: " ++ plainly path fault)
    return success

def groups (same : String → String → Bool) (lines : List String) : List (String × Nat) :=
  (lines.foldl
    (fun groups line =>
      match groups with
      | (first, count) :: rest =>
          if same first line then (first, count + 1) :: rest else (line, 1) :: groups
      | [] => [(line, 1)])
    []).reverse

def unique : Tool := fun call => do
  let (given, operands) ← options call
    { plain := "cdui", valued := "fsw", long := [("count", 'c'), ("repeated", 'd'), ("unique", 'u'), ("ignore-case", 'i')] }
  let numberOf (letter : Char) : Nat := ((valueOf? given letter).bind natural?).getD 0
  let part (line : String) : String :=
    let rec skipFields : Nat → List Char → List Char
      | 0, text => text
      | n + 1, text =>
          skipFields n ((text.dropWhile isBlankChar).dropWhile fun c => !isBlankChar c)
    let text := (skipFields (numberOf 'f') line.toList).drop (numberOf 's')
    let text := if has given 'w' then text.take (numberOf 'w') else text
    String.ofList (if has given 'i' then text.map Char.toLower else text)
  match ← readFile (operands.head?.getD "-") with
  | .error fault => refuse call 1 (plainly (operands.head?.getD "-") fault)
  | .ok content => do
      let all := groups (fun a b => part a == part b) (textLines content)
      let all := all.filter fun e =>
        (!has given 'd' || 1 < e.2) && (!has given 'u' || e.2 == 1)
      let text := String.join (all.map fun (line, count) =>
        (if has given 'c' then columned 7 count ++ " " else "") ++ line ++ "\n")
      match operands[1]? with
      | none => print call text
      | some path =>
          match ← openFile path .replace with
          | .ok descriptor => do
              let _ ← Machine.call (.write descriptor (Text.bytesOf text))
          | .error fault => refuse call 1 (plainly path fault)
      return success

/-- The ranges in a list such as `1,3-5,7-`; an open end is `none`. -/
def ranges? (text : String) : Option (List (Nat × Option Nat)) :=
  (text.splitOn ",").mapM fun part =>
    match part.splitOn "-" with
    | [one] => (natural? one).bind fun n => if n = 0 then none else some (n, some n)
    | ["", last] => (natural? last).map fun n => (1, some n)
    | [first, ""] => (natural? first).bind fun n => if n = 0 then none else some (n, none)
    | [first, last] =>
        match natural? first, natural? last with
        | some a, some b => if a = 0 || b < a then none else some (a, some b)
        | _, _ => none
    | _ => none

def inRanges (ranges : List (Nat × Option Nat)) (n : Nat) : Bool :=
  ranges.any fun (first, last) => first ≤ n && last.all (n ≤ ·)

def picked {α : Type} (isPicked : Nat → Bool) (items : List α) : List α :=
  (items.zipIdx.filter fun e => isPicked (e.2 + 1)).map Prod.fst

def cut : Tool := fun call => do
  let (given, operands) ← options call
    { plain := "snz", valued := "bcfdOX", long := [("fields", 'f'), ("bytes", 'b'),
        ("characters", 'c'), ("delimiter", 'd'), ("only-delimited", 's'),
        ("output-delimiter", 'O')] }
  match given.find? fun e => "bcf".toList.contains e.1 with
  | none => misuse call 1 "you must specify a list of bytes, characters, or fields"
  | some (letter, text) =>
      match ranges? text with
      | none =>
          let zero := (text.splitOn ",").any fun part => part == "0" || part.startsWith "0-"
          if zero then
            misuse call 1 ((if letter = 'f' then "fields" else "byte/character positions") ++
              " are numbered from 1")
          else
            misuse call 1 ("invalid " ++ (if letter = 'f' then "field" else "byte/character position")
              ++ " value " ++ quoted text)
      | some ranges => do
          let delimiter := ((valueOf? given 'd').getD "\t")
          if delimiter.length != 1 then misuse call 1 "the delimiter must be a single character"
          let joint := (valueOf? given 'O').getD delimiter
          let cutLine (line : String) : Option String :=
            if letter = 'f' then
              match line.splitOn delimiter with
              | [_] => if has given 's' then none else some line
              | fields => some (joint.intercalate (picked (inRanges ranges) fields))
            else some (String.ofList (picked (inRanges ranges) line.toList))
          let (contents, ok) ← readOperands call plainly (orInput operands)
          let lines := contents.flatMap fun content => textLines content.2
          print call (String.join ((lines.filterMap cutLine).map (· ++ "\n")))
          return codeOf ok

def numberLines : Tool := fun call => do
  let (given, operands) ← options call { plain := "p", valued := "bsvwin" }
  let (contents, ok) ← readOperands call plainly (orInput operands)
  let lines := contents.flatMap fun content => textLines content.2
  let width := ((valueOf? given 'w').bind natural?).getD 6
  let joint := (valueOf? given 's').getD "\t"
  let all := (valueOf? given 'b').getD "t" == "a"
  let start := ((valueOf? given 'v').bind natural?).getD 1
  let (text, _) := lines.foldl
    (fun (text, number) line =>
      if line.isEmpty && !all then
        (text ++ String.ofList (List.replicate (width + joint.length) ' ') ++ "\n", number)
      else (text ++ columned width number ++ joint ++ line ++ "\n", number + 1))
    ("", start)
  print call text
  return codeOf ok

def backwards : Tool := fun call => do
  let (_, operands) ← options call { plain := "" }
  let (contents, ok) ← readOperands call
    (fun path fault => "failed to open " ++ quoted path ++ " for reading: " ++ fault.reason)
    (orInput operands)
  for (_, content) in contents do emit call (ofBytes (linesOf content).reverse.flatten)
  return codeOf ok

def reverseLines : Tool := fun call => do
  let (_, operands) ← options call { plain := "" }
  let (contents, ok) ← readOperands call
    (fun path fault => "cannot open " ++ path ++ ": " ++ fault.reason) (orInput operands)
  let reversed (line : List UInt8) : List UInt8 :=
    if line.getLast? = some 10 then line.dropLast.reverse ++ [10] else line.reverse
  for (_, content) in contents do emit call (ofBytes ((linesOf content).flatMap reversed))
  return codeOf ok

def rows : Nat → List (List String) → List (List String)
  | 0, _ => []
  | fuel + 1, columns =>
      if columns.all List.isEmpty then []
      else columns.map (fun column => column.head?.getD "") :: rows fuel (columns.map List.tail)

def joinedBy (separators : List Char) (texts : List String) : String :=
  String.join (texts.zipIdx.map fun (text, index) =>
    if index = 0 then text
    else
      match separators[(index - 1) % separators.length]? with
      | some c => String.singleton c ++ text
      | none => text)

def paste : Tool := fun call => do
  let (given, operands) ← options call { plain := "s", valued := "d", long := [("serial", 's'), ("delimiters", 'd')] }
  let (separators, _) := Shell.Format.unescape 1000 ((valueOf? given 'd').getD "\t").toList
  let (contents, ok) ← readOperands call plainly (orInput operands)
  let columns := contents.map fun content => textLines content.2
  let lines := if has given 's' then columns
    else rows ((columns.map List.length).foldl max 0 + 1) columns
  print call (String.join (lines.map fun line => joinedBy separators line ++ "\n"))
  return codeOf ok

end Handoff.Tool
