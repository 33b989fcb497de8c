import Handoff.Host.Shell.Arithmetic
/-!
# Formatted output

The escapes and conversions of `echo` and `printf`.  All texts are byte texts.
-/

namespace Handoff.Shell.Format

def isOctal (c : Char) : Bool :=
  '0' ≤ c && c ≤ '7'

def byteChar (n : Nat) : Char :=
  Char.ofNat (n % 256)

def escape? : Char → Option Char
  | 'a' => some '\x07'
  | 'b' => some '\x08'
  | 'f' => some '\x0c'
  | 'n' => some '\n'
  | 'r' => some '\r'
  | 't' => some '\t'
  | 'v' => some '\x0b'
  | '\\' => some '\\'
  | _ => none

/-- The character that an escape stands for, and what follows; the backslash has been
taken.  It stands for itself when there is no such escape. -/
def escaped (text : List Char) : Char × List Char :=
  match text with
  | c :: rest =>
      match escape? c with
      | some found => (found, rest)
      | none =>
          let digits := (text.take 3).takeWhile isOctal
          if digits.isEmpty then ('\\', text)
          else (byteChar (Arithmetic.digits 8 digits 0 0).1, text.drop digits.length)
  | [] => ('\\', [])

def unescape : Nat → List Char → List Char × Bool
  | 0, _ => ([], true)
  | _ + 1, [] => ([], true)
  | fuel + 1, '\\' :: rest =>
      if rest.head? = some 'c' then ([], false)
      else
        -- A zero in front of octal digits does not count as one of them.
        let rest := match rest with
          | '0' :: d :: more => if isOctal d then d :: more else rest
          | _ => rest
        let (c, rest) := escaped rest
        let (text, goesOn) := unescape fuel rest
        (c :: text, goesOn)
  | fuel + 1, c :: rest =>
      let (text, goesOn) := unescape fuel rest
      (c :: text, goesOn)

/-- What `echo` prints for its words, and whether the output goes on. -/
def echoWords : List String → List Char × Bool
  | [] => ([], true)
  | word :: rest =>
      let (text, goesOn) := unescape (word.length + 1) word.toList
      if !goesOn then (text, false)
      else if rest.isEmpty then (text, true)
      else
        let (more, goesOn) := echoWords rest
        (text ++ ' ' :: more, goesOn)

def echoed (arguments : List String) : String :=
  let (line, words) := match arguments with
    | "-n" :: rest => (false, rest)
    | _ => (true, arguments)
  let (text, goesOn) := echoWords words
  String.ofList (if goesOn && line then text ++ ['\n'] else text)

inductive Warning where
  | notNumeric (text : String)
  | incomplete (text : String)
  | outOfRange (text : String)
  deriving DecidableEq

inductive Stop where
  | quietly
  | missingLetter
  | badConversion (text : String)

/-- Output under way: the arguments that are left, what was printed, the last character
first, and the warnings, the last one first. -/
structure Progress where
  arguments : List String
  output : List Char
  warnings : List Warning

abbrev FormatM := ExceptT Stop (StateM Progress)

def emit (text : List Char) : FormatM Unit :=
  modify fun progress => { progress with output := text.reverse ++ progress.output }

def warn (warning : Warning) : FormatM Unit :=
  modify fun progress => { progress with warnings := warning :: progress.warnings }

def argument? : FormatM (Option String) := do
  let progress ← get
  set { progress with arguments := progress.arguments.tail }
  return progress.arguments.head?

def checkRest (text : String) (rest : List Char) : FormatM Unit := do
  if rest.length = text.length then
    if !text.isEmpty then warn (.notNumeric text)
  else if !rest.isEmpty then warn (.incomplete text)

def codeOf? (text : String) : Option Nat :=
  match text.toList with
  | '"' :: rest => some ((rest.head?.map Char.toNat).getD 0)
  | '\'' :: rest => some ((rest.head?.map Char.toNat).getD 0)
  | _ => none

def integer (least most : Int) : FormatM Int := do
  match ← argument? with
  | none => return 0
  | some text =>
      match codeOf? text with
      | some code => return code
      | none =>
          match Arithmetic.signed? text.toList with
          | none => do
              checkRest text text.toList
              return 0
          | some (n, rest) => do
              if rest.isEmpty && (n < least || most < n) then warn (.outOfRange text)
              else checkRest text rest
              return max least (min most n)

/-- The largest number of 64 bits without a sign. -/
def naturalMax : Int := 18446744073709551615

def signedInteger : FormatM Int :=
  integer Arithmetic.intMin Arithmetic.intMax

/-- The next argument as a number without a sign; a negative one is counted from the top. -/
def unsignedInteger : FormatM Nat := do
  let n ← integer (-naturalMax) naturalMax
  return if n < 0 then (n + naturalMax + 1).toNat else n.toNat

/-- A decimal number with a point and an exponent: its digits, how many of them stand
after the point, and what follows. -/
def decimal? (text : List Char) : Option (Nat × Int × List Char) :=
  let whole := text.takeWhile Char.isDigit
  let rest := text.drop whole.length
  let (fraction, rest) := match rest with
    | '.' :: more =>
        let digits := more.takeWhile Char.isDigit
        (digits, if whole.isEmpty && digits.isEmpty then rest else more.drop digits.length)
    | _ => ([], rest)
  if whole.isEmpty && fraction.isEmpty then none
  else
    let (exponent, rest) : Int × List Char := match rest with
      | e :: more =>
          let (negative, more) := match more with
            | '-' :: more => (true, more)
            | '+' :: more => (false, more)
            | more => (false, more)
          let digits := more.takeWhile Char.isDigit
          if (e == 'e' || e == 'E') && !digits.isEmpty then
            let n : Int := (Arithmetic.digits 10 digits 0 0).1
            (if negative then -n else n, more.drop digits.length)
          else (0, rest)
      | [] => (0, [])
    some ((Arithmetic.digits 10 (whole ++ fraction) 0 0).1, fraction.length - exponent, rest)

/-- A fraction: whether it is negative, its numerator and its denominator. -/
structure Fraction where
  negative : Bool
  numerator : Nat
  denominator : Nat

def fractionOf (negative : Bool) (value : Float) : Fraction :=
  let bits := value.toBits.toNat
  let exponent := bits / 4503599627370496 % 2048
  let mantissa := bits % 4503599627370496
  let (mantissa, exponent) := if exponent = 0 then (mantissa, 1)
    else (mantissa + 4503599627370496, exponent)
  if 1075 ≤ exponent then
    { negative, numerator := mantissa * Nat.pow 2 (exponent - 1075), denominator := 1 }
  else { negative, numerator := mantissa, denominator := Nat.pow 2 (1075 - exponent) }

def double : FormatM Fraction := do
  match ← argument? with
  | none => return ⟨false, 0, 1⟩
  | some text =>
      match codeOf? text with
      | some code => return ⟨false, code, 1⟩
      | none =>
          let blanks := text.toList.takeWhile Arithmetic.isSpace
          let (negative, rest) := match text.toList.drop blanks.length with
            | '-' :: rest => (true, rest)
            | '+' :: rest => (false, rest)
            | rest => (false, rest)
          match decimal? rest with
          | none => do
              checkRest text text.toList
              return ⟨false, 0, 1⟩
          | some (digits, places, rest) => do
              checkRest text rest
              let value := if places < 0 then Float.ofScientific digits false (-places).toNat
                else Float.ofScientific digits true places.toNat
              return fractionOf negative value

/-- The nearest whole number to a quotient; a half goes to the even one. -/
def rounded (numerator denominator : Nat) : Nat :=
  let quotient := numerator / denominator
  let twice := 2 * (numerator % denominator)
  if twice < denominator then quotient
  else if denominator < twice then quotient + 1
  else quotient + quotient % 2

structure Conversion where
  flags : List Char
  width : Nat
  precision : Option Nat

namespace Conversion

def has (c : Conversion) (flag : Char) : Bool :=
  c.flags.contains flag

def padded (c : Conversion) (text : List Char) : List Char :=
  let gap := List.replicate (c.width - text.length) ' '
  if c.has '-' then text ++ gap else gap ++ text

/-- The text of a number after its sign; zeros go between both if they are asked for. -/
def signed (c : Conversion) (zeros : Bool) (sign text : List Char) : List Char :=
  if zeros && !c.has '-' then
    sign ++ List.replicate (c.width - sign.length - text.length) '0' ++ text
  else c.padded (sign ++ text)

def signOf (c : Conversion) (negative : Bool) : List Char :=
  if negative then ['-'] else if c.has '+' then ['+'] else if c.has ' ' then [' '] else []

def digitsOf (c : Conversion) (base n : Nat) : List Char :=
  let digits := if n = 0 && c.precision = some 0 then [] else Nat.toDigits base n
  List.replicate (c.precision.getD 1 - digits.length) '0' ++ digits

def integer (c : Conversion) (n : Int) : List Char :=
  c.signed (c.has '0' && c.precision.isNone) (c.signOf (n < 0)) (c.digitsOf 10 n.natAbs)

def natural (c : Conversion) (letter : Char) (n : Nat) : List Char :=
  let zeros := c.has '0' && c.precision.isNone
  match letter with
  | 'x' =>
      c.signed zeros (if c.has '#' && n != 0 then ['0', 'x'] else []) (c.digitsOf 16 n)
  | 'X' =>
      c.signed zeros (if c.has '#' && n != 0 then ['0', 'X'] else [])
        ((c.digitsOf 16 n).map Char.toUpper)
  | 'o' =>
      let digits := c.digitsOf 8 n
      c.signed zeros [] (if c.has '#' && digits.head? != some '0' then '0' :: digits else digits)
  | _ => c.signed zeros [] (c.digitsOf 10 n)

def pointed (c : Conversion) (places units : Nat) : List Char :=
  let digits := Nat.toDigits 10 units
  let digits := List.replicate (places + 1 - digits.length) '0' ++ digits
  let whole := digits.take (digits.length - places)
  if places = 0 && !c.has '#' then whole
  else whole ++ '.' :: digits.drop (digits.length - places)

/-- The exponent of the first digit of a fraction: it is at least ten to that power. -/
def magnitude (f : Fraction) : Int :=
  let up := (List.range 400).find? fun n => f.numerator < f.denominator * Nat.pow 10 (n + 1)
  let down := (List.range 400).find? fun n => f.denominator ≤ f.numerator * Nat.pow 10 n
  if f.denominator ≤ f.numerator then (up.getD 0 : Nat) else -((down.getD 0 : Nat) : Int)

def scientific (f : Fraction) (places : Nat) : Nat × Int :=
  if f.numerator = 0 then (0, 0)
  else
    let exponent := magnitude f
    let shift := (places : Int) - exponent
    let units := if shift < 0 then
        rounded f.numerator (f.denominator * Nat.pow 10 (-shift).toNat)
      else rounded (f.numerator * Nat.pow 10 shift.toNat) f.denominator
    if units = Nat.pow 10 (places + 1) then (units / 10, exponent + 1) else (units, exponent)

def exponentText (exponent : Int) : List Char :=
  let digits := Nat.toDigits 10 exponent.natAbs
  'e' :: (if exponent < 0 then '-' else '+') ::
    (List.replicate (2 - digits.length) '0' ++ digits)

def trimmed (text : List Char) : List Char :=
  if text.contains '.' then
    let rest := text.reverse.dropWhile (· == '0')
    (match rest with
      | '.' :: rest => rest
      | rest => rest).reverse
  else text

def fraction (c : Conversion) (letter : Char) (f : Fraction) : List Char :=
  let places := c.precision.getD 6
  match letter.toLower with
  | 'f' => c.pointed places (rounded (f.numerator * Nat.pow 10 places) f.denominator)
  | 'e' =>
      let (units, exponent) := scientific f places
      c.pointed places units ++ exponentText exponent
  | _ =>
      let digits := max places 1
      let (units, exponent) := scientific f (digits - 1)
      let trim (text : List Char) : List Char := if c.has '#' then text else trimmed text
      if -4 ≤ exponent && exponent < digits then
        let places := ((digits : Int) - 1 - exponent).toNat
        trim (c.pointed places (rounded (f.numerator * Nat.pow 10 places) f.denominator))
      else trim (c.pointed (digits - 1) units) ++ exponentText exponent

def double (c : Conversion) (letter : Char) (f : Fraction) : List Char :=
  let text := c.fraction letter f
  c.signed (c.has '0') (c.signOf f.negative)
    (if letter.isUpper then text.map Char.toUpper else text)

def text (c : Conversion) (text : List Char) : List Char :=
  c.padded (match c.precision with
    | some most => text.take most
    | none => text)

end Conversion

def amount (text : List Char) : FormatM (Option Int × List Char) := do
  match text with
  | '*' :: rest => return (some (← signedInteger), rest)
  | _ =>
      let digits := text.takeWhile Char.isDigit
      let value : Option Int :=
        if digits.isEmpty then none else some (Arithmetic.digits 10 digits 0 0).1
      return (value, text.drop digits.length)

def conversion (text : List Char) : FormatM (Conversion × List Char) := do
  let flags := text.takeWhile fun c => "#-+ 0".toList.contains c
  let (width, rest) ← amount (text.drop flags.length)
  let width := width.getD 0
  let flags := if width < 0 then '-' :: flags else flags
  match rest with
  | '.' :: rest => do
      let (precision, rest) ← amount rest
      let precision := precision.getD 0
      let precision := if precision < 0 then none else some precision.toNat
      return ({ flags, width := width.natAbs, precision }, rest)
  | _ => return ({ flags, width := width.natAbs, precision := none }, rest)

def convert (c : Conversion) (letter : Char) (source : List Char) : FormatM Unit := do
  match letter with
  | 'b' => do
      let argument := (← argument?).getD ""
      let (text, goesOn) := unescape (argument.length + 1) argument.toList
      emit (c.text text)
      if !goesOn then throw .quietly
  | 's' => do emit (c.text ((← argument?).getD "").toList)
  | 'c' => do
      let argument := (← argument?).getD ""
      emit (c.padded [argument.toList.head?.getD '\x00'])
  | _ =>
      if letter == 'd' || letter == 'i' then emit (c.integer (← signedInteger))
      else if "ouxX".toList.contains letter then emit (c.natural letter (← unsignedInteger))
      else if "eEfFgG".toList.contains letter then emit (c.double letter (← double))
      else
        throw (.badConversion (String.ofList ('%' :: source.takeWhile (· != letter) ++ [letter])))

/-- One pass over a format.  Escapes are resolved by `resolve`. -/
def pass (resolve : List Char → Char × List Char) : Nat → List Char → FormatM Unit
  | 0, _ => return
  | _ + 1, [] => return
  | fuel + 1, '%' :: '%' :: rest => do
      emit ['%']
      pass resolve fuel rest
  | fuel + 1, '%' :: source => do
      let (c, rest) ← conversion source
      match rest with
      | [] => throw .missingLetter
      | letter :: rest => do
          convert c letter source
          pass resolve fuel rest
  | fuel + 1, '\\' :: rest => do
      let (c, rest) := resolve rest
      emit [c]
      pass resolve fuel rest
  | fuel + 1, c :: rest => do
      emit [c]
      pass resolve fuel rest

def passes (resolve : List Char → Char × List Char) (format : List Char) : Nat → FormatM Unit
  | 0 => return
  | fuel + 1 => do
      let before := (← get).arguments.length
      pass resolve (format.length + 1) format
      let after := (← get).arguments.length
      if 0 < after && after < before then passes resolve format fuel

structure Result where
  output : String
  warnings : List Warning
  stop : Option Stop

def formatted (resolve : List Char → Char × List Char) (format : String)
    (arguments : List String) : Result :=
  let (result, progress) :=
    (passes resolve format.toList (arguments.length + 1)).run.run
      { arguments, output := [], warnings := [] }
  { output := String.ofList progress.output.reverse
    warnings := progress.warnings.reverse
    stop := match result with
      | .ok () => none
      | .error stop => some stop }

end Handoff.Shell.Format
