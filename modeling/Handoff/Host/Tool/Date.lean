import Handoff.Host.Tool.Basic
/-!
# Dates

The tool that shows what day it is, and the calendar behind it.
-/

namespace Handoff.Tool

structure Day where
  year : Nat
  month : Nat
  day : Nat
  deriving DecidableEq

namespace Day

/-- The day that is so many days after the first day of 1970.  Years are counted from the
first of March, so that the leap day comes last. -/
def ofEpoch (days : Nat) : Day :=
  let shifted := days + 719468
  let era := shifted / 146097
  let dayOfEra := shifted % 146097
  let yearOfEra := (dayOfEra - dayOfEra / 1460 + dayOfEra / 36524 - dayOfEra / 146096) / 365
  let dayOfYear := dayOfEra - (365 * yearOfEra + yearOfEra / 4 - yearOfEra / 100)
  let monthFromMarch := (5 * dayOfYear + 2) / 153
  let month := if monthFromMarch < 10 then monthFromMarch + 3 else monthFromMarch - 9
  { year := yearOfEra + era * 400 + if month ≤ 2 then 1 else 0
    month
    day := dayOfYear - (153 * monthFromMarch + 2) / 5 + 1 }

def isLeap (year : Nat) : Bool :=
  year % 4 = 0 && (year % 100 != 0 || year % 400 = 0)

def monthLength (year month : Nat) : Nat :=
  if month = 2 then (if isLeap year then 29 else 28)
  else if [4, 6, 9, 11].contains month then 30
  else 31

def inYear (day : Day) : Nat :=
  ((List.range (day.month - 1)).map fun m => monthLength day.year (m + 1)).foldl (· + ·) day.day

end Day

def monthNames : List String :=
  ["January", "February", "March", "April", "May", "June", "July", "August", "September",
    "October", "November", "December"]

def dayNames : List String :=
  ["Sunday", "Monday", "Tuesday", "Wednesday", "Thursday", "Friday", "Saturday"]

/-- The second at which the clock of a host starts, counted from the first day of 1970. -/
def clockStart : Nat := 1767225600

def zeroed (width n : Nat) : String :=
  let digits := toString n
  String.ofList (List.replicate (width - digits.length) '0') ++ digits

/-- A moment: seconds since the first day of 1970, and nanoseconds. -/
structure Moment where
  seconds : Nat
  nanos : Nat

def Moment.part (moment : Moment) (letter : Char) : Option String :=
  let days := moment.seconds / 86400
  let day := Day.ofEpoch days
  let weekday := (days + 4) % 7
  let hour := moment.seconds / 3600 % 24
  let minute := moment.seconds / 60 % 60
  let second := moment.seconds % 60
  let twelve := if hour % 12 = 0 then 12 else hour % 12
  let clock := zeroed 2 hour ++ ":" ++ zeroed 2 minute
  let monthName := monthNames[day.month - 1]?.getD ""
  let dayName := dayNames[weekday]?.getD ""
  let blanked (n : Nat) : String := if n < 10 then " " ++ toString n else toString n
  match letter with
  | 'Y' => some (toString day.year)
  | 'C' => some (zeroed 2 (day.year / 100))
  | 'y' => some (zeroed 2 (day.year % 100))
  | 'm' => some (zeroed 2 day.month)
  | 'd' => some (zeroed 2 day.day)
  | 'e' => some (blanked day.day)
  | 'H' => some (zeroed 2 hour)
  | 'k' => some (blanked hour)
  | 'I' => some (zeroed 2 twelve)
  | 'l' => some (blanked twelve)
  | 'M' => some (zeroed 2 minute)
  | 'S' => some (zeroed 2 second)
  | 'p' => some (if hour < 12 then "AM" else "PM")
  | 's' => some (toString moment.seconds)
  | 'N' => some (zeroed 9 moment.nanos)
  | 'F' => some (toString day.year ++ "-" ++ zeroed 2 day.month ++ "-" ++ zeroed 2 day.day)
  | 'D' => some (zeroed 2 day.month ++ "/" ++ zeroed 2 day.day ++ "/" ++ zeroed 2 (day.year % 100))
  | 'T' => some (clock ++ ":" ++ zeroed 2 second)
  | 'R' => some clock
  | 'j' => some (zeroed 3 day.inYear)
  | 'u' => some (toString (if weekday = 0 then 7 else weekday))
  | 'w' => some (toString weekday)
  | 'B' => some monthName
  | 'b' => some (monthName.take 3).toString
  | 'h' => some (monthName.take 3).toString
  | 'A' => some dayName
  | 'a' => some (dayName.take 3).toString
  | 'Z' => some "UTC"
  | 'z' => some "+0000"
  | 'n' => some "\n"
  | 't' => some "\t"
  | '%' => some "%"
  | _ => none

def Moment.shown (moment : Moment) : Nat → List Char → String
  | 0, _ => ""
  | fuel + 1, '%' :: letter :: rest =>
      (moment.part letter).getD ("%" ++ String.singleton letter) ++ moment.shown fuel rest
  | fuel + 1, c :: rest => String.singleton c ++ moment.shown fuel rest
  | _, [] => ""

def ordinaryFormat : String := "%a %b %e %H:%M:%S %Z %Y"

def showDate : Tool := fun call => do
  let (given, operands) ← options call
    { plain := "uR", valued := "dI", long := [("date", 'd'), ("utc", 'u'), ("universal", 'u')] }
  let clock ← Machine.call .clock
  let now : Moment := { seconds := clockStart + clock / 1000000000, nanos := clock % 1000000000 }
  let moment ← match valueOf? given 'd' with
    | none => pure now
    | some "now" => pure now
    | some text =>
        match text.toList with
        | '@' :: digits =>
            match natural? (String.ofList digits) with
            | some seconds => pure { seconds, nanos := 0 }
            | none => refuse call 1 ("invalid date " ++ quoted text)
        | _ => refuse call 1 ("invalid date " ++ quoted text)
  let format ← match operands with
    | [] => pure ordinaryFormat
    | [operand] =>
        match operand.toList with
        | '+' :: format => pure (String.ofList format)
        | _ => refuse call 1 ("invalid date " ++ quoted operand)
    | _ :: extra :: _ => misuse call 1 ("extra operand " ++ quoted extra)
  print call (moment.shown (format.length + 1) format.toList ++ "\n")
  return success

end Handoff.Tool
