import DollarScript.Number.Read
import DollarScript.Toml.Text
import DollarScript.Toml.Value

/-! TOML values that are written without quotes or brackets: numbers, truth values, dates. -/
namespace DollarScript.Toml

/-- Digits with single low lines between them, which are left out. `after` tells whether a digit
stands just before. -/
def digitsOf? (isDigit : Char → Bool) (after : Bool) : List Char → Option (List Char)
  | [] => if after then some [] else none
  | c :: cs =>
    if isDigit c then (digitsOf? isDigit true cs).map (c :: ·)
    else if c = '_' ∧ after then digitsOf? isDigit false cs
    else none

/-- Decimal digits; only zero itself starts with a zero. -/
def wholeOf? (cs : List Char) : Option (List Char) :=
  (digitsOf? Char.isDigit false cs).bind fun digits =>
    if digits.head? = some '0' ∧ digits.length ≠ 1 then none else some digits

def valueIn (base : Nat) (digits : List Char) : Nat :=
  digits.foldl (fun n c => base * n + (hexDigit? c).getD 0) 0

/-- A sign in front, and whether it is a minus. -/
def splitSign : List Char → Bool × List Char
  | '-' :: cs => (true, cs)
  | '+' :: cs => (false, cs)
  | cs => (false, cs)

def isOctal (c : Char) : Bool := '0' ≤ c && c ≤ '7'

def isBinary (c : Char) : Bool := c == '0' || c == '1'

def isHex (c : Char) : Bool := (hexDigit? c).isSome

/-- Integers are those that fit into 128 bits, with or without sign. -/
def integer? (cs : List Char) : Option Value :=
  let n := match cs with
    | '0' :: 'x' :: rest => (digitsOf? isHex false rest).map fun ds => (valueIn 16 ds : Int)
    | '0' :: 'o' :: rest => (digitsOf? isOctal false rest).map fun ds => (valueIn 8 ds : Int)
    | '0' :: 'b' :: rest => (digitsOf? isBinary false rest).map fun ds => (valueIn 2 ds : Int)
    | _ =>
      let (negative, rest) := splitSign cs
      (wholeOf? rest).map fun ds => if negative then -(valueIn 10 ds : Int) else valueIn 10 ds
  n.bind fun n => if -Int.pow 2 127 ≤ n ∧ n < Int.pow 2 128 then some (.integer n) else none

/-- The exponent of a number, its mark included; nothing is no exponent. -/
def exponentOf? (cs : List Char) : Option (List Char) :=
  match cs with
  | [] => some []
  | mark :: rest =>
    if mark = 'e' ∨ mark = 'E' then
      let (negative, digits) := splitSign rest
      (digitsOf? Char.isDigit false digits).map fun ds =>
        'e' :: (if negative then ['-'] else []) ++ ds
    else none

/-- The digits behind a point. -/
def fractionOf? (cs : List Char) : Option (List Char × List Char) :=
  let inFraction (c : Char) : Bool := c.isDigit || c == '_'
  match cs with
  | '.' :: rest =>
    (digitsOf? Char.isDigit false (rest.takeWhile inFraction)).map fun ds =>
      ('.' :: ds, rest.dropWhile inFraction)
  | _ => some ([], cs)

/-- A number with a point or an exponent; it has to be finite. -/
def float? (cs : List Char) : Option Value := do
  let (negative, body) := splitSign cs
  if body = ['i', 'n', 'f'] then return .float (.infinite negative)
  if body = ['n', 'a', 'n'] then return .float .nan
  let inWhole (c : Char) : Bool := c.isDigit || c == '_'
  let whole ← wholeOf? (body.takeWhile inWhole)
  let (fraction, rest) ← fractionOf? (body.dropWhile inWhole)
  let exponent ← exponentOf? rest
  if fraction = [] ∧ exponent = [] then none
  else
    match ← Binary64.read? (String.ofList (whole ++ fraction ++ exponent)) with
    | .infinite _ => none
    | .finite _ rank => return .float (.finite negative rank)
    | .nan => none

/-- A number of exactly `count` digits. -/
def fixedDigits? (count : Nat) (cs : List Char) : Option (Nat × List Char) :=
  let front := cs.take count
  if front.length = count ∧ front.all Char.isDigit then
    some (Binary64.digitsValue front, cs.drop count)
  else none

def lastDay (year month : Nat) : Nat :=
  if month = 2 then
    if year % 4 = 0 ∧ (year % 100 ≠ 0 ∨ year % 400 = 0) then 29 else 28
  else if month = 4 ∨ month = 6 ∨ month = 9 ∨ month = 11 then 30
  else 31

/-- Year, month and day; gives what follows. -/
def dropDate? (cs : List Char) : Option (List Char) := do
  let (year, rest) ← fixedDigits? 4 cs
  let '-' :: rest := rest | none
  let (month, rest) ← fixedDigits? 2 rest
  let '-' :: rest := rest | none
  let (day, rest) ← fixedDigits? 2 rest
  if 1 ≤ month ∧ month ≤ 12 ∧ 1 ≤ day ∧ day ≤ lastDay year month then some rest else none

/-- Hours and minutes; gives what follows. -/
def dropHourMinute? (cs : List Char) : Option (List Char) := do
  let (hour, rest) ← fixedDigits? 2 cs
  let ':' :: rest := rest | none
  let (minute, rest) ← fixedDigits? 2 rest
  if hour ≤ 23 ∧ minute ≤ 59 then some rest else none

/-- Seconds with a fraction, if there are any; gives what follows. -/
def dropSeconds? (cs : List Char) : Option (List Char) :=
  match cs with
  | ':' :: rest =>
    (fixedDigits? 2 rest).bind fun (second, rest) =>
      if 60 < second then none
      else
        match rest with
        | '.' :: more =>
          if (more.takeWhile Char.isDigit).isEmpty then none
          else some (more.dropWhile Char.isDigit)
        | _ => some rest
  | _ => some cs

def dropTime? (cs : List Char) : Option (List Char) := (dropHourMinute? cs).bind dropSeconds?

/-- The offset from universal time, if there is one; nothing may follow. -/
def isOffset (cs : List Char) : Bool :=
  match cs with
  | [] => true
  | c :: rest =>
    ((c == 'Z' || c == 'z') && rest.isEmpty)
      || ((c == '+' || c == '-') && dropHourMinute? rest == some [])

/-- A date, a time, or both with a `T` or a blank between them. -/
def isDatetime (cs : List Char) : Bool :=
  match dropDate? cs with
  | some [] => true
  | some (mark :: rest) =>
    (mark == 'T' || mark == 't' || mark == ' ') && (dropTime? rest).any isOffset
  | none => dropTime? cs == some []

/-- A whole text without quotes. -/
def scalar? (cs : List Char) : Option Value :=
  if cs = ['t', 'r', 'u', 'e'] then some (.boolean true)
  else if cs = ['f', 'a', 'l', 's', 'e'] then some (.boolean false)
  else if isDatetime cs then some .datetime
  else (integer? cs).or (float? cs)

/-- Characters that end a value without quotes. -/
def endsScalar (c : Char) : Bool := [' ', '\t', '\n', '\r', ',', ']', '\x7d', '#'].contains c

/-- A value without quotes at the front of a text; a date takes a time behind a blank along. -/
def readScalar? (cs : List Char) : Option (Value × List Char) :=
  let front := cs.takeWhile fun c => !endsScalar c
  let rest := cs.drop front.length
  match dropDate? front, rest with
  | some [], ' ' :: d :: more =>
    if d.isDigit then
      let time := (d :: more).takeWhile fun c => !endsScalar c
      (scalar? (front ++ ' ' :: time)).map (·, (d :: more).drop time.length)
    else (scalar? front).map (·, rest)
  | _, _ => (scalar? front).map (·, rest)

end DollarScript.Toml
