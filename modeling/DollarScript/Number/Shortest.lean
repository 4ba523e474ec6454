import DollarScript.Number.Binary64

/-! The fewest decimal digits that read back as the same number, and their layout as text. -/
namespace DollarScript.Binary64

/-- Which of two equally near decimals to write. -/
inductive Tie where
  | even
  | upward
  deriving DecidableEq

/-- Position of the decimal point of a magnitude: the number of digits before it, or minus the
number of zeros after it. -/
def pointOf (rank : Nat) : Int :=
  (Nat.toDigits 10 (units rank * Nat.pow 10 400 / unitsPerOne)).length - 400

/-- Decimal neighbours of a magnitude on the grid of step `10 ^ exponent`: the one below, and on
which side of the middle the magnitude lies. -/
def below (rank : Nat) (exponent : Int) : Nat × Ordering :=
  let num := units rank * Nat.pow 10 (-exponent).toNat
  let den := unitsPerOne * Nat.pow 10 exponent.toNat
  (num / den, compare (2 * (num % den)) den)

/-- The decimal of `count` digits that reads back as `rank`, the nearer of two. -/
def digitsAt? (tie : Tie) (rank : Nat) (point : Int) (count : Nat) : Option Decimal :=
  let exponent := point - count
  let (low, side) := below rank exponent
  let down : Decimal := ⟨low, exponent⟩
  let up : Decimal := ⟨low + 1, exponent⟩
  match decide (rankOfDecimal down = rank), decide (rankOfDecimal up = rank) with
  | false, false => none
  | true, false => some down
  | false, true => some up
  | true, true =>
    match side with
    | .lt => some down
    | .gt => some up
    | .eq => some (if tie = .even ∧ low % 2 = 0 then down else up)

/-- The exact value; every digit of it. -/
def exact (rank : Nat) : Decimal := ⟨units rank * Nat.pow 5 1074, -1074⟩

/-- The shortest decimal that reads back as `rank`. -/
def shortest (tie : Tie) (rank : Nat) : Decimal :=
  let point := pointOf rank
  ((List.range' 1 17).findSome? (digitsAt? tie rank point)).getD (exact rank)

/-- How a number is laid out. -/
structure Layout where
  /-- Digits before the point, or minus zeros after it, from which to which no exponent is used;
  `none` when an exponent is never used. -/
  positional : Option (Int × Int)
  /-- Whether a whole number still shows a point and a zero. -/
  fraction : Bool
  /-- Whether a positive exponent has a sign. -/
  plus : Bool
  tie : Tie
  infinity : Bool → String
  nan : String

def signText (negative : Bool) : String := if negative then "-" else ""

def zeros (n : Nat) : String := String.ofList (List.replicate n '0')

/-- Digits and point without an exponent. -/
def positionalText (fraction : Bool) (digits : List Char) (point : Int) : String :=
  if point ≤ 0 then "0." ++ zeros (-point).toNat ++ String.ofList digits
  else
    let front := point.toNat
    if front < digits.length then
      String.ofList (digits.take front) ++ "." ++ String.ofList (digits.drop front)
    else
      String.ofList digits ++ zeros (front - digits.length) ++ (if fraction then ".0" else "")

/-- One digit before the point and an exponent. -/
def exponentText (plus : Bool) (digits : List Char) (point : Int) : String :=
  let front := String.ofList (digits.take 1)
  let back := digits.drop 1
  let exponent := point - 1
  front ++ (if back.isEmpty then "" else "." ++ String.ofList back) ++ "e"
    ++ (if exponent < 0 then "-" else if plus then "+" else "")
    ++ String.ofList (Nat.toDigits 10 exponent.natAbs)

/-- Zeros at the end of the digits say nothing that the point does not. -/
def trimZeros (digits : List Char) : List Char :=
  (digits.reverse.dropWhile (· == '0')).reverse

def magnitudeText (layout : Layout) (rank : Nat) : String :=
  if rank = 0 then (if layout.fraction then "0.0" else "0")
  else
    let d := shortest layout.tie rank
    let written := Nat.toDigits 10 d.digits
    let point := written.length + d.exponent
    let digits := trimZeros written
    let inside := match layout.positional with
      | none => true
      | some (low, high) => low ≤ point ∧ point ≤ high
    if inside then positionalText layout.fraction digits point
    else exponentText layout.plus digits point

def text (layout : Layout) : Binary64 → String
  | .finite negative rank => signText negative ++ magnitudeText layout rank
  | .infinite negative => layout.infinity negative
  | .nan => layout.nan

end DollarScript.Binary64
