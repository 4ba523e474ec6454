import DollarScript.Number.Shortest

/-! JSON values and their two text forms. -/
namespace DollarScript

/-- Object members keep the order in which they are given. -/
inductive Json where
  | null
  | bool (b : Bool)
  | natural (n : Nat)
  | real (x : Binary64)
  | str (s : String)
  | arr (items : List Json)
  | obj (members : List (String × Json))

namespace Json

/-- Exponents outside `1e-5 ≤ |x| < 1e16`; a number that is not finite has no JSON form. -/
def realLayout : Binary64.Layout where
  positional := some (-4, 16)
  fraction := true
  plus := true
  tie := .even
  infinity := fun _ => "null"
  nan := "null"

def lowHex (n : Nat) : List Char :=
  let digits := Nat.toDigits 16 n
  List.replicate (4 - digits.length) '0' ++ digits

def escapedChar (c : Char) : List Char :=
  match c with
  | '"' => ['\\', '"']
  | '\\' => ['\\', '\\']
  | '\n' => ['\\', 'n']
  | '\t' => ['\\', 't']
  | '\r' => ['\\', 'r']
  | '\x08' => ['\\', 'b']
  | '\x0c' => ['\\', 'f']
  | c => if c.toNat < 32 then ['\\', 'u'] ++ lowHex c.toNat else [c]

def stringText (s : String) : String :=
  String.ofList ('"' :: s.toList.flatMap escapedChar ++ ['"'])

def naturalText (n : Nat) : String := String.ofList (Nat.toDigits 10 n)

mutual

/-- The text on one line, without blanks. -/
def compact : Json → String
  | .null => "null"
  | .bool b => if b then "true" else "false"
  | .natural n => naturalText n
  | .real x => x.text realLayout
  | .str s => stringText s
  | .arr items => "[" ++ compactItems items ++ "]"
  | .obj members => "\x7b" ++ compactMembers members ++ "\x7d"

def compactItems : List Json → String
  | [] => ""
  | [v] => compact v
  | v :: w :: rest => compact v ++ "," ++ compactItems (w :: rest)

def compactMembers : List (String × Json) → String
  | [] => ""
  | [(k, v)] => stringText k ++ ":" ++ compact v
  | (k, v) :: m :: rest => stringText k ++ ":" ++ compact v ++ "," ++ compactMembers (m :: rest)

end

/-- A new line, two blanks for each level. -/
def newline (depth : Nat) : String := String.ofList ('\n' :: List.replicate (2 * depth) ' ')

mutual

/-- The text with each item on a line of its own. -/
def pretty (depth : Nat) : Json → String
  | .null => "null"
  | .bool b => if b then "true" else "false"
  | .natural n => naturalText n
  | .real x => x.text realLayout
  | .str s => stringText s
  | .arr [] => "[]"
  | .arr (v :: rest) =>
    "[" ++ newline (depth + 1) ++ prettyItems (depth + 1) (v :: rest) ++ newline depth ++ "]"
  | .obj [] => "\x7b\x7d"
  | .obj (m :: rest) =>
    "\x7b" ++ newline (depth + 1) ++ prettyMembers (depth + 1) (m :: rest) ++ newline depth ++ "\x7d"

def prettyItems (depth : Nat) : List Json → String
  | [] => ""
  | [v] => pretty depth v
  | v :: w :: rest => pretty depth v ++ "," ++ newline depth ++ prettyItems depth (w :: rest)

def prettyMembers (depth : Nat) : List (String × Json) → String
  | [] => ""
  | [(k, v)] => stringText k ++ ": " ++ pretty depth v
  | (k, v) :: m :: rest =>
    stringText k ++ ": " ++ pretty depth v ++ "," ++ newline depth ++ prettyMembers depth (m :: rest)

end

end Json

end DollarScript
