import DollarScript.Number.Shortest
import DollarScript.Program
import DollarScript.Text.Quoted

/-! Programs as an indented outline: every part on a line of its own. -/
namespace DollarScript

/-- What an outline is made of. -/
inductive Outline where
  | atom (text : String)
  | record (name : String) (fields : List (String × Outline))
  | wrapped (name : String) (inner : Outline)
  | items (all : List Outline)

namespace Outline

/-- A new line, four blanks for each level. -/
def newline (depth : Nat) : String := String.ofList ('\n' :: List.replicate (4 * depth) ' ')

mutual

def text (depth : Nat) : Outline → String
  | .atom text => text
  | .record name fields => name ++ " \x7b" ++ fieldsText (depth + 1) fields ++ newline depth ++ "\x7d"
  | .wrapped name inner =>
    name ++ "(" ++ newline (depth + 1) ++ inner.text (depth + 1) ++ "," ++ newline depth ++ ")"
  | .items [] => "[]"
  | .items (o :: rest) => "[" ++ itemsText (depth + 1) (o :: rest) ++ newline depth ++ "]"

def fieldsText (depth : Nat) : List (String × Outline) → String
  | [] => ""
  | (name, o) :: rest =>
    newline depth ++ name ++ ": " ++ o.text depth ++ "," ++ fieldsText depth rest

def itemsText (depth : Nat) : List Outline → String
  | [] => ""
  | o :: rest => newline depth ++ o.text depth ++ "," ++ itemsText depth rest

end

end Outline

def BinaryOp.name : BinaryOp → String
  | .add => "Add"
  | .sub => "Sub"
  | .mul => "Mul"
  | .div => "Div"
  | .eq => "Eq"
  | .strictEq => "StrictEq"

/-- Exponents outside `1e-4 ≤ |x| < 1e16`. -/
def Expr.outlineLayout : Binary64.Layout where
  positional := some (-3, 16)
  fraction := true
  plus := false
  tie := .upward
  infinity := fun negative => Binary64.signText negative ++ "inf"
  nan := "NaN"

def Expr.outline : Expr → Outline
  | .number value => .record "Number" [("value", .atom (value.text outlineLayout))]
  | .var name => .record "Variable" [("name", .atom (Text.quoted name))]
  | .binary op left right => .record "Binary" [
    ("operator", .atom op.name), ("left", left.outline), ("right", right.outline)]

namespace Statement

mutual

def outline : Statement → Outline
  | .conditional test consequent alternate => .wrapped "If" (.record "IfStatement" [
    ("test", test.outline),
    ("consequent", .record "Block" [("statements", .items (outlineAll consequent))]),
    ("alternate", outlineAlternate alternate)])
  | .assignment target value => .wrapped "Assignment" (.record "Assignment" [
    ("variable", .atom (Text.quoted target)), ("value", value.outline)])
  | .block body =>
    .wrapped "Block" (.record "Block" [("statements", .items (outlineAll body))])
  | .invalid => .atom "Invalid"
  | .skipped => .atom "Skipped"

def outlineAll : List Statement → List Outline
  | [] => []
  | s :: rest => s.outline :: outlineAll rest

def outlineAlternate : Option (List Statement) → Outline
  | none => .atom "None"
  | some body =>
    .wrapped "Some" (.record "Block" [("statements", .items (outlineAll body))])

end

end Statement

def Program.outline (p : Program) : String :=
  (Outline.record "Program" [("statements", .items (Statement.outlineAll p.statements))]).text 0

end DollarScript
