import DollarScript.Number.Shortest
import DollarScript.Program

/-! Programs in one line, everything in parentheses with its operator in front. -/
namespace DollarScript

/-- All digits, never an exponent. -/
def Expr.numberLayout : Binary64.Layout where
  positional := none
  fraction := false
  plus := false
  tie := .upward
  infinity := fun negative => Binary64.signText negative ++ "inf"
  nan := "NaN"

def Expr.compact : Expr → String
  | .number value => value.text numberLayout
  | .var name => name
  | .binary op left right =>
    "(" ++ op.symbol ++ " " ++ left.compact ++ " " ++ right.compact ++ ")"

namespace Statement

mutual

def compact : Statement → String
  | .conditional test consequent alternate =>
    "(if " ++ test.compact ++ " (block" ++ compactAll consequent ++ ")"
      ++ compactAlternate alternate ++ ")"
  | .assignment target value => "(= " ++ target ++ " " ++ value.compact ++ ")"
  | .block body => "(block" ++ compactAll body ++ ")"
  | .invalid => "(invalid)"
  | .skipped => "(skipped)"

/-- Each statement with a blank in front. -/
def compactAll : List Statement → String
  | [] => ""
  | s :: rest => " " ++ s.compact ++ compactAll rest

def compactAlternate : Option (List Statement) → String
  | none => ""
  | some body => " (block" ++ compactAll body ++ ")"

end

end Statement

def Program.compact (p : Program) : String := "(program" ++ Statement.compactAll p.statements ++ ")"

end DollarScript
