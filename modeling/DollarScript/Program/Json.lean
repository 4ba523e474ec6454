import DollarScript.Json
import DollarScript.Program

/-! Programs as JSON values: every node names its type first. -/
namespace DollarScript

def Expr.toJson : Expr → Json
  | .number value => .obj [("type", .str "NumberLiteral"), ("value", .real value)]
  | .var name => .obj [("type", .str "Variable"), ("name", .str name)]
  | .binary op left right => .obj [
    ("type", .str "BinaryExpression"), ("operator", .str op.symbol),
    ("left", left.toJson), ("right", right.toJson)]

namespace Statement

mutual

/-- The branches of a condition are blocks without a type. -/
def toJson : Statement → Json
  | .conditional test consequent alternate => .obj [
    ("type", .str "IfStatement"),
    ("test", test.toJson),
    ("consequent", .obj [("statements", .arr (toJsonAll consequent))]),
    ("alternate", alternateJson alternate)]
  | .assignment target value => .obj [
    ("type", .str "Assignment"), ("variable", .str target), ("value", value.toJson)]
  | .block body => .obj [("type", .str "Block"), ("statements", .arr (toJsonAll body))]
  | .invalid => .obj [("type", .str "InvalidStatement")]
  | .skipped => .obj [("type", .str "SkippedStatement")]

def toJsonAll : List Statement → List Json
  | [] => []
  | s :: rest => s.toJson :: toJsonAll rest

def alternateJson : Option (List Statement) → Json
  | none => .null
  | some body => .obj [("statements", .arr (toJsonAll body))]

end

end Statement

def Program.toJson (p : Program) : Json :=
  .obj [("type", .str "Program"), ("statements", .arr (Statement.toJsonAll p.statements))]

end DollarScript
