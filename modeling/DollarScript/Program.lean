import DollarScript.Kind
import DollarScript.Number.Binary64

/-! Programs as trees. -/
namespace DollarScript

inductive BinaryOp where
  | add
  | sub
  | mul
  | div
  | eq
  | strictEq
  deriving DecidableEq, Repr

namespace BinaryOp

/-- How the operator is written. -/
def symbol : BinaryOp → String
  | .add => "+"
  | .sub => "-"
  | .mul => "*"
  | .div => "/"
  | .eq => "=="
  | .strictEq => "==="

/-- The kind of token that stands for the operator. -/
def kind : BinaryOp → String
  | .add => Kind.plus
  | .sub => Kind.minus
  | .mul => Kind.multiply
  | .div => Kind.divide
  | .eq => Kind.equal
  | .strictEq => Kind.equalStr

def all : List BinaryOp := [.add, .sub, .mul, .div, .eq, .strictEq]

def ofKind? (kind : String) : Option BinaryOp := all.find? (·.kind == kind)

end BinaryOp

inductive Expr where
  | number (value : Binary64)
  | var (name : String)
  | binary (op : BinaryOp) (left right : Expr)
  deriving DecidableEq

/-- `invalid` stands for a token that starts no statement, `skipped` for one that went wrong. -/
inductive Statement where
  | conditional (test : Expr) (consequent : List Statement) (alternate : Option (List Statement))
  | assignment (target : String) (value : Expr)
  | block (body : List Statement)
  | invalid
  | skipped

structure Program where
  statements : List Statement

end DollarScript
