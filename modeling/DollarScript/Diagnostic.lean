import DollarScript.Token

/-! What can be wrong with a program, and how it is told. -/
namespace DollarScript

/-- Why a token cannot stand where it does. -/
inductive Cause where
  | unexpectedToken (expected found : String)
  | invalidStatement
  | invalidFactor
  | nestingTooDeep (limit : Nat)
  deriving DecidableEq, Repr

namespace Cause

def message : Cause → String
  | .unexpectedToken expected found => "Se esperaba " ++ expected ++ " pero se encontró " ++ found
  | .invalidStatement => "Declaración no válida"
  | .invalidFactor => "Factor no válido"
  | .nestingTooDeep limit =>
    "Anidamiento demasiado profundo (máximo " ++ Json.naturalText limit ++ ")"

def code : Cause → String
  | .unexpectedToken _ _ => "sigil::unexpected_token"
  | .invalidStatement => "sigil::invalid_statement"
  | .invalidFactor => "sigil::invalid_factor"
  | .nestingTooDeep _ => "sigil::nesting_too_deep"

/-- What is written beside the token. -/
def label : Cause → String
  | .unexpectedToken expected _ => "se esperaba " ++ expected
  | .invalidStatement => "no inicia ninguna declaración"
  | .invalidFactor => "se esperaba un número, una variable o `[`"
  | .nestingTooDeep limit => "supera " ++ Json.naturalText limit ++ " niveles de anidamiento"

def toJson : Cause → Json
  | .unexpectedToken expected found => .obj [
    ("kind", .str "unexpected_token"), ("expected", .str expected), ("found", .str found)]
  | .invalidStatement => .obj [("kind", .str "invalid_statement")]
  | .invalidFactor => .obj [("kind", .str "invalid_factor")]
  | .nestingTooDeep limit => .obj [("kind", .str "nesting_too_deep"), ("limit", .natural limit)]

end Cause

/-- A cause and the place of the token that it is about. -/
structure Diagnostic where
  cause : Cause
  position : Position
  span : Span
  deriving DecidableEq, Repr

/-- A message with its line and column in front. -/
def located (position : Position) (message : String) : String :=
  "Error en línea " ++ Json.naturalText position.line ++ ", columna "
    ++ Json.naturalText position.column ++ ": " ++ message

namespace Diagnostic

def about (cause : Cause) (t : Token) : Diagnostic := ⟨cause, t.position, t.span⟩

/-- Some other kind was expected at the token. -/
def unexpected (expected : String) (t : Token) : Diagnostic :=
  about (.unexpectedToken expected t.kind) t

def text (d : Diagnostic) : String := located d.position d.cause.message

def toJson (d : Diagnostic) : Json := .obj [
  ("kind", d.cause.toJson),
  ("line", .natural d.position.line),
  ("column", .natural d.position.column),
  ("span", d.span.toJson)]

/-- One diagnostic a line. -/
def report (ds : List Diagnostic) : String := String.join (ds.map fun d => d.text ++ "\n")

end Diagnostic

end DollarScript
