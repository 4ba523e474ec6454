import DollarScript.Parser
import DollarScript.Program.Compact
import DollarScript.Program.Outline

/-! What the command can be told to do. -/
namespace DollarScript

/-- How a parsed program is printed. -/
inductive Format where
  | compact
  | json
  | outline
  deriving DecidableEq, Repr

namespace Format

def name : Format → String
  | .compact => "sexpr"
  | .json => "json"
  | .outline => "debug"

def all : List Format := [.compact, .json, .outline]

def ofName? (name : String) : Option Format := all.find? (·.name == name)

/-- The text of a result. Only JSON tells of the diagnostics. -/
def render (r : ParseResult) : Format → String
  | .compact => r.program.compact
  | .json => r.toJson.pretty 0
  | .outline => r.program.outline

end Format

/-- A file to list the tokens of. -/
structure LexRequest where
  file : String
  words : Bool
  json : Bool
  grammar : Option String
  deriving DecidableEq, Repr

/-- A file to parse. -/
structure ParseRequest where
  file : String
  format : Format
  grammar : Option String
  noDelimiter : Bool
  pretty : Bool
  deriving DecidableEq, Repr

inductive Command where
  | lex (request : LexRequest)
  | parse (request : ParseRequest)
  | printGrammar
  | noInput
  deriving DecidableEq, Repr

end DollarScript
