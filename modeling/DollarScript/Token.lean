import DollarScript.Json
import DollarScript.Kind
import DollarScript.Text.Quoted
import DollarScript.Text.Span

/-! Tokens and their written forms. -/
namespace DollarScript

/-- A piece of source text with its kind. The index is the place of the kind in the registry that
matched; text that nothing matches has none. -/
structure Token where
  kind : String
  text : String
  captures : List (Option String)
  index : Option Nat
  position : Position
  span : Span
  deriving DecidableEq, Repr

namespace Token

/-- The token behind the last character. -/
def eof (position : Position) (offset : Nat) : Token :=
  ⟨Kind.eof, "", [], none, position, ⟨offset, offset⟩⟩

def is (t : Token) (kind : String) : Bool := t.kind == kind

def isUnknown (t : Token) : Bool := t.is Kind.unknown

def isEof (t : Token) : Bool := t.is Kind.eof

/-- What group `n` of the pattern took, if it took part in the match. -/
def capture? (t : Token) (n : Nat) : Option String := (t.captures[n]?).join

/-- The keyword that a keyword token holds: `if` for `if:`. -/
def keyword? (t : Token) : Option String := t.capture? 0

def startsStatement (t : Token) : Bool := Kind.startsStatement t.kind

/-- The index as a signed number, -1 for none. -/
def sentinel (t : Token) : Int :=
  match t.index with
  | some i => i
  | none => -1

/-- Line, column, kind and quoted text. -/
def listing (t : Token) : String :=
  Json.naturalText t.position.line ++ ":" ++ Json.naturalText t.position.column ++ " " ++ t.kind
    ++ " " ++ Text.quoted t.text

/-- One listing a line. -/
def listings (ts : List Token) : String := String.join (ts.map fun t => t.listing ++ "\n")

end Token

def Span.toJson (s : Span) : Json := .obj [("start", .natural s.start), ("end", .natural s.stop)]

def Token.toJson (t : Token) : Json := .obj [
  ("kind", .str t.kind),
  ("text", .str t.text),
  ("captures", .arr (t.captures.map fun
    | some s => .str s
    | none => .null)),
  ("index", match t.index with
    | some i => .natural i
    | none => .null),
  ("line", .natural t.position.line),
  ("column", .natural t.position.column),
  ("span", t.span.toJson)]

/-- Tokens of a source, and the token behind the last of them. -/
structure TokenStream where
  tokens : List Token
  eof : Token
  deriving DecidableEq, Repr

end DollarScript
