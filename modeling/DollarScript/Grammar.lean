import DollarScript.Libraries
import DollarScript.Parser

/-! Grammars: the kinds of tokens to look for, and the settings of the parser. -/
namespace DollarScript

/-- One kind of token. Its pattern is a regular expression, or a text that stands for itself. -/
structure TokenSpec where
  name : String
  pattern : String
  priority : Option Int
  literal : Bool
  deriving DecidableEq, Repr

/-- Settings of the parser. The delimiter counts only if one is required. -/
structure ParserSection where
  conditionDelimiter : Option String
  requireDelimiter : Bool
  maxNesting : Nat
  deriving DecidableEq, Repr

def ParserSection.default : ParserSection := ⟨some Kind.colon, true, 256⟩

structure Grammar where
  parser : ParserSection
  tokens : List TokenSpec
  deriving DecidableEq, Repr

/-- Why a grammar gives no registry. Entries are counted from 0. -/
inductive GrammarError where
  | emptyName (index : Nat)
  | emptyPattern (name : String)
  | invalidPattern (name source : String)
  deriving DecidableEq, Repr

/-- What is wrong with an entry. About a regular expression the engine has the last word, which is to
follow. -/
def GrammarError.message : GrammarError → String
  | .emptyName index => "token #" ++ Json.naturalText index ++ " has an empty name"
  | .emptyPattern name => "token '" ++ name ++ "' has an empty pattern"
  | .invalidPattern name source => "token '" ++ name ++ "': invalid pattern `" ++ source ++ "`: "

namespace TokenSpec

variable [Libraries]

def pattern? (t : TokenSpec) : Option Pattern :=
  if t.literal then some (.literal t.pattern) else Libraries.regex? t.pattern

/-- The pattern of an entry, or what is wrong with the entry. -/
def build (index : Nat) (t : TokenSpec) : Except GrammarError Pattern :=
  if t.name.toList.all Text.isWhite then .error (.emptyName index)
  else if t.pattern = "" then .error (.emptyPattern t.name)
  else
    match t.pattern? with
    | some p => .ok p
    | none => .error (.invalidPattern t.name t.pattern)

end TokenSpec

namespace Grammar

def builtinTokens : List TokenSpec :=
  Kind.table.map fun entry => ⟨entry.name, entry.pattern, some entry.priority, false⟩

/-- The built-in kinds with the usual settings. -/
def builtin : Grammar := ⟨.default, builtinTokens⟩

def withConditionDelimiter (g : Grammar) (kind : String) : Grammar :=
  { g with parser := { g.parser with conditionDelimiter := some kind, requireDelimiter := true } }

def withoutConditionDelimiter (g : Grammar) : Grammar :=
  { g with parser := { g.parser with requireDelimiter := false } }

def withToken (g : Grammar) (t : TokenSpec) : Grammar := { g with tokens := g.tokens ++ [t] }

section

variable [Libraries]

def registerAll (r : Registry) (index : Nat) : List TokenSpec → Except GrammarError Registry
  | [] => .ok r
  | t :: rest =>
    match t.build index with
    | .ok p => registerAll (r.register t.name p t.priority) (index + 1) rest
    | .error e => .error e

/-- The registry of all entries, or what is wrong with the first entry that is wrong. -/
def registry (g : Grammar) : Except GrammarError Registry := registerAll .empty 0 g.tokens

end

def options (g : Grammar) : ParserOptions where
  conditionDelimiter :=
    if g.parser.requireDelimiter then g.parser.conditionDelimiter.map Kind.canonical else none
  maxNesting := g.parser.maxNesting

end Grammar

end DollarScript
