import DollarScript.Text.Uppercase

/-! The built-in kinds of tokens and the names that the grammar gives them. -/
namespace DollarScript.Kind

/-- Kinds are compared in upper case. -/
def canonical (name : String) : String := Text.upper name

def var : String := "VARIABLE"
def number : String := "NUMBER"
def keywordBegin : String := "KEYWORDBEGIN"
def keywordEnd : String := "KEYWORDEND"
def assign : String := "ASSIGN"
def plus : String := "PLUS"
def minus : String := "MINUS"
def multiply : String := "MULTIPLY"
def divide : String := "DIVIDE"
def equal : String := "EQUAL"
def equalStr : String := "EQUALSTR"
def colon : String := "COLON"
def openCurly : String := "INITCURLBRACKET"
def closeCurly : String := "ENDCURLBRACKET"
def openSquare : String := "INITSQRBRACKET"
def closeSquare : String := "ENDSQRBRACKET"

/-- Text that no kind matches. -/
def unknown : String := "UNKNOWN"

/-- The end of the source. -/
def eof : String := "EOF"

/-- The keyword that opens the other branch of a condition. -/
def elseKeyword : String := "else"

/-- Kinds with which a statement can start. -/
def statementStarts : List String := [keywordBegin, var, openCurly]

def startsStatement (kind : String) : Bool := statementStarts.contains kind

/-- What a kind is for. -/
inductive Role where
  | literal
  | operator
  | keyword
  | delimiter
  deriving DecidableEq, Repr

def Role.name : Role → String
  | .literal => "Literal"
  | .operator => "Operator"
  | .keyword => "Keyword"
  | .delimiter => "Delimiter"

/-- A built-in kind; its pattern is a regular expression. -/
structure Entry where
  name : String
  pattern : String
  priority : Int
  role : Role
  examples : List String
  deriving DecidableEq, Repr

/-- Kinds of higher priority come first. -/
def table : List Entry := [
  ⟨"String", "\"(?:\\\\.|[^\"\\\\])*\"", 10, .literal, ["\"hola\"", "\"a \\\"b\\\"\""]⟩,
  ⟨"EqualStr", "===", 9, .operator, ["==="]⟩,
  ⟨"Equal", "==", 8, .operator, ["=="]⟩,
  ⟨"variable", "\\$[a-zA-Z0-9_-]+", 7, .literal, ["$x", "$result_2"]⟩,
  ⟨"KeywordBegin", "\\b(if|else|while|for|then)\\b:", 6, .keyword, ["if:", "else:", "while:"]⟩,
  ⟨"KeywordEnd", "\\b(endif|endwhile|endfor)\\b", 5, .keyword, ["endif", "endfor"]⟩,
  ⟨"OtherKeywords", "\\b(return|const)\\b", 4, .keyword, ["return", "const"]⟩,
  ⟨"number", "\\d+(\\.\\d+)?", 3, .literal, ["10", "3.25"]⟩,
  ⟨"Assign", "=", 2, .operator, ["="]⟩,
  ⟨"Plus", "\\+", 1, .operator, ["+"]⟩,
  ⟨"Minus", "-", 1, .operator, ["-"]⟩,
  ⟨"Multiply", "\\*", 1, .operator, ["*"]⟩,
  ⟨"Divide", "/", 1, .operator, ["/"]⟩,
  ⟨"Modulo", "%", 1, .operator, ["%"]⟩,
  ⟨"Colon", ":", 1, .delimiter, [":"]⟩,
  ⟨"InitCurlBracket", "\\\x7b", 1, .delimiter, ["\x7b"]⟩,
  ⟨"EndCurlBracket", "\\\x7d", 1, .delimiter, ["\x7d"]⟩,
  ⟨"InitSqrBracket", "\\[", 1, .delimiter, ["["]⟩,
  ⟨"EndSqrBracket", "\\]", 1, .delimiter, ["]"]⟩]

def find? (name : String) : Option Entry :=
  table.find? fun entry => canonical entry.name == canonical name

end DollarScript.Kind
