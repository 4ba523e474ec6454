import DollarScript.Diagnostic
import DollarScript.Number.Read
import DollarScript.Program.Json
import DollarScript.Scanner

/-! Parsing: tokens into a program, with a placeholder for every statement that is wrong. -/
namespace DollarScript

/-- What a caller may choose: the kind that closes a condition, if one is asked for, and how many
blocks and brackets may be open at once. -/
structure ParserOptions where
  conditionDelimiter : Option String
  maxNesting : Nat
  deriving DecidableEq, Repr

namespace ParserOptions

def default : ParserOptions := ⟨some Kind.colon, 256⟩

def withConditionDelimiter (o : ParserOptions) (kind : String) : ParserOptions :=
  { o with conditionDelimiter := some (Kind.canonical kind) }

def withoutConditionDelimiter (o : ParserOptions) : ParserOptions :=
  { o with conditionDelimiter := none }

end ParserOptions

namespace Parser

/-- What does not change during a parse; the delimiter is canonical here. -/
structure Setting where
  delimiter : Option String
  maxNesting : Nat
  eof : Token

/-- Tokens not yet read, diagnostics so far, and how many blocks, and how many blocks and brackets
together, are open. -/
structure State where
  rest : List Token
  errors : Array Diagnostic
  blockDepth : Nat
  nesting : Nat

def State.initial (tokens : List Token) : State := ⟨tokens, #[], 0, 0⟩

/-- Reads part of a program from the state, or fails at a token. -/
abbrev Reader := EStateM Diagnostic State

def atEnd : Reader Bool := return (← get).rest.isEmpty

/-- The loops below read a token each time round, but for the last time. -/
def remaining : Reader Nat := return (← get).rest.length + 1

variable (g : Setting)

/-- The next token; behind the last one, the end token for ever. -/
def peek : Reader Token := return (← get).rest.head?.getD g.eof

def advance : Reader Token := do
  let t ← peek g
  modify fun s => { s with rest := s.rest.tail }
  return t

def check (kind : String) : Reader Bool := return (← peek g).is kind

/-- Takes the next token if it is of the kind. -/
def consume (kind : String) : Reader Bool := do
  if ← check g kind then
    let _ ← advance g
    return true
  else return false

def expect (kind : String) : Reader Token := do
  if ← check g kind then advance g
  else throw (.unexpected kind (← peek g))

/-- One more block or bracket is open, unless the limit is reached. -/
def enterNesting (opener : Token) : Reader Unit := do
  if g.maxNesting ≤ (← get).nesting then throw (.about (.nestingTooDeep g.maxNesting) opener)
  else modify fun s => { s with nesting := s.nesting + 1 }

/-- Changes the state once a part has been read, however that ended. -/
def thenAlways {α : Type} (leave : State → State) (part : Reader α) : Reader α := fun s =>
  match part s with
  | .ok a s => .ok a (leave s)
  | .error d s => .error d (leave s)

def State.enterBlock (s : State) : State := { s with blockDepth := s.blockDepth + 1 }

def State.leaveBlock (s : State) : State :=
  { s with blockDepth := s.blockDepth - 1, nesting := s.nesting - 1 }

def State.leaveBracket (s : State) : State := { s with nesting := s.nesting - 1 }

/-- Takes the next token if it stands for one of the operators. -/
def readOp? (ops : List BinaryOp) : Reader (Option BinaryOp) := do
  match (BinaryOp.ofKind? (← peek g).kind).filter ops.contains with
  | none => return none
  | some op =>
    let _ ← advance g
    return some op

/-- Operands with operators between them, grouped to the left. -/
def chain (operand : Reader Expr) (ops : List BinaryOp) : (fuel : Nat) → Expr → Reader Expr
  | 0, left => return left
  | fuel + 1, left => do
    match ← readOp? g ops with
    | none => return left
    | some op =>
      let right ← operand
      chain operand ops fuel (.binary op left right)

/-- A number, a variable, or an expression in brackets, which `inner` reads. -/
def factor (inner : Reader Expr) : Reader Expr := do
  if ← check g Kind.number then
    let t ← advance g
    match Binary64.read? t.text with
    | some value => return .number value
    | none => throw (.about .invalidFactor t)
  else if ← check g Kind.var then
    return .var (← advance g).text
  else if ← check g Kind.openSquare then
    let opener ← advance g
    enterNesting g opener
    let e ← thenAlways State.leaveBracket inner
    let _ ← expect g Kind.closeSquare
    return e
  else throw (.about .invalidFactor (← peek g))

def term (inner : Reader Expr) : Reader Expr := do
  let left ← factor g inner
  chain g (factor g inner) [.mul, .div] (← remaining) left

def sum (inner : Reader Expr) : Reader Expr := do
  let left ← term g inner
  chain g (term g inner) [.add, .sub] (← remaining) left

/-- An expression with at most `levels` brackets open in it. The nesting limit stops the reader
before `levels` runs out, if `levels` is what is left of that limit. -/
def expression : (levels : Nat) → Reader Expr
  | 0 => sum g (do throw (.about .invalidFactor (← peek g)))
  | levels + 1 => sum g (expression levels)

/-- The test of a condition: an expression, or one comparison of two. -/
def condition (expr : Reader Expr) : Reader Expr := do
  let left ← expr
  if ← consume g Kind.equalStr then
    return .binary .strictEq left (← expr)
  else if ← consume g Kind.equal then
    return .binary .eq left (← expr)
  else return left

def assignment (expr : Reader Expr) : Reader Statement := do
  let target ← expect g Kind.var
  let _ ← expect g Kind.assign
  return .assignment target.text (← expr)

/-- Statements until `stop` says so. -/
def statementsUntil (stop : Reader Bool) (inner : Reader Statement) :
    (fuel : Nat) → Reader (List Statement)
  | 0 => return []
  | fuel + 1 => do
    if ← stop then return []
    else
      let s ← inner
      let rest ← statementsUntil stop inner fuel
      return s :: rest

def atBlockEnd : Reader Bool := do
  if ← check g Kind.closeCurly then return true else atEnd

/-- Statements in curly brackets, which `inner` reads. -/
def block (inner : Reader Statement) : Reader (List Statement) := do
  let opener ← expect g Kind.openCurly
  enterNesting g opener
  modify State.enterBlock
  let body ← thenAlways State.leaveBlock do
    statementsUntil (atBlockEnd g) inner (← remaining)
  let _ ← expect g Kind.closeCurly
  return body

/-- A condition with its blocks. The keyword itself does not matter; only `else` behind the first
block opens a second one. -/
def conditional (expr : Reader Expr) (inner : Reader Statement) : Reader Statement := do
  let _ ← expect g Kind.keywordBegin
  let test ← condition g expr
  if let some delimiter := g.delimiter then
    let _ ← expect g delimiter
  let consequent ← block g inner
  let next ← peek g
  let alternate ←
    if next.is Kind.keywordBegin && next.keyword? == some Kind.elseKeyword then
      let _ ← advance g
      some <$> block g inner
    else pure none
  let _ ← consume g Kind.keywordEnd
  return .conditional test consequent alternate

/-- The tokens from the next place on where a statement can start. A closing bracket ends the
search, too: outside all blocks it is dropped, inside it is left for its block. -/
def recovered (blockDepth : Nat) : List Token → List Token
  | [] => []
  | t :: rest =>
    if t.startsStatement then t :: rest
    else if t.is Kind.closeCurly then if blockDepth = 0 then rest else t :: rest
    else recovered blockDepth rest

/-- Notes what went wrong and goes on where a statement can start. -/
def State.recover (s : State) (d : Diagnostic) : State :=
  { s with rest := recovered s.blockDepth s.rest, errors := s.errors.push d }

/-- A statement that goes wrong is skipped. -/
def orSkipped (part : Reader Statement) : Reader Statement := fun s =>
  match part s with
  | .ok a s => .ok a s
  | .error d s => .ok .skipped (s.recover d)

/-- One statement; `inner` reads those of its blocks. -/
def statementWith (expr : Reader Expr) (inner : Reader Statement) : Reader Statement := do
  let t ← peek g
  if t.is Kind.keywordBegin then orSkipped (conditional g expr inner)
  else if t.is Kind.var then orSkipped (assignment g expr)
  else if t.is Kind.openCurly then orSkipped (.block <$> block g inner)
  else
    let t ← advance g
    modify fun s => { s with errors := s.errors.push (.about .invalidStatement t) }
    return .invalid

/-- A statement with at most `levels` blocks and brackets open in it. -/
def statement : (levels : Nat) → Reader Statement
  | 0 => statementWith g (expression g 0) (pure .invalid)
  | levels + 1 => statementWith g (expression g (levels + 1)) (statement levels)

/-- All statements up to the end. -/
def program : Reader (List Statement) := do
  statementsUntil atEnd (statement g g.maxNesting) (← remaining)

end Parser

/-- A program, as far as it could be read, and what is wrong with it, in the order found. -/
structure ParseResult where
  program : Program
  errors : List Diagnostic

namespace ParseResult

def success (r : ParseResult) : Bool := r.errors.isEmpty

def toJson (r : ParseResult) : Json := .obj [
  ("success", .bool r.success),
  ("ast", r.program.toJson),
  ("errors", .arr (r.errors.map Diagnostic.toJson))]

end ParseResult

def Parser.setting (options : ParserOptions) (eof : Token) : Parser.Setting :=
  ⟨options.conditionDelimiter.map Kind.canonical, options.maxNesting, eof⟩

def parseTokens (options : ParserOptions) (stream : TokenStream) : ParseResult :=
  match Parser.program (Parser.setting options stream.eof) (.initial stream.tokens) with
  | .ok statements s => ⟨⟨statements⟩, s.errors.toList⟩
  | .error d s => ⟨⟨[]⟩, (s.errors.push d).toList⟩

/-- Scans and parses a source. -/
def parse (r : Registry) (options : ParserOptions) (source : List Char) : ParseResult :=
  parseTokens options (Scanner.scan r source)

end DollarScript
