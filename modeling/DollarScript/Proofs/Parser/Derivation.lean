import DollarScript.Proofs.Parser.Run

/-! The grammar of programs: derivations, the tokens they spell and the trees they stand for. -/
namespace DollarScript.Parser

/-- A token of one kind. -/
abbrev Terminal (kind : String) : Type := { t : Token // t.kind = kind }

/-- A factor, or operands of a layer with its operators between them. -/
inductive Rank where
  | factor
  | chain (layer : Layer)
  deriving DecidableEq

def Layer.operandRank : Layer → Rank
  | .term => .factor
  | .sum => .chain .term

/-- What can be derived; `further` is the part of a chain behind its first operand. -/
inductive Symbol where
  | expr (rank : Rank)
  | further (layer : Layer)
  | condition
  | assignment
  | block
  | conditional
  | statement
  | statements
  | program

/-- Derivations in the grammar

    Program      := Statement* EOF
    Statement    := Conditional | Assignment | Block
    Conditional  := KEYWORDBEGIN Condition [delimiter] Block [KEYWORDBEGIN(else) Block] [KEYWORDEND]
    Condition    := Sum [(EQUAL | EQUALSTR) Sum]
    Block        := INITCURLBRACKET Statement* ENDCURLBRACKET
    Assignment   := VARIABLE ASSIGN Sum
    Sum          := Term ((PLUS | MINUS) Term)*
    Term         := Factor ((MULTIPLY | DIVIDE) Factor)*
    Factor       := NUMBER | VARIABLE | INITSQRBRACKET Sum ENDSQRBRACKET

where a token of the delimiter's kind stands behind a condition if there is a delimiter, and the
text of a number can be read. -/
inductive Derivation (delimiter : Option String) : Symbol → Type
  | number (t : Terminal Kind.number) (value : Binary64)
      (readable : Binary64.read? t.val.text = some value) : Derivation delimiter (.expr .factor)
  | var (t : Terminal Kind.var) : Derivation delimiter (.expr .factor)
  | bracketed (opener : Terminal Kind.openSquare)
      (inner : Derivation delimiter (.expr (.chain .sum)))
      (closer : Terminal Kind.closeSquare) : Derivation delimiter (.expr .factor)
  | chain {layer : Layer} (first : Derivation delimiter (.expr layer.operandRank))
      (more : Derivation delimiter (.further layer)) : Derivation delimiter (.expr (.chain layer))
  | last {layer : Layer} : Derivation delimiter (.further layer)
  | further {layer : Layer} (op : BinaryOp) (among : op ∈ layer.ops) (sign : Terminal op.kind)
      (operand : Derivation delimiter (.expr layer.operandRank))
      (more : Derivation delimiter (.further layer)) : Derivation delimiter (.further layer)
  | plain (e : Derivation delimiter (.expr (.chain .sum))) : Derivation delimiter .condition
  | comparison (left : Derivation delimiter (.expr (.chain .sum))) (op : BinaryOp)
      (among : op ∈ comparisons) (sign : Terminal op.kind)
      (right : Derivation delimiter (.expr (.chain .sum))) : Derivation delimiter .condition
  | assignment (target : Terminal Kind.var) (sign : Terminal Kind.assign)
      (value : Derivation delimiter (.expr (.chain .sum))) : Derivation delimiter .assignment
  | block (opener : Terminal Kind.openCurly) (body : Derivation delimiter .statements)
      (closer : Terminal Kind.closeCurly) : Derivation delimiter .block
  | alone (keyword : Terminal Kind.keywordBegin) (test : Derivation delimiter .condition)
      (delim : { ts : List Token // ts.map Token.kind = delimiter.toList })
      (consequent : Derivation delimiter .block) (ending : Option (Terminal Kind.keywordEnd)) :
      Derivation delimiter .conditional
  | branched (keyword : Terminal Kind.keywordBegin) (test : Derivation delimiter .condition)
      (delim : { ts : List Token // ts.map Token.kind = delimiter.toList })
      (consequent : Derivation delimiter .block) (other : { t : Token // opensAlternate t })
      (alternate : Derivation delimiter .block) (ending : Option (Terminal Kind.keywordEnd)) :
      Derivation delimiter .conditional
  | ofConditional (s : Derivation delimiter .conditional) : Derivation delimiter .statement
  | ofAssignment (s : Derivation delimiter .assignment) : Derivation delimiter .statement
  | ofBlock (s : Derivation delimiter .block) : Derivation delimiter .statement
  | nil : Derivation delimiter .statements
  | cons (s : Derivation delimiter .statement) (rest : Derivation delimiter .statements) :
      Derivation delimiter .statements
  | program (body : Derivation delimiter .statements) (eof : Terminal Kind.eof) :
      Derivation delimiter .program

/-- What a symbol stands for in a program; a chain goes on from what is on its left. -/
@[reducible] def Symbol.Tree : Symbol → Type
  | .expr _ | .condition => Expr
  | .further _ => Expr → Expr
  | .assignment | .conditional | .statement => Statement
  | .block | .statements | .program => List Statement

namespace Derivation

variable {delimiter : Option String}

/-- The tokens, in order. -/
def yield : {sym : Symbol} → Derivation delimiter sym → List Token
  | _, .number t _ _ => [t.val]
  | _, .var t => [t.val]
  | _, .bracketed opener inner closer => opener.val :: (inner.yield ++ [closer.val])
  | _, .chain first more => first.yield ++ more.yield
  | _, .last => []
  | _, .further _ _ sign operand more => sign.val :: (operand.yield ++ more.yield)
  | _, .plain e => e.yield
  | _, .comparison left _ _ sign right => left.yield ++ sign.val :: right.yield
  | _, .assignment target sign value => target.val :: sign.val :: value.yield
  | _, .block opener body closer => opener.val :: (body.yield ++ [closer.val])
  | _, .alone keyword test delim consequent ending =>
    keyword.val :: (test.yield ++ (delim.val ++ (consequent.yield ++ ending.toList.map (·.val))))
  | _, .branched keyword test delim consequent other alternate ending =>
    keyword.val :: (test.yield ++ (delim.val ++ (consequent.yield ++
      other.val :: (alternate.yield ++ ending.toList.map (·.val)))))
  | _, .ofConditional s => s.yield
  | _, .ofAssignment s => s.yield
  | _, .ofBlock s => s.yield
  | _, .nil => []
  | _, .cons s rest => s.yield ++ rest.yield
  | _, .program body eof => body.yield ++ [eof.val]

/-- How many blocks and brackets are open at once at most. -/
def depth : {sym : Symbol} → Derivation delimiter sym → Nat
  | _, .number _ _ _ | _, .var _ | _, .last | _, .nil => 0
  | _, .bracketed _ inner _ => inner.depth + 1
  | _, .chain first more => max first.depth more.depth
  | _, .further _ _ _ operand more => max operand.depth more.depth
  | _, .plain e => e.depth
  | _, .comparison left _ _ _ right => max left.depth right.depth
  | _, .assignment _ _ value => value.depth
  | _, .block _ body _ => body.depth + 1
  | _, .alone _ test _ consequent _ => max test.depth consequent.depth
  | _, .branched _ test _ consequent _ alternate _ =>
    max test.depth (max consequent.depth alternate.depth)
  | _, .ofConditional s => s.depth
  | _, .ofAssignment s => s.depth
  | _, .ofBlock s => s.depth
  | _, .cons s rest => max s.depth rest.depth
  | _, .program body _ => body.depth

/-- Chains are grouped to the left, and brackets are dropped. -/
def tree : {sym : Symbol} → Derivation delimiter sym → sym.Tree
  | _, .number _ value _ => .number value
  | _, .var t => .var t.val.text
  | _, .bracketed _ inner _ => inner.tree
  | _, .chain first more => more.tree first.tree
  | _, .last => fun left => left
  | _, .further op _ _ operand more => fun left => more.tree (.binary op left operand.tree)
  | _, .plain e => e.tree
  | _, .comparison left op _ _ right => .binary op left.tree right.tree
  | _, .assignment target _ value => .assignment target.val.text value.tree
  | _, .block _ body _ => body.tree
  | _, .alone _ test _ consequent _ => .conditional test.tree consequent.tree none
  | _, .branched _ test _ consequent _ alternate _ =>
    .conditional test.tree consequent.tree (some alternate.tree)
  | _, .ofConditional s => s.tree
  | _, .ofAssignment s => s.tree
  | _, .ofBlock s => .block s.tree
  | _, .nil => []
  | _, .cons s rest => s.tree :: rest.tree
  | _, .program body _ => body.tree

/-- An `else` directly behind the first block of a condition is its own, if `next` is the token
behind the derivation. -/
def ElseTaken : {sym : Symbol} → (next : Token) → Derivation delimiter sym → Prop
  | _, _, .block _ body closer => body.ElseTaken closer.val
  | _, next, .alone _ _ _ consequent ending =>
    consequent.ElseTaken next ∧ (ending = none → ¬ opensAlternate next)
  | _, next, .branched _ _ _ consequent _ alternate _ =>
    consequent.ElseTaken next ∧ alternate.ElseTaken next
  | _, next, .ofConditional s => s.ElseTaken next
  | _, next, .ofBlock s => s.ElseTaken next
  | _, next, .cons s rest =>
    s.ElseTaken (rest.yield.head?.getD next) ∧ rest.ElseTaken next
  | _, _, .program body eof => body.ElseTaken eof.val
  | _, _, _ => True

theorem elseTaken_of_block (d : Derivation delimiter .block) {t t' : Token}
    (h : d.ElseTaken t) : d.ElseTaken t' := by
  cases d with
  | block => exact h

theorem block_yield (d : Derivation delimiter .block) :
    ∃ (opener : Terminal Kind.openCurly) (ts : List Token), d.yield = opener.val :: ts := by
  cases d with
  | block opener => exact ⟨opener, _, rfl⟩

theorem assignment_yield (d : Derivation delimiter .assignment) :
    ∃ (target : Terminal Kind.var) (ts : List Token), d.yield = target.val :: ts := by
  cases d with
  | assignment target => exact ⟨target, _, rfl⟩

theorem conditional_yield (d : Derivation delimiter .conditional) :
    ∃ (keyword : Terminal Kind.keywordBegin) (ts : List Token), d.yield = keyword.val :: ts := by
  cases d with
  | alone keyword => exact ⟨keyword, _, rfl⟩
  | branched keyword => exact ⟨keyword, _, rfl⟩

theorem statement_yield (d : Derivation delimiter .statement) :
    ∃ t ts, d.yield = t :: ts ∧ t.kind ∈ Kind.statementStarts := by
  cases d with
  | ofConditional s =>
    obtain ⟨keyword, ts, heq⟩ := s.conditional_yield
    exact ⟨_, _, heq, by simp [keyword.2, Kind.statementStarts]⟩
  | ofAssignment s =>
    obtain ⟨target, ts, heq⟩ := s.assignment_yield
    exact ⟨_, _, heq, by simp [target.2, Kind.statementStarts]⟩
  | ofBlock s =>
    obtain ⟨opener, ts, heq⟩ := s.block_yield
    exact ⟨_, _, heq, by simp [opener.2, Kind.statementStarts]⟩

end Derivation

/-- The operators that would go on with a chain of the layer or with its last operand. -/
def Layer.reach : Layer → List BinaryOp
  | .term => [.mul, .div]
  | .sum => [.mul, .div, .add, .sub]

theorem mem_reach {layer : Layer} {op : BinaryOp} (h : op ∈ layer.ops) : op ∈ layer.reach := by
  revert h
  cases layer <;> cases op <;> decide

/-- Kinds behind a list of statements. -/
def statementsEnds : List String := [Kind.closeCurly, Kind.eof]

theorem statementStarts_disjoint : ∀ k ∈ Kind.statementStarts, k ∉ statementsEnds := by
  decide

/-- The tokens that may stand behind a symbol without being taken for a part of it. -/
def Symbol.Follow : Symbol → Token → Prop
  | .expr .factor, _ | .block, _ | .program, _ => True
  | .expr (.chain layer), t | .further layer, t => ∀ op ∈ layer.reach, t.kind ≠ op.kind
  | .condition, t | .assignment, t => ∀ op : BinaryOp, t.kind ≠ op.kind
  | .conditional, t => t.kind ≠ Kind.keywordEnd
  | .statement, t => t.kind ∈ Kind.statementStarts ++ statementsEnds
  | .statements, t => t.kind ∈ statementsEnds

theorem follow_sum {t : Token} (h : ∀ op : BinaryOp, t.kind ≠ op.kind) :
    (Symbol.expr (.chain .sum)).Follow t := fun op _ => h op

/-- Kinds that no operator has. -/
def plainKinds : List String :=
  Kind.statementStarts ++ statementsEnds ++ [Kind.closeSquare, Kind.keywordEnd]

theorem ne_op_of_plainKind {kind : String} (h : kind ∈ plainKinds) (op : BinaryOp) :
    kind ≠ op.kind := by
  rintro rfl
  revert h
  cases op <;> decide

theorem kind_injective {op op' : BinaryOp} (h : op.kind = op'.kind) : op = op' := by
  revert h
  cases op <;> cases op' <;> decide

theorem sum_ne_term {op op' : BinaryOp} (h : op ∈ Layer.sum.ops) (h' : op' ∈ Layer.term.reach) :
    op.kind ≠ op'.kind := by
  revert h h'
  cases op <;> cases op' <;> decide

theorem comparison_ne_reach {op op' : BinaryOp} (h : op ∈ comparisons)
    (h' : op' ∈ Layer.sum.reach) : op.kind ≠ op'.kind := by
  revert h h'
  cases op <;> cases op' <;> decide

/-- An operand is followed by an operator of its layer or by what follows the chain. -/
theorem follow_operand {layer : Layer} {delimiter : Option String}
    (more : Derivation delimiter (.further layer)) {t : Token}
    (h : (Symbol.further layer).Follow t) :
    (Symbol.expr layer.operandRank).Follow (more.yield.head?.getD t) := by
  cases layer with
  | term => trivial
  | sum => cases more with
    | last =>
      intro op hop
      apply h op
      revert hop
      cases op <;> decide
    | further op among sign =>
      intro op' hop hk
      exact sum_ne_term among hop (sign.2.symm.trans hk)

theorem follow_of_statement {t : Token} (h : Symbol.statement.Follow t) :
    Symbol.assignment.Follow t ∧ Symbol.conditional.Follow t := by
  constructor
  · intro op
    exact ne_op_of_plainKind (List.mem_append_left _ h) op
  · intro hk
    simp only [Symbol.Follow, hk] at h
    revert h
    decide

theorem follow_statement {delimiter : Option String} (rest : Derivation delimiter .statements)
    {t : Token} (h : Symbol.statements.Follow t) :
    Symbol.statement.Follow (rest.yield.head?.getD t) := by
  cases rest with
  | nil => exact List.mem_append_right _ h
  | cons s rest =>
    obtain ⟨t', ts, heq, hk⟩ := s.statement_yield
    simp only [Derivation.yield, heq, List.cons_append, List.head?_cons, Option.getD_some]
    exact List.mem_append_left _ hk

end DollarScript.Parser
