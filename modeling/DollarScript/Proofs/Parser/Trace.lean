import DollarScript.Proofs.Parser.Agreement

/-! A parse together with a record of what it does: the states that it passes through, its calls
from entry to return, and where it counts down. Without the record it is the parse itself. -/
namespace DollarScript.Parser

inductive Procedure where
  | statement
  | conditional
  | block
  | assignment
  | condition
  | expression
  | term
  | factor
  deriving DecidableEq, Repr

/-- What can be seen of a parse while it goes on. -/
inductive Step where
  /-- This is the state, after some action or in the beginning. -/
  | reached (s : State)
  /-- A procedure was called in one state and has returned in another, with a result or an error. -/
  | returned (procedure : Procedure) (entry exit : State)
  /-- The next statement of the program itself starts. -/
  | topLevel (s : State)
  /-- The number of open blocks is about to be lowered. -/
  | lowersDepth (s : State)
  /-- The number of open blocks and brackets is about to be lowered. -/
  | lowersNesting (s : State)
  /-- A loop or a recursion stops for no other reason than that its fuel is used up. -/
  | outOfFuel

/-- The state in which a reader ends. -/
def finalState {α : Type} : EStateM.Result Diagnostic State α → State
  | .ok _ s => s
  | .error _ s => s

@[simp] theorem finalState_ok {α : Type} (a : α) (s : State) :
    finalState (.ok a s) = s := rfl

/-- A reader that keeps a record. -/
def Watched (α : Type) : Type := State → EStateM.Result Diagnostic State α × List Step

namespace Watched

variable {α β : Type}

/-- The reader itself. -/
def reader (w : Watched α) : Reader α := fun s => (w s).1

/-- The record of a run from a state. -/
def steps (w : Watched α) (s : State) : List Step := (w s).2

instance : Monad Watched where
  pure a := fun s => (.ok a s, [])
  bind w f := fun s =>
    match w.reader s with
    | .ok a s' => ((f a).reader s', w.steps s ++ (f a).steps s')
    | .error d s' => (.error d s', w.steps s)

/-- A single action, and the state behind it. -/
def act (p : Reader α) : Watched α := fun s => (p s, [.reached (finalState (p s))])

instance : MonadLift Reader Watched := ⟨act⟩

def note (step : State → Step) : Watched Unit := fun s => (.ok () s, [step s])

/-- A call of a procedure; it is put down when it has returned. -/
def called (procedure : Procedure) (w : Watched α) : Watched α := fun s =>
  (w.reader s, w.steps s ++ [.returned procedure s (finalState (w.reader s))])

def thenAlways (leave : Watched Unit) (part : Watched α) : Watched α := fun s =>
  let s' := finalState (part.reader s)
  (Parser.thenAlways (fun s => finalState (leave.reader s)) part.reader s,
    part.steps s ++ leave.steps s')

def leaveBracket : Watched Unit := do
  note .lowersNesting
  act (modify State.leaveBracket)

/-- The counters are lowered one after the other. -/
def leaveBlock : Watched Unit := do
  note .lowersDepth
  act (modify fun s => { s with blockDepth := s.blockDepth - 1 })
  leaveBracket

def orSkipped (part : Watched Statement) : Watched Statement := fun s =>
  let r := Parser.orSkipped part.reader s
  (r, part.steps s ++ [.reached (finalState r)])

variable (g : Setting)

def chain (operand : Watched Expr) (ops : List BinaryOp) : (fuel : Nat) → Expr → Watched Expr
  | 0, left => do
    note fun _ => .outOfFuel
    return left
  | fuel + 1, left => do
    match ← readOp? g ops with
    | none => return left
    | some op =>
      let right ← operand
      chain operand ops fuel (.binary op left right)

def factor (inner : Watched Expr) : Watched Expr := called .factor do
  if ← check g Kind.number then
    let t ← advance g
    match Binary64.read? t.text with
    | some value => return .number value
    | none => act (throw (.about .invalidFactor t))
  else if ← check g Kind.var then
    return .var (← advance g).text
  else if ← check g Kind.openSquare then
    let opener ← advance g
    enterNesting g opener
    let e ← thenAlways leaveBracket inner
    let _ ← expect g Kind.closeSquare
    return e
  else act (do throw (.about .invalidFactor (← peek g)))

def term (inner : Watched Expr) : Watched Expr := called .term do
  let left ← factor g inner
  chain g (factor g inner) [.mul, .div] (← remaining) left

def sum (inner : Watched Expr) : Watched Expr := called .expression do
  let left ← term g inner
  chain g (term g inner) [.add, .sub] (← remaining) left

def expression : (levels : Nat) → Watched Expr
  | 0 => sum g do
    note fun _ => .outOfFuel
    act (do throw (.about .invalidFactor (← peek g)))
  | levels + 1 => sum g (expression levels)

def condition (expr : Watched Expr) : Watched Expr := called .condition do
  let left ← expr
  if ← consume g Kind.equalStr then
    return .binary .strictEq left (← expr)
  else if ← consume g Kind.equal then
    return .binary .eq left (← expr)
  else return left

def assignment (expr : Watched Expr) : Watched Statement := called .assignment do
  let target ← expect g Kind.var
  let _ ← expect g Kind.assign
  return .assignment target.text (← expr)

def statementsUntil (stop : Reader Bool) (inner : Watched Statement) :
    (fuel : Nat) → Watched (List Statement)
  | 0 => do
    note fun _ => .outOfFuel
    return []
  | fuel + 1 => do
    if ← stop then return []
    else
      let s ← inner
      let rest ← statementsUntil stop inner fuel
      return s :: rest

def block (inner : Watched Statement) : Watched (List Statement) := called .block do
  let opener ← expect g Kind.openCurly
  enterNesting g opener
  act (modify State.enterBlock)
  let body ← thenAlways leaveBlock do
    statementsUntil (atBlockEnd g) inner (← remaining)
  let _ ← expect g Kind.closeCurly
  return body

/-- The blocks of a condition and the keyword that may end it. -/
def branches (test : Expr) (inner : Watched Statement) : Watched Statement := do
  let consequent ← block g inner
  let next ← peek g
  let alternate ←
    if next.is Kind.keywordBegin && next.keyword? == some Kind.elseKeyword then
      let _ ← advance g
      some <$> block g inner
    else pure none
  let _ ← consume g Kind.keywordEnd
  return .conditional test consequent alternate

def conditional (expr : Watched Expr) (inner : Watched Statement) : Watched Statement :=
  called .conditional do
    let _ ← expect g Kind.keywordBegin
    let test ← condition g expr
    match g.delimiter with
    | none => branches g test inner
    | some kind =>
      let _ ← expect g kind
      branches g test inner

def statementWith (expr : Watched Expr) (inner : Watched Statement) : Watched Statement :=
  called .statement do
    let t ← peek g
    if t.is Kind.keywordBegin then orSkipped (conditional g expr inner)
    else if t.is Kind.var then orSkipped (assignment g expr)
    else if t.is Kind.openCurly then orSkipped (.block <$> block g inner)
    else
      let t ← advance g
      act (modify fun s => { s with errors := s.errors.push (.about .invalidStatement t) })
      return .invalid

def statement : (levels : Nat) → Watched Statement
  | 0 => statementWith g (expression g 0) do
    note fun _ => .outOfFuel
    return .invalid
  | levels + 1 => statementWith g (expression g (levels + 1)) (statement levels)

def program : Watched (List Statement) := do
  note .reached
  let fuel ← remaining
  statementsUntil atEnd (do
    note .topLevel
    statement g g.maxNesting) fuel

section Erasure

theorem reader_bind (w : Watched α) (f : α → Watched β) :
    (w >>= f).reader = w.reader >>= fun a => (f a).reader := by
  funext s
  rw [bind_apply]
  change (match w.reader s with
    | .ok a s' => _
    | .error d s' => _ : _ × List Step).1 = _
  cases w.reader s <;> rfl

theorem reader_pure (a : α) : (pure a : Watched α).reader = pure a := rfl

theorem reader_act (p : Reader α) : (act p).reader = p := rfl

theorem reader_lift (p : Reader α) : (liftM p : Watched α).reader = p := rfl

theorem reader_called (procedure : Procedure) (w : Watched α) :
    (called procedure w).reader = w.reader := rfl

theorem reader_ite (c : Prop) [Decidable c] (w w' : Watched α) :
    (if c then w else w').reader = if c then w.reader else w'.reader := by
  split <;> rfl

theorem reader_orSkipped (w : Watched Statement) :
    (orSkipped w).reader = Parser.orSkipped w.reader := rfl

/-- However the part ends, `leave` starts from there. -/
theorem finalState_thenAlways (leave : Watched Unit) (w : Watched α) (s : State) :
    finalState ((thenAlways leave w).reader s) =
      finalState (leave.reader (finalState (w.reader s))) := by
  change finalState (Parser.thenAlways _ w.reader s) = _
  unfold Parser.thenAlways
  cases w.reader s <;> rfl

theorem reader_leaveBracket (w : Watched α) :
    (thenAlways leaveBracket w).reader = Parser.thenAlways State.leaveBracket w.reader := rfl

theorem reader_leaveBlock (w : Watched α) :
    (thenAlways leaveBlock w).reader = Parser.thenAlways State.leaveBlock w.reader := rfl

theorem reader_chain (operand : Watched Expr) (ops : List BinaryOp) (fuel : Nat) :
    ∀ left, (chain g operand ops fuel left).reader =
      Parser.chain g operand.reader ops fuel left := by
  induction fuel with
  | zero => exact fun left => rfl
  | succ fuel ih =>
    intro left
    rw [chain, reader_bind, reader_lift, Parser.chain]
    congr 1
    funext op?
    cases op? with
    | none => rfl
    | some op =>
      simp only [reader_bind]
      congr 1
      funext right
      exact ih _

theorem reader_factor (inner : Watched Expr) :
    (factor g inner).reader = Parser.factor g inner.reader := by
  simp only [factor, Parser.factor, reader_called, reader_bind, reader_lift, reader_ite,
    reader_leaveBracket, reader_act, reader_pure]
  congr 1
  funext isNumber
  congr 2
  funext t
  cases Binary64.read? t.text <;> rfl

theorem reader_term (inner : Watched Expr) :
    (term g inner).reader = Parser.term g inner.reader := by
  simp only [term, Parser.term, reader_called, reader_bind, reader_lift, reader_chain,
    reader_factor]

theorem reader_sum (inner : Watched Expr) :
    (sum g inner).reader = Parser.sum g inner.reader := by
  simp only [sum, Parser.sum, reader_called, reader_bind, reader_lift, reader_chain, reader_term]

theorem reader_expression (levels : Nat) :
    (expression g levels).reader = Parser.expression g levels := by
  induction levels with
  | zero =>
    rw [expression, reader_sum]
    rfl
  | succ levels ih => rw [expression, reader_sum, ih, Parser.expression]

theorem reader_condition (expr : Watched Expr) :
    (condition g expr).reader = Parser.condition g expr.reader := by
  simp only [condition, Parser.condition, reader_called, reader_bind, reader_lift, reader_ite,
    reader_pure]

theorem reader_assignment (expr : Watched Expr) :
    (assignment g expr).reader = Parser.assignment g expr.reader := by
  simp only [assignment, Parser.assignment, reader_called, reader_bind, reader_lift, reader_pure]

theorem reader_statementsUntil (stop : Reader Bool) (inner : Watched Statement) (fuel : Nat) :
    (statementsUntil stop inner fuel).reader =
      Parser.statementsUntil stop inner.reader fuel := by
  induction fuel with
  | zero => rfl
  | succ fuel ih =>
    simp only [statementsUntil, Parser.statementsUntil, reader_bind, reader_lift, reader_ite,
      reader_pure, ih]

theorem reader_block (inner : Watched Statement) :
    (block g inner).reader = Parser.block g inner.reader := by
  simp only [block, Parser.block, reader_called, reader_bind, reader_lift, reader_act,
    reader_leaveBlock, reader_statementsUntil, reader_pure]

theorem reader_map (f : α → β) (w : Watched α) : (f <$> w).reader = f <$> w.reader := by
  change (w >>= fun a => pure (f a)).reader = _
  funext s
  rw [reader_bind, bind_apply, map_apply]
  rfl

theorem reader_branches (test : Expr) (inner : Watched Statement) :
    (branches g test inner).reader = Parser.branches g test inner.reader := by
  simp only [branches, Parser.branches, reader_bind, reader_lift, reader_ite, reader_map,
    reader_block, reader_pure]

theorem reader_conditional (expr : Watched Expr) (inner : Watched Statement) :
    (conditional g expr inner).reader = Parser.conditional g expr.reader inner.reader := by
  rw [conditional_eq]
  simp only [conditional, reader_called, reader_bind, reader_lift, reader_condition]
  cases g.delimiter <;> simp only [reader_bind, reader_lift, reader_branches]

theorem reader_statementWith (expr : Watched Expr) (inner : Watched Statement) :
    (statementWith g expr inner).reader = Parser.statementWith g expr.reader inner.reader := by
  simp only [statementWith, Parser.statementWith, reader_called, reader_bind, reader_lift,
    reader_ite, reader_act, reader_pure, reader_orSkipped, reader_map, reader_conditional,
    reader_assignment, reader_block]

theorem reader_statement (levels : Nat) :
    (statement g levels).reader = Parser.statement g levels := by
  induction levels with
  | zero =>
    rw [statement, reader_statementWith, reader_expression]
    rfl
  | succ levels ih => rw [statement, reader_statementWith, reader_expression, ih, Parser.statement]

theorem reader_program : (program g).reader = Parser.program g := by
  simp only [program, Parser.program, reader_bind, reader_lift, reader_statementsUntil,
    reader_statement]
  rfl

end Erasure

end Watched

end DollarScript.Parser
