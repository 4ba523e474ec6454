import DollarScript.Proofs.Parser.Accounting
import DollarScript.Proofs.Parser.Progress

/-! The record of a parse leaves nothing out. Its states lead from the first to the last by single
actions, its calls lie within one another, counters go down only where it says so, and each
statement that is read has a call that returned. -/
namespace DollarScript

namespace Parser

/-- What a single action makes of a state. None of them lowers a counter. -/
inductive Action (s : State) : State → Prop
  | look : Action s s
  | take : Action s { s with rest := s.rest.tail }
  | note (d : Diagnostic) : Action s { s with errors := s.errors.push d }
  | enterNesting : Action s { s with nesting := s.nesting + 1 }
  | enterBlock : Action s s.enterBlock
  | recover (d : Diagnostic) : Action s (s.recover d)

/-- The steps lead from one state to another without a gap. -/
inductive Leads : State → List Step → State → Prop
  | nil (s : State) : Leads s [] s
  | reached {s u t : State} {more : List Step} : Action s u → Leads u more t →
      Leads s (.reached u :: more) t
  | call {s u t : State} {inside more : List Step} (procedure : Procedure) : Leads s inside u →
      Leads u more t → Leads s (inside ++ .returned procedure s u :: more) t
  | topLevel {s t : State} {more : List Step} : Leads s more t → Leads s (.topLevel s :: more) t
  | lowersDepth {s t : State} {more : List Step} :
      Leads { s with blockDepth := s.blockDepth - 1 } more t →
      Leads s (.lowersDepth s :: .reached { s with blockDepth := s.blockDepth - 1 } :: more) t
  | lowersNesting {s t : State} {more : List Step} : Leads s.leaveBracket more t →
      Leads s (.lowersNesting s :: .reached s.leaveBracket :: more) t
  | outOfFuel {s t : State} {more : List Step} : Leads s more t → Leads s (.outOfFuel :: more) t

/-- The last state that is reached; the first one if there is no other. -/
def lastReached : State → List Step → State
  | s, [] => s
  | _, .reached u :: more => lastReached u more
  | s, _ :: more => lastReached s more

/-- How many calls of `statement` have returned. -/
def statementReturns (steps : List Step) : Nat :=
  steps.countP fun
    | .returned .statement _ _ => true
    | _ => false

variable {s t u : State} {xs ys : List Step}

theorem Leads.append (h : Leads s xs t) (h' : Leads t ys u) : Leads s (xs ++ ys) u := by
  induction h with
  | nil => exact h'
  | reached ha _ ih => exact .reached ha (ih h')
  | call procedure hinside _ _ ih =>
    rw [List.append_assoc, List.cons_append]
    exact .call procedure hinside (ih h')
  | topLevel _ ih => exact .topLevel (ih h')
  | lowersDepth _ ih => exact .lowersDepth (ih h')
  | lowersNesting _ ih => exact .lowersNesting (ih h')
  | outOfFuel _ ih => exact .outOfFuel (ih h')

theorem lastReached_append (s : State) (xs ys : List Step) :
    lastReached s (xs ++ ys) = lastReached (lastReached s xs) ys := by
  induction xs generalizing s with
  | nil => rfl
  | cons x xs ih => cases x <;> exact ih _

theorem Leads.lastReached_eq (h : Leads s xs t) : lastReached s xs = t := by
  induction h with
  | call procedure _ _ ih ih' =>
    rw [lastReached_append, ih]
    exact ih'
  | nil => rfl
  | reached _ _ ih => exact ih
  | topLevel _ ih => exact ih
  | lowersDepth _ ih => exact ih
  | lowersNesting _ ih => exact ih
  | outOfFuel _ ih => exact ih

namespace Watched

variable {α β : Type} {g : Setting} {w : Watched α} {f : α → Watched β} {p : Reader α}

/-! ### No gaps -/

/-- What is put down leads from where a reader starts to where it ends. -/
def Gapless (w : Watched α) : Prop := ∀ s, Leads s (w.steps s) (finalState (w.reader s))

theorem Gapless.bind (hw : w.Gapless) (hf : ∀ a, (f a).Gapless) : (w >>= f).Gapless := by
  intro s
  have hfirst := hw s
  cases heq : w.reader s with
  | ok a t =>
    rw [heq, finalState_ok] at hfirst
    rw [steps_bind_ok heq, reader_bind, bind_apply, heq]
    exact hfirst.append (hf a t)
  | error d t =>
    rw [heq] at hfirst
    rw [steps_bind_error heq, reader_bind, bind_apply, heq]
    exact hfirst

theorem gapless_pure (a : α) : (pure a : Watched α).Gapless := fun s => .nil s

theorem gapless_act (h : ∀ s, Action s (finalState (p s))) : (act p).Gapless :=
  fun s => .reached (h s) (.nil _)

theorem Gapless.map {f : α → β} (hw : w.Gapless) : (f <$> w).Gapless :=
  hw.bind fun a => gapless_pure (f a)

theorem Gapless.ite {c : Prop} [Decidable c] {w' : Watched α} (h : w.Gapless) (h' : w'.Gapless) :
    (if c then w else w').Gapless := by
  split
  · exact h
  · exact h'

theorem Gapless.called {procedure : Procedure} (h : w.Gapless) : (w.called procedure).Gapless :=
  fun s => .call procedure (h s) (.nil _)

theorem Gapless.thenAlways {leave : Watched Unit} (h : w.Gapless) (hleave : leave.Gapless) :
    (thenAlways leave w).Gapless := by
  intro s
  rw [finalState_thenAlways]
  exact (h s).append (hleave _)

theorem Gapless.orSkipped {w : Watched Statement} (h : w.Gapless) : (orSkipped w).Gapless := by
  intro s
  have hfirst := h s
  refine hfirst.append (.reached ?_ (.nil _))
  rw [Parser.orSkipped]
  cases w.reader s with
  | ok a t => exact .look
  | error d t => exact .recover d

theorem gapless_leaveBracket : leaveBracket.Gapless := fun _ => .lowersNesting (.nil _)

theorem gapless_leaveBlock : leaveBlock.Gapless :=
  fun _ => .lowersDepth (.lowersNesting (.nil _))

theorem gapless_peek : (act (peek g)).Gapless := gapless_act fun _ => .look

theorem gapless_check (kind : String) : (act (check g kind)).Gapless := gapless_act fun _ => .look

theorem gapless_remaining : (act remaining).Gapless := gapless_act fun _ => .look

theorem gapless_advance : (act (advance g)).Gapless := gapless_act fun _ => .take

theorem gapless_throw (d : Diagnostic) : (act (throw d) : Watched α).Gapless :=
  gapless_act fun _ => .look

theorem gapless_fails (cause : Cause) :
    (act (do throw (.about cause (← peek g))) : Watched α).Gapless :=
  gapless_act fun _ => .look

theorem gapless_consume (kind : String) : (act (consume g kind)).Gapless := by
  refine gapless_act fun s => ?_
  rw [consume_apply]
  split
  · exact .take
  · exact .look

theorem gapless_expect (kind : String) : (act (expect g kind)).Gapless := by
  refine gapless_act fun s => ?_
  rw [expect_apply]
  split
  · exact .take
  · exact .look

theorem gapless_readOp? (ops : List BinaryOp) : (act (readOp? g ops)).Gapless := by
  refine gapless_act fun s => ?_
  rw [readOp?_apply]
  split
  · exact .look
  · exact .take

theorem gapless_enterNesting (opener : Token) : (act (enterNesting g opener)).Gapless := by
  refine gapless_act fun s => ?_
  rw [enterNesting_apply]
  split
  · exact .look
  · exact .enterNesting

theorem gapless_outOfFuel : (note fun _ => .outOfFuel).Gapless := fun _ => .outOfFuel (.nil _)

theorem chain_gapless {operand : Watched Expr} (h : operand.Gapless) (ops : List BinaryOp)
    (fuel : Nat) : ∀ left, (chain g operand ops fuel left).Gapless := by
  induction fuel with
  | zero => exact fun left => gapless_outOfFuel.bind fun _ => gapless_pure left
  | succ fuel ih =>
    intro left
    refine (gapless_readOp? ops).bind fun op? => ?_
    cases op? with
    | none => exact gapless_pure left
    | some op => exact h.bind fun right => ih _

theorem factor_gapless {inner : Watched Expr} (h : inner.Gapless) : (factor g inner).Gapless := by
  refine .called ((gapless_check _).bind fun isNumber => .ite ?_ ?_)
  · refine gapless_advance.bind fun t => ?_
    split
    · exact gapless_pure _
    · exact gapless_throw _
  refine (gapless_check _).bind fun isVar => .ite ?_ ?_
  · exact gapless_advance.bind fun t => gapless_pure _
  refine (gapless_check _).bind fun isSquare => .ite ?_ (gapless_fails _)
  refine gapless_advance.bind fun opener => (gapless_enterNesting opener).bind fun _ => ?_
  exact (h.thenAlways gapless_leaveBracket).bind fun e =>
    (gapless_expect _).bind fun _ => gapless_pure e

theorem term_gapless {inner : Watched Expr} (h : inner.Gapless) : (term g inner).Gapless :=
  .called ((factor_gapless h).bind fun left =>
    gapless_remaining.bind fun fuel => chain_gapless (factor_gapless h) _ fuel left)

theorem sum_gapless {inner : Watched Expr} (h : inner.Gapless) : (sum g inner).Gapless :=
  .called ((term_gapless h).bind fun left =>
    gapless_remaining.bind fun fuel => chain_gapless (term_gapless h) _ fuel left)

theorem expression_gapless (g : Setting) (levels : Nat) : (expression g levels).Gapless := by
  induction levels with
  | zero => exact sum_gapless (gapless_outOfFuel.bind fun _ => gapless_fails _)
  | succ levels ih => exact sum_gapless ih

theorem condition_gapless {expr : Watched Expr} (h : expr.Gapless) :
    (condition g expr).Gapless := by
  refine .called (h.bind fun left => (gapless_consume _).bind fun strict => .ite ?_ ?_)
  · exact h.bind fun right => gapless_pure _
  refine (gapless_consume _).bind fun equal => .ite ?_ (gapless_pure left)
  exact h.bind fun right => gapless_pure _

theorem assignment_gapless {expr : Watched Expr} (h : expr.Gapless) :
    (assignment g expr).Gapless :=
  .called ((gapless_expect _).bind fun _ => (gapless_expect _).bind fun _ =>
    h.bind fun _ => gapless_pure _)

theorem statementsUntil_gapless {stop : Reader Bool} {inner : Watched Statement}
    (hstop : (act stop).Gapless) (h : inner.Gapless) (fuel : Nat) :
    (statementsUntil stop inner fuel).Gapless := by
  induction fuel with
  | zero => exact gapless_outOfFuel.bind fun _ => gapless_pure []
  | succ fuel ih =>
    refine hstop.bind fun stops => .ite (gapless_pure []) ?_
    exact h.bind fun s => ih.bind fun rest => gapless_pure _

theorem gapless_atBlockEnd : (act (atBlockEnd g)).Gapless := by
  refine gapless_act fun s => ?_
  simp only [atBlockEnd, bind_apply, check_apply, ite_apply]
  split <;> exact .look

theorem block_gapless {inner : Watched Statement} (h : inner.Gapless) :
    (block g inner).Gapless := by
  refine .called ((gapless_expect _).bind fun opener =>
    (gapless_enterNesting opener).bind fun _ => ?_)
  refine Gapless.bind (gapless_act fun _ => .enterBlock) fun _ => ?_
  have hbody : (do statementsUntil (atBlockEnd g) inner (← remaining) :
      Watched (List Statement)).Gapless :=
    gapless_remaining.bind fun fuel => statementsUntil_gapless gapless_atBlockEnd h fuel
  exact (hbody.thenAlways gapless_leaveBlock).bind fun body =>
    (gapless_expect _).bind fun _ => gapless_pure body

theorem branches_gapless {test : Expr} {inner : Watched Statement} (h : inner.Gapless) :
    (branches g test inner).Gapless := by
  refine (block_gapless h).bind fun consequent => gapless_peek.bind fun next => ?_
  have hend : ∀ alternate, (do
      let _ ← consume g Kind.keywordEnd
      return .conditional test consequent alternate : Watched Statement).Gapless :=
    fun alternate => (gapless_consume _).bind fun _ => gapless_pure _
  refine .ite ?_ ((gapless_pure none).bind hend)
  exact gapless_advance.bind fun _ => (block_gapless h).map.bind hend

theorem conditional_gapless {expr : Watched Expr} {inner : Watched Statement}
    (he : expr.Gapless) (h : inner.Gapless) : (conditional g expr inner).Gapless := by
  refine .called ((gapless_expect _).bind fun _ => (condition_gapless he).bind fun test => ?_)
  split
  · exact branches_gapless h
  · exact (gapless_expect _).bind fun _ => branches_gapless h

theorem statementWith_gapless {expr : Watched Expr} {inner : Watched Statement}
    (he : expr.Gapless) (h : inner.Gapless) : (statementWith g expr inner).Gapless := by
  refine .called (gapless_peek.bind fun t => .ite (conditional_gapless he h).orSkipped ?_)
  refine .ite (assignment_gapless he).orSkipped (.ite (block_gapless h).map.orSkipped ?_)
  refine gapless_advance.bind fun t => Gapless.bind (gapless_act fun s => ?_) fun _ => gapless_pure _
  exact .note _

theorem statement_gapless (g : Setting) (levels : Nat) : (statement g levels).Gapless := by
  induction levels with
  | zero =>
    exact statementWith_gapless (expression_gapless g 0)
      (gapless_outOfFuel.bind fun _ => gapless_pure _)
  | succ levels ih => exact statementWith_gapless (expression_gapless g _) ih

theorem program_gapless (g : Setting) : (program g).Gapless := by
  have hnote : (note .reached).Gapless := fun s => .reached .look (.nil s)
  have htop : (note .topLevel).Gapless := fun s => .topLevel (.nil s)
  refine hnote.bind fun _ => gapless_remaining.bind fun fuel => ?_
  exact statementsUntil_gapless (gapless_act fun _ => .look)
    (htop.bind fun _ => statement_gapless g _) fuel

/-! ### No statement without its call -/

/-- What is read has no more of something than calls of `statement` have returned, unless fuel ran
out. -/
def Tells (size : α → Nat) (w : Watched α) : Prop :=
  ∀ s a t, w.reader s = .ok a t → .outOfFuel ∉ w.steps s →
    size a ≤ statementReturns (w.steps s)

theorem statementReturns_append (xs ys : List Step) :
    statementReturns (xs ++ ys) = statementReturns xs + statementReturns ys :=
  List.countP_append

variable {size : β → Nat} {size' : α → Nat}

/-- What the first part has told of need not be told again. -/
theorem Tells.bind (hw : w.Tells size') (hf : ∀ a, (f a).Tells fun b => size b - size' a) :
    (w >>= f).Tells size := by
  intro s b u h hfuel
  rw [reader_bind, bind_apply] at h
  cases heq : w.reader s with
  | error d t =>
    rw [heq] at h
    cases h
  | ok a t =>
    rw [heq] at h
    rw [steps_bind_ok heq] at hfuel ⊢
    rw [List.mem_append, not_or] at hfuel
    have hfirst := hw s a t heq hfuel.1
    have hsecond : size b - size' a ≤ _ := hf a t b u h hfuel.2
    rw [statementReturns_append]
    omega

theorem tells_nothing (w : Watched α) : w.Tells fun _ => 0 := fun _ _ _ _ _ => Nat.zero_le _

theorem Tells.after (hf : ∀ a, (f a).Tells size) : (w >>= f).Tells size :=
  (tells_nothing w).bind hf

theorem tells_pure {b : β} (h : size b = 0) : (pure b : Watched β).Tells size := by
  intro s b' t heq _
  cases heq
  rw [h]
  exact Nat.zero_le _

theorem Tells.map {f : α → β} (hw : w.Tells size') (h : ∀ a, size (f a) ≤ size' a) :
    (f <$> w).Tells size :=
  Tells.bind hw fun a => tells_pure (Nat.sub_eq_zero_of_le (h a))

theorem Tells.ite {c : Prop} [Decidable c] {w' : Watched α} (h : w.Tells size')
    (h' : w'.Tells size') : (if c then w else w').Tells size' := by
  split
  · exact h
  · exact h'

theorem tells_outOfFuel {f : Unit → Watched β} : ((note fun _ => .outOfFuel) >>= f).Tells size :=
  fun _ _ _ _ hfuel => absurd List.mem_cons_self hfuel

/-- Steps behind those of a reader take nothing away from what these tell. -/
theorem Tells.more {steps more : List Step} {a : α} {t : State} (h : w.Tells size')
    (heq : w.reader s = .ok a t) (hsteps : steps = w.steps s ++ more)
    (hfuel : .outOfFuel ∉ steps) : size' a + statementReturns more ≤ statementReturns steps := by
  subst hsteps
  rw [List.mem_append, not_or] at hfuel
  rw [statementReturns_append]
  exact Nat.add_le_add_right (h s a t heq hfuel.1) _

theorem Tells.called {procedure : Procedure} (h : w.Tells size') :
    (w.called procedure).Tells size' :=
  fun _ _ _ heq hfuel => Nat.le_of_add_right_le (h.more heq rfl hfuel)

theorem Tells.thenAlways {leave : Watched Unit} (h : w.Tells size') :
    (thenAlways leave w).Tells size' := by
  intro s a t heq hfuel
  change Parser.thenAlways _ w.reader s = _ at heq
  unfold Parser.thenAlways at heq
  cases hw : w.reader s with
  | ok b u =>
    rw [hw] at heq
    cases heq
    exact Nat.le_of_add_right_le (h.more hw rfl hfuel)
  | error d u =>
    rw [hw] at heq
    cases heq

/-- A call of `statement` itself makes up for one. -/
theorem Tells.statement {w : Watched Statement} (h : w.Tells fun s => s.nodes - 1) :
    (w.called .statement).Tells Statement.nodes := by
  intro s a t heq hfuel
  have hinside : a.nodes - 1 + 1 ≤ statementReturns ((w.called .statement).steps s) :=
    h.more heq rfl hfuel
  omega

theorem Tells.orSkipped {w : Watched Statement} (h : w.Tells fun s => s.nodes - 1) :
    (orSkipped w).Tells fun s => s.nodes - 1 := by
  intro s a t heq hfuel
  change Parser.orSkipped w.reader s = _ at heq
  unfold Parser.orSkipped at heq
  cases hw : w.reader s with
  | ok b u =>
    rw [hw] at heq
    cases heq
    exact Nat.le_of_add_right_le (h.more hw rfl hfuel)
  | error d u =>
    rw [hw] at heq
    cases heq
    exact Nat.zero_le _

open Statement

theorem statementsUntil_tells {stop : Reader Bool} {inner : Watched Statement}
    (h : inner.Tells nodes) (fuel : Nat) : (statementsUntil stop inner fuel).Tells nodesAll := by
  induction fuel with
  | zero => exact tells_outOfFuel
  | succ fuel ih =>
    refine .after fun stops => .ite (tells_pure rfl) ?_
    refine h.bind fun s => ih.bind fun rest => tells_pure ?_
    simp only [nodesAll]
    omega

theorem block_tells {inner : Watched Statement} (h : inner.Tells nodes) :
    (block g inner).Tells nodesAll := by
  have hbody : (do statementsUntil (atBlockEnd g) inner (← remaining) :
      Watched (List Statement)).Tells nodesAll :=
    .after fun fuel => statementsUntil_tells h fuel
  refine .called (.after fun opener => .after fun _ => .after fun _ => ?_)
  exact hbody.thenAlways.bind fun body => .after fun _ => tells_pure (Nat.sub_self _)

theorem branches_tells {test : Expr} {inner : Watched Statement} (h : inner.Tells nodes) :
    (branches g test inner).Tells fun s => s.nodes - 1 := by
  refine (block_tells h).bind fun consequent => .after fun next => ?_
  have hend : ∀ alternate, (do
      let _ ← consume g Kind.keywordEnd
      return .conditional test consequent alternate : Watched Statement).Tells
        fun s => s.nodes - 1 - nodesAll consequent - nodesAlternate alternate := by
    refine fun alternate => .after fun _ => tells_pure ?_
    simp only [nodes]
    omega
  have hnone : (pure none : Watched (Option (List Statement))).Tells nodesAlternate :=
    tells_pure rfl
  have hsome : (some <$> block g inner).Tells nodesAlternate :=
    (block_tells h).map fun body => Nat.le_refl _
  exact .ite (.after fun _ => hsome.bind hend) (hnone.bind hend)

theorem conditional_tells {expr : Watched Expr} {inner : Watched Statement} (h : inner.Tells nodes) :
    (conditional g expr inner).Tells fun s => s.nodes - 1 := by
  refine .called (.after fun _ => .after fun test => ?_)
  split
  · exact branches_tells h
  · exact .after fun _ => branches_tells h

theorem assignment_tells (expr : Watched Expr) :
    (assignment g expr).Tells fun s => s.nodes - 1 :=
  .called (.after fun _ => .after fun _ => .after fun _ => tells_pure rfl)

theorem statementWith_tells {expr : Watched Expr} {inner : Watched Statement}
    (h : inner.Tells nodes) : (statementWith g expr inner).Tells nodes := by
  refine .statement (.after fun t => .ite (conditional_tells h).orSkipped ?_)
  refine .ite (assignment_tells expr).orSkipped (.ite (Tells.orSkipped ?_) ?_)
  · exact (block_tells h).map fun body => Nat.le_refl _
  · exact .after fun t => .after fun _ => tells_pure rfl

theorem statement_tells (g : Setting) (levels : Nat) : (statement g levels).Tells nodes := by
  induction levels with
  | zero => exact statementWith_tells tells_outOfFuel
  | succ levels ih => exact statementWith_tells ih

theorem program_tells (g : Setting) : (program g).Tells nodesAll :=
  .after fun _ => .after fun fuel => statementsUntil_tells (.after fun _ => statement_tells g _) fuel

end Watched

end Parser

open DollarScript.Parser

/-- The record of a parse leads from its first state to its last, which is the last one reached, and
every statement of the program, at any depth, was read by a call that is put down. -/
theorem parseSteps_complete (options : ParserOptions) (stream : TokenStream) :
    ∃ ss final, program (setting options stream.eof) (.initial stream.tokens) = .ok ss final ∧
      Leads (.initial stream.tokens) (parseSteps options stream) final ∧
      lastReached (.initial stream.tokens) (parseSteps options stream) = final ∧
      Statement.nodesAll ss ≤ statementReturns (parseSteps options stream) := by
  obtain ⟨log, ss, -, heq⟩ := program_runs (setting options stream.eof) stream.tokens
  have hleads := Watched.program_gapless (setting options stream.eof) (.initial stream.tokens)
  have hread : (Watched.program (setting options stream.eof)).reader (.initial stream.tokens) = _ :=
    (congrFun (Watched.reader_program _) _).trans heq
  rw [hread, finalState_ok] at hleads
  have hfuel : .outOfFuel ∉ parseSteps options stream := fun h => parseSteps_sound h
  exact ⟨ss, _, heq, hleads, hleads.lastReached_eq, Watched.program_tells _ _ _ _ hread hfuel⟩

end DollarScript
