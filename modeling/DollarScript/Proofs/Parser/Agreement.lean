import DollarScript.Proofs.Parser.Run

/-! The readers do what the rules say: their fuel never runs out, every counter has its old value
when a reader ends, and diagnostics are only added. -/
namespace DollarScript.Parser

section Steps
variable {α β : Type} (g : Setting) (s : State)

theorem bind_apply (p : Reader α) (f : α → Reader β) :
    (p >>= f) s = match p s with
      | .ok a s => f a s
      | .error d s => .error d s := by
  change EStateM.bind p f s = _
  unfold EStateM.bind
  cases p s <;> rfl

theorem map_apply (f : α → β) (p : Reader α) :
    (f <$> p) s = match p s with
      | .ok a s => .ok (f a) s
      | .error d s => .error d s := by
  change EStateM.map f p s = _
  unfold EStateM.map
  cases p s <;> rfl

theorem ite_apply (c : Prop) [Decidable c] (p q : Reader α) :
    (if c then p else q) s = if c then p s else q s := by
  split <;> rfl

theorem pure_apply (a : α) : (pure a : Reader α) s = .ok a s := rfl

theorem modify_apply (f : State → State) : (modify f : Reader Unit) s = .ok () (f s) := rfl

theorem peek_apply : peek g s = .ok (g.next s.rest) s := rfl

theorem advance_apply :
    advance g s = .ok (g.next s.rest) { s with rest := s.rest.tail } := rfl

theorem check_apply (kind : String) : check g kind s = .ok ((g.next s.rest).is kind) s := rfl

theorem remaining_apply : remaining s = .ok (s.rest.length + 1) s := rfl

theorem consume_apply (kind : String) :
    consume g kind s = if (g.next s.rest).kind = kind then .ok true { s with rest := s.rest.tail }
      else .ok false s := by
  simp only [consume, bind_apply, check_apply, Token.is, beq_iff_eq]
  split <;> rfl

theorem expect_apply (kind : String) :
    expect g kind s = if (g.next s.rest).kind = kind
      then .ok (g.next s.rest) { s with rest := s.rest.tail }
      else .error ((Fault.unexpected g kind s.rest).diagnostic g) s := by
  simp only [expect, bind_apply, check_apply, Token.is, beq_iff_eq]
  split <;> rfl

theorem enterNesting_apply (opener : Token) :
    enterNesting g opener s = if g.maxNesting ≤ s.nesting
      then .error (.about (.nestingTooDeep g.maxNesting) opener) s
      else .ok () { s with nesting := s.nesting + 1 } := by
  change (if g.maxNesting ≤ s.nesting then throw _ else modify _ : Reader Unit) s = _
  split <;> rfl

theorem readOp?_apply (ops : List BinaryOp) :
    readOp? g ops s = match opAmong ops (g.next s.rest) with
      | none => .ok none s
      | some op => .ok (some op) { s with rest := s.rest.tail } := by
  simp only [readOp?, bind_apply, peek_apply, opAmong]
  split <;> rename_i heq <;> simp only [heq] <;> rfl

end Steps

/-- The outcome of a reader that starts in `s` and ends like this: only the tokens differ. -/
def Ending.from {α : Type} (g : Setting) (s : State) : Ending α → EStateM.Result Diagnostic State α
  | .ok a ts => .ok a { s with rest := ts }
  | .error f ts => .error (f.diagnostic g) { s with rest := ts }

/-- A reader follows the rules for a part of an expression. -/
def Follows (g : Setting) (room : Nat) (x : ExprPart) (p : Reader Expr) : Prop :=
  ∀ s : State, s.nesting + room = g.maxNesting →
    ∃ r, ExprRun g room x s.rest r ∧ p s = r.from g s

variable {g : Setting} {room : Nat} {layer : Layer} {p inner : Reader Expr}

/-- With no room left the inner reader is never asked. -/
theorem factor_follows (h : ∀ k, room = k + 1 → Follows g k (.whole .sum) inner) :
    Follows g room .factor (factor g inner) := by
  intro s hn
  simp only [factor, bind_apply, check_apply, ite_apply, advance_apply, Token.is, beq_iff_eq]
  split
  · rename_i hk
    cases hv : Binary64.read? (g.next s.rest).text with
    | some value => exact ⟨_, .number hk hv, rfl⟩
    | none => exact ⟨_, .badNumber hk hv, rfl⟩
  split
  · rename_i hk
    exact ⟨_, .var hk, rfl⟩
  split
  · rename_i hk
    cases room with
    | zero =>
      refine ⟨_, .tooDeep hk, ?_⟩
      simp only [enterNesting_apply, show g.maxNesting ≤ s.nesting by omega, if_true]
      rfl
    | succ k =>
      simp only [enterNesting_apply, show ¬ g.maxNesting ≤ s.nesting by omega, if_false,
        thenAlways, expect_apply]
      obtain ⟨r, hr, heq⟩ := h k rfl { s with rest := s.rest.tail, nesting := s.nesting + 1 }
        (by simp only; omega)
      simp only [heq]
      cases r with
      | error f us => exact ⟨_, .innerFails hk hr, rfl⟩
      | ok e us =>
        by_cases hc : (g.next us).kind = Kind.closeSquare
        · refine ⟨_, .bracketed hk hr hc, ?_⟩
          simp [Ending.from, State.leaveBracket, hc, pure_apply]
        · exact ⟨_, .unclosed hk hr hc, by simp [Ending.from, State.leaveBracket, hc]⟩
  · rename_i hnum hvar hsq
    exact ⟨_, .noFactor (by simp [hnum, hvar, hsq]), rfl⟩

theorem chain_follows (hp : Follows g room layer.operand p) (fuel : Nat) :
    ∀ (left : Expr) (s : State), s.nesting + room = g.maxNesting → s.rest.length < fuel →
      ∃ r, ExprRun g room (.behind layer left) s.rest r ∧
        chain g p layer.ops fuel left s = r.from g s := by
  induction fuel with
  | zero =>
    intro left s _ hf
    omega
  | succ fuel ih =>
    intro left s hn hf
    simp only [chain, bind_apply, readOp?_apply]
    cases ho : opAmong layer.ops (g.next s.rest) with
    | none => exact ⟨_, .done ho, rfl⟩
    | some op =>
      obtain ⟨r, hr, heq⟩ := hp { s with rest := s.rest.tail } hn
      simp only [bind_apply, heq]
      cases r with
      | error f us => exact ⟨_, .operandFails ho hr, rfl⟩
      | ok right us =>
        have hlt := hr.operand_shorter ho
        obtain ⟨r, hr', heq'⟩ := ih (.binary op left right) { s with rest := us } hn
          (by simp only; omega)
        exact ⟨r, .operand ho hr hr', heq'⟩

theorem whole_follows (hp : Follows g room layer.operand p) :
    Follows g room (.whole layer) (do
      let left ← p
      chain g p layer.ops (← remaining) left) := by
  intro s hn
  obtain ⟨r, hr, heq⟩ := hp s hn
  simp only [bind_apply, heq]
  cases r with
  | error f us => exact ⟨_, .firstFails hr, rfl⟩
  | ok left us =>
    obtain ⟨r, hr', heq'⟩ := chain_follows hp (us.length + 1) left { s with rest := us } hn
      (Nat.lt_succ_self _)
    exact ⟨r, .first hr hr', heq'⟩

theorem expression_follows (g : Setting) (room : Nat) :
    Follows g room (.whole .sum) (expression g room) := by
  induction room with
  | zero => exact whole_follows (whole_follows (factor_follows (by simp)))
  | succ room ih =>
    apply whole_follows
    apply whole_follows
    apply factor_follows
    intro k hk
    cases hk
    exact ih

theorem opAmong_comparisons (t : Token) : opAmong comparisons t =
    if t.kind = Kind.equalStr then some .strictEq
    else if t.kind = Kind.equal then some .eq else none := by
  split
  · rename_i hk
    exact opAmong_eq_some.mpr ⟨by simp [comparisons], hk⟩
  split
  · rename_i hk
    exact opAmong_eq_some.mpr ⟨by simp [comparisons], hk⟩
  · rename_i hs he
    apply opAmong_eq_none.mpr
    simpa [comparisons, BinaryOp.kind] using ⟨he, hs⟩

theorem condition_follows {s : State} (hn : s.nesting + room = g.maxNesting) :
    ∃ r, TestRun g room s.rest r ∧ condition g (expression g room) s = r.from g s := by
  obtain ⟨r, hr, heq⟩ := expression_follows g room s hn
  simp only [condition, bind_apply, heq]
  cases r with
  | error f us => exact ⟨_, .leftFails hr, rfl⟩
  | ok left us =>
    simp only [Ending.from, consume_apply]
    obtain ⟨r, hr', heq'⟩ := expression_follows g room { s with rest := us.tail } hn
    have hcmp := opAmong_comparisons (g.next us)
    by_cases hs : (g.next us).kind = Kind.equalStr
    · rw [if_pos hs] at hcmp
      simp only [if_pos hs, if_true, bind_apply, heq']
      cases r with
      | error f vs => exact ⟨_, .rightFails hr hcmp hr', rfl⟩
      | ok right vs => exact ⟨_, .compared hr hcmp hr', rfl⟩
    rw [if_neg hs] at hcmp
    simp only [if_neg hs, Bool.false_eq_true, if_false, bind_apply, consume_apply]
    by_cases he : (g.next us).kind = Kind.equal
    · rw [if_pos he] at hcmp
      simp only [if_pos he, if_true, bind_apply, heq']
      cases r with
      | error f vs => exact ⟨_, .rightFails hr hcmp hr', rfl⟩
      | ok right vs => exact ⟨_, .compared hr hcmp hr', rfl⟩
    · rw [if_neg he] at hcmp
      refine ⟨_, .plain hr hcmp, ?_⟩
      simp only [if_neg he]
      rfl

/-- The state behind the events of `log`, in front of the tokens `ts`. -/
def State.after (g : Setting) (s : State) (log : List Event) (ts : List Token) : State :=
  { s with rest := ts, errors := s.errors ++ ((noted log).map (Fault.diagnostic g)).toArray }

@[simp] theorem State.after_nil (s : State) (ts : List Token) :
    s.after g [] ts = { s with rest := ts } := by
  simp [State.after]

@[simp] theorem State.after_after (s : State) (log log' : List Event) (ts us : List Token) :
    (s.after g log ts).after g log' us = s.after g (log ++ log') us := by
  simp [State.after, Array.append_assoc]

/-- From `s` a reader follows the rules for a part; `list` says what it read. -/
def Does {α : Type} (g : Setting) (part : Part) (list : α → List Statement) (p : Reader α)
    (s : State) : Prop :=
  (∃ log a ts, Run g s.blockDepth part s.rest log (.ok (list a) ts) ∧
    p s = .ok a (s.after g log ts)) ∨
  (∃ log f ts, Run g s.blockDepth part s.rest log (.error f ts) ∧
    p s = .error (f.diagnostic g) (s.after g log ts))

/-- A reader takes a statement at any token while `depth` blocks and no bracket are open. -/
def ReadsAt (g : Setting) (depth : Nat) (p : Reader Statement) : Prop :=
  ∀ s : State, s.blockDepth = depth → s.nesting = depth → s.rest ≠ [] →
    ∃ log st ts, Run g depth .statement s.rest log (.ok [st] ts) ∧ p s = .ok st (s.after g log ts)

variable {depth : Nat} {stop : Reader Bool} {reader : Reader Statement} {s : State}

theorem statementsUntil_does (hr : ReadsAt g depth reader)
    (hstop : ∀ s, ∃ b, stop s = .ok b s ∧ (b = true ↔ g.Stops depth s.rest)) (fuel : Nat) :
    ∀ s : State, s.blockDepth = depth → s.nesting = depth → s.rest.length < fuel →
      ∃ log ss ts, Run g depth .statements s.rest log (.ok ss ts) ∧
        statementsUntil stop reader fuel s = .ok ss (s.after g log ts) := by
  induction fuel with
  | zero =>
    intro s _ _ hf
    omega
  | succ fuel ih =>
    intro s hd hn hf
    obtain ⟨b, hb, hs⟩ := hstop s
    simp only [statementsUntil, bind_apply, ite_apply, hb]
    by_cases hst : g.Stops depth s.rest
    · refine ⟨_, _, _, .stop hst, ?_⟩
      simp only [hs.mpr hst, if_true, State.after_nil]
      rfl
    · have hne : s.rest ≠ [] := fun h => hst (.inl h)
      obtain ⟨log, st, us, hrun, heq⟩ := hr s hd hn hne
      have hlt : us.length < s.rest.length := by
        have hle := hrun.statement_suffix.length_le
        have hpos := List.length_pos_iff.mpr hne
        rw [Ending.rest_ok, List.length_tail] at hle
        omega
      obtain ⟨log', ss, vs, hrun', heq'⟩ := ih (s.after g log us) hd hn
        (by simp only [State.after]; omega)
      refine ⟨_, _, _, .next hst hrun hrun', ?_⟩
      simp only [mt hs.mp hst, Bool.false_eq_true, if_false, heq, heq', State.after_after]
      rfl

theorem atBlockEnd_stops (hd : 0 < depth) (s : State) :
    ∃ b, atBlockEnd g s = .ok b s ∧ (b = true ↔ g.Stops depth s.rest) := by
  simp only [atBlockEnd, bind_apply, check_apply, ite_apply, Token.is, beq_iff_eq]
  split
  · rename_i hk
    exact ⟨true, rfl, by simp [Setting.Stops, hd, hk]⟩
  · rename_i hk
    exact ⟨s.rest.isEmpty, rfl, by simp [Setting.Stops, hk]⟩

theorem block_does (hn : s.nesting = s.blockDepth)
    (hr : s.blockDepth < g.maxNesting → ReadsAt g (s.blockDepth + 1) reader) :
    Does g .block id (block g reader) s := by
  unfold Does
  simp only [block, bind_apply, expect_apply]
  by_cases hk : (g.next s.rest).kind = Kind.openCurly
  · simp only [if_pos hk, enterNesting_apply]
    by_cases hm : g.maxNesting ≤ s.nesting
    · refine .inr ⟨_, _, _, .tooDeep hk (hn ▸ hm), ?_⟩
      simp only [if_pos hm, State.after_nil]
      rfl
    · have hlt : s.blockDepth < g.maxNesting := by omega
      obtain ⟨log, ss, us, hrun, heq⟩ := statementsUntil_does (hr hlt)
        (atBlockEnd_stops (Nat.succ_pos _)) (s.rest.tail.length + 1)
        (State.enterBlock { s with rest := s.rest.tail, nesting := s.nesting + 1 })
        rfl (congrArg Nat.succ hn) (Nat.lt_succ_self _)
      simp only [if_neg hm, modify_apply, thenAlways, bind_apply, remaining_apply,
        State.enterBlock] at heq ⊢
      simp only [heq]
      by_cases hc : (g.next us).kind = Kind.closeCurly
      · refine .inl ⟨_, _, _, .closed hk hlt hrun hc, ?_⟩
        simp [State.after, State.leaveBlock, hc, pure_apply]
      · refine .inr ⟨_, _, _, .unclosed hk hlt hrun hc, ?_⟩
        simp [State.after, State.leaveBlock, hc]
  · refine .inr ⟨_, _, _, .unopened hk, ?_⟩
    simp only [if_neg hk, State.after_nil]

theorem room_add (hn : s.nesting = s.blockDepth) (hd : s.blockDepth ≤ g.maxNesting) :
    s.nesting + (g.maxNesting - s.blockDepth) = g.maxNesting := by
  omega

theorem assignment_does (hn : s.nesting = s.blockDepth) (hd : s.blockDepth ≤ g.maxNesting)
    (hk : (g.next s.rest).kind = Kind.var) :
    Does g .assignment ([·]) (assignment g (expression g (g.maxNesting - s.blockDepth))) s := by
  unfold Does
  simp only [assignment, bind_apply, expect_apply, if_pos hk]
  by_cases ha : (g.next s.rest.tail).kind = Kind.assign
  · obtain ⟨r, hr, heq⟩ := expression_follows g (g.maxNesting - s.blockDepth)
      { s with rest := s.rest.tail.tail } (room_add hn hd)
    simp only [if_pos ha, heq]
    cases r with
    | error f us =>
      refine .inr ⟨_, _, _, .valueFails hk ha hr, ?_⟩
      simp [Ending.from]
    | ok value us =>
      refine .inl ⟨_, _, _, .assigned hk ha hr, ?_⟩
      simp [Ending.from, pure_apply]
  · refine .inr ⟨_, _, _, .unassigned hk ha, ?_⟩
    simp [if_neg ha]

/-- The blocks of a condition and the keyword that may end it. -/
def branches (g : Setting) (test : Expr) (inner : Reader Statement) : Reader Statement := do
  let consequent ← block g inner
  let next ← peek g
  let alternate ←
    if next.is Kind.keywordBegin && next.keyword? == some Kind.elseKeyword then
      let _ ← advance g
      some <$> block g inner
    else pure none
  let _ ← consume g Kind.keywordEnd
  return .conditional test consequent alternate

theorem conditional_eq (g : Setting) (expr : Reader Expr) (inner : Reader Statement) :
    conditional g expr inner = (do
      let _ ← expect g Kind.keywordBegin
      let test ← condition g expr
      match g.delimiter with
      | none => branches g test inner
      | some kind => do
        let _ ← expect g kind
        branches g test inner) := by
  unfold conditional branches
  cases g.delimiter <;> rfl

theorem consume_keywordEnd (g : Setting) (s : State) : ∃ b,
    consume g Kind.keywordEnd s = .ok b { s with rest := g.pastEnd s.rest } := by
  rw [consume_apply, Setting.pastEnd]
  split
  · exact ⟨true, rfl⟩
  · exact ⟨false, rfl⟩

theorem branches_does {test : Expr} {ts : List Token} (hn : s.nesting = s.blockDepth)
    (hr : s.blockDepth < g.maxNesting → ReadsAt g (s.blockDepth + 1) reader)
    (hh : HeadRun g (g.maxNesting - s.blockDepth) ts (.ok test s.rest)) :
    (∃ log st us, Run g s.blockDepth .conditional ts log (.ok [st] us) ∧
      branches g test reader s = .ok st (s.after g log us)) ∨
    (∃ log f us, Run g s.blockDepth .conditional ts log (.error f us) ∧
      branches g test reader s = .error (f.diagnostic g) (s.after g log us)) := by
  simp only [branches, bind_apply]
  obtain ⟨log, body, us, hb, heq⟩ | ⟨log, f, us, hb, heq⟩ := block_does hn hr
  · simp only [heq, peek_apply, ite_apply, bind_apply, advance_apply, map_apply, pure_apply]
    by_cases ha : opensAlternate (g.next us)
    · have hcond : ((g.next us).is Kind.keywordBegin &&
          (g.next us).keyword? == some Kind.elseKeyword) = true := by
        simpa [Token.is, opensAlternate] using ha
      obtain ⟨log', other, vs, hb', heq'⟩ | ⟨log', f, vs, hb', heq'⟩ :=
        block_does (g := g) (s := s.after g log us.tail) hn hr
      · obtain ⟨b, hend⟩ := consume_keywordEnd g (s.after g (log ++ log') vs)
        refine .inl ⟨_, _, _, .alternate hh hb ha hb', ?_⟩
        rw [State.after_after] at heq'
        simp only [State.after] at hcond heq' hend ⊢
        simp only [hcond, if_true, heq', hend, id_eq]
      · refine .inr ⟨_, _, _, .alternateFails hh hb ha hb', ?_⟩
        rw [State.after_after] at heq'
        simp only [State.after] at hcond heq' ⊢
        simp only [hcond, if_true, heq']
    · have hcond : ((g.next us).is Kind.keywordBegin &&
          (g.next us).keyword? == some Kind.elseKeyword) = false := by
        simpa [Token.is, opensAlternate] using ha
      obtain ⟨b, hend⟩ := consume_keywordEnd g (s.after g log us)
      refine .inl ⟨_, _, _, .alone hh hb ha, ?_⟩
      simp only [State.after] at hcond hend ⊢
      simp [hcond, hend]
  · refine .inr ⟨_, _, _, .consequentFails hh hb, ?_⟩
    simp only [heq]

theorem conditional_does (hn : s.nesting = s.blockDepth) (hd : s.blockDepth ≤ g.maxNesting)
    (hk : (g.next s.rest).kind = Kind.keywordBegin)
    (hr : s.blockDepth < g.maxNesting → ReadsAt g (s.blockDepth + 1) reader) :
    Does g .conditional ([·])
      (conditional g (expression g (g.maxNesting - s.blockDepth)) reader) s := by
  unfold Does
  simp only [conditional_eq, bind_apply, expect_apply, if_pos hk]
  obtain ⟨r, ht, heq⟩ := condition_follows (s := { s with rest := s.rest.tail }) (room_add hn hd)
  simp only [heq]
  cases r with
  | error f us =>
    refine .inr ⟨_, _, _, .headFails (.testFails hk ht), ?_⟩
    simp [Ending.from]
  | ok test us =>
    simp only [Ending.from]
    cases hdel : g.delimiter with
    | none => exact branches_does (s := { s with rest := us }) hn hr (.open hk ht hdel)
    | some kind =>
      simp only [bind_apply, expect_apply]
      by_cases hkind : (g.next us).kind = kind
      · simp only [if_pos hkind]
        exact branches_does (s := { s with rest := us.tail }) hn hr (.delimited hk ht hdel hkind)
      · refine .inr ⟨_, _, _, .headFails (.undelimited hk ht hdel hkind), ?_⟩
        simp [if_neg hkind]

theorem State.recover_after (s : State) (log : List Event) (ts : List Token) (f : Fault) :
    (s.after g log ts).recover (f.diagnostic g) =
      s.after g (log ++ [.noted f]) (recovered s.blockDepth ts) := by
  simp [State.recover, State.after]

theorem orSkipped_reads {part : Part} {p : Reader Statement}
    (hk : Part.ofKind? (g.next s.rest).kind = some part) (hb : part ≠ .block)
    (hp : Does g part ([·]) p s) :
    ∃ log st ts, Run g s.blockDepth .statement s.rest log (.ok [st] ts) ∧
      orSkipped p s = .ok st (s.after g log ts) := by
  obtain ⟨log, st, ts, hrun, heq⟩ | ⟨log, f, ts, hrun, heq⟩ := hp
  · refine ⟨log, st, ts, .simple hk hb hrun, ?_⟩
    simp only [orSkipped, heq]
  · refine ⟨_, _, _, .skipped hk hrun, ?_⟩
    simp only [orSkipped, heq, State.recover_after]

theorem orSkipped_block_reads (hk : (g.next s.rest).kind = Kind.openCurly)
    (hp : Does g .block id (block g reader) s) :
    ∃ log st ts, Run g s.blockDepth .statement s.rest log (.ok [st] ts) ∧
      orSkipped (.block <$> block g reader) s = .ok st (s.after g log ts) := by
  have hk := Part.ofKind?_eq_block.mpr hk
  obtain ⟨log, body, ts, hrun, heq⟩ | ⟨log, f, ts, hrun, heq⟩ := hp
  · refine ⟨log, .block body, ts, .block hk hrun, ?_⟩
    simp only [orSkipped, map_apply, heq]
  · refine ⟨_, _, _, .skipped hk hrun, ?_⟩
    simp only [orSkipped, map_apply, heq, State.recover_after]

theorem statementWith_readsAt (hd : depth ≤ g.maxNesting)
    (hr : depth < g.maxNesting → ReadsAt g (depth + 1) reader) :
    ReadsAt g depth (statementWith g (expression g (g.maxNesting - depth)) reader) := by
  rintro s rfl hn _
  simp only [statementWith, bind_apply, peek_apply, ite_apply, Token.is, beq_iff_eq]
  split
  · rename_i hk
    exact orSkipped_reads (Part.ofKind?_eq_conditional.mpr hk) (by decide)
      (conditional_does hn hd hk hr)
  split
  · rename_i hk
    exact orSkipped_reads (Part.ofKind?_eq_assignment.mpr hk) (by decide)
      (assignment_does hn hd hk)
  split
  · rename_i hk
    exact orSkipped_block_reads hk (block_does hn hr)
  · rename_i hc ha hb
    refine ⟨_, _, _, .invalid (by simp [Part.ofKind?, hc, ha, hb]), ?_⟩
    simp only [advance_apply, modify_apply, pure_apply, State.after, noted_single,
      Array.push_eq_append]
    rfl

theorem statement_readsAt (g : Setting) (levels : Nat) :
    ∀ depth, depth + levels = g.maxNesting → ReadsAt g depth (statement g levels) := by
  induction levels with
  | zero =>
    intro depth hd
    have h : ReadsAt g depth
        (statementWith g (expression g (g.maxNesting - depth)) (pure .invalid)) :=
      statementWith_readsAt (by omega) (by omega)
    rwa [show g.maxNesting - depth = 0 by omega] at h
  | succ levels ih =>
    intro depth hd
    have h : ReadsAt g depth
        (statementWith g (expression g (g.maxNesting - depth)) (statement g levels)) :=
      statementWith_readsAt (by omega) fun _ => ih (depth + 1) (by omega)
    rwa [show g.maxNesting - depth = levels + 1 by omega] at h

theorem Run.statements_stops {ts us : List Token} {log : List Event} {ss : List Statement}
    (h : Run g depth .statements ts log (.ok ss us)) : g.Stops depth us := by
  generalize hp : Part.statements = part at h
  generalize hq : (EStateM.Result.ok ss us : Ending (List Statement)) = q at h
  induction h generalizing ss us with
  | stop hs =>
    cases hq
    exact hs
  | next _ _ _ _ ih =>
    cases hq
    exact ih rfl rfl
  | _ => cases hp

theorem Run.statements_exhausted {ts us : List Token} {log : List Event} {ss : List Statement}
    (h : Run g depth .statements ts log (.ok ss us)) (hn : (g.next us).kind ≠ Kind.closeCurly) :
    us = [] := by
  simpa [Setting.Stops, hn] using h.statements_stops

/-- A parse is a run of the rules from the first token to the end. -/
theorem program_runs (g : Setting) (ts : List Token) :
    ∃ log ss, Run g 0 .statements ts log (.ok ss []) ∧
      program g (.initial ts) = .ok ss ((State.initial ts).after g log []) := by
  have hstop : ∀ s : State, ∃ b, atEnd s = .ok b s ∧ (b = true ↔ g.Stops 0 s.rest) := by
    intro s
    exact ⟨s.rest.isEmpty, rfl, by simp [Setting.Stops]⟩
  obtain ⟨log, ss, us, hrun, heq⟩ := statementsUntil_does
    (statement_readsAt g g.maxNesting 0 (Nat.zero_add _)) hstop (ts.length + 1) (.initial ts)
    rfl rfl (Nat.lt_succ_self _)
  have hus : us = [] := by
    simpa [Setting.Stops] using hrun.statements_stops
  subst hus
  refine ⟨log, ss, hrun, ?_⟩
  simp only [program, bind_apply, remaining_apply]
  exact heq

theorem parseTokens_runs (options : ParserOptions) (stream : TokenStream) :
    ∃ log ss, Run (setting options stream.eof) 0 .statements stream.tokens log (.ok ss []) ∧
      parseTokens options stream =
        ⟨⟨ss⟩, (noted log).map (Fault.diagnostic (setting options stream.eof))⟩ := by
  obtain ⟨log, ss, hrun, heq⟩ := program_runs (setting options stream.eof) stream.tokens
  refine ⟨log, ss, hrun, ?_⟩
  unfold parseTokens
  rw [heq]
  simp [State.after, State.initial]

end DollarScript.Parser
