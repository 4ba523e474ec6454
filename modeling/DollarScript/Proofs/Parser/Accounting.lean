import DollarScript.Proofs.Parser.Trace

/-! What holds at every step of a parse: the counters have the values they should, a procedure
leaves them as it found them, and no loop runs out of fuel. -/
namespace DollarScript

namespace Parser

/-- What holds of a step of a parse that started in front of the tokens `ts`. -/
def Step.Sound (g : Setting) (ts : List Token) : Step → Prop
  | .reached s => s.rest <:+ ts ∧ s.blockDepth ≤ s.nesting ∧ s.nesting ≤ g.maxNesting
  | .returned procedure entry exit =>
    (entry.rest <:+ ts ∧ exit.blockDepth = entry.blockDepth ∧ exit.nesting = entry.nesting) ∧
      (procedure = .statement → entry.rest ≠ [] ∧ exit.rest <:+ entry.rest.tail)
  | .topLevel s => s.blockDepth = 0 ∧ s.nesting = 0
  | .lowersDepth s => 0 < s.blockDepth
  | .lowersNesting s => 0 < s.nesting
  | .outOfFuel => False

namespace State

/-- Only tokens have been taken, and diagnostics added. -/
structure Kept (s s' : State) : Prop where
  rest : s'.rest <:+ s.rest
  depth : s'.blockDepth = s.blockDepth
  nesting : s'.nesting = s.nesting

/-- The counters stand at these values, which are within the limit. -/
structure Counts (g : Setting) (d n : Nat) (s : State) : Prop where
  depth : s.blockDepth = d
  nesting : s.nesting = n
  ordered : d ≤ n
  bounded : n ≤ g.maxNesting

variable {g : Setting} {d n : Nat} {s s' s'' : State}

theorem Kept.refl (s : State) : s.Kept s := ⟨List.suffix_refl _, rfl, rfl⟩

theorem Kept.tail (s : State) : s.Kept { s with rest := s.rest.tail } :=
  ⟨List.tail_suffix _, rfl, rfl⟩

theorem Kept.trans (h : s.Kept s') (h' : s'.Kept s'') : s.Kept s'' :=
  ⟨h'.rest.trans h.rest, h'.depth.trans h.depth, h'.nesting.trans h.nesting⟩

theorem Counts.entered (h : s.Counts g d n) (hlt : n < g.maxNesting) :
    Counts g d (n + 1) { s with nesting := s.nesting + 1 } :=
  ⟨h.depth, congrArg Nat.succ h.nesting, Nat.le_succ_of_le h.ordered, hlt⟩

theorem Counts.kept (h : s.Counts g d n) (hk : s.Kept s') : s'.Counts g d n :=
  ⟨hk.depth.trans h.depth, hk.nesting.trans h.nesting, h.ordered, h.bounded⟩

end State

theorem Step.Sound.mono {g : Setting} {ts us : List Token} {e : Step} (h : e.Sound g us)
    (hs : us <:+ ts) : e.Sound g ts := by
  cases e with
  | reached s => exact ⟨h.1.trans hs, h.2⟩
  | returned procedure entry exit => exact ⟨⟨h.1.1.trans hs, h.1.2⟩, h.2⟩
  | _ => exact h

theorem State.Counts.reached {g : Setting} {d n : Nat} {s : State} (h : s.Counts g d n) :
    (Step.reached s).Sound g s.rest := by
  refine ⟨List.suffix_refl _, ?_, ?_⟩
  · rw [h.depth, h.nesting]
    exact h.ordered
  · rw [h.nesting]
    exact h.bounded

namespace Watched

variable {α β : Type} {g : Setting} {d n room : Nat} {s s' o : State}
  {w : Watched α} {f : α → Watched β} {p : Reader α}

/-- From `s` on, all steps are sound for what is read from `o` on, and reading ends with the
counters as they were there. -/
structure Returns (g : Setting) (o : State) (w : Watched α) (s : State) : Prop where
  sound : ∀ e ∈ w.steps s, e.Sound g o.rest
  kept : o.Kept (finalState (w.reader s))

/-- A reader leaves the counters as it finds them, if it finds them at these values. -/
def Keeps (g : Setting) (d n : Nat) (w : Watched α) : Prop :=
  ∀ s : State, s.Counts g d n → w.Returns g s s

theorem steps_bind_ok {a : α} (h : w.reader s = .ok a s') :
    (w >>= f).steps s = w.steps s ++ (f a).steps s' := by
  rw [steps]
  simp only [bind, h]

theorem steps_bind_error {d : Diagnostic} (h : w.reader s = .error d s') :
    (w >>= f).steps s = w.steps s := by
  rw [steps]
  simp only [bind, h]

theorem mem_steps_bind {e : Step} : e ∈ (w >>= f).steps s ↔
    e ∈ w.steps s ∨ ∃ a s', w.reader s = .ok a s' ∧ e ∈ (f a).steps s' := by
  cases heq : w.reader s with
  | ok a s' => simp [steps_bind_ok heq, and_assoc]
  | error d s' => simp [steps_bind_error heq]

/-- An action that itself changes the counters may be made up for later. -/
theorem Returns.of_bind (hw : ∀ e ∈ w.steps s, e.Sound g o.rest)
    (hok : ∀ a s', w.reader s = .ok a s' → (f a).Returns g o s')
    (herr : ∀ d s', w.reader s = .error d s' → o.Kept s') : (w >>= f).Returns g o s := by
  constructor
  · intro e he
    rcases mem_steps_bind.mp he with he | ⟨a, s', heq, he⟩
    · exact hw e he
    · exact (hok a s' heq).sound e he
  · rw [reader_bind, bind_apply]
    cases heq : w.reader s with
    | ok a s' => exact (hok a s' heq).kept
    | error d s' => exact herr d s' heq

theorem Returns.bind (h : w.Returns g o s)
    (hf : ∀ a s', w.reader s = .ok a s' → o.Kept s' → (f a).Returns g o s') :
    (w >>= f).Returns g o s := by
  refine .of_bind h.sound ?_ ?_
  · intro a s' heq
    have hk := h.kept
    rw [heq] at hk
    exact hf a s' heq hk
  · intro d s' heq
    have hk := h.kept
    rw [heq] at hk
    exact hk

/-- Steps that are sound from a later state on are so from an earlier one. -/
theorem Returns.weaken (h : w.Returns g s' s) (hk : o.Kept s') : w.Returns g o s :=
  ⟨fun e he => (h.sound e he).mono hk.rest, hk.trans h.kept⟩

theorem Returns.then (h : w.Returns g o s) (ho : o.Counts g d n)
    (hf : ∀ a, (f a).Keeps g d n) : (w >>= f).Returns g o s :=
  h.bind fun a s' _ hk => (hf a s' (ho.kept hk)).weaken hk

theorem Keeps.bind (hw : w.Keeps g d n) (hf : ∀ a, (f a).Keeps g d n) : (w >>= f).Keeps g d n :=
  fun s hs => (hw s hs).then hs hf

theorem keeps_pure (a : α) : (pure a : Watched α).Keeps g d n := by
  intro s _
  refine ⟨?_, .refl s⟩
  intro e he
  exact absurd he List.not_mem_nil

theorem keeps_act (h : ∀ s : State, s.Kept (finalState (p s))) : (act p).Keeps g d n := by
  intro s hs
  refine ⟨?_, h s⟩
  intro e he
  rw [List.mem_singleton.mp he]
  exact (hs.kept (h s)).reached.mono (h s).rest

theorem Keeps.map {f : α → β} (hw : w.Keeps g d n) : (f <$> w).Keeps g d n :=
  Keeps.bind hw fun a => keeps_pure (f a)

theorem Keeps.ite {c : Prop} [Decidable c] {w' : Watched α} (h : w.Keeps g d n)
    (h' : w'.Keeps g d n) : (if c then w else w').Keeps g d n := by
  split
  · exact h
  · exact h'

theorem Returns.called {procedure : Procedure} (h : w.Returns g s s)
    (hp : procedure = .statement →
      s.rest ≠ [] ∧ (finalState (w.reader s)).rest <:+ s.rest.tail) :
    (w.called procedure).Returns g s s := by
  refine ⟨?_, h.kept⟩
  intro e he
  rcases List.mem_append.mp he with he | he
  · exact h.sound e he
  · rw [List.mem_singleton.mp he]
    exact ⟨⟨List.suffix_refl _, h.kept.depth, h.kept.nesting⟩, hp⟩

theorem Keeps.called {procedure : Procedure} (h : w.Keeps g d n)
    (hp : procedure ≠ .statement) : (w.called procedure).Keeps g d n :=
  fun s hs => (h s hs).called (absurd · hp)

section Actions

theorem keeps_peek : (act (peek g)).Keeps g d n := keeps_act fun s => .refl s

theorem keeps_check (kind : String) : (act (check g kind)).Keeps g d n :=
  keeps_act fun s => .refl s

theorem keeps_advance : (act (advance g)).Keeps g d n := keeps_act fun s => .tail s

theorem keeps_throw (d' : Diagnostic) : (act (throw d') : Watched α).Keeps g d n :=
  keeps_act fun s => .refl s

theorem keeps_consume (kind : String) : (act (consume g kind)).Keeps g d n := by
  refine keeps_act fun s => ?_
  rw [consume_apply]
  split
  · exact .tail s
  · exact .refl s

theorem keeps_expect (kind : String) : (act (expect g kind)).Keeps g d n := by
  refine keeps_act fun s => ?_
  rw [expect_apply]
  split
  · exact .tail s
  · exact .refl s

theorem keeps_readOp? (ops : List BinaryOp) : (act (readOp? g ops)).Keeps g d n := by
  refine keeps_act fun s => ?_
  rw [readOp?_apply]
  split
  · exact .refl s
  · exact .tail s

end Actions

theorem Returns.enter {opener : Token} {f : Unit → Watched β} (hs : s.Counts g d n)
    (h : n < g.maxNesting → (f ()).Returns g s { s with nesting := s.nesting + 1 }) :
    (act (enterNesting g opener) >>= f).Returns g s s := by
  have happly := enterNesting_apply g s opener
  by_cases hm : g.maxNesting ≤ s.nesting
  · rw [if_pos hm] at happly
    refine .of_bind ?_ ?_ ?_
    · intro e he
      rw [List.mem_singleton.mp he, happly]
      exact hs.reached
    · intro a s' heq
      cases happly.symm.trans heq
    · intro d s' heq
      cases happly.symm.trans heq
      exact .refl s
  · rw [if_neg hm] at happly
    have hlt : n < g.maxNesting := by
      rw [hs.nesting] at hm
      omega
    refine .of_bind ?_ ?_ ?_
    · intro e he
      rw [List.mem_singleton.mp he, happly]
      exact (hs.entered hlt).reached
    · intro a s' heq
      cases happly.symm.trans heq
      exact h hlt
    · intro d s' heq
      cases happly.symm.trans heq

theorem Returns.thenAlways {leave : Watched Unit} (h : w.Returns g s s)
    (hs : s.rest <:+ o.rest) (hleave : ∀ t, s.Kept t → leave.Returns g o t) :
    (thenAlways leave w).Returns g o s := by
  have hl := hleave _ h.kept
  constructor
  · intro e he
    rcases List.mem_append.mp he with he | he
    · exact (h.sound e he).mono hs
    · exact hl.sound e he
  · rw [finalState_thenAlways]
    exact hl.kept

theorem leaveBracket_returns {t : State} (hs : s.Counts g d n)
    (ht : State.Kept { s with nesting := s.nesting + 1 } t) : leaveBracket.Returns g s t := by
  have hk : s.Kept t.leaveBracket := ⟨ht.rest, ht.depth, by simp [State.leaveBracket, ht.nesting]⟩
  refine ⟨?_, hk⟩
  intro e he
  rcases List.mem_cons.mp he with rfl | he
  · simp [Step.Sound, ht.nesting]
  · rw [List.mem_singleton.mp he]
    exact (hs.kept hk).reached.mono hk.rest

theorem factor_keeps {inner : Watched Expr} (h : n < g.maxNesting → inner.Keeps g d (n + 1)) :
    (factor g inner).Keeps g d n := by
  refine .called ?_ (by decide)
  refine (keeps_check _).bind fun isNumber => .ite ?_ ?_
  · refine keeps_advance.bind fun t => ?_
    split
    · exact keeps_pure _
    · exact keeps_throw _
  refine (keeps_check _).bind fun isVar => .ite ?_ ?_
  · exact keeps_advance.bind fun t => keeps_pure _
  refine (keeps_check _).bind fun isSquare => .ite ?_ ?_
  · refine keeps_advance.bind fun opener => ?_
    intro s hs
    refine .enter hs fun hlt => ?_
    have hbody := (h hlt _ (hs.entered hlt)).thenAlways (o := s) (List.suffix_refl _)
      fun t => leaveBracket_returns hs
    exact hbody.then hs fun e => (keeps_expect _).bind fun _ => keeps_pure e
  · exact keeps_act fun s => .refl s

theorem chain_returns {operand : Watched Expr} {layer : Layer} (hk : operand.Keeps g d n)
    (hp : Follows g room layer.operand operand.reader) (hn : n + room = g.maxNesting)
    (fuel : Nat) : ∀ (left : Expr) (s : State), s.Counts g d n → s.rest.length < fuel →
      (chain g operand layer.ops fuel left).Returns g s s := by
  induction fuel with
  | zero =>
    intro left s _ hf
    omega
  | succ fuel ih =>
    intro left s hs hf
    refine (keeps_readOp? layer.ops s hs).bind fun op? s' heq hk' => ?_
    have happly := (readOp?_apply g s layer.ops).symm.trans heq
    cases ho : opAmong layer.ops (g.next s.rest) with
    | none =>
      rw [ho] at happly
      cases happly
      exact keeps_pure left s hs
    | some op =>
      rw [ho] at happly
      cases happly
      refine ((hk _ (hs.kept hk')).weaken hk').bind fun right s' heq' hk' => ?_
      -- an operand was read, so there are fewer tokens than in front of its operator
      obtain ⟨r, hr, hfrom⟩ := hp { s with rest := s.rest.tail } (by simp [hs.nesting, hn])
      rw [hfrom] at heq'
      cases r with
      | error f us => cases heq'
      | ok right' us =>
        cases heq'
        have hlt := hr.operand_shorter ho
        exact (ih _ _ (hs.kept hk') (by simp only; omega)).weaken hk'

theorem keeps_remaining {f : Nat → Watched β}
    (h : ∀ s : State, s.Counts g d n → (f (s.rest.length + 1)).Returns g s s) :
    (act remaining >>= f).Keeps g d n := by
  intro s hs
  have hr : (act remaining).Keeps g d n := keeps_act fun s => .refl s
  refine (hr s hs).bind fun a s' heq hk => ?_
  cases heq
  exact h s hs

theorem whole_keeps {operand : Watched Expr} (layer : Layer) (hk : operand.Keeps g d n)
    (hp : Follows g room layer.operand operand.reader) (hn : n + room = g.maxNesting) :
    (do
      let left ← operand
      chain g operand layer.ops (← remaining) left).Keeps g d n :=
  hk.bind fun left => keeps_remaining fun s hs =>
    chain_returns hk hp hn _ left s hs (Nat.lt_succ_self _)

theorem sum_keeps {inner : Watched Expr} (hn : n + room = g.maxNesting)
    (hk : n < g.maxNesting → inner.Keeps g d (n + 1))
    (hp : ∀ k, room = k + 1 → Follows g k (.whole .sum) inner.reader) :
    (sum g inner).Keeps g d n := by
  have hfactor : Follows g room .factor (factor g inner).reader := by
    rw [reader_factor]
    exact factor_follows hp
  have hterm : Follows g room (.whole .term) (term g inner).reader := by
    rw [reader_term]
    exact whole_follows (factor_follows hp)
  have hk : (term g inner).Keeps g d n :=
    .called (whole_keeps .term (factor_keeps hk) hfactor hn) (by decide)
  exact .called (whole_keeps .sum hk hterm hn) (by decide)

theorem expression_keeps (g : Setting) (d room : Nat) :
    ∀ n, n + room = g.maxNesting → (expression g room).Keeps g d n := by
  induction room with
  | zero =>
    intro n hn
    exact sum_keeps hn (by omega) (by simp)
  | succ room ih =>
    intro n hn
    refine sum_keeps hn (fun _ => ih (n + 1) (by omega)) ?_
    intro k hk
    cases hk
    rw [reader_expression]
    exact expression_follows g room

theorem condition_keeps {expr : Watched Expr} (h : expr.Keeps g d n) :
    (condition g expr).Keeps g d n := by
  refine .called (h.bind fun left => ?_) (by decide)
  refine (keeps_consume _).bind fun strict => .ite ?_ ?_
  · exact h.bind fun right => keeps_pure _
  refine (keeps_consume _).bind fun equal => .ite ?_ ?_
  · exact h.bind fun right => keeps_pure _
  · exact keeps_pure left

theorem assignment_keeps {expr : Watched Expr} (h : expr.Keeps g d n) :
    (assignment g expr).Keeps g d n := by
  refine .called ?_ (by decide)
  exact (keeps_expect _).bind fun target => (keeps_expect _).bind fun _ =>
    h.bind fun value => keeps_pure _

/-- A reader of statements, which is only called in front of a token and takes at least that. -/
def Advances (g : Setting) (d : Nat) (inner : Watched Statement) : Prop :=
  ∀ s : State, s.Counts g d d → s.rest ≠ [] →
    inner.Returns g s s ∧ (finalState (inner.reader s)).rest <:+ s.rest.tail

theorem statementsUntil_returns {stop : Reader Bool} {inner : Watched Statement}
    (hstop : ∀ s, ∃ b, stop s = .ok b s ∧ (b = false → s.rest ≠ []))
    (hin : inner.Advances g d) (fuel : Nat) :
    ∀ s : State, s.Counts g d d → s.rest.length < fuel →
      (statementsUntil stop inner fuel).Returns g s s := by
  induction fuel with
  | zero =>
    intro s _ hf
    omega
  | succ fuel ih =>
    intro s hs hf
    have hkeeps : (act stop).Keeps g d d := keeps_act fun s => by
      obtain ⟨b, hb, -⟩ := hstop s
      rw [hb]
      exact .refl s
    refine (hkeeps s hs).bind fun b s' heq _ => ?_
    obtain ⟨b', hb, hne⟩ := hstop s
    cases hb.symm.trans heq
    cases b with
    | true => exact keeps_pure [] s hs
    | false =>
      have hne := hne rfl
      obtain ⟨hret, htail⟩ := hin s hs hne
      refine hret.bind fun st s' heq hk => ?_
      have hlt : s'.rest.length < s.rest.length := by
        rw [heq, finalState_ok] at htail
        exact length_lt_of_suffix_tail hne htail
      have hrest := (ih s' (hs.kept hk) (by omega)).weaken hk
      exact hrest.then hs fun rest => keeps_pure _

theorem leaveBlock_returns {t : State} (hs : s.Counts g d n) (hlt : n < g.maxNesting)
    (ht : State.Kept (State.enterBlock { s with nesting := s.nesting + 1 }) t) :
    leaveBlock.Returns g s t := by
  have hmid : State.Kept { s with nesting := s.nesting + 1 }
      { t with blockDepth := t.blockDepth - 1 } :=
    ⟨ht.rest, by simp [ht.depth, State.enterBlock], ht.nesting⟩
  have hbracket := leaveBracket_returns hs hmid
  refine ⟨?_, hbracket.kept⟩
  intro e he
  rcases List.mem_cons.mp he with rfl | he
  · simp [Step.Sound, ht.depth, State.enterBlock]
  rcases List.mem_cons.mp he with rfl | he
  · exact ((hs.entered hlt).kept hmid).reached.mono hmid.rest
  · exact hbracket.sound e he

theorem block_keeps {inner : Watched Statement}
    (h : d < g.maxNesting → inner.Advances g (d + 1)) : (block g inner).Keeps g d d := by
  refine .called ?_ (by decide)
  refine (keeps_expect _).bind fun opener => ?_
  intro s hs
  refine .enter hs fun hlt => ?_
  have hin : State.Counts g (d + 1) (d + 1)
      (State.enterBlock { s with nesting := s.nesting + 1 }) :=
    ⟨congrArg Nat.succ hs.depth, congrArg Nat.succ hs.nesting, Nat.le_refl _, hlt⟩
  have hstop : ∀ s, ∃ b, atBlockEnd g s = .ok b s ∧ (b = false → s.rest ≠ []) := by
    intro s
    obtain ⟨b, hb, hs⟩ := atBlockEnd_stops (g := g) (Nat.succ_pos d) s
    refine ⟨b, hb, ?_⟩
    rintro rfl hnil
    exact absurd (hs.mpr (.inl hnil)) (by decide)
  have hbody : (do statementsUntil (atBlockEnd g) inner (← remaining) :
      Watched (List Statement)).Keeps g (d + 1) (d + 1) :=
    keeps_remaining fun s hs =>
      statementsUntil_returns hstop (h hlt) _ s hs (Nat.lt_succ_self _)
  refine .of_bind ?_ ?_ ?_
  · intro e he
    rw [List.mem_singleton.mp he]
    exact hin.reached
  · rintro a s' heq
    cases heq
    have hret := (hbody _ hin).thenAlways (o := s) (List.suffix_refl _)
      fun t => leaveBlock_returns hs hlt
    exact hret.then hs fun body => (keeps_expect _).bind fun _ => keeps_pure body
  · rintro d s' heq
    cases heq

theorem branches_keeps {test : Expr} {inner : Watched Statement}
    (h : d < g.maxNesting → inner.Advances g (d + 1)) : (branches g test inner).Keeps g d d := by
  refine (block_keeps h).bind fun consequent => keeps_peek.bind fun next => ?_
  have hend : ∀ alternate, (do
      let _ ← consume g Kind.keywordEnd
      return .conditional test consequent alternate : Watched Statement).Keeps g d d :=
    fun alternate => (keeps_consume _).bind fun _ => keeps_pure _
  refine .ite ?_ ((keeps_pure none).bind hend)
  exact keeps_advance.bind fun _ => (block_keeps h).map.bind hend

theorem conditional_keeps {expr : Watched Expr} {inner : Watched Statement}
    (he : expr.Keeps g d d) (h : d < g.maxNesting → inner.Advances g (d + 1)) :
    (conditional g expr inner).Keeps g d d := by
  refine .called ?_ (by decide)
  refine (keeps_expect _).bind fun _ => (condition_keeps he).bind fun test => ?_
  split
  · exact branches_keeps h
  · exact (keeps_expect _).bind fun _ => branches_keeps h

theorem Keeps.orSkipped {w : Watched Statement} (h : w.Keeps g d n) :
    (orSkipped w).Keeps g d n := by
  intro s hs
  have hret := h s hs
  have hk : s.Kept (finalState (Parser.orSkipped w.reader s)) := by
    have hk := hret.kept
    unfold Parser.orSkipped
    cases heq : w.reader s with
    | ok a s' =>
      rw [heq] at hk
      exact hk
    | error d s' =>
      rw [heq] at hk
      exact hk.trans ⟨recovered_suffix _ _, rfl, rfl⟩
  refine ⟨?_, hk⟩
  intro e he
  rcases List.mem_append.mp he with he | he
  · exact hret.sound e he
  · rw [List.mem_singleton.mp he]
    exact (hs.kept hk).reached.mono hk.rest

theorem statementWith_returns {expr : Watched Expr} {inner : Watched Statement}
    (he : expr.Keeps g d d) (h : d < g.maxNesting → inner.Advances g (d + 1))
    (hs : s.Counts g d d) (hne : s.rest ≠ [])
    (htail : (finalState ((statementWith g expr inner).reader s)).rest <:+ s.rest.tail) :
    (statementWith g expr inner).Returns g s s := by
  refine .called ?_ fun _ => ⟨hne, htail⟩
  refine (keeps_peek (g := g) s hs).then hs fun t => ?_
  refine .ite (conditional_keeps he h).orSkipped ?_
  refine .ite (assignment_keeps he).orSkipped ?_
  refine .ite (block_keeps h).map.orSkipped ?_
  refine keeps_advance.bind fun t => Keeps.bind (keeps_act fun s => ?_) fun _ => keeps_pure _
  exact ⟨List.suffix_refl _, rfl, rfl⟩

theorem statement_advances (g : Setting) (levels : Nat) :
    ∀ d, d + levels = g.maxNesting → (statement g levels).Advances g d := by
  have htail : ∀ levels d s, d + levels = g.maxNesting → s.Counts g d d → s.rest ≠ [] →
      (finalState ((statement g levels).reader s)).rest <:+ s.rest.tail := by
    intro levels d s hd hs hne
    obtain ⟨log, st, ts, hrun, heq⟩ := statement_readsAt g levels d hd s hs.depth hs.nesting hne
    rw [reader_statement, heq]
    exact hrun.statement_suffix
  induction levels with
  | zero =>
    intro d hd s hs hne
    have htail := htail 0 d s hd hs hne
    exact ⟨statementWith_returns (expression_keeps g d 0 d hd) (by omega) hs hne htail, htail⟩
  | succ levels ih =>
    intro d hd s hs hne
    have htail := htail (levels + 1) d s hd hs hne
    have hinner : d < g.maxNesting → (statement g levels).Advances g (d + 1) :=
      fun _ => ih (d + 1) (by omega)
    exact ⟨statementWith_returns (expression_keeps g d _ d hd) hinner hs hne htail, htail⟩

theorem topLevel_advances (g : Setting) :
    (do
      note .topLevel
      statement g g.maxNesting : Watched Statement).Advances g 0 := by
  intro s hs hne
  obtain ⟨hret, htail⟩ := statement_advances g g.maxNesting 0 (Nat.zero_add _) s hs hne
  have hnote : (note .topLevel).Returns g s s := by
    refine ⟨?_, .refl s⟩
    intro e he
    rw [List.mem_singleton.mp he]
    exact ⟨hs.depth, hs.nesting⟩
  refine ⟨hnote.bind fun _ s' heq _ => ?_, htail⟩
  cases heq
  exact hret

/-- Every step of a parse is sound. -/
theorem program_sound (g : Setting) (ts : List Token) :
    ∀ e ∈ (program g).steps (.initial ts), e.Sound g ts := by
  have hs : (State.initial ts).Counts g 0 0 := ⟨rfl, rfl, Nat.le_refl _, Nat.zero_le _⟩
  have hnote : (note .reached).Returns g (.initial ts) (.initial ts) := by
    refine ⟨?_, .refl _⟩
    intro e he
    rw [List.mem_singleton.mp he]
    exact hs.reached
  have hstop : ∀ s, ∃ b, atEnd s = .ok b s ∧ (b = false → s.rest ≠ []) :=
    fun s => ⟨s.rest.isEmpty, rfl, by simp⟩
  have hloop := hnote.then hs fun _ => keeps_remaining fun s hs =>
    statementsUntil_returns hstop (topLevel_advances g) _ s hs (Nat.lt_succ_self _)
  exact hloop.sound

end Watched

end Parser

open DollarScript.Parser

/-- All that a parse does. -/
def parseSteps (options : ParserOptions) (stream : TokenStream) : List Step :=
  (Watched.program (setting options stream.eof)).steps (.initial stream.tokens)

theorem parseSteps_sound {options : ParserOptions} {stream : TokenStream} {e : Step}
    (h : e ∈ parseSteps options stream) : e.Sound (setting options stream.eof) stream.tokens :=
  Watched.program_sound _ _ e h

/-- Every procedure leaves the counters as it found them, however it ends; they are never out of
bounds and never lowered from zero; and both stand at zero wherever a statement of the program
itself starts. -/
theorem counters_balanced (options : ParserOptions) (stream : TokenStream) :
    (Watched.program (setting options stream.eof)).reader = program (setting options stream.eof) ∧
    (∀ procedure entry exit, .returned procedure entry exit ∈ parseSteps options stream →
      exit.nesting = entry.nesting ∧ exit.blockDepth = entry.blockDepth) ∧
    (∀ s, .reached s ∈ parseSteps options stream →
      s.blockDepth ≤ s.nesting ∧ s.nesting ≤ options.maxNesting) ∧
    (∀ s, .lowersNesting s ∈ parseSteps options stream → 0 < s.nesting) ∧
    (∀ s, .lowersDepth s ∈ parseSteps options stream → 0 < s.blockDepth) ∧
    ∀ s, .topLevel s ∈ parseSteps options stream → s.nesting = 0 ∧ s.blockDepth = 0 := by
  refine ⟨Watched.reader_program _, ?_, ?_, ?_, ?_, ?_⟩
  · intro procedure entry exit h
    obtain ⟨⟨-, hdepth, hnesting⟩, -⟩ := parseSteps_sound h
    exact ⟨hnesting, hdepth⟩
  · intro s h
    exact (parseSteps_sound h).2
  · intro s h
    exact parseSteps_sound h
  · intro s h
    exact parseSteps_sound h
  · intro s h
    exact (parseSteps_sound h).symm

-- `{ $a = [$b }`: every procedure is put down when it returns, also if it fails
example :
    (parseSteps .default ⟨[.placeless Kind.openCurly "\x7b" [], .placeless Kind.var "$a" [],
        .placeless Kind.assign "=" [], .placeless Kind.openSquare "[" [],
        .placeless Kind.var "$b" [], .placeless Kind.closeCurly "\x7d" []],
        .placeless Kind.eof "" []⟩).filterMap
      (fun
        | .returned procedure _ _ => some procedure
        | _ => none) =
    [.factor, .term, .expression, .factor, .term, .expression, .assignment, .statement, .block,
      .statement] := by
  rfl

end DollarScript
