import DollarScript.Proofs.Parser.Acceptance
import DollarScript.Proofs.Parser.BracketLevels

/-! A program that opens more blocks and brackets at once than it may is first reported where it
does. -/
namespace DollarScript

namespace Parser

open Brackets

/-- The end token ends, and the delimiter is neither an operator nor a bracket. -/
structure Setting.Told (g : Setting) : Prop where
  eof : g.eof.kind = Kind.eof
  operator : ∀ k ∈ g.delimiter, ∀ op : BinaryOp, k ≠ op.kind
  bracket : ∀ k ∈ g.delimiter, k ∉ Brackets.kinds

theorem op_not_bracket (op : BinaryOp) : op.kind ∉ Brackets.kinds := by
  cases op <;> decide

theorem other_not_bracket {t : Token} (h : opensAlternate t) : t.kind ∉ Brackets.kinds := by
  rw [h.1]
  decide

theorem Terminal.not_bracket {kind : String} (t : Terminal kind) (h : kind ∉ Brackets.kinds) :
    t.val.kind ∉ Brackets.kinds := by
  rwa [t.2]

theorem Terminal.opens {kind : String} (t : Terminal kind) (h : kind ∈ openers) :
    t.val.kind ∈ openers := by
  rwa [t.2]

theorem Terminal.closes {kind : String} (t : Terminal kind) (h : kind ∈ closers) :
    t.val.kind ∈ closers := by
  rwa [t.2]

section Balance

variable {delimiter : Option String}

theorem balanced_delim (hdel : ∀ k ∈ delimiter, k ∉ Brackets.kinds)
    (delim : { ts : List Token // ts.map Token.kind = delimiter.toList }) :
    Balanced 0 delim.val :=
  balanced_others fun _ ht => hdel _ (kind_of_delim delim ht)

theorem balanced_ending (ending : Option (Terminal Kind.keywordEnd)) :
    Balanced 0 (ending.toList.map (·.val)) := by
  cases ending with
  | none => exact balanced_nil
  | some t => exact .cons (t.not_bracket (by decide)) balanced_nil

/-- What is derived opens as many brackets at once as its blocks and brackets are nested. -/
theorem Derivation.balanced {sym : Symbol} (hdel : ∀ k ∈ delimiter, k ∉ Brackets.kinds)
    (d : Derivation delimiter sym) : Balanced d.depth d.yield := by
  induction d with
  | number t => exact .cons (t.not_bracket (by decide)) balanced_nil
  | var t => exact .cons (t.not_bracket (by decide)) balanced_nil
  | bracketed opener inner closer ih =>
    exact ih.enclosed (opener.opens (by decide)) (closer.closes (by decide))
  | chain first more ihf ihm =>
    exact (ihf.mono (Nat.le_max_left _ _)).append (ihm.mono (Nat.le_max_right _ _))
  | last => exact balanced_nil
  | further op among sign operand more iho ihm =>
    have hoperands := (iho.mono (Nat.le_max_left _ _)).append (ihm.mono (Nat.le_max_right _ _))
    exact hoperands.cons (sign.not_bracket (op_not_bracket op))
  | plain e ih => exact ih
  | comparison left op among sign right ihl ihr =>
    have hright := ihr.cons (sign.not_bracket (op_not_bracket op))
    exact (ihl.mono (Nat.le_max_left _ _)).append (hright.mono (Nat.le_max_right _ _))
  | assignment target sign value ih =>
    exact (ih.cons (sign.not_bracket (by decide))).cons (target.not_bracket (by decide))
  | block opener body closer ih =>
    exact ih.enclosed (opener.opens (by decide)) (closer.closes (by decide))
  | alone keyword test delim consequent ending iht ihc =>
    have hblock := ihc.append ((balanced_ending ending).mono (Nat.zero_le _))
    have hbehind := ((balanced_delim hdel delim).mono (Nat.zero_le _)).append hblock
    have hall := (iht.mono (Nat.le_max_left _ _)).append (hbehind.mono (Nat.le_max_right _ _))
    exact hall.cons (keyword.not_bracket (by decide))
  | branched keyword test delim consequent other alternate ending iht ihc iha =>
    have hother := other_not_bracket other.2
    have halternate := iha.append ((balanced_ending ending).mono (Nat.zero_le _))
    have hblocks := (ihc.mono (Nat.le_max_left _ _)).append
      ((halternate.cons hother).mono (Nat.le_max_right _ _))
    have hbehind := ((balanced_delim hdel delim).mono (Nat.zero_le _)).append hblocks
    have hall := (iht.mono (Nat.le_max_left _ _)).append (hbehind.mono (Nat.le_max_right _ _))
    exact hall.cons (keyword.not_bracket (by decide))
  | ofConditional s ih | ofAssignment s ih | ofBlock s ih => exact ih
  | nil => exact balanced_nil
  | cons s rest ihs ihr =>
    exact (ihs.mono (Nat.le_max_left _ _)).append (ihr.mono (Nat.le_max_right _ _))
  | program body eof ih =>
    have heof : Balanced 0 [eof.val] := .cons (eof.not_bracket (by decide)) balanced_nil
    exact ih.append (heof.mono (Nat.zero_le _))

end Balance

/-- The fault of a bracket that may not be opened. -/
def Setting.tooDeep (g : Setting) (place : List Token) : Fault :=
  ⟨place, .nestingTooDeep g.maxNesting⟩

/-- With `n` brackets open in front of the tokens, reading them fails at the first bracket that is
one too many; `ends` says how it can end. -/
def Fails (g : Setting) (n : Nat) (ts : List Token) (ends : Ending Expr → Prop) : Prop :=
  ∃ place rest, Exceeds g.maxNesting n ts place ∧ ends (.error (g.tooDeep place) rest)

/-- Of the faults noted, and the one that ended a run, the first is the first bracket that is one
too many. What follows it depends on where reading goes on. -/
def Reports (g : Setting) (n : Nat) (ts : List Token) (log : List Event)
    (q : Ending (List Statement)) : Prop :=
  ∃ place, Exceeds g.maxNesting n ts place ∧
    (noted (log ++ q.thrown)).head? = some (g.tooDeep place)

variable {g : Setting} {n depth : Nat} {part : Part} {t opener : Token}
  {ts us vs : List Token} {log log' : List Event} {q q' : Ending (List Statement)}
  {e : Expr} {body : List Statement}

theorem Reports.behind (h : Reports g n us log q) (hb : Balanced depth ts)
    (hd : n + depth ≤ g.maxNesting) : Reports g n (ts ++ us) log q := by
  obtain ⟨place, hex, hfirst⟩ := h
  exact ⟨place, .behind hb hd hex, hfirst⟩

theorem Reports.cons (h : Reports g n us log q) (ht : t.kind ∉ Brackets.kinds) :
    Reports g n (t :: us) log q := by
  obtain ⟨place, hex, hfirst⟩ := h
  exact ⟨place, hex.cons ht, hfirst⟩

theorem Reports.opened (h : Reports g (n + 1) us log q) (ho : opener.kind ∈ openers)
    (hn : n < g.maxNesting) : Reports g n (opener :: us) log q := by
  obtain ⟨place, hex, hfirst⟩ := h
  exact ⟨place, hex.opened ho hn, hfirst⟩

theorem Reports.extend (h : Reports g n ts log q)
    (hp : noted (log ++ q.thrown) <+: noted (log' ++ q'.thrown)) : Reports g n ts log' q' := by
  obtain ⟨place, hex, hfirst⟩ := h
  obtain ⟨more, hmore⟩ := hp
  refine ⟨place, hex, ?_⟩
  rw [← hmore, List.head?_append, hfirst, Option.some_or]

/-- A statement is the part that its first token opens, with the same faults. -/
theorem Run.statement_part (hk : Part.ofKind? (g.next ts).kind = some part)
    (h : Run g n .statement ts log q) :
    ∃ log' q', Run g n part ts log' q' ∧
      noted (log' ++ q'.thrown) = noted (log ++ q.thrown) := by
  cases h with
  | simple hk' _ h =>
    cases hk.symm.trans hk'
    exact ⟨_, _, h, rfl⟩
  | block hk' h =>
    cases hk.symm.trans hk'
    exact ⟨_, _, h, rfl⟩
  | skipped hk' h =>
    cases hk.symm.trans hk'
    exact ⟨_, _, h, by simp [Ending.thrown]⟩
  | invalid hk' => cases hk.symm.trans hk'

/-- The faults of a condition start with those of its first block. -/
theorem Run.consequent (hh : HeadRun g (g.maxNesting - n) ts (.ok e us))
    (h : Run g n .conditional ts log q) :
    ∃ log' q', Run g n .block us log' q' ∧
      noted (log' ++ q'.thrown) <+: noted (log ++ q.thrown) := by
  cases h with
  | headFails h => cases hh.unique h
  | consequentFails h hb | alone h hb =>
    cases hh.unique h
    exact ⟨_, _, hb, List.prefix_rfl⟩
  | alternateFails h hb | alternate h hb =>
    cases hh.unique h
    exact ⟨_, _, hb, by simp [Ending.thrown]⟩

/-- Behind a first block that was read, the faults are those of the second. -/
theorem Run.other_block (hh : HeadRun g (g.maxNesting - n) ts (.ok e us))
    (h : Run g n .conditional ts log q) (hb : Run g n .block us log' (.ok body vs))
    (ha : opensAlternate (g.next vs)) :
    ∃ log'' q'', Run g n .block vs.tail log'' q'' ∧
      noted (log ++ q.thrown) = noted log' ++ noted (log'' ++ q''.thrown) := by
  cases h with
  | headFails h => cases hh.unique h
  | consequentFails h h₁ =>
    cases hh.unique h
    cases (hb.unique h₁).2
  | alone h h₁ hn =>
    cases hh.unique h
    cases (hb.unique h₁).2
    exact absurd ha hn
  | alternateFails h h₁ _ h₂ | alternate h h₁ _ h₂ =>
    cases hh.unique h
    obtain ⟨rfl, hq⟩ := hb.unique h₁
    cases hq
    exact ⟨_, _, h₂, by simp [Ending.thrown]⟩

/-- What is nested too deep is reported first where it gets too deep, whatever follows it. -/
def Derivation.Overruns (g : Setting) : {sym : Symbol} → Derivation g.delimiter sym → Prop
  | .expr rank, d => ∀ n room us, n + room = g.maxNesting → room < d.depth →
    (Symbol.expr rank).Follow (g.next us) →
    Fails g n (d.yield ++ us) (ExprRun g room rank.part (d.yield ++ us))
  | .further layer, d => ∀ n room left us, n + room = g.maxNesting → room < d.depth →
    (Symbol.further layer).Follow (g.next us) →
    Fails g n (d.yield ++ us) (ExprRun g room (.behind layer left) (d.yield ++ us))
  | .condition, d => ∀ n room us, n + room = g.maxNesting → room < d.depth →
    Symbol.condition.Follow (g.next us) →
    Fails g n (d.yield ++ us) (TestRun g room (d.yield ++ us))
  | .assignment, d => ∀ n us log q, n ≤ g.maxNesting → g.maxNesting < n + d.depth →
    Symbol.assignment.Follow (g.next us) → Run g n .assignment (d.yield ++ us) log q →
    Reports g n (d.yield ++ us) log q
  | .block, d => ∀ n us log q, n ≤ g.maxNesting → g.maxNesting < n + d.depth →
    d.ElseTaken (g.next us) → Run g n .block (d.yield ++ us) log q →
    Reports g n (d.yield ++ us) log q
  | .conditional, d => ∀ n us log q, n ≤ g.maxNesting → g.maxNesting < n + d.depth →
    d.ElseTaken (g.next us) → Run g n .conditional (d.yield ++ us) log q →
    Reports g n (d.yield ++ us) log q
  | .statement, d => ∀ n us log q, n ≤ g.maxNesting → g.maxNesting < n + d.depth →
    Symbol.statement.Follow (g.next us) → d.ElseTaken (g.next us) →
    Run g n .statement (d.yield ++ us) log q → Reports g n (d.yield ++ us) log q
  | .statements, d => ∀ n us log q, n ≤ g.maxNesting → g.maxNesting < n + d.depth →
    g.Stops n us → d.ElseTaken (g.next us) → Run g n .statements (d.yield ++ us) log q →
    Reports g n (d.yield ++ us) log q
  | .program, d => ∀ ts log q, d.yield = ts ++ [g.eof] → g.maxNesting < d.depth →
    d.ElseTaken g.eof → Run g 0 .statements ts log q → Reports g 0 ts log q

theorem bracketed_overruns {opener : Terminal Kind.openSquare} {closer : Terminal Kind.closeSquare}
    {inner : Derivation g.delimiter (.expr (.chain .sum))} (hi : inner.Overruns g) :
    (Derivation.bracketed opener inner closer).Overruns g := by
  intro n room us hn hd _
  have ho : opener.val.kind ∈ openers := opener.opens (by decide)
  cases room with
  | zero =>
    obtain rfl : n = g.maxNesting := hn
    exact ⟨_, _, .here ho, .tooDeep opener.2⟩
  | succ room =>
    have hcloser : (Symbol.expr (.chain .sum)).Follow (g.next (closer.val :: us)) := by
      intro op _
      rw [show (g.next (closer.val :: us)).kind = Kind.closeSquare from closer.2]
      exact ne_op_of_plainKind (by decide) op
    obtain ⟨place, rest, hex, hrun⟩ := hi (n + 1) room (closer.val :: us) (by omega)
      (Nat.lt_of_succ_lt_succ hd) hcloser
    have hex := hex.opened ho (by omega)
    simp only [Derivation.yield, List.cons_append, List.append_assoc, List.nil_append]
    exact ⟨place, rest, hex, .innerFails opener.2 hrun⟩

theorem chain_overruns {layer : Layer} {first : Derivation g.delimiter (.expr layer.operandRank)}
    {more : Derivation g.delimiter (.further layer)} (hg : g.Told) (hf : first.Overruns g)
    (hm : more.Overruns g) : (Derivation.chain first more).Overruns g := by
  intro n room us hn hd hfol
  simp only [Derivation.depth] at hd
  simp only [Derivation.yield, List.append_assoc]
  have hfirst : (Symbol.expr layer.operandRank).Follow (g.next (more.yield ++ us)) := by
    rw [next_append]
    exact follow_operand more hfol
  by_cases hfit : first.depth ≤ room
  · have hread := first.parses hg.eof hg.operator room _ hfit hfirst
    rw [operandRank_part] at hread
    obtain ⟨place, rest, hex, hrun⟩ := hm n room first.tree us hn (by omega) hfol
    have hex := Exceeds.behind (first.balanced hg.bracket) (by omega) hex
    exact ⟨place, rest, hex, .first hread hrun⟩
  · obtain ⟨place, rest, hex, hrun⟩ := hf n room _ hn (Nat.lt_of_not_le hfit) hfirst
    rw [operandRank_part] at hrun
    exact ⟨place, rest, hex, .firstFails hrun⟩

theorem further_overruns {layer : Layer} {op : BinaryOp} {among : op ∈ layer.ops}
    {sign : Terminal op.kind} {operand : Derivation g.delimiter (.expr layer.operandRank)}
    {more : Derivation g.delimiter (.further layer)} (hg : g.Told) (ho : operand.Overruns g)
    (hm : more.Overruns g) : (Derivation.further op among sign operand more).Overruns g := by
  intro n room left us hn hd hfol
  simp only [Derivation.depth] at hd
  simp only [Derivation.yield, List.cons_append, List.append_assoc]
  have hsign := opAmong_eq_some.mpr ⟨among, sign.2⟩
  have hother := sign.not_bracket (op_not_bracket op)
  have hoperand : (Symbol.expr layer.operandRank).Follow (g.next (more.yield ++ us)) := by
    rw [next_append]
    exact follow_operand more hfol
  by_cases hfit : operand.depth ≤ room
  · have hread := operand.parses hg.eof hg.operator room _ hfit hoperand
    rw [operandRank_part] at hread
    obtain ⟨place, rest, hex, hrun⟩ :=
      hm n room (.binary op left operand.tree) us hn (by omega) hfol
    have hex := Exceeds.behind (operand.balanced hg.bracket) (by omega) hex
    exact ⟨place, rest, hex.cons hother, .operand hsign hread hrun⟩
  · obtain ⟨place, rest, hex, hrun⟩ := ho n room _ hn (Nat.lt_of_not_le hfit) hoperand
    rw [operandRank_part] at hrun
    exact ⟨place, rest, hex.cons hother, .operandFails hsign hrun⟩

theorem comparison_overruns {left right : Derivation g.delimiter (.expr (.chain .sum))}
    {op : BinaryOp} {among : op ∈ comparisons} {sign : Terminal op.kind} (hg : g.Told)
    (hl : left.Overruns g) (hr : right.Overruns g) :
    (Derivation.comparison left op among sign right).Overruns g := by
  intro n room us hn hd hfol
  simp only [Derivation.depth] at hd
  simp only [Derivation.yield, List.append_assoc, List.cons_append]
  have hsign : (Symbol.expr (.chain .sum)).Follow (g.next (sign.val :: (right.yield ++ us))) :=
    fun op' hop hk => comparison_ne_reach among hop (sign.2.symm.trans hk)
  by_cases hfit : left.depth ≤ room
  · have hread := left.parses hg.eof hg.operator room _ hfit hsign
    obtain ⟨place, rest, hex, hrun⟩ := hr n room us hn (by omega) (follow_sum hfol)
    have hex := hex.cons (sign.not_bracket (op_not_bracket op))
    have hex := Exceeds.behind (left.balanced hg.bracket) (by omega) hex
    exact ⟨place, rest, hex, .rightFails hread (opAmong_eq_some.mpr ⟨among, sign.2⟩) hrun⟩
  · obtain ⟨place, rest, hex, hrun⟩ := hl n room _ hn (Nat.lt_of_not_le hfit) hsign
    exact ⟨place, rest, hex, .leftFails hrun⟩

theorem assignment_overruns {target : Terminal Kind.var} {sign : Terminal Kind.assign}
    {value : Derivation g.delimiter (.expr (.chain .sum))} (hv : value.Overruns g) :
    (Derivation.assignment target sign value).Overruns g := by
  intro n us log q hn hd hfol hrun
  have hd : g.maxNesting < n + value.depth := hd
  obtain ⟨place, rest, hex, hvalue⟩ := hv n (g.maxNesting - n) us (by omega) (by omega)
    (follow_sum hfol)
  have htarget : (g.next (target.val :: sign.val :: (value.yield ++ us))).kind = Kind.var :=
    target.2
  obtain ⟨rfl, rfl⟩ := (Run.valueFails htarget sign.2 hvalue).unique hrun
  have hex := (hex.cons (sign.not_bracket (by decide))).cons (target.not_bracket (by decide))
  exact ⟨place, hex, rfl⟩

theorem block_overruns {opener : Terminal Kind.openCurly} {closer : Terminal Kind.closeCurly}
    {body : Derivation g.delimiter .statements} (hb : body.Overruns g) :
    (Derivation.block opener body closer).Overruns g := by
  intro n us log q hn hd hs hrun
  simp only [Derivation.depth] at hd
  simp only [Derivation.yield, List.cons_append, List.append_assoc, List.nil_append] at hrun ⊢
  have ho : opener.val.kind ∈ openers := opener.opens (by decide)
  have hstops : g.Stops (n + 1) (closer.val :: us) := .inr ⟨Nat.succ_pos n, closer.2⟩
  have hbody := hb (n + 1) (closer.val :: us)
  cases hrun with
  | unopened hk => exact absurd opener.2 hk
  | tooDeep _ hm =>
    obtain rfl : n = g.maxNesting := Nat.le_antisymm hn hm
    exact ⟨_, .here ho, rfl⟩
  | unclosed _ hlt h =>
    have hinner := hbody _ _ hlt (by omega) hstops hs h
    refine (hinner.opened ho hlt).extend ?_
    simp [Ending.thrown]
  | closed _ hlt h =>
    have hinner := hbody _ _ hlt (by omega) hstops hs h
    refine (hinner.opened ho hlt).extend ?_
    simp [Ending.thrown]

/-- A condition whose test or first block is nested too deep. -/
theorem head_overruns {test : Derivation g.delimiter .condition}
    {consequent : Derivation g.delimiter .block} (hg : g.Told) (ht : test.Overruns g)
    (hc : consequent.Overruns g) (keyword : Terminal Kind.keywordBegin)
    (delim : { ds : List Token // ds.map Token.kind = g.delimiter.toList }) (hn : n ≤ g.maxNesting)
    (hd : g.maxNesting < n + max test.depth consequent.depth)
    (hs : consequent.ElseTaken (g.next vs))
    (h : Run g n .conditional
      (keyword.val :: (test.yield ++ (delim.val ++ (consequent.yield ++ vs)))) log q) :
    Reports g n (keyword.val :: (test.yield ++ (delim.val ++ (consequent.yield ++ vs)))) log q := by
  have hb := block_starts consequent vs
  have hkeyword := keyword.not_bracket (by decide)
  by_cases hfit : test.depth ≤ g.maxNesting - n
  · have htest := test.parses hg.eof hg.operator
    have hhead := head_parses htest hg.operator keyword delim hfit hb
    obtain ⟨log', q', hblock, hfront⟩ := h.consequent hhead
    have hreports := hc n vs log' q' hn (by omega) hs hblock
    have hreports := hreports.behind (balanced_delim hg.bracket delim) hn
    have hreports := hreports.behind (test.balanced hg.bracket) (by omega)
    exact (hreports.cons hkeyword).extend hfront
  · obtain ⟨place, rest, hex, htest⟩ := ht n (g.maxNesting - n) _ (by omega)
      (Nat.lt_of_not_le hfit) (follow_test hg.operator delim hb)
    have hkind : (g.next (keyword.val ::
        (test.yield ++ (delim.val ++ (consequent.yield ++ vs))))).kind = Kind.keywordBegin :=
      keyword.2
    obtain ⟨rfl, rfl⟩ := (Run.headFails (.testFails hkind htest)).unique h
    exact ⟨place, hex.cons hkeyword, rfl⟩

theorem alone_overruns {keyword : Terminal Kind.keywordBegin}
    {test : Derivation g.delimiter .condition}
    {delim : { ds : List Token // ds.map Token.kind = g.delimiter.toList }}
    {consequent : Derivation g.delimiter .block} {ending : Option (Terminal Kind.keywordEnd)}
    (hg : g.Told) (ht : test.Overruns g) (hc : consequent.Overruns g) :
    (Derivation.alone keyword test delim consequent ending).Overruns g := by
  intro n us log q hn hd hs hrun
  simp only [Derivation.yield, List.cons_append, List.append_assoc] at hrun ⊢
  exact head_overruns hg ht hc keyword delim hn hd (consequent.elseTaken_of_block hs.1) hrun

theorem branched_overruns {keyword : Terminal Kind.keywordBegin}
    {test : Derivation g.delimiter .condition}
    {delim : { ds : List Token // ds.map Token.kind = g.delimiter.toList }}
    {consequent alternate : Derivation g.delimiter .block}
    {other : { t : Token // opensAlternate t }} {ending : Option (Terminal Kind.keywordEnd)}
    (hg : g.Told) (ht : test.Overruns g) (hc : consequent.Overruns g) (ha : alternate.Overruns g) :
    (Derivation.branched keyword test delim consequent other alternate ending).Overruns g := by
  intro n us log q hn hd hs hrun
  simp only [Derivation.depth] at hd
  simp only [Derivation.yield, List.cons_append, List.append_assoc] at hrun ⊢
  let vs := ending.toList.map (·.val) ++ us
  let ws := other.val :: (alternate.yield ++ vs)
  have hsettled : consequent.ElseTaken (g.next ws) := consequent.elseTaken_of_block hs.1
  by_cases hfit : max test.depth consequent.depth ≤ g.maxNesting - n
  · obtain ⟨hfit, hfit'⟩ := Nat.max_le.mp hfit
    have hhead := head_parses (test.parses hg.eof hg.operator) hg.operator keyword delim hfit
      (block_starts consequent ws)
    obtain ⟨log', hlog, hblock⟩ := consequent.parses hg.eof hg.operator n ws hfit' hsettled
    obtain ⟨log'', q', halternate, heq⟩ := hrun.other_block hhead hblock other.2
    have hreports := ha n vs log'' q' hn (by omega) (alternate.elseTaken_of_block hs.2) halternate
    have hother := other_not_bracket other.2
    have hreports := (hreports.cons hother).behind (consequent.balanced hg.bracket) (by omega)
    have hreports := hreports.behind (balanced_delim hg.bracket delim) hn
    have hreports := hreports.behind (test.balanced hg.bracket) (by omega)
    refine (hreports.cons (keyword.not_bracket (by decide))).extend ?_
    rw [heq, hlog]
    exact List.prefix_rfl
  · exact head_overruns hg ht hc keyword delim hn (by omega) hsettled hrun

theorem cons_overruns {s : Derivation g.delimiter .statement}
    {rest : Derivation g.delimiter .statements} (hg : g.Told) (hs : s.Overruns g)
    (hr : rest.Overruns g) : (Derivation.cons s rest).Overruns g := by
  intro n us log q hn hd hst hset hrun
  simp only [Derivation.depth] at hd
  simp only [Derivation.yield, List.append_assoc] at hrun ⊢
  have hfol : Symbol.statement.Follow (g.next (rest.yield ++ us)) := by
    rw [next_append]
    exact follow_statement rest (follow_of_stops hg.eof hst)
  have hsettled : s.ElseTaken (g.next (rest.yield ++ us)) := by
    rw [next_append]
    exact hset.1
  cases hrun with
  | stop hstops => exact absurd hstops (statement_not_stops s _)
  | next _ hfirst hrest =>
    by_cases hfit : s.depth ≤ g.maxNesting - n
    · obtain ⟨log', hlog, hclean⟩ := s.parses hg.eof hg.operator n _ hfit hfol hsettled
      obtain ⟨rfl, hq⟩ := hclean.unique hfirst
      cases hq
      have hreports := hr n us _ _ hn (by omega) hst hset.2 hrest
      refine (hreports.behind (s.balanced hg.bracket) (by omega)).extend ?_
      simp [Ending.thrown, hlog]
    · have hreports := hs n _ _ _ hn (by omega) hfol hsettled hfirst
      refine hreports.extend ?_
      simp [Ending.thrown]

/-- Whatever is derived is either read or reported where it gets too deep. -/
theorem Derivation.overruns {sym : Symbol} (hg : g.Told) (d : Derivation g.delimiter sym) :
    d.Overruns g := by
  induction d with
  | number =>
    intro n room us _ hd
    exact absurd hd (Nat.not_lt_zero room)
  | var =>
    intro n room us _ hd
    exact absurd hd (Nat.not_lt_zero room)
  | last =>
    intro n room left us _ hd
    exact absurd hd (Nat.not_lt_zero room)
  | bracketed opener inner closer ih => exact bracketed_overruns ih
  | chain first more ihf ihm => exact chain_overruns hg ihf ihm
  | further op among sign operand more iho ihm => exact further_overruns hg iho ihm
  | plain e ih =>
    intro n room us hn hd hfol
    obtain ⟨place, rest, hex, hrun⟩ := ih n room us hn hd (follow_sum hfol)
    exact ⟨place, rest, hex, .leftFails hrun⟩
  | comparison left op among sign right ihl ihr => exact comparison_overruns hg ihl ihr
  | assignment target sign value ih => exact assignment_overruns ih
  | block opener body closer ih => exact block_overruns ih
  | alone keyword test delim consequent ending iht ihc => exact alone_overruns hg iht ihc
  | branched keyword test delim consequent other alternate ending iht ihc iha =>
    exact branched_overruns hg iht ihc iha
  | ofConditional s ih =>
    intro n us log q hn hd _ hs hrun
    obtain ⟨log', q', hpart, heq⟩ := hrun.statement_part (conditional_opens s us)
    exact (ih n us log' q' hn hd hs hpart).extend (heq ▸ List.prefix_rfl)
  | ofAssignment s ih =>
    intro n us log q hn hd hfol _ hrun
    obtain ⟨log', q', hpart, heq⟩ := hrun.statement_part (assignment_opens s us)
    exact (ih n us log' q' hn hd (follow_of_statement hfol).1 hpart).extend
      (heq ▸ List.prefix_rfl)
  | ofBlock s ih =>
    intro n us log q hn hd _ hs hrun
    have hk := Part.ofKind?_eq_block.mpr (block_starts s us)
    obtain ⟨log', q', hpart, heq⟩ := hrun.statement_part hk
    exact (ih n us log' q' hn hd hs hpart).extend (heq ▸ List.prefix_rfl)
  | nil =>
    intro n us log q hn hd
    exact absurd hd (Nat.not_lt.mpr hn)
  | cons s rest ihs ihr => exact cons_overruns hg ihs ihr
  | program body eof ih =>
    intro ts log q hy hd hs hrun
    obtain ⟨hbody, heof⟩ := List.append_inj' hy rfl
    have heof : eof.val = g.eof := by simpa using heof
    have hs : body.ElseTaken eof.val := hs
    rw [heof] at hs
    subst hbody
    have hd : g.maxNesting < 0 + body.depth := by
      rw [Nat.zero_add]
      exact hd
    have hbody := ih 0 [] log q (Nat.zero_le _) hd (.inl rfl) hs
    rw [List.append_nil] at hbody
    exact hbody hrun

end Parser

open DollarScript.Parser

/-- If the tokens of a program, where an `else` behind the first block of a condition is its own,
have more than `limit` brackets open at once, a parse fails, and its first diagnostic is at the
first bracket that opens the level above the limit. -/
theorem overrun_reported_first (delimiter : Option String) (limit : Nat) (stream : TokenStream)
    (he : stream.eof.kind = Kind.eof)
    (hop : ∀ k ∈ delimiter, ∀ op : BinaryOp, Kind.canonical k ≠ op.kind)
    (hbracket : ∀ k ∈ delimiter, Kind.canonical k ∉ Brackets.kinds)
    (hderived : ∃ (d : Derivation (delimiter.map Kind.canonical) .program) (unlimited : Nat),
      Derives d stream unlimited)
    (hdeep : ∃ i, limit < Brackets.level stream.tokens i) :
    (parseTokens ⟨delimiter, limit⟩ stream).success = false ∧
    ∃ i t, stream.tokens[i]? = some t ∧ Brackets.Opens stream.tokens i (limit + 1) ∧
      (∀ j < i, ¬ Brackets.Opens stream.tokens j (limit + 1)) ∧
      (parseTokens ⟨delimiter, limit⟩ stream).errors.head? =
        some (.about (.nestingTooDeep limit) t) := by
  obtain ⟨d, unlimited, hspelled, hsettled, -⟩ := hderived
  obtain ⟨i, hlevel⟩ := hdeep
  have hg : (setting ⟨delimiter, limit⟩ stream.eof).Told :=
    ⟨he, by simpa [setting] using hop, by simpa [setting] using hbracket⟩
  have hbalanced : Brackets.Balanced d.depth d.yield := d.balanced (by simpa using hbracket)
  have hwithin := hbalanced.within 0
  rw [hspelled, Nat.zero_add] at hwithin
  have hdepth : limit < d.depth := Nat.lt_of_lt_of_le hlevel (hwithin.left.levelFrom_take i)
  obtain ⟨log, ss, hrun, heq⟩ := parseTokens_runs ⟨delimiter, limit⟩ stream
  obtain ⟨place, hex, hfirst⟩ := d.overruns hg _ _ _ hspelled hdepth hsettled hrun
  obtain ⟨i, t, us, rfl, hget, hopens, hnone⟩ := hex.first
  have herrors : (parseTokens ⟨delimiter, limit⟩ stream).errors.head? =
      some (.about (.nestingTooDeep limit) t) := by
    simp only [Ending.thrown, List.append_nil] at hfirst
    rw [heq, List.head?_map, hfirst]
    rfl
  refine ⟨?_, i, t, hget, hopens, hnone, herrors⟩
  cases hs : (parseTokens ⟨delimiter, limit⟩ stream).errors with
  | nil => simp [hs] at herrors
  | cons e rest => simp [ParseResult.success, hs]

/-- `$x = [$y] { $x = [[$y] + [$y]] }` -/
def doublyBracketed : TokenStream where
  tokens := [
    .placeless Kind.var "$x" [], .placeless Kind.assign "=" [],
    .placeless Kind.openSquare "[" [], .placeless Kind.var "$y" [],
    .placeless Kind.closeSquare "]" [],
    .placeless Kind.openCurly "\x7b" [], .placeless Kind.var "$x" [],
    .placeless Kind.assign "=" [], .placeless Kind.openSquare "[" [],
    .placeless Kind.openSquare "[" [], .placeless Kind.var "$y" [],
    .placeless Kind.closeSquare "]" [], .placeless Kind.plus "+" [],
    .placeless Kind.openSquare "[" [], .placeless Kind.var "$y" [],
    .placeless Kind.closeSquare "]" [], .placeless Kind.closeSquare "]" [],
    .placeless Kind.closeCurly "\x7d" []]
  eof := .placeless Kind.eof "" []

/-- Three levels are enough for it. With two, the first bracket of the third level is reported,
which is not the only one. -/
theorem doublyBracketed_reported_first :
    (parseTokens ⟨some "colon", 3⟩ doublyBracketed).success = true ∧
    (parseTokens ⟨some "colon", 2⟩ doublyBracketed).success = false ∧
    Brackets.Opens doublyBracketed.tokens 13 3 ∧
    ∃ i t, doublyBracketed.tokens[i]? = some t ∧ Brackets.Opens doublyBracketed.tokens i 3 ∧
      (∀ j < i, ¬ Brackets.Opens doublyBracketed.tokens j 3) ∧
      (parseTokens ⟨some "colon", 2⟩ doublyBracketed).errors.head? =
        some (.about (.nestingTooDeep 2) t) := by
  have hs : (parseTokens ⟨some "colon", 3⟩ doublyBracketed).success = true := by decide
  have hop : ∀ k ∈ some "colon", ∀ op : BinaryOp, Kind.canonical k ≠ op.kind := by
    rintro k ⟨⟩ op
    cases op <;> decide
  have hbracket : ∀ k ∈ some "colon", Kind.canonical k ∉ Brackets.kinds := by
    rintro k ⟨⟩
    decide
  obtain ⟨d, hd⟩ := derives_of_success rfl hs
  have hreported := overrun_reported_first (some "colon") 2 doublyBracketed rfl hop hbracket
    ⟨d, 3, hd⟩ ⟨10, by decide⟩
  exact ⟨hs, hreported.1, ⟨_, rfl, by decide, by decide⟩, hreported.2⟩

end DollarScript
