import DollarScript.Proofs.Parser.Agreement
import DollarScript.Proofs.Parser.Unambiguity

/-! The parser accepts what the grammar derives, and nothing else. -/
namespace DollarScript

namespace Parser

variable {g : Setting} {room depth : Nat} {delimiter : Option String} {kind : String}
  {ts us : List Token} {e : Expr} {r : Ending Expr} {log : List Event}

theorem next_append (g : Setting) (ts us : List Token) :
    g.next (ts ++ us) = ts.head?.getD (g.next us) := by
  cases ts <;> rfl

/-- A token of another kind than the end token is one of those left. -/
theorem cons_of_next_kind (he : g.eof.kind = Kind.eof) (hk : (g.next ts).kind = kind)
    (hne : kind ≠ Kind.eof) : ts = g.next ts :: ts.tail := by
  cases ts with
  | nil => exact absurd (hk.symm.trans he) hne
  | cons t ts => rfl

theorem op_kind_ne_eof (op : BinaryOp) : op.kind ≠ Kind.eof := by
  cases op <;> decide

/-- The tokens from `ts` up to `us` spell an expression of some rank. -/
def Derived (delimiter : Option String) (room : Nat) (rank : Rank) (ts us : List Token)
    (e : Expr) : Prop :=
  ∃ d : Derivation delimiter (.expr rank), d.yield ++ us = ts ∧ d.depth ≤ room ∧ d.tree = e

/-- What the rules for a part of an expression have read, as a derivation. -/
def ExprPart.Derived (delimiter : Option String) (room : Nat) (ts us : List Token) (e : Expr) :
    ExprPart → Prop
  | .factor => Parser.Derived delimiter room .factor ts us e
  | .whole layer => Parser.Derived delimiter room (.chain layer) ts us e
  | .behind layer left => ∃ d : Derivation delimiter (.further layer),
    d.yield ++ us = ts ∧ d.depth ≤ room ∧ d.tree left = e

theorem derived_operand {layer : Layer} (h : layer.operand.Derived delimiter room ts us e) :
    Derived delimiter room layer.operandRank ts us e := by
  cases layer <;> exact h

variable (delimiter) in
theorem ExprRun.derived {x : ExprPart} (he : g.eof.kind = Kind.eof)
    (h : ExprRun g room x ts r) (hr : r = .ok e us) : x.Derived delimiter room ts us e := by
  induction h generalizing e us with
  | number hk hv =>
    cases hr
    have hts := cons_of_next_kind he hk (by decide)
    exact ⟨.number ⟨_, hk⟩ _ hv, hts.symm, Nat.zero_le _, rfl⟩
  | var hk =>
    cases hr
    have hts := cons_of_next_kind he hk (by decide)
    exact ⟨.var ⟨_, hk⟩, hts.symm, Nat.zero_le _, rfl⟩
  | @bracketed _ ts _ vs hk _ hc ih =>
    cases hr
    have hts := cons_of_next_kind he hk (by decide)
    have hvs := cons_of_next_kind he hc (by decide)
    obtain ⟨d, hy, hd, ht⟩ := ih rfl
    refine ⟨.bracketed ⟨_, hk⟩ d ⟨_, hc⟩, ?_, Nat.succ_le_succ hd, ht⟩
    simp only [Derivation.yield, List.cons_append, List.append_assoc, List.nil_append]
    rw [← hvs, hy, ← hts]
  | first _ _ ih ih' =>
    obtain ⟨d, hy, hd, ht⟩ := derived_operand (ih rfl)
    obtain ⟨d', hy', hd', ht'⟩ := ih' hr
    refine ⟨.chain d d', ?_, Nat.max_le.mpr ⟨hd, hd'⟩, ?_⟩
    · simp only [Derivation.yield, List.append_assoc, hy', hy]
    · simp only [Derivation.tree, ht, ht']
  | done =>
    cases hr
    exact ⟨.last, rfl, Nat.zero_le _, rfl⟩
  | operand ho _ _ ih ih' =>
    obtain ⟨hmem, hk⟩ := opAmong_eq_some.mp ho
    have hts := cons_of_next_kind he hk (op_kind_ne_eof _)
    obtain ⟨d, hy, hd, ht⟩ := derived_operand (ih rfl)
    obtain ⟨d', hy', hd', ht'⟩ := ih' hr
    refine ⟨.further _ hmem ⟨_, hk⟩ d d', ?_, Nat.max_le.mpr ⟨hd, hd'⟩, ?_⟩
    · simp only [Derivation.yield, List.cons_append, List.append_assoc, hy', hy]
      exact hts.symm
    · simp only [Derivation.tree, ht, ht']
  | _ => cases hr

variable (delimiter) in
theorem TestRun.derived (he : g.eof.kind = Kind.eof) (h : TestRun g room ts (.ok e us)) :
    ∃ d : Derivation delimiter .condition, d.yield ++ us = ts ∧ d.depth ≤ room ∧ d.tree = e := by
  cases h with
  | plain h =>
    obtain ⟨d, hy, hd, ht⟩ := h.derived delimiter he rfl
    exact ⟨.plain d, hy, hd, ht⟩
  | compared h ho h' =>
    obtain ⟨hmem, hk⟩ := opAmong_eq_some.mp ho
    have hvs := cons_of_next_kind he hk (op_kind_ne_eof _)
    obtain ⟨d, hy, hd, ht⟩ := h.derived delimiter he rfl
    obtain ⟨d', hy', hd', ht'⟩ := h'.derived delimiter he rfl
    refine ⟨.comparison d _ hmem ⟨_, hk⟩ d', ?_, Nat.max_le.mpr ⟨hd, hd'⟩, ?_⟩
    · simp only [Derivation.yield, List.append_assoc, List.cons_append, hy']
      rw [← hvs, hy]
    · simp only [Derivation.tree, ht, ht']

/-- The end token may be taken for a delimiter, but no block can follow then. -/
theorem HeadRun.derived (he : g.eof.kind = Kind.eof) (hb : (g.next us).kind = Kind.openCurly)
    (h : HeadRun g room ts (.ok e us)) :
    ∃ (keyword : Terminal Kind.keywordBegin) (d : Derivation g.delimiter .condition)
      (delim : { ds : List Token // ds.map Token.kind = g.delimiter.toList }),
      keyword.val :: (d.yield ++ (delim.val ++ us)) = ts ∧ d.depth ≤ room ∧ d.tree = e := by
  cases h with
  | «open» hk h hn =>
    have hts := cons_of_next_kind he hk (by decide)
    obtain ⟨d, hy, hd, ht⟩ := h.derived g.delimiter he
    refine ⟨⟨_, hk⟩, d, ⟨[], by simp [hn]⟩, ?_, hd, ht⟩
    rw [List.nil_append, hy, ← hts]
  | @delimited _ vs _ hk h hs hk' =>
    have hts := cons_of_next_kind he hk (by decide)
    have hvs : vs = g.next vs :: vs.tail := by
      cases vs with
      | nil => exact absurd (hb.symm.trans he) (by decide)
      | cons => rfl
    obtain ⟨d, hy, hd, ht⟩ := h.derived g.delimiter he
    refine ⟨⟨_, hk⟩, d, ⟨[g.next vs], by simp [hs, hk']⟩, ?_, hd, ht⟩
    rw [List.singleton_append, ← hvs, hy, ← hts]

/-- The tokens from `ts` up to `us` spell what the derivation says. -/
structure Derivation.Reads {sym : Symbol} (g : Setting) (depth : Nat) (ts us : List Token)
    (d : Derivation g.delimiter sym) : Prop where
  spelled : d.yield ++ us = ts
  shallow : d.depth ≤ g.maxNesting - depth
  settled : d.ElseTaken (g.next us)

/-- What the rules for a part have read, as a derivation. -/
def Part.Derived (g : Setting) (depth : Nat) (ts us : List Token) (ss : List Statement) :
    Part → Prop
  | .statement => ∃ d : Derivation g.delimiter .statement, d.Reads g depth ts us ∧ [d.tree] = ss
  | .statements => ∃ d : Derivation g.delimiter .statements, d.Reads g depth ts us ∧ d.tree = ss
  | .block => ∃ d : Derivation g.delimiter .block, d.Reads g depth ts us ∧ d.tree = ss
  | .conditional => ∃ d : Derivation g.delimiter .conditional,
    d.Reads g depth ts us ∧ [d.tree] = ss
  | .assignment => ∃ d : Derivation g.delimiter .assignment, d.Reads g depth ts us ∧ [d.tree] = ss

/-- The keyword that ends a condition, if it is there. -/
theorem exists_ending (he : g.eof.kind = Kind.eof) (ts : List Token) :
    ∃ ending : Option (Terminal Kind.keywordEnd),
      ending.toList.map (·.val) ++ g.pastEnd ts = ts ∧ (ending = none → g.pastEnd ts = ts) := by
  unfold Setting.pastEnd
  split
  · rename_i hk
    have hts := cons_of_next_kind he hk (by decide)
    exact ⟨some ⟨_, hk⟩, hts.symm, by simp⟩
  · exact ⟨none, rfl, fun _ => rfl⟩

theorem Run.block_starts {body : List Statement}
    (h : Run g depth .block ts log (.ok body us)) : (g.next ts).kind = Kind.openCurly := by
  cases h with
  | closed hk => exact hk

theorem Run.derived {part : Part} {q : Ending (List Statement)} {ss : List Statement}
    (he : g.eof.kind = Kind.eof) (h : Run g depth part ts log q) (hlog : noted log = [])
    (hq : q = .ok ss us) : part.Derived g depth ts us ss := by
  induction h generalizing ss us with
  | stop =>
    cases hq
    exact ⟨.nil, ⟨rfl, Nat.zero_le _, trivial⟩, rfl⟩
  | next _ _ _ ih ih' =>
    cases hq
    rw [noted_append, List.append_eq_nil_iff] at hlog
    obtain ⟨d, ⟨hy, hd, hs⟩, ht⟩ := ih hlog.1 rfl
    obtain ⟨d', ⟨hy', hd', hs'⟩, ht'⟩ := ih' hlog.2 rfl
    refine ⟨.cons d d', ⟨?_, Nat.max_le.mpr ⟨hd, hd'⟩, ?_, hs'⟩, ?_⟩
    · simp only [Derivation.yield, List.append_assoc, hy', hy]
    · rwa [← next_append, hy']
    · simp only [List.cons.injEq, and_true] at ht
      simp only [Derivation.tree, ht, ht']
  | closed hk hlt _ hc ih =>
    cases hq
    rw [noted_append, List.append_eq_nil_iff] at hlog
    have hts := cons_of_next_kind he hk (by decide)
    have hvs := cons_of_next_kind he hc (by decide)
    obtain ⟨d, ⟨hy, hd, hs⟩, ht⟩ := ih hlog.1 rfl
    refine ⟨.block ⟨_, hk⟩ d ⟨_, hc⟩, ⟨?_, ?_, hs⟩, ht⟩
    · simp only [Derivation.yield, List.cons_append, List.append_assoc, List.nil_append]
      rw [← hvs, hy, ← hts]
    · simp only [Derivation.depth]
      omega
  | @alone _ _ _ _ _ _ vs hh hb hn ih =>
    cases hq
    obtain ⟨keyword, test, delim, hy, hd, ht⟩ := hh.derived he hb.block_starts
    obtain ⟨d, ⟨hy', hd', hs⟩, ht'⟩ := ih hlog rfl
    obtain ⟨ending, hend, hnone⟩ := exists_ending he vs
    refine ⟨.alone keyword test delim d ending, ⟨?_, Nat.max_le.mpr ⟨hd, hd'⟩, ?_⟩, ?_⟩
    · simp only [Derivation.yield, List.cons_append, List.append_assoc, hend, hy', hy]
    · exact ⟨d.elseTaken_of_block hs, fun h => by rwa [hnone h]⟩
    · simp only [Derivation.tree, ht, ht']
  | @alternate _ _ _ _ _ _ vs _ _ ws hh hb ha _ ih ih' =>
    cases hq
    rw [noted_append, List.append_eq_nil_iff] at hlog
    have hvs := cons_of_next_kind he ha.1 (by decide)
    obtain ⟨keyword, test, delim, hy, hd, ht⟩ := hh.derived he hb.block_starts
    obtain ⟨d, ⟨hy', hd', hs⟩, ht'⟩ := ih hlog.1 rfl
    obtain ⟨d', ⟨hy'', hd'', hs'⟩, ht''⟩ := ih' hlog.2 rfl
    obtain ⟨ending, hend, _⟩ := exists_ending he ws
    refine ⟨.branched keyword test delim d ⟨_, ha⟩ d' ending,
      ⟨?_, Nat.max_le.mpr ⟨hd, Nat.max_le.mpr ⟨hd', hd''⟩⟩, ?_⟩, ?_⟩
    · simp only [Derivation.yield, List.cons_append, List.append_assoc, hend, hy'']
      rw [← hvs, hy', hy]
    · exact ⟨d.elseTaken_of_block hs, d'.elseTaken_of_block hs'⟩
    · simp only [Derivation.tree, ht, ht', ht'']
  | assigned hk ha h =>
    cases hq
    have hts := cons_of_next_kind he hk (by decide)
    have hts' := cons_of_next_kind he ha (by decide)
    obtain ⟨d, hy, hd, ht⟩ := h.derived g.delimiter he rfl
    refine ⟨.assignment ⟨_, hk⟩ ⟨_, ha⟩ d, ⟨?_, hd, trivial⟩, ?_⟩
    · simp only [Derivation.yield, List.cons_append, hy]
      rw [← hts', ← hts]
    · simp only [Derivation.tree, ht]
  | @simple _ part _ _ _ _ hk hb _ ih =>
    cases hq
    have hp := ih hlog rfl
    rcases Part.ofKind?_cases hk with rfl | rfl | rfl
    · obtain ⟨d, ⟨hy, hd, hs⟩, ht⟩ := hp
      exact ⟨.ofConditional d, ⟨hy, hd, hs⟩, ht⟩
    · obtain ⟨d, ⟨hy, hd, hs⟩, ht⟩ := hp
      exact ⟨.ofAssignment d, ⟨hy, hd, trivial⟩, ht⟩
    · exact absurd rfl hb
  | block _ _ ih =>
    cases hq
    obtain ⟨d, ⟨hy, hd, hs⟩, ht⟩ := ih hlog rfl
    exact ⟨.ofBlock d, ⟨hy, hd, hs⟩, by simp only [Derivation.tree, ht]⟩
  | skipped | invalid => simp at hlog
  | _ => cases hq

def Rank.part : Rank → ExprPart
  | .factor => .factor
  | .chain layer => .whole layer

theorem operandRank_part (layer : Layer) : layer.operandRank.part = layer.operand := by
  cases layer <;> rfl

/-- The rules read from a statement part what was derived, without any fault. -/
def Clean (g : Setting) (depth : Nat) (part : Part) (ts us : List Token)
    (ss : List Statement) : Prop :=
  ∃ log, noted log = [] ∧ Run g depth part ts log (.ok ss us)

/-- The rules read what was derived, whatever follows it. -/
def Derivation.Parses (g : Setting) : {sym : Symbol} → Derivation g.delimiter sym → Prop
  | .expr rank, d => ∀ room us, d.depth ≤ room → (Symbol.expr rank).Follow (g.next us) →
    ExprRun g room rank.part (d.yield ++ us) (.ok d.tree us)
  | .further layer, d => ∀ room left us, d.depth ≤ room →
    (Symbol.further layer).Follow (g.next us) →
    ExprRun g room (.behind layer left) (d.yield ++ us) (.ok (d.tree left) us)
  | .condition, d => ∀ room us, d.depth ≤ room → Symbol.condition.Follow (g.next us) →
    TestRun g room (d.yield ++ us) (.ok d.tree us)
  | .assignment, d => ∀ depth us, d.depth ≤ g.maxNesting - depth →
    Symbol.assignment.Follow (g.next us) →
    Clean g depth .assignment (d.yield ++ us) us [d.tree]
  | .block, d => ∀ depth us, d.depth ≤ g.maxNesting - depth → d.ElseTaken (g.next us) →
    Clean g depth .block (d.yield ++ us) us d.tree
  | .conditional, d => ∀ depth us, d.depth ≤ g.maxNesting - depth →
    Symbol.conditional.Follow (g.next us) → d.ElseTaken (g.next us) →
    Clean g depth .conditional (d.yield ++ us) us [d.tree]
  | .statement, d => ∀ depth us, d.depth ≤ g.maxNesting - depth →
    Symbol.statement.Follow (g.next us) → d.ElseTaken (g.next us) →
    Clean g depth .statement (d.yield ++ us) us [d.tree]
  | .statements, d => ∀ depth us, d.depth ≤ g.maxNesting - depth → g.Stops depth us →
    d.ElseTaken (g.next us) → Clean g depth .statements (d.yield ++ us) us d.tree
  | .program, d => ∀ ts, d.yield = ts ++ [g.eof] → d.depth ≤ g.maxNesting →
    d.ElseTaken g.eof → Clean g 0 .statements ts [] d.tree

theorem chain_parses {layer : Layer} {first : Derivation g.delimiter (.expr layer.operandRank)}
    {more : Derivation g.delimiter (.further layer)} (hf : first.Parses g) (hm : more.Parses g) :
    (Derivation.chain first more).Parses g := by
  intro room us hd hfol
  have hd := Nat.max_le.mp hd
  simp only [Derivation.yield, List.append_assoc]
  have hfirst := hf room (more.yield ++ us) hd.1 (by
    rw [next_append]
    exact follow_operand more hfol)
  rw [operandRank_part] at hfirst
  exact .first hfirst (hm room first.tree us hd.2 hfol)

theorem further_parses {layer : Layer} {op : BinaryOp} {among : op ∈ layer.ops}
    {sign : Terminal op.kind} {operand : Derivation g.delimiter (.expr layer.operandRank)}
    {more : Derivation g.delimiter (.further layer)} (ho : operand.Parses g)
    (hm : more.Parses g) : (Derivation.further op among sign operand more).Parses g := by
  intro room left us hd hfol
  have hd := Nat.max_le.mp hd
  simp only [Derivation.yield, List.cons_append, List.append_assoc]
  have hoperand := ho room (more.yield ++ us) hd.1 (by
    rw [next_append]
    exact follow_operand more hfol)
  rw [operandRank_part] at hoperand
  exact .operand (opAmong_eq_some.mpr ⟨among, sign.2⟩) hoperand (hm room _ us hd.2 hfol)

theorem comparison_parses {left right : Derivation g.delimiter (.expr (.chain .sum))}
    {op : BinaryOp} {among : op ∈ comparisons} {sign : Terminal op.kind} (hl : left.Parses g)
    (hr : right.Parses g) : (Derivation.comparison left op among sign right).Parses g := by
  intro room us hd hfol
  have hd := Nat.max_le.mp hd
  simp only [Derivation.yield, List.append_assoc, List.cons_append]
  have hleft := hl room (sign.val :: (right.yield ++ us)) hd.1 (by
    intro op' hop hk
    exact comparison_ne_reach among hop (sign.2.symm.trans hk))
  exact .compared hleft (opAmong_eq_some.mpr ⟨among, sign.2⟩) (hr room us hd.2 (follow_sum hfol))

theorem kind_of_delim (delim : { ds : List Token // ds.map Token.kind = delimiter.toList })
    {t : Token} (ht : t ∈ delim.val) : t.kind ∈ delimiter := by
  have hmem : t.kind ∈ delimiter.toList := by
    rw [← delim.2]
    exact List.mem_map_of_mem ht
  exact Option.mem_toList.mp hmem

/-- A delimiter or a block ends the test in front of it. -/
theorem follow_test (hdel : ∀ k ∈ g.delimiter, ∀ op : BinaryOp, k ≠ op.kind)
    (delim : { ds : List Token // ds.map Token.kind = g.delimiter.toList })
    (hb : (g.next us).kind = Kind.openCurly) :
    Symbol.condition.Follow (g.next (delim.val ++ us)) := by
  intro op hop
  cases hds : delim.val with
  | nil =>
    rw [hds, List.nil_append, hb] at hop
    exact ne_op_of_plainKind (by decide) op hop
  | cons t ds =>
    rw [hds] at hop
    have ht : t ∈ delim.val := by
      rw [hds]
      exact List.mem_cons_self
    exact hdel _ (kind_of_delim delim ht) op hop

theorem head_parses {test : Derivation g.delimiter .condition} (ht : test.Parses g)
    (hdel : ∀ k ∈ g.delimiter, ∀ op : BinaryOp, k ≠ op.kind)
    (keyword : Terminal Kind.keywordBegin)
    (delim : { ds : List Token // ds.map Token.kind = g.delimiter.toList })
    (hd : test.depth ≤ room) (hb : (g.next us).kind = Kind.openCurly) :
    HeadRun g room (keyword.val :: (test.yield ++ (delim.val ++ us))) (.ok test.tree us) := by
  have htest := ht room (delim.val ++ us) hd (follow_test hdel delim hb)
  obtain ⟨ds, hds⟩ := delim
  rcases Option.eq_none_or_eq_some g.delimiter with hn | ⟨k, hs⟩
  · rw [hn, Option.toList_none, List.map_eq_nil_iff] at hds
    subst hds
    exact .open keyword.2 htest hn
  · rw [hs, Option.toList_some, List.map_eq_singleton_iff] at hds
    obtain ⟨t, rfl, hk⟩ := hds
    have hkeyword : (g.next (keyword.val :: (test.yield ++ t :: us))).kind = Kind.keywordBegin :=
      keyword.2
    have hdelim : (g.next (t :: us)).kind = k := hk
    exact .delimited hkeyword htest hs hdelim

theorem block_starts (d : Derivation g.delimiter .block) (us : List Token) :
    (g.next (d.yield ++ us)).kind = Kind.openCurly := by
  obtain ⟨opener, ts, heq⟩ := d.block_yield
  rw [heq]
  exact opener.2

theorem conditional_opens (d : Derivation g.delimiter .conditional) (us : List Token) :
    Part.ofKind? (g.next (d.yield ++ us)).kind = some .conditional := by
  obtain ⟨keyword, ts, heq⟩ := d.conditional_yield
  rw [heq]
  exact Part.ofKind?_eq_conditional.mpr keyword.2

theorem assignment_opens (d : Derivation g.delimiter .assignment) (us : List Token) :
    Part.ofKind? (g.next (d.yield ++ us)).kind = some .assignment := by
  obtain ⟨target, ts, heq⟩ := d.assignment_yield
  rw [heq]
  exact Part.ofKind?_eq_assignment.mpr target.2

/-- Statements do not end where another one starts. -/
theorem statement_not_stops (d : Derivation g.delimiter .statement) (us : List Token) :
    ¬ g.Stops depth (d.yield ++ us) := by
  obtain ⟨t, ts, heq, hk⟩ := d.statement_yield
  rw [heq]
  rintro (hnil | ⟨_, hc⟩)
  · cases hnil
  · rw [show (g.next (t :: ts ++ us)).kind = t.kind from rfl] at hc
    rw [hc] at hk
    revert hk
    decide

theorem pastEnd_ending (ending : Option (Terminal Kind.keywordEnd))
    (h : (g.next us).kind ≠ Kind.keywordEnd) :
    g.pastEnd (ending.toList.map (·.val) ++ us) = us := by
  cases ending with
  | none => exact if_neg h
  | some t => exact if_pos t.2

theorem block_parses {opener : Terminal Kind.openCurly} {closer : Terminal Kind.closeCurly}
    {body : Derivation g.delimiter .statements} (hb : body.Parses g) :
    (Derivation.block opener body closer).Parses g := by
  intro depth us hd hs
  simp only [Derivation.depth] at hd
  obtain ⟨log, hlog, hrun⟩ := hb (depth + 1) (closer.val :: us) (by omega)
    (.inr ⟨Nat.succ_pos _, closer.2⟩) hs
  have hopener : (g.next (opener.val :: (body.yield ++ closer.val :: us))).kind =
      Kind.openCurly := opener.2
  have h := Run.closed hopener (by omega) hrun closer.2
  refine ⟨_, ?_, by simpa [Derivation.yield, Derivation.tree] using h⟩
  simp [hlog]

theorem alone_parses {keyword : Terminal Kind.keywordBegin}
    {test : Derivation g.delimiter .condition}
    {delim : { ds : List Token // ds.map Token.kind = g.delimiter.toList }}
    {consequent : Derivation g.delimiter .block} {ending : Option (Terminal Kind.keywordEnd)}
    (hdel : ∀ k ∈ g.delimiter, ∀ op : BinaryOp, k ≠ op.kind) (ht : test.Parses g)
    (hc : consequent.Parses g) :
    (Derivation.alone keyword test delim consequent ending).Parses g := by
  intro depth us hd hfol hs
  have hd := Nat.max_le.mp hd
  let vs := ending.toList.map (·.val) ++ us
  have hnext : ¬ opensAlternate (g.next vs) := by
    cases ending with
    | none => exact hs.2 rfl
    | some t => exact fun h => absurd (t.2.symm.trans h.1) (by decide)
  have hhead := head_parses ht hdel keyword delim hd.1 (block_starts consequent vs)
  obtain ⟨log, hlog, hrun⟩ := hc depth vs hd.2 (consequent.elseTaken_of_block hs.1)
  refine ⟨log, hlog, ?_⟩
  have h := Run.alone hhead hrun hnext
  rw [pastEnd_ending ending hfol] at h
  simpa only [Derivation.yield, Derivation.tree, List.cons_append, List.append_assoc, vs] using h

theorem branched_parses {keyword : Terminal Kind.keywordBegin}
    {test : Derivation g.delimiter .condition}
    {delim : { ds : List Token // ds.map Token.kind = g.delimiter.toList }}
    {consequent alternate : Derivation g.delimiter .block}
    {other : { t : Token // opensAlternate t }} {ending : Option (Terminal Kind.keywordEnd)}
    (hdel : ∀ k ∈ g.delimiter, ∀ op : BinaryOp, k ≠ op.kind) (ht : test.Parses g)
    (hc : consequent.Parses g) (ha : alternate.Parses g) :
    (Derivation.branched keyword test delim consequent other alternate ending).Parses g := by
  intro depth us hd hfol hs
  have hd := Nat.max_le.mp hd
  have hd' := Nat.max_le.mp hd.2
  let vs := ending.toList.map (·.val) ++ us
  let ws := other.val :: (alternate.yield ++ vs)
  have hhead := head_parses ht hdel keyword delim hd.1 (block_starts consequent ws)
  obtain ⟨log, hlog, hrun⟩ := hc depth ws hd'.1 (consequent.elseTaken_of_block hs.1)
  obtain ⟨log', hlog', hrun'⟩ := ha depth vs hd'.2 (alternate.elseTaken_of_block hs.2)
  refine ⟨log ++ log', by simp [hlog, hlog'], ?_⟩
  have h := Run.alternate hhead hrun other.2 hrun'
  rw [pastEnd_ending ending hfol] at h
  simpa only [Derivation.yield, Derivation.tree, List.cons_append, List.append_assoc, ws, vs]
    using h

theorem assignment_parses {target : Terminal Kind.var} {sign : Terminal Kind.assign}
    {value : Derivation g.delimiter (.expr (.chain .sum))} (hv : value.Parses g) :
    (Derivation.assignment target sign value).Parses g := by
  intro depth us hd hfol
  refine ⟨[], rfl, ?_⟩
  have htarget : (g.next (target.val :: sign.val :: (value.yield ++ us))).kind = Kind.var :=
    target.2
  exact .assigned htarget sign.2 (hv _ us hd (follow_sum hfol))

theorem follow_of_stops (he : g.eof.kind = Kind.eof) (h : g.Stops depth us) :
    Symbol.statements.Follow (g.next us) := by
  rcases h with rfl | ⟨_, hk⟩
  · simp [Symbol.Follow, Setting.next, he, statementsEnds]
  · simp [Symbol.Follow, hk, statementsEnds]

theorem cons_parses {s : Derivation g.delimiter .statement}
    {rest : Derivation g.delimiter .statements} (he : g.eof.kind = Kind.eof) (hs : s.Parses g)
    (hr : rest.Parses g) : (Derivation.cons s rest).Parses g := by
  intro depth us hd hst hset
  have hd := Nat.max_le.mp hd
  have hfol := follow_statement rest (follow_of_stops he hst)
  obtain ⟨log, hlog, hrun⟩ := hs depth (rest.yield ++ us) hd.1 (by rwa [next_append])
    (by rw [next_append]; exact hset.1)
  obtain ⟨log', hlog', hrun'⟩ := hr depth us hd.2 hst hset.2
  refine ⟨log ++ log', by simp [hlog, hlog'], ?_⟩
  simp only [Derivation.yield, List.append_assoc]
  exact .next (statement_not_stops s _) hrun hrun'

/-- Whatever is derived is read, provided no operator serves as delimiter. -/
theorem Derivation.parses {sym : Symbol} (he : g.eof.kind = Kind.eof)
    (hdel : ∀ k ∈ g.delimiter, ∀ op : BinaryOp, k ≠ op.kind) (d : Derivation g.delimiter sym) :
    d.Parses g := by
  induction d with
  | number t value readable => exact fun room us _ _ => .number t.2 readable
  | var t => exact fun room us _ _ => .var t.2
  | bracketed opener inner closer ih =>
    intro room us hd _
    obtain ⟨room, rfl⟩ : ∃ k, room = k + 1 := ⟨room - 1, by simp [Derivation.depth] at hd; omega⟩
    have hinner := ih room (closer.val :: us) (Nat.le_of_succ_le_succ hd)
      (fun op _ => by
        rw [show (g.next (closer.val :: us)).kind = Kind.closeSquare from closer.2]
        exact ne_op_of_plainKind (by decide) op)
    have hopener : (g.next (opener.val :: (inner.yield ++ closer.val :: us))).kind =
        Kind.openSquare := opener.2
    have h := ExprRun.bracketed hopener hinner closer.2
    simpa [Derivation.yield, Derivation.tree, Rank.part] using h
  | chain first more ihf ihm => exact chain_parses ihf ihm
  | last =>
    intro room left us _ hfol
    exact .done (opAmong_eq_none.mpr fun op hop => hfol op (mem_reach hop))
  | further op among sign operand more iho ihm => exact further_parses iho ihm
  | plain e ih =>
    intro room us hd hfol
    exact .plain (ih room us hd (follow_sum hfol)) (opAmong_eq_none.mpr fun op _ => hfol op)
  | comparison left op among sign right ihl ihr => exact comparison_parses ihl ihr
  | assignment target sign value ih => exact assignment_parses ih
  | block opener body closer ih => exact block_parses ih
  | alone keyword test delim consequent ending iht ihc => exact alone_parses hdel iht ihc
  | branched keyword test delim consequent other alternate ending iht ihc iha =>
    exact branched_parses hdel iht ihc iha
  | ofConditional s ih =>
    intro depth us hd hfol hs
    obtain ⟨log, hlog, hrun⟩ := ih depth us hd (follow_of_statement hfol).2 hs
    exact ⟨log, hlog, .simple (conditional_opens s us) (by decide) hrun⟩
  | ofAssignment s ih =>
    intro depth us hd hfol hs
    obtain ⟨log, hlog, hrun⟩ := ih depth us hd (follow_of_statement hfol).1
    exact ⟨log, hlog, .simple (assignment_opens s us) (by decide) hrun⟩
  | ofBlock s ih =>
    intro depth us hd _ hs
    obtain ⟨log, hlog, hrun⟩ := ih depth us hd hs
    exact ⟨log, hlog, .block (Part.ofKind?_eq_block.mpr (block_starts s us)) hrun⟩
  | nil => exact fun depth us _ hst _ => ⟨[], rfl, .stop hst⟩
  | cons s rest ihs ihr => exact cons_parses he ihs ihr
  | program body eof ih =>
    intro ts hy hd hs
    obtain ⟨hbody, heof⟩ := List.append_inj' hy rfl
    have heof : eof.val = g.eof := by simpa using heof
    have hs : body.ElseTaken eof.val := hs
    rw [heof] at hs
    have hrun := ih 0 [] hd (.inl rfl) hs
    rwa [List.append_nil, hbody] at hrun

end Parser

open DollarScript.Parser

/-- The program derives the tokens of a stream, with its end token behind them, and opens at most
`limit` blocks and brackets at once. -/
structure Derives {delimiter : Option String} (d : Derivation delimiter .program)
    (stream : TokenStream) (limit : Nat) : Prop where
  spelled : d.yield = stream.tokens ++ [stream.eof]
  settled : d.ElseTaken stream.eof
  shallow : d.depth ≤ limit

variable {options : ParserOptions} {stream : TokenStream}

theorem derives_of_success (he : stream.eof.kind = Kind.eof)
    (h : (parseTokens options stream).success = true) :
    ∃ d : Derivation (options.conditionDelimiter.map Kind.canonical) .program,
      Derives d stream options.maxNesting := by
  obtain ⟨log, ss, hrun, heq⟩ := parseTokens_runs options stream
  have hlog : noted log = [] := by simpa [ParseResult.success, heq] using h
  obtain ⟨d, ⟨hy, hd, hs⟩, _⟩ := hrun.derived he hlog rfl
  refine ⟨.program d ⟨stream.eof, he⟩, ?_, hs, hd⟩
  change d.yield ++ [stream.eof] = _
  rw [← hy, List.append_nil]

theorem parseTokens_of_derives (he : stream.eof.kind = Kind.eof)
    (hdel : ∀ k ∈ options.conditionDelimiter, ∀ op : BinaryOp, Kind.canonical k ≠ op.kind)
    {d : Derivation (options.conditionDelimiter.map Kind.canonical) .program}
    (h : Derives d stream options.maxNesting) :
    parseTokens options stream = ⟨⟨d.tree⟩, []⟩ := by
  obtain ⟨log, ss, hrun, heq⟩ := parseTokens_runs options stream
  have hops : ∀ k ∈ options.conditionDelimiter.map Kind.canonical, ∀ op : BinaryOp,
      k ≠ op.kind := by
    simpa using hdel
  obtain ⟨log', hlog, hrun'⟩ := d.parses (g := setting options stream.eof) he hops
    stream.tokens h.spelled h.shallow h.settled
  obtain ⟨rfl, hq⟩ := hrun'.unique hrun
  cases hq
  rw [heq, hlog]
  rfl

theorem derives_unique {delimiter : Option String}
    (hdel : ∀ k ∈ delimiter, ∀ op : BinaryOp, k ≠ op.kind)
    {d d' : Derivation delimiter .program} {limit limit' : Nat} (h : Derives d stream limit)
    (h' : Derives d' stream limit') : d' = d := by
  have hsame : d'.yield ++ [stream.eof] = d.yield ++ [stream.eof] := by
    rw [h.spelled, h'.spelled]
  exact (d'.unique hdel d [stream.eof] [stream.eof] ⟨_, rfl, trivial, h'.settled⟩
    ⟨_, rfl, trivial, h.settled⟩ hsame).1

/-- A parse succeeds exactly on the token lists of the grammar, and then gives the tree of their
only derivation. -/
theorem success_iff_derives (options : ParserOptions) (stream : TokenStream)
    (he : stream.eof.kind = Kind.eof)
    (hdel : ∀ k ∈ options.conditionDelimiter, ∀ op : BinaryOp, Kind.canonical k ≠ op.kind) :
    ((parseTokens options stream).success = true ↔
      ∃ d : Derivation (options.conditionDelimiter.map Kind.canonical) .program,
        Derives d stream options.maxNesting) ∧
    ((parseTokens options stream).success = true →
      ∃ d : Derivation (options.conditionDelimiter.map Kind.canonical) .program,
        Derives d stream options.maxNesting ∧
        (parseTokens options stream).program.statements = d.tree ∧
        ∀ d' limit, Derives d' stream limit → d' = d) := by
  have hops : ∀ k ∈ options.conditionDelimiter.map Kind.canonical, ∀ op : BinaryOp,
      k ≠ op.kind := by
    simpa using hdel
  constructor
  · constructor
    · exact derives_of_success he
    · rintro ⟨d, hd⟩
      rw [parseTokens_of_derives he hdel hd]
      rfl
  · intro h
    obtain ⟨d, hd⟩ := derives_of_success he h
    refine ⟨d, hd, ?_, ?_⟩
    · rw [parseTokens_of_derives he hdel hd]
    · intro d' limit hd'
      exact derives_unique hops hd hd'

/-- `if: $x == [2]: { $y = $x - 2 * $x } else: { } endif` -/
def twoBranches : TokenStream where
  tokens := [
    .placeless Kind.keywordBegin "if:" [some "if"], .placeless Kind.var "$x" [],
    .placeless Kind.equal "==" [], .placeless Kind.openSquare "[" [],
    .placeless Kind.number "2" [], .placeless Kind.closeSquare "]" [],
    .placeless Kind.colon ":" [], .placeless Kind.openCurly "\x7b" [],
    .placeless Kind.var "$y" [], .placeless Kind.assign "=" [], .placeless Kind.var "$x" [],
    .placeless Kind.minus "-" [], .placeless Kind.number "2" [],
    .placeless Kind.multiply "*" [], .placeless Kind.var "$x" [],
    .placeless Kind.closeCurly "\x7d" [], .placeless Kind.keywordBegin "else:" [some "else"],
    .placeless Kind.openCurly "\x7b" [], .placeless Kind.closeCurly "\x7d" [],
    .placeless Kind.keywordEnd "endif" [none]]
  eof := .placeless Kind.eof "" []

/-- The derivation of these tokens, with a delimiter given in lower case. -/
def twoBranchesDerivation : Derivation ((some "colon").map Kind.canonical) .program :=
  let x : Derivation ((some "colon").map Kind.canonical) (.expr .factor) :=
    .var ⟨.placeless Kind.var "$x" [], rfl⟩
  let two : Derivation ((some "colon").map Kind.canonical) (.expr .factor) :=
    .number ⟨.placeless Kind.number "2" [], rfl⟩ (.ofDecimal false ⟨2, 0⟩)
      (by decide +kernel)
  let test := .comparison (.chain (.chain x .last) .last) .eq (by decide)
    ⟨.placeless Kind.equal "==" [], rfl⟩
    (.chain (.chain (.bracketed ⟨.placeless Kind.openSquare "[" [], rfl⟩
      (.chain (.chain two .last) .last) ⟨.placeless Kind.closeSquare "]" [], rfl⟩) .last) .last)
  let value := .chain (.chain x .last) (.further .sub (by decide)
    ⟨.placeless Kind.minus "-" [], rfl⟩ (.chain two (.further .mul (by decide)
      ⟨.placeless Kind.multiply "*" [], rfl⟩ x .last)) .last)
  let body := .cons (.ofAssignment (.assignment ⟨.placeless Kind.var "$y" [], rfl⟩
    ⟨.placeless Kind.assign "=" [], rfl⟩ value)) .nil
  .program (.cons (.ofConditional (.branched
    ⟨.placeless Kind.keywordBegin "if:" [some "if"], rfl⟩ test
    ⟨[.placeless Kind.colon ":" []], by decide⟩
    (.block ⟨.placeless Kind.openCurly "\x7b" [], rfl⟩ body
      ⟨.placeless Kind.closeCurly "\x7d" [], rfl⟩)
    ⟨.placeless Kind.keywordBegin "else:" [some "else"], rfl, rfl⟩
    (.block ⟨.placeless Kind.openCurly "\x7b" [], rfl⟩ .nil
      ⟨.placeless Kind.closeCurly "\x7d" [], rfl⟩)
    (some ⟨.placeless Kind.keywordEnd "endif" [none], rfl⟩))) .nil)
    ⟨.placeless Kind.eof "" [], rfl⟩

/-- One level is enough for a bracket in the condition and a block behind it. -/
theorem success_twoBranches :
    (parseTokens ⟨some "colon", 1⟩ twoBranches).success = true ∧
    ∃ d : Derivation ((some "colon").map Kind.canonical) .program, Derives d twoBranches 1 ∧
      (parseTokens ⟨some "colon", 1⟩ twoBranches).program.statements = d.tree ∧
      ∀ d' limit, Derives d' twoBranches limit → d' = d := by
  have hdel : ∀ k ∈ some "colon", ∀ op : BinaryOp, Kind.canonical k ≠ op.kind := by
    rintro k ⟨⟩ op
    cases op <;> decide
  have h := success_iff_derives ⟨some "colon", 1⟩ twoBranches rfl hdel
  have hs := h.1.mpr ⟨twoBranchesDerivation, by decide, by
    simp [twoBranchesDerivation, Derivation.ElseTaken], by decide⟩
  exact ⟨hs, h.2 hs⟩

end DollarScript
