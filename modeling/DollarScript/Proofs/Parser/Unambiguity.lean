import DollarScript.Proofs.Parser.Derivation

/-! No two derivations spell the same tokens. -/
namespace DollarScript.Parser

variable {delimiter : Option String} {sym : Symbol} {us us' : List Token}

/-- The tokens may stand behind the derivation. -/
def Derivation.Before (us : List Token) (d : Derivation delimiter sym) : Prop :=
  ∃ t, us.head? = some t ∧ sym.Follow t ∧ d.ElseTaken t

/-- Whatever follows, the derivation can be told from the tokens. -/
def Derivation.Unique (d : Derivation delimiter sym) : Prop :=
  ∀ (d' : Derivation delimiter sym) (us us' : List Token), d.Before us → d'.Before us' →
    d.yield ++ us = d'.yield ++ us' → d = d' ∧ us = us'

theorem head?_append {t : Token} (ts : List Token) (h : us.head? = some t) :
    (ts ++ us).head? = some (ts.head?.getD t) := by
  cases ts with
  | nil => exact h
  | cons => rfl

theorem Terminal.ne {k k' : String} (t : Terminal k) (t' : Terminal k') (h : k ≠ k') :
    t.val ≠ t'.val := by
  intro heq
  exact h (t.2.symm.trans ((congrArg Token.kind heq).trans t'.2))

/-- Behind an expression the token alone matters. -/
theorem before_expr {rank : Rank} {d : Derivation delimiter (.expr rank)} {t : Token}
    (h : us.head? = some t) (hf : (Symbol.expr rank).Follow t) : d.Before us := by
  refine ⟨t, h, hf, ?_⟩
  cases d <;> trivial

theorem before_further {layer : Layer} {d : Derivation delimiter (.further layer)} {t : Token}
    (h : us.head? = some t) (hf : (Symbol.further layer).Follow t) : d.Before us := by
  refine ⟨t, h, hf, ?_⟩
  cases d <;> trivial

theorem before_operand {layer : Layer} {d : Derivation delimiter (.expr layer.operandRank)}
    {more : Derivation delimiter (.further layer)} (h : more.Before us) :
    d.Before (more.yield ++ us) := by
  obtain ⟨t, ht, hf, _⟩ := h
  exact before_expr (head?_append _ ht) (follow_operand more hf)

theorem bracketed_unique {opener : Terminal Kind.openSquare} {closer : Terminal Kind.closeSquare}
    {inner : Derivation delimiter (.expr (.chain .sum))} (ih : inner.Unique) :
    (Derivation.bracketed opener inner closer).Unique := by
  intro d' us us' _ _ heq
  have hclose : ∀ (d : Derivation delimiter (.expr (.chain .sum))) (t : Terminal Kind.closeSquare)
      (vs : List Token), d.Before (t.val :: vs) := by
    intro d t vs
    refine before_expr rfl fun op _ => ?_
    rw [t.2]
    exact ne_op_of_plainKind (by decide) op
  cases d' with
  | number t => exact absurd (List.cons.inj heq).1 (Terminal.ne opener t (by decide))
  | var t => exact absurd (List.cons.inj heq).1 (Terminal.ne opener t (by decide))
  | bracketed opener' inner' closer' =>
    simp only [Derivation.yield, List.cons_append, List.append_assoc, List.nil_append,
      List.cons.injEq] at heq
    obtain ⟨rfl, hrest⟩ := ih inner' _ _ (hclose _ _ _) (hclose _ _ _) heq.2
    obtain ⟨hc, hus⟩ := List.cons.inj hrest
    cases Subtype.ext heq.1
    cases Subtype.ext hc
    exact ⟨rfl, hus⟩

theorem chain_unique {layer : Layer} {first : Derivation delimiter (.expr layer.operandRank)}
    {more : Derivation delimiter (.further layer)} (ihf : first.Unique) (ihm : more.Unique) :
    (Derivation.chain first more).Unique := by
  intro d' us us' hb hb' heq
  obtain ⟨t, ht, hf, _⟩ := hb
  obtain ⟨t', ht', hf', _⟩ := hb'
  cases d' with
  | chain first' more' =>
    simp only [Derivation.yield, List.append_assoc] at heq
    have hm : more.Before us := before_further ht hf
    have hm' : more'.Before us' := before_further ht' hf'
    obtain ⟨rfl, hrest⟩ := ihf first' _ _ (before_operand hm) (before_operand hm') heq
    obtain ⟨rfl, hus⟩ := ihm more' _ _ hm hm' hrest
    exact ⟨rfl, hus⟩

theorem sign_ne_follow {layer : Layer} {op : BinaryOp} {t : Token} (among : op ∈ layer.ops)
    (hk : t.kind = op.kind) (hf : (Symbol.further layer).Follow t) : False :=
  hf op (mem_reach among) hk

theorem further_unique {layer : Layer} {op : BinaryOp} {among : op ∈ layer.ops}
    {sign : Terminal op.kind} {operand : Derivation delimiter (.expr layer.operandRank)}
    {more : Derivation delimiter (.further layer)} (iho : operand.Unique) (ihm : more.Unique) :
    (Derivation.further op among sign operand more).Unique := by
  intro d' us us' hb hb' heq
  obtain ⟨t, ht, hf, _⟩ := hb
  obtain ⟨t', ht', hf', _⟩ := hb'
  cases d' with
  | last =>
    simp only [Derivation.yield, List.cons_append, List.nil_append] at heq
    rw [← heq, List.head?_cons, Option.some.injEq] at ht'
    exact (sign_ne_follow among (ht' ▸ sign.2) hf').elim
  | further op' among' sign' operand' more' =>
    simp only [Derivation.yield, List.cons_append, List.append_assoc, List.cons.injEq] at heq
    have hop : op = op' := kind_injective
      (sign.2.symm.trans ((congrArg Token.kind heq.1).trans sign'.2))
    subst hop
    have hm : more.Before us := before_further ht hf
    have hm' : more'.Before us' := before_further ht' hf'
    obtain ⟨rfl, hrest⟩ := iho operand' _ _ (before_operand hm) (before_operand hm') heq.2
    obtain ⟨rfl, hus⟩ := ihm more' _ _ hm hm' hrest
    cases Subtype.ext heq.1
    exact ⟨rfl, hus⟩

theorem last_unique {layer : Layer} :
    (Derivation.last : Derivation delimiter (.further layer)).Unique := by
  intro d' us us' hb _ heq
  obtain ⟨t, ht, hf, _⟩ := hb
  cases d' with
  | last => exact ⟨rfl, heq⟩
  | further op among sign =>
    simp only [Derivation.yield, List.cons_append, List.nil_append] at heq
    rw [heq, List.head?_cons, Option.some.injEq] at ht
    exact (sign_ne_follow among (ht ▸ sign.2) hf).elim

theorem before_comparison {left : Derivation delimiter (.expr (.chain .sum))} {op : BinaryOp}
    (among : op ∈ comparisons) (sign : Terminal op.kind) (us : List Token) :
    left.Before (sign.val :: us) := by
  refine before_expr rfl fun op' hop hk => ?_
  exact comparison_ne_reach among hop (sign.2.symm.trans hk)

theorem plain_unique {e : Derivation delimiter (.expr (.chain .sum))} (ih : e.Unique) :
    (Derivation.plain e).Unique := by
  intro d' us us' hb hb' heq
  obtain ⟨t, ht, hf, _⟩ := hb
  obtain ⟨t', ht', hf', _⟩ := hb'
  have he : e.Before us := before_expr ht (follow_sum hf)
  cases d' with
  | plain e' =>
    obtain ⟨rfl, hus⟩ := ih e' _ _ he (before_expr ht' (follow_sum hf')) heq
    exact ⟨rfl, hus⟩
  | comparison left op among sign right =>
    simp only [Derivation.yield, List.append_assoc, List.cons_append] at heq
    obtain ⟨_, hus⟩ := ih left _ _ he (before_comparison among sign _) heq
    rw [hus, List.head?_cons, Option.some.injEq] at ht
    exact absurd (ht ▸ sign.2) (hf op)

theorem comparison_unique {left right : Derivation delimiter (.expr (.chain .sum))}
    {op : BinaryOp} {among : op ∈ comparisons} {sign : Terminal op.kind} (ihl : left.Unique)
    (ihr : right.Unique) : (Derivation.comparison left op among sign right).Unique := by
  intro d' us us' hb hb' heq
  obtain ⟨t, ht, hf, _⟩ := hb
  obtain ⟨t', ht', hf', _⟩ := hb'
  simp only [Derivation.yield, List.append_assoc, List.cons_append] at heq
  cases d' with
  | plain e' =>
    obtain ⟨_, hus⟩ := ihl e' _ _ (before_comparison among sign _)
      (before_expr ht' (follow_sum hf')) heq
    rw [← hus, List.head?_cons, Option.some.injEq] at ht'
    exact absurd (ht' ▸ sign.2) (hf' op)
  | comparison left' op' among' sign' right' =>
    simp only [Derivation.yield, List.append_assoc, List.cons_append] at heq
    obtain ⟨rfl, hrest⟩ := ihl left' _ _ (before_comparison among sign _)
      (before_comparison among' sign' _) heq
    obtain ⟨hsign, htail⟩ := List.cons.inj hrest
    have hop : op = op' := kind_injective
      (sign.2.symm.trans ((congrArg Token.kind hsign).trans sign'.2))
    subst hop
    obtain ⟨rfl, hus⟩ := ihr right' _ _ (before_expr ht (follow_sum hf))
      (before_expr ht' (follow_sum hf')) htail
    cases Subtype.ext hsign
    exact ⟨rfl, hus⟩

theorem assignment_unique {target : Terminal Kind.var} {sign : Terminal Kind.assign}
    {value : Derivation delimiter (.expr (.chain .sum))} (ih : value.Unique) :
    (Derivation.assignment target sign value).Unique := by
  intro d' us us' hb hb' heq
  obtain ⟨t, ht, hf, _⟩ := hb
  obtain ⟨t', ht', hf', _⟩ := hb'
  cases d' with
  | assignment target' sign' value' =>
    simp only [Derivation.yield, List.cons_append, List.cons.injEq] at heq
    obtain ⟨rfl, hus⟩ := ih value' _ _ (before_expr ht (follow_sum hf))
      (before_expr ht' (follow_sum hf')) heq.2.2
    cases Subtype.ext heq.1
    cases Subtype.ext heq.2.1
    exact ⟨rfl, hus⟩

theorem block_unique {opener : Terminal Kind.openCurly} {closer : Terminal Kind.closeCurly}
    {body : Derivation delimiter .statements} (ih : body.Unique) :
    (Derivation.block opener body closer).Unique := by
  intro d' us us' hb hb' heq
  obtain ⟨_, _, _, hs⟩ := hb
  obtain ⟨_, _, _, hs'⟩ := hb'
  have hclose : ∀ t : Terminal Kind.closeCurly, Symbol.statements.Follow t.val := by
    intro t
    simp [Symbol.Follow, t.2, statementsEnds]
  cases d' with
  | block opener' body' closer' =>
    simp only [Derivation.yield, List.cons_append, List.append_assoc, List.nil_append,
      List.cons.injEq] at heq
    obtain ⟨rfl, hrest⟩ := ih body' (closer.val :: us) (closer'.val :: us')
      ⟨_, rfl, hclose closer, hs⟩ ⟨_, rfl, hclose closer', hs'⟩ heq.2
    obtain ⟨hc, hus⟩ := List.cons.inj hrest
    cases Subtype.ext heq.1
    cases Subtype.ext hc
    exact ⟨rfl, hus⟩

/-- A condition is followed by its delimiter or by a block. -/
theorem before_delim (hdel : ∀ k ∈ delimiter, ∀ op : BinaryOp, k ≠ op.kind)
    (test : Derivation delimiter .condition)
    (delim : { ds : List Token // ds.map Token.kind = delimiter.toList })
    (consequent : Derivation delimiter .block) (us : List Token) :
    test.Before (delim.val ++ (consequent.yield ++ us)) := by
  obtain ⟨ds, hds⟩ := delim
  have htaken : ∀ t, test.ElseTaken t := by
    intro t
    cases test <;> trivial
  rcases Option.eq_none_or_eq_some delimiter with hn | ⟨k, hs⟩
  · rw [hn, Option.toList_none, List.map_eq_nil_iff] at hds
    subst hds
    obtain ⟨opener, ts, heq⟩ := consequent.block_yield
    refine ⟨opener.val, by rw [heq]; rfl, fun op => ?_, htaken _⟩
    rw [opener.2]
    exact ne_op_of_plainKind (by decide) op
  · rw [hs, Option.toList_some, List.map_eq_singleton_iff] at hds
    obtain ⟨t, rfl, hk⟩ := hds
    refine ⟨t, rfl, fun op hop => ?_, htaken _⟩
    exact hdel k hs op (hk.symm.trans hop)

theorem head_unique (hdel : ∀ k ∈ delimiter, ∀ op : BinaryOp, k ≠ op.kind)
    {keyword keyword' : Terminal Kind.keywordBegin}
    {test test' : Derivation delimiter .condition}
    {delim delim' : { ds : List Token // ds.map Token.kind = delimiter.toList }}
    {consequent consequent' : Derivation delimiter .block} (iht : test.Unique)
    (ihc : consequent.Unique) (hb : consequent.Before us) (hb' : consequent'.Before us')
    (heq : keyword.val :: (test.yield ++ (delim.val ++ (consequent.yield ++ us))) =
      keyword'.val :: (test'.yield ++ (delim'.val ++ (consequent'.yield ++ us')))) :
    keyword = keyword' ∧ test = test' ∧ delim = delim' ∧ consequent = consequent' ∧ us = us' := by
  obtain ⟨hk, heq⟩ := List.cons.inj heq
  obtain ⟨ht, heq⟩ := iht test' _ _ (before_delim hdel _ _ _ _) (before_delim hdel _ _ _ _) heq
  have hlen : delim.val.length = delim'.val.length := by
    have h := congrArg List.length (delim.2.trans delim'.2.symm)
    simpa using h
  obtain ⟨hd, heq⟩ := List.append_inj heq hlen
  obtain ⟨hc, hus⟩ := ihc consequent' _ _ hb hb' heq
  exact ⟨Subtype.ext hk, ht, Subtype.ext hd, hc, hus⟩

theorem ending_unique {ending ending' : Option (Terminal Kind.keywordEnd)} {t t' : Token}
    (ht : us.head? = some t) (hf : Symbol.conditional.Follow t) (ht' : us'.head? = some t')
    (hf' : Symbol.conditional.Follow t')
    (heq : ending.toList.map (·.val) ++ us = ending'.toList.map (·.val) ++ us') :
    ending = ending' ∧ us = us' := by
  cases ending with
  | none => cases ending' with
    | none => exact ⟨rfl, heq⟩
    | some e' =>
      have hus : us = e'.val :: us' := heq
      rw [hus, List.head?_cons, Option.some.injEq] at ht
      exact absurd (ht ▸ e'.2) hf
  | some e => cases ending' with
    | none =>
      have hus : e.val :: us = us' := heq
      rw [← hus, List.head?_cons, Option.some.injEq] at ht'
      exact absurd (ht' ▸ e.2) hf'
    | some e' =>
      obtain ⟨he, hus⟩ := List.cons.inj heq
      exact ⟨congrArg some (Subtype.ext he), hus⟩

/-- An `else` behind the first block cannot be left to the next statement. -/
theorem ending_ne_other {ending : Option (Terminal Kind.keywordEnd)} {t : Token}
    (ht : us.head? = some t) (hs : ending = none → ¬ opensAlternate t)
    (other : { t : Token // opensAlternate t }) :
    ending.toList.map (·.val) ++ us ≠ other.val :: us' := by
  intro heq
  cases ending with
  | none =>
    have hus : us = other.val :: us' := heq
    rw [hus, List.head?_cons, Option.some.injEq] at ht
    exact hs rfl (ht ▸ other.2)
  | some e =>
    have he := congrArg Token.kind (List.cons.inj heq).1
    rw [e.2, other.2.1] at he
    exact absurd he (by decide)

theorem alone_unique (hdel : ∀ k ∈ delimiter, ∀ op : BinaryOp, k ≠ op.kind)
    {keyword : Terminal Kind.keywordBegin} {test : Derivation delimiter .condition}
    {delim : { ds : List Token // ds.map Token.kind = delimiter.toList }}
    {consequent : Derivation delimiter .block} {ending : Option (Terminal Kind.keywordEnd)}
    (iht : test.Unique) (ihc : consequent.Unique) :
    (Derivation.alone keyword test delim consequent ending).Unique := by
  intro d' us us' hb hb' heq
  obtain ⟨t, ht, hf, hs, hnone⟩ := hb
  obtain ⟨t', ht', hf', hs'⟩ := hb'
  have hc : consequent.Before (ending.toList.map (·.val) ++ us) :=
    ⟨_, head?_append _ ht, trivial, consequent.elseTaken_of_block hs⟩
  simp only [Derivation.yield, List.cons_append, List.append_assoc] at heq
  cases d' with
  | alone keyword' test' delim' consequent' ending' =>
    simp only [Derivation.yield, List.cons_append, List.append_assoc] at heq
    obtain ⟨rfl, rfl, rfl, rfl, hrest⟩ := head_unique hdel iht ihc hc
      ⟨_, head?_append _ ht', trivial, consequent'.elseTaken_of_block hs'.1⟩ heq
    obtain ⟨rfl, hus⟩ := ending_unique ht hf ht' hf' hrest
    exact ⟨rfl, hus⟩
  | branched keyword' test' delim' consequent' other' alternate' ending' =>
    simp only [Derivation.yield, List.cons_append, List.append_assoc] at heq
    obtain ⟨_, _, _, _, hrest⟩ := head_unique hdel iht ihc hc
      ⟨_, rfl, trivial, consequent'.elseTaken_of_block hs'.1⟩ heq
    exact absurd hrest (ending_ne_other ht hnone other')

theorem branched_unique (hdel : ∀ k ∈ delimiter, ∀ op : BinaryOp, k ≠ op.kind)
    {keyword : Terminal Kind.keywordBegin} {test : Derivation delimiter .condition}
    {delim : { ds : List Token // ds.map Token.kind = delimiter.toList }}
    {consequent alternate : Derivation delimiter .block}
    {other : { t : Token // opensAlternate t }} {ending : Option (Terminal Kind.keywordEnd)}
    (iht : test.Unique) (ihc : consequent.Unique) (iha : alternate.Unique) :
    (Derivation.branched keyword test delim consequent other alternate ending).Unique := by
  intro d' us us' hb hb' heq
  obtain ⟨t, ht, hf, hs, hsa⟩ := hb
  obtain ⟨t', ht', hf', hs'⟩ := hb'
  have hc : consequent.Before (other.val :: (alternate.yield ++
      (ending.toList.map (·.val) ++ us))) :=
    ⟨_, rfl, trivial, consequent.elseTaken_of_block hs⟩
  simp only [Derivation.yield, List.cons_append, List.append_assoc] at heq
  cases d' with
  | alone keyword' test' delim' consequent' ending' =>
    simp only [Derivation.yield, List.cons_append, List.append_assoc] at heq
    obtain ⟨_, _, _, _, hrest⟩ := head_unique hdel iht ihc hc
      ⟨_, head?_append _ ht', trivial, consequent'.elseTaken_of_block hs'.1⟩ heq
    exact absurd hrest.symm (ending_ne_other ht' hs'.2 other)
  | branched keyword' test' delim' consequent' other' alternate' ending' =>
    simp only [Derivation.yield, List.cons_append, List.append_assoc] at heq
    obtain ⟨rfl, rfl, rfl, rfl, hrest⟩ := head_unique hdel iht ihc hc
      ⟨_, rfl, trivial, consequent'.elseTaken_of_block hs'.1⟩ heq
    obtain ⟨hother, htail⟩ := List.cons.inj hrest
    obtain ⟨rfl, hlast⟩ := iha alternate' _ _
      ⟨_, head?_append _ ht, trivial, alternate.elseTaken_of_block hsa⟩
      ⟨_, head?_append _ ht', trivial, alternate'.elseTaken_of_block hs'.2⟩ htail
    obtain ⟨rfl, hus⟩ := ending_unique ht hf ht' hf' hlast
    cases Subtype.ext hother
    exact ⟨rfl, hus⟩

theorem heads_ne {k k' : String} {t : Terminal k} {t' : Terminal k'} {ts ts' xs xs' : List Token}
    (hxs : xs = t.val :: ts) (hxs' : xs' = t'.val :: ts') (hk : k ≠ k') :
    xs ++ us ≠ xs' ++ us' := by
  subst hxs hxs'
  intro heq
  exact t.ne t' hk (List.cons.inj heq).1

theorem ofConditional_unique {s : Derivation delimiter .conditional} (ih : s.Unique) :
    (Derivation.ofConditional s).Unique := by
  intro d' us us' hb hb' heq
  obtain ⟨t, ht, hf, hs⟩ := hb
  obtain ⟨t', ht', hf', hs'⟩ := hb'
  obtain ⟨_, _, hy⟩ := s.conditional_yield
  cases d' with
  | ofConditional s' =>
    obtain ⟨rfl, hus⟩ := ih s' us us' ⟨t, ht, (follow_of_statement hf).2, hs⟩
      ⟨t', ht', (follow_of_statement hf').2, hs'⟩ heq
    exact ⟨rfl, hus⟩
  | ofAssignment s' =>
    obtain ⟨_, _, hy'⟩ := s'.assignment_yield
    exact absurd heq (heads_ne hy hy' (by decide))
  | ofBlock s' =>
    obtain ⟨_, _, hy'⟩ := s'.block_yield
    exact absurd heq (heads_ne hy hy' (by decide))

theorem ofAssignment_unique {s : Derivation delimiter .assignment} (ih : s.Unique) :
    (Derivation.ofAssignment s).Unique := by
  intro d' us us' hb hb' heq
  obtain ⟨t, ht, hf, _⟩ := hb
  obtain ⟨t', ht', hf', _⟩ := hb'
  obtain ⟨_, _, hy⟩ := s.assignment_yield
  have htaken : ∀ (d : Derivation delimiter .assignment) (t : Token), d.ElseTaken t := by
    intro d t
    cases d
    trivial
  cases d' with
  | ofConditional s' =>
    obtain ⟨_, _, hy'⟩ := s'.conditional_yield
    exact absurd heq (heads_ne hy hy' (by decide))
  | ofAssignment s' =>
    obtain ⟨rfl, hus⟩ := ih s' us us' ⟨t, ht, (follow_of_statement hf).1, htaken _ _⟩
      ⟨t', ht', (follow_of_statement hf').1, htaken _ _⟩ heq
    exact ⟨rfl, hus⟩
  | ofBlock s' =>
    obtain ⟨_, _, hy'⟩ := s'.block_yield
    exact absurd heq (heads_ne hy hy' (by decide))

theorem ofBlock_unique {s : Derivation delimiter .block} (ih : s.Unique) :
    (Derivation.ofBlock s).Unique := by
  intro d' us us' hb hb' heq
  obtain ⟨t, ht, _, hs⟩ := hb
  obtain ⟨t', ht', _, hs'⟩ := hb'
  obtain ⟨_, _, hy⟩ := s.block_yield
  cases d' with
  | ofConditional s' =>
    obtain ⟨_, _, hy'⟩ := s'.conditional_yield
    exact absurd heq (heads_ne hy hy' (by decide))
  | ofAssignment s' =>
    obtain ⟨_, _, hy'⟩ := s'.assignment_yield
    exact absurd heq (heads_ne hy hy' (by decide))
  | ofBlock s' =>
    obtain ⟨rfl, hus⟩ := ih s' us us' ⟨t, ht, trivial, hs⟩ ⟨t', ht', trivial, hs'⟩ heq
    exact ⟨rfl, hus⟩

/-- No statement starts with what stands behind a list of them. -/
theorem statement_ne_follow {s : Derivation delimiter .statement} {ts : List Token} {t : Token}
    (hf : Symbol.statements.Follow t) (heq : us = s.yield ++ ts) : us.head? ≠ some t := by
  obtain ⟨t', ts', hy, hk⟩ := s.statement_yield
  rw [heq, hy, List.cons_append, List.head?_cons, ne_eq, Option.some.injEq]
  rintro rfl
  exact statementStarts_disjoint _ hk hf

theorem nil_unique : (Derivation.nil : Derivation delimiter .statements).Unique := by
  intro d' us us' hb _ heq
  obtain ⟨t, ht, hf, _⟩ := hb
  cases d' with
  | nil => exact ⟨rfl, heq⟩
  | cons s rest =>
    simp only [Derivation.yield, List.nil_append, List.append_assoc] at heq
    exact absurd ht (statement_ne_follow hf heq)

theorem cons_unique {s : Derivation delimiter .statement}
    {rest : Derivation delimiter .statements} (ihs : s.Unique) (ihr : rest.Unique) :
    (Derivation.cons s rest).Unique := by
  intro d' us us' hb hb' heq
  obtain ⟨t, ht, hf, hs⟩ := hb
  obtain ⟨t', ht', hf', hs'⟩ := hb'
  simp only [Derivation.yield, List.append_assoc] at heq
  cases d' with
  | nil => exact absurd ht' (statement_ne_follow hf' heq.symm)
  | cons s' rest' =>
    simp only [Derivation.yield, List.append_assoc] at heq
    obtain ⟨rfl, htail⟩ := ihs s' _ _
      ⟨_, head?_append _ ht, follow_statement rest hf, hs.1⟩
      ⟨_, head?_append _ ht', follow_statement rest' hf', hs'.1⟩ heq
    obtain ⟨rfl, hus⟩ := ihr rest' _ _ ⟨t, ht, hf, hs.2⟩ ⟨t', ht', hf', hs'.2⟩ htail
    exact ⟨rfl, hus⟩

theorem program_unique {body : Derivation delimiter .statements} {eof : Terminal Kind.eof}
    (ih : body.Unique) : (Derivation.program body eof).Unique := by
  intro d' us us' hb hb' heq
  obtain ⟨_, _, _, hs⟩ := hb
  obtain ⟨_, _, _, hs'⟩ := hb'
  have hend : ∀ t : Terminal Kind.eof, Symbol.statements.Follow t.val := by
    intro t
    simp [Symbol.Follow, t.2, statementsEnds]
  cases d' with
  | program body' eof' =>
    simp only [Derivation.yield, List.append_assoc, List.cons_append, List.nil_append] at heq
    obtain ⟨rfl, htail⟩ := ih body' _ _ ⟨_, rfl, hend eof, hs⟩ ⟨_, rfl, hend eof', hs'⟩ heq
    obtain ⟨he, hus⟩ := List.cons.inj htail
    cases Subtype.ext he
    exact ⟨rfl, hus⟩

/-- The grammar is unambiguous, provided no operator serves as delimiter. -/
theorem Derivation.unique (hdel : ∀ k ∈ delimiter, ∀ op : BinaryOp, k ≠ op.kind)
    (d : Derivation delimiter sym) : d.Unique := by
  induction d with
  | number t value readable =>
    intro d' us us' _ _ heq
    cases d' with
    | number t' value' readable' =>
      obtain ⟨ht, hus⟩ := List.cons.inj heq
      cases Subtype.ext ht
      cases readable.symm.trans readable'
      exact ⟨rfl, hus⟩
    | var t' => exact absurd (List.cons.inj heq).1 (t.ne t' (by decide))
    | bracketed opener => exact absurd (List.cons.inj heq).1 (t.ne opener (by decide))
  | var t =>
    intro d' us us' _ _ heq
    cases d' with
    | number t' => exact absurd (List.cons.inj heq).1 (t.ne t' (by decide))
    | var t' =>
      obtain ⟨ht, hus⟩ := List.cons.inj heq
      cases Subtype.ext ht
      exact ⟨rfl, hus⟩
    | bracketed opener => exact absurd (List.cons.inj heq).1 (t.ne opener (by decide))
  | bracketed _ _ _ ih => exact bracketed_unique ih
  | chain _ _ ihf ihm => exact chain_unique ihf ihm
  | last => exact last_unique
  | further _ _ _ _ _ iho ihm => exact further_unique iho ihm
  | plain _ ih => exact plain_unique ih
  | comparison _ _ _ _ _ ihl ihr => exact comparison_unique ihl ihr
  | assignment _ _ _ ih => exact assignment_unique ih
  | block _ _ _ ih => exact block_unique ih
  | alone _ _ _ _ _ iht ihc => exact alone_unique hdel iht ihc
  | branched _ _ _ _ _ _ _ iht ihc iha => exact branched_unique hdel iht ihc iha
  | ofConditional _ ih => exact ofConditional_unique ih
  | ofAssignment _ ih => exact ofAssignment_unique ih
  | ofBlock _ ih => exact ofBlock_unique ih
  | nil => exact nil_unique
  | cons _ _ ihs ihr => exact cons_unique ihs ihr
  | program _ _ ih => exact program_unique ih

end DollarScript.Parser
