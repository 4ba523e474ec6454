import DollarScript.Proofs.Parser.Placeholders

/-! The shape of every program that a parse gives, however much was wrong: comparisons stand at the
root of a test or nowhere, and blocks are nested no deeper than the limit. -/
namespace DollarScript

/-- The operators of an expression, from left to right. -/
def Expr.operators : Expr → List BinaryOp
  | .number _ | .var _ => []
  | .binary op left right => left.operators ++ op :: right.operators

/-- Nothing is compared anywhere in the expression. -/
def Expr.Arithmetic (e : Expr) : Prop := ∀ op ∈ e.operators, op ∉ Parser.comparisons

/-- A comparison stands at the root or nowhere. -/
def Expr.IsTest : Expr → Prop
  | .number _ | .var _ => True
  | .binary _ left right => left.Arithmetic ∧ right.Arithmetic

theorem Expr.arithmetic_binary {op : BinaryOp} {left right : Expr} :
    (Expr.binary op left right).Arithmetic ↔
      op ∉ Parser.comparisons ∧ left.Arithmetic ∧ right.Arithmetic := by
  simp only [Expr.Arithmetic, Expr.operators, List.forall_mem_append, List.forall_mem_cons]
  exact and_left_comm

theorem Expr.arithmetic_number (value : Binary64) : (Expr.number value).Arithmetic := by
  simp [Expr.Arithmetic, Expr.operators]

theorem Expr.arithmetic_var (name : String) : (Expr.var name).Arithmetic := by
  simp [Expr.Arithmetic, Expr.operators]

theorem Expr.Arithmetic.isTest {e : Expr} (h : e.Arithmetic) : e.IsTest := by
  cases e with
  | binary => exact (Expr.arithmetic_binary.mp h).2
  | _ => trivial

theorem Parser.Layer.not_comparison {layer : Layer} {op : BinaryOp} (h : op ∈ layer.ops) :
    op ∉ comparisons := by
  revert h
  cases layer <;> cases op <;> decide

namespace Statement

/-- Comparisons are only where they may be, leaving the blocks of the statement aside. -/
def WellShaped : Statement → Prop
  | .assignment _ value => value.Arithmetic
  | .conditional test _ _ => test.IsTest
  | .block _ | .invalid | .skipped => True

mutual

/-- How many blocks stand within one another at most. -/
def nesting : Statement → Nat
  | .conditional _ consequent alternate =>
    max (nestingAll consequent + 1) (nestingAlternate alternate)
  | .block body => nestingAll body + 1
  | .assignment _ _ | .invalid | .skipped => 0

def nestingAll : List Statement → Nat
  | [] => 0
  | s :: rest => max s.nesting (nestingAll rest)

def nestingAlternate : Option (List Statement) → Nat
  | none => 0
  | some body => nestingAll body + 1

end

@[simp] theorem nestingAll_single (s : Statement) : nestingAll [s] = s.nesting := by
  simp [nestingAll]

/-- All statements of the list, at any depth, have the property. -/
def Everywhere (P : Statement → Prop) (ss : List Statement) : Prop := ∀ s, Occurs s ss → P s

variable {P : Statement → Prop} {s : Statement} {ss body : List Statement}

theorem everywhere_nil : Everywhere P [] := by
  intro s h
  cases h

theorem Everywhere.cons (h : Everywhere P [s]) (hs : Everywhere P ss) : Everywhere P (s :: ss) := by
  intro t ht
  cases ht with
  | here => exact h s .here
  | later ht => exact hs t ht
  | inBlock ht => exact h t (.inBlock ht)
  | inConsequent ht => exact h t (.inConsequent ht)
  | inAlternate ht => exact h t (.inAlternate ht)

theorem everywhere_assignment {target : String} {value : Expr} (h : P (.assignment target value)) :
    Everywhere P [.assignment target value] := by
  intro t ht
  cases ht with
  | here => exact h
  | later ht => cases ht

theorem everywhere_placeholder (h : P s) (hs : s = .invalid ∨ s = .skipped) :
    Everywhere P [s] := by
  rcases hs with rfl | rfl <;> intro t ht <;> cases ht with
  | here => exact h
  | later ht => cases ht

theorem Everywhere.block (hb : Everywhere P body) (h : P (.block body)) :
    Everywhere P [.block body] := by
  intro t ht
  cases ht with
  | here => exact h
  | later ht => cases ht
  | inBlock ht => exact hb t ht

theorem Everywhere.conditional {test : Expr} {alternate : Option (List Statement)}
    (hb : Everywhere P body) (ha : ∀ other ∈ alternate, Everywhere P other)
    (h : P (.conditional test body alternate)) :
    Everywhere P [.conditional test body alternate] := by
  intro t ht
  cases ht with
  | here => exact h
  | later ht => cases ht
  | inConsequent ht => exact hb t ht
  | inAlternate ht => exact ha _ rfl t ht

end Statement

namespace Parser

open Statement

/-- Whatever the reader returns, from whatever state, has the property. -/
def Reads {α : Type} (P : α → Prop) (p : Reader α) : Prop := ∀ s a s', p s = .ok a s' → P a

section Combinators
variable {α β : Type} {P : α → Prop} {Q : β → Prop} {p q : Reader α} {f : α → Reader β}

theorem Reads.pure {a : α} (h : P a) : Reads P (pure a) := by
  intro s b s' heq
  cases heq
  exact h

theorem Reads.throw (d : Diagnostic) : Reads P (throw d) := by
  intro s a s' heq
  cases heq

theorem Reads.bind (hp : Reads P p) (hf : ∀ a, P a → Reads Q (f a)) : Reads Q (p >>= f) := by
  intro s b s' heq
  rw [bind_apply] at heq
  cases hpart : p s with
  | ok a t =>
    rw [hpart] at heq
    exact hf a (hp s a t hpart) t b s' heq
  | error d t =>
    rw [hpart] at heq
    cases heq

/-- What is read first may be anything. -/
theorem Reads.after (hf : ∀ a, Reads Q (f a)) : Reads Q (p >>= f) := by
  have hany : Reads (fun _ => True) p := fun _ _ _ _ => trivial
  exact hany.bind fun a _ => hf a

theorem Reads.ite {c : Prop} [Decidable c] (hp : Reads P p) (hq : Reads P q) :
    Reads P (if c then p else q) := by
  split
  · exact hp
  · exact hq

theorem Reads.thenAlways {leave : State → State} (hp : Reads P p) :
    Reads P (thenAlways leave p) := by
  intro s a s' heq
  unfold Parser.thenAlways at heq
  cases hpart : p s with
  | ok b t =>
    rw [hpart] at heq
    cases heq
    exact hp s _ t hpart
  | error d t =>
    rw [hpart] at heq
    cases heq

end Combinators

section Expressions
variable (g : Setting) {p inner : Reader Expr} {left : Expr}

theorem readOp?_reads (ops : List BinaryOp) :
    Reads (fun op? => ∀ op ∈ op?, op ∈ ops) (readOp? g ops) := by
  intro s op? s' heq
  rw [readOp?_apply] at heq
  cases hop : opAmong ops (g.next s.rest) with
  | none =>
    rw [hop] at heq
    cases heq
    simp
  | some op =>
    rw [hop] at heq
    cases heq
    rintro op' ⟨⟩
    exact (opAmong_eq_some.mp hop).1

theorem chain_reads (layer : Layer) (hp : Reads Expr.Arithmetic p) (fuel : Nat)
    (hl : left.Arithmetic) : Reads Expr.Arithmetic (chain g p layer.ops fuel left) := by
  induction fuel generalizing left with
  | zero => exact .pure hl
  | succ fuel ih =>
    refine (readOp?_reads g layer.ops).bind fun op? hop => ?_
    cases op? with
    | none => exact .pure hl
    | some op =>
      refine hp.bind fun right hr => ih ?_
      exact Expr.arithmetic_binary.mpr ⟨layer.not_comparison (hop op rfl), hl, hr⟩

theorem factor_reads (h : Reads Expr.Arithmetic inner) :
    Reads Expr.Arithmetic (factor g inner) := by
  refine .after fun isNumber => .ite (.after fun t => ?_) ?_
  · cases Binary64.read? t.text with
    | some value => exact .pure (Expr.arithmetic_number value)
    | none => exact .throw _
  refine .after fun isVar => .ite (.after fun t => .pure (Expr.arithmetic_var t.text)) ?_
  refine .after fun isOpener => .ite (.after fun opener => ?_) (.after fun t => .throw _)
  refine .after fun _ => h.thenAlways.bind fun e he => ?_
  exact .after fun closer => .pure he

theorem term_reads (h : Reads Expr.Arithmetic inner) : Reads Expr.Arithmetic (term g inner) :=
  (factor_reads g h).bind fun _ hl => .after fun fuel =>
    chain_reads g .term (factor_reads g h) fuel hl

theorem sum_reads (h : Reads Expr.Arithmetic inner) : Reads Expr.Arithmetic (sum g inner) :=
  (term_reads g h).bind fun _ hl => .after fun fuel => chain_reads g .sum (term_reads g h) fuel hl

/-- An expression compares nothing, in brackets or outside. -/
theorem expression_reads (levels : Nat) : Reads Expr.Arithmetic (expression g levels) := by
  induction levels with
  | zero => exact sum_reads g (.after fun t => .throw _)
  | succ levels ih => exact sum_reads g ih

end Expressions

variable {g : Setting} {room depth : Nat} {part : Part} {ts us : List Token} {e test : Expr}
  {log : List Event} {q : Ending (List Statement)} {ss : List Statement}

/-- The rules for an expression give what the reader returns. -/
theorem ExprRun.arithmetic (hroom : room ≤ g.maxNesting)
    (h : ExprRun g room (.whole .sum) ts (.ok e us)) : e.Arithmetic := by
  let s : State := ⟨ts, #[], 0, g.maxNesting - room⟩
  obtain ⟨r, hr, heq⟩ := expression_follows g room s (Nat.sub_add_cancel hroom)
  cases h.unique hr
  exact expression_reads g room s e { s with rest := us } heq

theorem TestRun.isTest (hroom : room ≤ g.maxNesting) (h : TestRun g room ts (.ok test us)) :
    test.IsTest := by
  cases h with
  | plain h => exact (h.arithmetic hroom).isTest
  | compared h _ h' => exact ⟨h.arithmetic hroom, h'.arithmetic hroom⟩

theorem HeadRun.isTest (hroom : room ≤ g.maxNesting) (h : HeadRun g room ts (.ok test us)) :
    test.IsTest := by
  cases h with
  | «open» _ h => exact h.isTest hroom
  | delimited _ h => exact h.isTest hroom

/-- What is read while `depth` blocks are open is well shaped and goes no deeper than the limit
allows; a block is one level itself. -/
theorem Run.wellShaped (h : Run g depth part ts log q) (hq : q = .ok ss us)
    (hd : depth ≤ g.maxNesting) : Everywhere WellShaped ss ∧
      depth + nestingAll ss + (if part = .block then 1 else 0) ≤ g.maxNesting := by
  have hroom : ∀ depth, g.maxNesting - depth ≤ g.maxNesting := fun depth => Nat.sub_le ..
  induction h generalizing ss us with
  | stop =>
    cases hq
    exact ⟨everywhere_nil, hd⟩
  | next _ _ _ ih ih' =>
    cases hq
    obtain ⟨hs, hn⟩ := ih rfl hd
    obtain ⟨hs', hn'⟩ := ih' rfl hd
    refine ⟨hs.cons hs', ?_⟩
    simp only [nestingAll, reduceCtorEq, ↓reduceIte] at hn hn' ⊢
    omega
  | closed _ hlt _ _ ih =>
    cases hq
    obtain ⟨hs, hn⟩ := ih rfl hlt
    refine ⟨hs, ?_⟩
    simp only [reduceCtorEq, ↓reduceIte] at hn ⊢
    omega
  | alone hh _ _ ih =>
    cases hq
    obtain ⟨hs, hn⟩ := ih rfl hd
    refine ⟨hs.conditional (by simp) (hh.isTest (hroom _)), ?_⟩
    simp only [nestingAll_single, nesting, nestingAlternate, reduceCtorEq, ↓reduceIte] at hn ⊢
    omega
  | alternate hh _ _ _ ih ih' =>
    cases hq
    obtain ⟨hs, hn⟩ := ih rfl hd
    obtain ⟨hs', hn'⟩ := ih' rfl hd
    refine ⟨hs.conditional (by simpa using hs') (hh.isTest (hroom _)), ?_⟩
    simp only [nestingAll_single, nesting, nestingAlternate, reduceCtorEq, ↓reduceIte] at hn hn' ⊢
    omega
  | assigned _ _ hv =>
    cases hq
    refine ⟨everywhere_assignment (hv.arithmetic (hroom _)), ?_⟩
    simpa [nesting] using hd
  | simple _ hb _ ih =>
    cases hq
    obtain ⟨hs, hn⟩ := ih rfl hd
    refine ⟨hs, ?_⟩
    simpa [hb] using hn
  | block _ _ ih =>
    cases hq
    obtain ⟨hs, hn⟩ := ih rfl hd
    refine ⟨hs.block trivial, ?_⟩
    simp only [nestingAll_single, nesting, reduceCtorEq, ↓reduceIte] at hn ⊢
    omega
  | skipped =>
    cases hq
    exact ⟨everywhere_placeholder trivial (.inr rfl), by simpa [nesting] using hd⟩
  | invalid =>
    cases hq
    exact ⟨everywhere_placeholder trivial (.inl rfl), by simpa [nesting] using hd⟩
  | _ => cases hq

end Parser

open DollarScript.Parser

/-- Whatever the tokens are, the program holds comparisons only at the roots of tests: none in a
value, under an operator, or in what the reader of expressions returns from inside brackets. No
more blocks stand within one another than may be open at once. -/
theorem program_wellShaped (options : ParserOptions) (stream : TokenStream) :
    let ss := (parseTokens options stream).program.statements
    (∀ target value, Statement.Occurs (.assignment target value) ss → value.Arithmetic) ∧
    (∀ test consequent alternate, Statement.Occurs (.conditional test consequent alternate) ss →
      test.IsTest) ∧
    (∀ levels s e s', expression (setting options stream.eof) levels s = .ok e s' →
      e.Arithmetic) ∧
    Statement.nestingAll ss ≤ options.maxNesting := by
  obtain ⟨log, ss, hrun, heq⟩ := parseTokens_runs options stream
  obtain ⟨hshaped, hnesting⟩ := hrun.wellShaped rfl (Nat.zero_le _)
  rw [heq]
  refine ⟨fun target value h => hshaped _ h, fun test consequent alternate h => hshaped _ h,
    expression_reads _, ?_⟩
  simpa [setting] using hnesting

end DollarScript
