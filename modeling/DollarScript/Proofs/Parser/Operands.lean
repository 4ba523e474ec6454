import DollarScript.Proofs.Parser.Acceptance
import Mathlib.Data.List.Forall2

/-! The operands of a program are those of its source: none is made up, used twice or moved, and
none is lost unless something was wrong. -/
namespace DollarScript

/-- A leaf of a program: a number, or a variable that is read or assigned. -/
inductive Operand where
  | number (value : Binary64)
  | var (name : String)
  deriving DecidableEq

def Expr.operands : Expr → List Operand
  | .number value => [.number value]
  | .var name => [.var name]
  | .binary _ left right => left.operands ++ right.operands

namespace Statement

mutual

/-- The operands in the order of the source. -/
def operands : Statement → List Operand
  | .conditional test consequent alternate =>
    test.operands ++ (operandsAll consequent ++ operandsAlternate alternate)
  | .assignment target value => .var target :: value.operands
  | .block body => operandsAll body
  | .invalid | .skipped => []

def operandsAll : List Statement → List Operand
  | [] => []
  | s :: rest => s.operands ++ operandsAll rest

def operandsAlternate : Option (List Statement) → List Operand
  | none => []
  | some body => operandsAll body

end

@[simp] theorem operandsAll_single (s : Statement) : operandsAll [s] = s.operands := by
  simp [operandsAll]

end Statement

namespace Kind

/-- Kinds of tokens that stand for operands. -/
def operands : List String := [var, number]

end Kind

namespace Token

def isOperand (t : Token) : Bool := Kind.operands.contains t.kind

/-- The token stands for the operand: for the variable that it spells, or for the value of the
number that it spells. -/
def Denotes (t : Token) : Operand → Prop
  | .number value => t.kind = Kind.number ∧ Binary64.read? t.text = some value
  | .var name => t.kind = Kind.var ∧ t.text = name

theorem isOperand_iff {t : Token} : t.isOperand = true ↔ t.kind ∈ Kind.operands := by
  simp [isOperand]

theorem Denotes.isOperand {t : Token} {x : Operand} (h : t.Denotes x) : t.isOperand = true := by
  cases x <;> simp [isOperand_iff, Kind.operands, h.1]

theorem Denotes.kind_ne_eof {t : Token} {x : Operand} (h : t.Denotes x) : t.kind ≠ Kind.eof := by
  cases x <;> rw [h.1] <;> decide

end Token

/-- The operands stand in the tokens, in this order. If `lossy`, some of those in the tokens may
be left out. -/
inductive Holds (lossy : Prop) : List Token → List Operand → Prop
  | nil : Holds lossy [] []
  | used {t ts x xs} : t.Denotes x → Holds lossy ts xs → Holds lossy (t :: ts) (x :: xs)
  | passed {t ts xs} : (t.isOperand = true → lossy) → Holds lossy ts xs → Holds lossy (t :: ts) xs

namespace Holds

variable {lossy : Prop} {ts us : List Token} {xs ys : List Operand}

theorem append (h : Holds lossy ts xs) (h' : Holds lossy us ys) :
    Holds lossy (ts ++ us) (xs ++ ys) := by
  induction h with
  | nil => exact h'
  | used hx _ ih => exact .used hx ih
  | passed ht _ ih => exact .passed ht ih

theorem of_lossy (hl : lossy) (ts : List Token) : Holds lossy ts [] := by
  induction ts with
  | nil => exact .nil
  | cons t ts ih => exact .passed (fun _ => hl) ih

theorem sublist (h : Holds lossy ts xs) :
    ∃ us, us.Sublist (ts.filter Token.isOperand) ∧ List.Forall₂ Token.Denotes us xs := by
  induction h with
  | nil => exact ⟨[], List.Sublist.refl _, .nil⟩
  | @used t ts x xs hx _ ih =>
    obtain ⟨us, hsub, hus⟩ := ih
    refine ⟨t :: us, ?_, .cons hx hus⟩
    rw [List.filter_cons_of_pos hx.isOperand]
    exact hsub.cons_cons t
  | @passed t ts xs _ _ ih =>
    obtain ⟨us, hsub, hus⟩ := ih
    exact ⟨us, hsub.trans ((List.sublist_cons_self t ts).filter _), hus⟩

theorem all (hl : ¬ lossy) (h : Holds lossy ts xs) :
    List.Forall₂ Token.Denotes (ts.filter Token.isOperand) xs := by
  induction h with
  | nil => exact .nil
  | used hx _ ih =>
    rw [List.filter_cons_of_pos hx.isOperand]
    exact .cons hx ih
  | passed ht _ ih => rwa [List.filter_cons_of_neg fun hop => hl (ht hop)]

end Holds

namespace Parser

open Statement

/-- The operands stand in the tokens from `ts` up to `us`. -/
def Yields (lossy : Prop) (ts us : List Token) (xs : List Operand) : Prop :=
  ∃ taken, ts = taken ++ us ∧ Holds lossy taken xs

variable {g : Setting} {room depth : Nat} {x : ExprPart} {part : Part} {lossy : Prop}
  {ts us vs : List Token} {xs ys : List Operand} {e : Expr} {r : Ending Expr} {log : List Event}
  {q : Ending (List Statement)} {ss : List Statement}

theorem Yields.refl (ts : List Token) : Yields lossy ts ts [] := ⟨[], rfl, .nil⟩

theorem Yields.trans (h : Yields lossy ts us xs) (h' : Yields lossy us vs ys) :
    Yields lossy ts vs (xs ++ ys) := by
  obtain ⟨taken, rfl, hxs⟩ := h
  obtain ⟨taken', rfl, hys⟩ := h'
  exact ⟨taken ++ taken', by rw [List.append_assoc], hxs.append hys⟩

theorem yields_of_lossy (hl : lossy) (h : us <:+ ts) : Yields lossy ts us [] := by
  obtain ⟨taken, rfl⟩ := h
  exact ⟨taken, rfl, .of_lossy hl taken⟩

/-- The end token is no operand, so one that is seen is taken. -/
theorem yields_operand {x : Operand} (he : g.eof.kind = Kind.eof) (h : (g.next ts).Denotes x) :
    Yields lossy ts ts.tail [x] := by
  have hts := cons_of_next_kind he rfl h.kind_ne_eof
  exact ⟨[g.next ts], hts, .used h .nil⟩

theorem yields_passed (g : Setting) (h : (g.next ts).isOperand = true → lossy) :
    Yields lossy ts ts.tail [] := by
  cases ts with
  | nil => exact .refl []
  | cons t ts => exact ⟨[t], rfl, .passed h .nil⟩

theorem yields_tail {kind : String} (hk : (g.next ts).kind = kind) (hn : kind ∉ Kind.operands) :
    Yields lossy ts ts.tail [] := by
  apply yields_passed g
  intro hop
  rw [Token.isOperand_iff, hk] at hop
  exact absurd hop hn

theorem yields_sign {ops : List BinaryOp} {op : BinaryOp} (h : opAmong ops (g.next ts) = some op) :
    Yields lossy ts ts.tail [] := by
  apply yields_tail (opAmong_eq_some.mp h).2
  cases op <;> decide

theorem yields_pastEnd (g : Setting) (ts : List Token) : Yields lossy ts (g.pastEnd ts) [] := by
  unfold Setting.pastEnd
  split
  · rename_i hk
    exact yields_tail hk (by decide)
  · exact .refl ts

/-- The operands on the left of what is still to be read. -/
def ExprPart.before : ExprPart → List Operand
  | .factor | .whole _ => []
  | .behind _ left => left.operands

theorem nothing_before_operand (layer : Layer) : layer.operand.before = [] := by
  cases layer <;> rfl

/-- Nothing is lost in an expression that is read to its end. -/
theorem ExprRun.yields (he : g.eof.kind = Kind.eof) (h : ExprRun g room x ts r)
    (hr : r = .ok e us) : ∃ xs, e.operands = x.before ++ xs ∧ Yields lossy ts us xs := by
  induction h generalizing e us with
  | number hk hv =>
    cases hr
    exact ⟨_, rfl, yields_operand he ⟨hk, hv⟩⟩
  | var hk =>
    cases hr
    exact ⟨_, rfl, yields_operand he ⟨hk, rfl⟩⟩
  | bracketed hk _ hc ih =>
    cases hr
    obtain ⟨xs, hxs, hinner⟩ := ih rfl
    have hopened := (yields_tail hk (by decide)).trans hinner
    have hclosed := hopened.trans (yields_tail hc (by decide))
    exact ⟨xs, hxs, by simpa using hclosed⟩
  | first _ _ ih ih' =>
    obtain ⟨xs, hxs, hfirst⟩ := ih rfl
    obtain ⟨ys, hys, hmore⟩ := ih' hr
    rw [nothing_before_operand, List.nil_append] at hxs
    subst hxs
    exact ⟨_, hys, hfirst.trans hmore⟩
  | done =>
    cases hr
    exact ⟨[], (List.append_nil _).symm, .refl _⟩
  | operand ho _ _ ih ih' =>
    obtain ⟨xs, hxs, hright⟩ := ih rfl
    obtain ⟨ys, hys, hmore⟩ := ih' hr
    rw [nothing_before_operand, List.nil_append] at hxs
    subst hxs
    refine ⟨_, ?_, (yields_sign ho).trans (hright.trans hmore)⟩
    rw [hys, ExprPart.before, Expr.operands, List.append_assoc]
    rfl
  | _ => cases hr

theorem ExprRun.yields_whole (he : g.eof.kind = Kind.eof)
    (h : ExprRun g room (.whole .sum) ts (.ok e us)) : Yields lossy ts us e.operands := by
  obtain ⟨xs, hxs, hyields⟩ := h.yields he rfl
  rwa [show e.operands = xs from hxs]

theorem TestRun.yields (he : g.eof.kind = Kind.eof) (h : TestRun g room ts (.ok e us)) :
    Yields lossy ts us e.operands := by
  cases h with
  | plain h => exact h.yields_whole he
  | compared h ho h' =>
    exact (h.yields_whole he).trans ((yields_sign ho).trans (h'.yields_whole he))

/-- A delimiter that is itself an operand is lost. -/
theorem HeadRun.yields (he : g.eof.kind = Kind.eof)
    (hdel : ∀ kind ∈ g.delimiter, kind ∈ Kind.operands → lossy)
    (h : HeadRun g room ts (.ok e us)) : Yields lossy ts us e.operands := by
  cases h with
  | «open» hk h => exact (yields_tail hk (by decide)).trans (h.yields he)
  | delimited hk h hd hk' =>
    have hdelimiter := yields_passed g fun hop =>
      hdel _ hd (by rwa [Token.isOperand_iff, hk'] at hop)
    have htest : Yields lossy _ _ _ := (yields_tail hk (by decide)).trans (h.yields he)
    simpa using htest.trans hdelimiter

/-- Operands are lost only where a fault was noted, or by way of the delimiter. -/
theorem Run.yields (he : g.eof.kind = Kind.eof)
    (hdel : ∀ kind ∈ g.delimiter, kind ∈ Kind.operands → lossy) (h : Run g depth part ts log q)
    (hlog : noted log ≠ [] → lossy) (hq : q = .ok ss us) :
    Yields lossy ts us (operandsAll ss) := by
  induction h generalizing ss us with
  | stop =>
    cases hq
    exact .refl _
  | next _ _ _ ih ih' =>
    cases hq
    simp only [noted_append, ne_eq, List.append_eq_nil_iff, not_and_or] at hlog
    have hhead := ih (fun h => hlog (.inl h)) rfl
    rw [operandsAll_single] at hhead
    exact hhead.trans (ih' (fun h => hlog (.inr h)) rfl)
  | closed hk _ _ hc ih =>
    cases hq
    rw [noted_append, noted_closed, List.append_nil] at hlog
    have hopened := (yields_tail hk (by decide)).trans (ih hlog rfl)
    simpa using hopened.trans (yields_tail hc (by decide))
  | alone hh _ _ ih =>
    cases hq
    have hbody := (hh.yields he hdel).trans (ih hlog rfl)
    simpa [operands, operandsAlternate] using hbody.trans (yields_pastEnd g _)
  | alternate hh _ ha _ ih ih' =>
    cases hq
    simp only [noted_append, ne_eq, List.append_eq_nil_iff, not_and_or] at hlog
    have hbody := (hh.yields he hdel).trans (ih (fun h => hlog (.inl h)) rfl)
    have hother := (yields_tail ha.1 (by decide)).trans (ih' (fun h => hlog (.inr h)) rfl)
    have hall := (hbody.trans hother).trans (yields_pastEnd g _)
    simpa [operands, operandsAlternate] using hall
  | assigned hk ha hv =>
    cases hq
    have htarget : Yields lossy _ _ [.var _] := yields_operand he ⟨hk, rfl⟩
    have hsign := htarget.trans (yields_tail ha (by decide))
    simpa [operands] using hsign.trans (hv.yields_whole he)
  | simple _ _ _ ih =>
    cases hq
    exact ih hlog rfl
  | block _ _ ih =>
    cases hq
    simpa [operands] using ih hlog rfl
  | skipped hk h =>
    cases hq
    have hl := hlog (by simp)
    exact yields_of_lossy hl ((recovered_suffix _ _).trans h.suffix)
  | invalid =>
    cases hq
    exact yields_passed g fun _ => hlog (by simp)
  | _ => cases hq

end Parser

open DollarScript.Parser

variable {options : ParserOptions} {stream : TokenStream}

/-- The operands of a parse are taken from the stream if operands may be lost with a fault or with
a delimiter. -/
theorem parseTokens_holds {lossy : Prop} (he : stream.eof.kind = Kind.eof)
    (herrors : (parseTokens options stream).errors ≠ [] → lossy)
    (hdel : ∀ kind ∈ options.conditionDelimiter, Kind.canonical kind ∈ Kind.operands → lossy) :
    Holds lossy stream.tokens
      (Statement.operandsAll (parseTokens options stream).program.statements) := by
  obtain ⟨log, ss, hrun, heq⟩ := parseTokens_runs options stream
  rw [heq] at herrors ⊢
  have hlog : noted log ≠ [] → lossy := by simpa using herrors
  have hdelimiter : ∀ kind ∈ (setting options stream.eof).delimiter,
      kind ∈ Kind.operands → lossy := by
    simpa [setting] using hdel
  obtain ⟨taken, htaken, hholds⟩ := hrun.yields he hdelimiter hlog rfl
  rwa [htaken, List.append_nil]

/-- The operands of a program are a sublist of the variables and numbers among the tokens, each
with the text or value of its token. They are all of these if nothing was wrong and no variable or
number has to stand behind a condition. -/
theorem operands_of_tokens (options : ParserOptions) (stream : TokenStream)
    (he : stream.eof.kind = Kind.eof) :
    let result := parseTokens options stream
    let tokens := stream.tokens.filter Token.isOperand
    let operands := Statement.operandsAll result.program.statements
    (∃ used, used.Sublist tokens ∧ List.Forall₂ Token.Denotes used operands) ∧
    (result.success = true →
      (∀ kind ∈ options.conditionDelimiter, Kind.canonical kind ∉ Kind.operands) →
      List.Forall₂ Token.Denotes tokens operands) := by
  intro result tokens operands
  constructor
  · have h : Holds True stream.tokens operands :=
      parseTokens_holds he (fun _ => trivial) fun _ _ _ => trivial
    exact h.sublist
  · intro hsuccess hdel
    have herrors : result.errors = [] := List.isEmpty_iff.mp hsuccess
    have h : Holds False stream.tokens operands :=
      parseTokens_holds he (fun hne => hne herrors) hdel
    exact h.all not_false

/-- `$a = 1 2 $b = [ { $c = 3 }`, where `2` stands alone and a bracket holds nothing. -/
def strayOperands : TokenStream where
  tokens := [
    .placeless Kind.var "$a" [], .placeless Kind.assign "=" [], .placeless Kind.number "1" [],
    .placeless Kind.number "2" [], .placeless Kind.var "$b" [], .placeless Kind.assign "=" [],
    .placeless Kind.openSquare "[" [], .placeless Kind.openCurly "\x7b" [],
    .placeless Kind.var "$c" [], .placeless Kind.assign "=" [], .placeless Kind.number "3" [],
    .placeless Kind.closeCurly "\x7d" []]
  eof := .placeless Kind.eof "" []

/-- Two operands are lost with what was wrong, and none of a program with two branches. -/
theorem operands_of_strayOperands_twoBranches :
    (strayOperands.tokens.filter Token.isOperand).map Token.text =
      ["$a", "1", "2", "$b", "$c", "3"] ∧
    (∃ used, used.Sublist (strayOperands.tokens.filter Token.isOperand) ∧
      List.Forall₂ Token.Denotes used [.var "$a", .number (.ofDecimal false ⟨1, 0⟩), .var "$c",
        .number (.ofDecimal false ⟨3, 0⟩)]) ∧
    (parseTokens ⟨some "colon", 1⟩ twoBranches).success = true ∧
    List.Forall₂ Token.Denotes (twoBranches.tokens.filter Token.isOperand)
      (Statement.operandsAll (parseTokens ⟨some "colon", 1⟩ twoBranches).program.statements) := by
  have hstray : Statement.operandsAll (parseTokens .default strayOperands).program.statements =
      [.var "$a", .number (.ofDecimal false ⟨1, 0⟩), .var "$c",
        .number (.ofDecimal false ⟨3, 0⟩)] := by
    decide +kernel
  have hsuccess : (parseTokens ⟨some "colon", 1⟩ twoBranches).success = true := by
    decide +kernel
  have hdel : ∀ kind ∈ some "colon", Kind.canonical kind ∉ Kind.operands := by
    rintro kind ⟨⟩
    decide
  refine ⟨by decide, ?_, hsuccess, ?_⟩
  · rw [← hstray]
    exact (operands_of_tokens .default strayOperands rfl).1
  · exact (operands_of_tokens ⟨some "colon", 1⟩ twoBranches rfl).2 hsuccess hdel

end DollarScript
