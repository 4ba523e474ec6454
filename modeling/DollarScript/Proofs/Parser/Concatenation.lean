import DollarScript.Proofs.Parser.Acceptance

/-! Programs without errors can be put in front of other programs. At the end of its tokens, a parse
looks at the end token; with more tokens behind, at the first of those, and must decide alike. -/
namespace DollarScript

/-- A token that starts a statement and does not continue the one before. -/
def Token.StartsAnew (t : Token) : Prop :=
  t.kind = Kind.var ∨ t.kind = Kind.openCurly ∨
    (t.kind = Kind.keywordBegin ∧ t.keyword? ≠ some Kind.elseKeyword)

namespace Parser

variable {g : Setting} {room depth : Nat} {part : Part} {ts us more : List Token} {e : Expr}
  {log : List Event} {ss : List Statement}

/-- Neither the end token nor what stands in its place, if there are `more` tokens, continues a
statement: it is no operator, no `else`, and no keyword that ends a condition. -/
structure Setting.Ends (g : Setting) (more : List Token) : Prop where
  eof : g.eof.kind = Kind.eof
  notOp : ∀ op : BinaryOp, (g.next more).kind ≠ op.kind
  notElse : ¬ opensAlternate (g.next more)
  notEnd : (g.next more).kind ≠ Kind.keywordEnd

theorem next_append_of_ne_nil (hne : ts ≠ []) (more : List Token) :
    g.next (ts ++ more) = g.next ts := by
  cases ts with
  | nil => exact absurd rfl hne
  | cons t ts => rfl

theorem ends_of_startsAnew (he : g.eof.kind = Kind.eof) (h : ∀ t ∈ more.head?, t.StartsAnew) :
    g.Ends more := by
  have hkind : (g.next more).kind ∈ Kind.statementStarts ++ statementsEnds := by
    cases more with
    | nil => simp [Setting.next, he, statementsEnds]
    | cons t more =>
      rcases h t rfl with hk | hk | ⟨hk, -⟩ <;> simp [Setting.next, hk, Kind.statementStarts]
  refine ⟨he, ne_op_of_plainKind (List.mem_append_left _ hkind), ?_, ?_⟩
  · rintro ⟨hk, helse⟩
    cases more with
    | nil => exact absurd (he.symm.trans hk) (by decide)
    | cons t more =>
      rcases h t rfl with hk' | hk' | ⟨-, hn⟩
      · exact absurd (hk.symm.trans hk') (by decide)
      · exact absurd (hk.symm.trans hk') (by decide)
      · exact hn helse
  · intro hk
    rw [hk] at hkind
    exact absurd hkind (by decide)

namespace Setting.Ends

variable (h : g.Ends more)
include h

/-- There is no operator at the end, so one that is seen was there before. -/
theorem opAmong_append (ops : List BinaryOp) (ts : List Token) :
    opAmong ops (g.next (ts ++ more)) = opAmong ops (g.next ts) := by
  cases ts with
  | nil =>
    have hmore : opAmong ops (g.next more) = none := opAmong_eq_none.mpr fun op _ => h.notOp op
    have hnone : opAmong ops (g.next []) = none := by
      refine opAmong_eq_none.mpr fun op _ hk => ?_
      exact op_kind_ne_eof op (hk.symm.trans h.eof)
    rw [List.nil_append, hmore, hnone]
  | cons t ts => rfl

theorem opensAlternate_append (ts : List Token) :
    opensAlternate (g.next (ts ++ more)) ↔ opensAlternate (g.next ts) := by
  cases ts with
  | nil =>
    have heof : ¬ opensAlternate (g.next []) := by
      intro hk
      exact absurd (h.eof.symm.trans hk.1) (by decide)
    exact iff_of_false h.notElse heof
  | cons t ts => rfl

theorem pastEnd_append (ts : List Token) : g.pastEnd (ts ++ more) = g.pastEnd ts ++ more := by
  cases ts with
  | nil =>
    have heof : (g.next []).kind ≠ Kind.keywordEnd := by
      intro hk
      exact absurd (h.eof.symm.trans hk) (by decide)
    simp only [Setting.pastEnd, List.nil_append, if_neg h.notEnd, if_neg heof]
  | cons t ts =>
    unfold Setting.pastEnd
    have hnext : g.next (t :: ts ++ more) = g.next (t :: ts) := rfl
    rw [hnext]
    split <;> rfl

theorem ne_nil {kind : String} (hk : (g.next ts).kind = kind) (hne : kind ≠ Kind.eof) :
    ts ≠ [] := by
  rintro rfl
  exact hne (hk.symm.trans h.eof)

theorem ne_nil_of_opened (hk : Part.ofKind? (g.next ts).kind = some part) : ts ≠ [] := by
  rintro rfl
  have hnone : Part.ofKind? (g.next []).kind = none := by
    rw [show (g.next []).kind = Kind.eof from h.eof]
    decide
  cases hnone.symm.trans hk

/-- A token of another kind than the end token is in front with and without `more`. -/
theorem front {kind : String} (hk : (g.next ts).kind = kind) (hne : kind ≠ Kind.eof) :
    g.next (ts ++ more) = g.next ts ∧ (ts ++ more).tail = ts.tail ++ more :=
  ⟨next_append_of_ne_nil (h.ne_nil hk hne) more, List.tail_append_of_ne_nil (h.ne_nil hk hne)⟩

end Setting.Ends

theorem stops_append (hne : ts ≠ []) (more : List Token) :
    g.Stops depth (ts ++ more) ↔ g.Stops depth ts := by
  simp only [Setting.Stops, next_append_of_ne_nil hne, List.append_eq_nil_iff, hne, false_and]

theorem ExprRun.append {x : ExprPart} {r : Ending Expr} (hmore : g.Ends more)
    (h : ExprRun g room x ts r) (hr : r = .ok e us) :
    ExprRun g room x (ts ++ more) (.ok e (us ++ more)) := by
  induction h generalizing e us with
  | number hk hv =>
    cases hr
    obtain ⟨hnext, htail⟩ := hmore.front hk (by decide)
    rw [← hnext] at hk hv
    rw [← htail]
    exact .number hk hv
  | var hk =>
    cases hr
    obtain ⟨hnext, htail⟩ := hmore.front hk (by decide)
    rw [← hnext] at hk ⊢
    rw [← htail]
    exact .var hk
  | bracketed hk _ hc ih =>
    cases hr
    obtain ⟨hnext, htail⟩ := hmore.front hk (by decide)
    obtain ⟨hnext', htail'⟩ := hmore.front hc (by decide)
    have hinner := ih rfl
    rw [← htail] at hinner
    rw [← hnext] at hk
    rw [← hnext'] at hc
    rw [← htail']
    exact .bracketed hk hinner hc
  | first _ _ ih ih' => exact .first (ih rfl) (ih' hr)
  | done hn =>
    cases hr
    exact .done ((hmore.opAmong_append _ _).trans hn)
  | operand ho _ _ ih ih' =>
    obtain ⟨hnext, htail⟩ := hmore.front (opAmong_eq_some.mp ho).2 (op_kind_ne_eof _)
    have hright := ih rfl
    rw [← htail] at hright
    rw [← hnext] at ho
    exact .operand ho hright (ih' hr)
  | _ => cases hr

theorem TestRun.append (hmore : g.Ends more) (h : TestRun g room ts (.ok e us)) :
    TestRun g room (ts ++ more) (.ok e (us ++ more)) := by
  cases h with
  | plain h hn => exact .plain (h.append hmore rfl) ((hmore.opAmong_append _ _).trans hn)
  | compared h ho h' =>
    obtain ⟨hnext, htail⟩ := hmore.front (opAmong_eq_some.mp ho).2 (op_kind_ne_eof _)
    have hright := h'.append hmore rfl
    rw [← htail] at hright
    rw [← hnext] at ho
    exact .compared (h.append hmore rfl) ho hright

/-- A delimiter that is the end token has no block behind it. -/
theorem HeadRun.append (hmore : g.Ends more) (hb : (g.next us).kind = Kind.openCurly)
    (h : HeadRun g room ts (.ok e us)) : HeadRun g room (ts ++ more) (.ok e (us ++ more)) := by
  cases h with
  | «open» hk h hd =>
    obtain ⟨hnext, htail⟩ := hmore.front hk (by decide)
    have htest := h.append hmore
    rw [← htail] at htest
    rw [← hnext] at hk
    exact .open hk htest hd
  | @delimited _ vs _ hk h hd hk' =>
    obtain ⟨hnext, htail⟩ := hmore.front hk (by decide)
    have htest := h.append hmore
    rw [← htail] at htest
    rw [← hnext] at hk
    cases vs with
    | nil => exact absurd (hb.symm.trans hmore.eof) (by decide)
    | cons v vs =>
      have hk' : (g.next (v :: vs ++ more)).kind = _ := hk'
      exact .delimited hk htest hd hk'

/-- What is read without a fault is read likewise with more tokens behind it, unless these could
belong to it. -/
theorem Run.append {q : Ending (List Statement)} (hmore : g.Ends more)
    (h : Run g depth part ts log q) (hlog : noted log = []) (hq : q = .ok ss us)
    (hend : part = .statements → us ≠ []) :
    Clean g depth part (ts ++ more) (us ++ more) ss := by
  induction h generalizing ss us with
  | stop hs =>
    cases hq
    exact ⟨[], rfl, .stop ((stops_append (hend rfl) more).mpr hs)⟩
  | next hn _ _ ih ih' =>
    cases hq
    rw [noted_append, List.append_eq_nil_iff] at hlog
    obtain ⟨log₁, hlog₁, hrun₁⟩ := ih hlog.1 rfl (by simp)
    obtain ⟨log₂, hlog₂, hrun₂⟩ := ih' hlog.2 rfl hend
    refine ⟨log₁ ++ log₂, by simp [hlog₁, hlog₂], .next ?_ hrun₁ hrun₂⟩
    rwa [stops_append fun hnil => hn (.inl hnil)]
  | closed hk hlt _ hc ih =>
    cases hq
    rw [noted_append, List.append_eq_nil_iff] at hlog
    obtain ⟨hnext, htail⟩ := hmore.front hk (by decide)
    obtain ⟨hnext', htail'⟩ := hmore.front hc (by decide)
    -- the body stops at the closing bracket, so not at the end
    obtain ⟨log, hlog, hrun⟩ := ih hlog.1 rfl fun _ => hmore.ne_nil hc (by decide)
    rw [← htail] at hrun
    rw [← hnext] at hk
    rw [← hnext'] at hc
    rw [← htail']
    exact ⟨_, by simp [hlog], .closed hk hlt hrun hc⟩
  | alone hh hb hn ih =>
    cases hq
    obtain ⟨log, hlog, hrun⟩ := ih hlog rfl (by simp)
    refine ⟨log, hlog, ?_⟩
    rw [← hmore.pastEnd_append]
    exact .alone (hh.append hmore hb.block_starts) hrun (mt (hmore.opensAlternate_append _).mp hn)
  | alternate hh hb ha _ ih ih' =>
    cases hq
    rw [noted_append, List.append_eq_nil_iff] at hlog
    obtain ⟨log₁, hlog₁, hrun₁⟩ := ih hlog.1 rfl (by simp)
    obtain ⟨log₂, hlog₂, hrun₂⟩ := ih' hlog.2 rfl (by simp)
    obtain ⟨hnext, htail⟩ := hmore.front ha.1 (by decide)
    rw [← htail] at hrun₂
    rw [← hnext] at ha
    refine ⟨log₁ ++ log₂, by simp [hlog₁, hlog₂], ?_⟩
    rw [← hmore.pastEnd_append]
    exact .alternate (hh.append hmore hb.block_starts) hrun₁ ha hrun₂
  | assigned hk ha hv =>
    cases hq
    obtain ⟨hnext, htail⟩ := hmore.front hk (by decide)
    obtain ⟨hnext', htail'⟩ := hmore.front ha (by decide)
    have hvalue := hv.append hmore rfl
    rw [← htail', ← htail] at hvalue
    rw [← hnext', ← htail] at ha
    rw [← hnext] at hk ⊢
    exact ⟨[], rfl, .assigned hk ha hvalue⟩
  | simple hk hb _ ih =>
    cases hq
    have hpart := (Part.opened hk).2
    obtain ⟨log, hlog, hrun⟩ := ih hlog rfl (absurd · hpart)
    rw [← next_append_of_ne_nil (hmore.ne_nil_of_opened hk) more] at hk
    exact ⟨log, hlog, .simple hk hb hrun⟩
  | block hk _ ih =>
    cases hq
    obtain ⟨log, hlog, hrun⟩ := ih hlog rfl (by simp)
    rw [← next_append_of_ne_nil (hmore.ne_nil_of_opened hk) more] at hk
    exact ⟨log, hlog, .block hk hrun⟩
  | skipped | invalid => simp at hlog
  | _ => cases hq

/-- Behind a program without faults, another one is read as if it stood alone. -/
theorem Run.statements_append {log' : List Event} {ss' : List Statement} (hmore : g.Ends more)
    (h : Run g 0 .statements ts log (.ok ss [])) (hlog : noted log = [])
    (h' : Run g 0 .statements more log' (.ok ss' [])) :
    ∃ log'', noted log'' = noted log' ∧
      Run g 0 .statements (ts ++ more) log'' (.ok (ss ++ ss') []) := by
  generalize hd : 0 = depth at h
  generalize hp : Part.statements = part at h
  generalize hq : (.ok ss [] : Ending (List Statement)) = q at h
  induction h generalizing ss with
  | stop =>
    cases hq
    subst hd
    exact ⟨log', rfl, h'⟩
  | next hn hhead _ _ ih =>
    cases hq
    subst hd
    rw [noted_append, List.append_eq_nil_iff] at hlog
    obtain ⟨log₁, hlog₁, hrun₁⟩ := hhead.append hmore hlog.1 rfl (by simp)
    obtain ⟨log₂, hlog₂, hrun₂⟩ := ih hlog.2 rfl rfl rfl
    refine ⟨log₁ ++ log₂, by simp [hlog₁, hlog₂], .next ?_ hrun₁ hrun₂⟩
    rwa [stops_append fun hnil => hn (.inl hnil)]
  | _ => cases hp

end Parser

open DollarScript.Parser

/-- A parse without errors is not disturbed by what follows, unless that may continue it, nor does
it disturb the parse of what follows, however wrong that is. -/
theorem parseTokens_append (options : ParserOptions) (first second : List Token) (eof : Token)
    (heof : eof.kind = Kind.eof)
    (hfirst : (parseTokens options ⟨first, eof⟩).success = true)
    (hsecond : ∀ t ∈ second.head?, t.StartsAnew) :
    (parseTokens options ⟨first ++ second, eof⟩).program.statements =
      (parseTokens options ⟨first, eof⟩).program.statements ++
        (parseTokens options ⟨second, eof⟩).program.statements ∧
    (parseTokens options ⟨first ++ second, eof⟩).errors =
      (parseTokens options ⟨second, eof⟩).errors := by
  obtain ⟨log₁, ss₁, hrun₁, heq₁⟩ := parseTokens_runs options ⟨first, eof⟩
  obtain ⟨log₂, ss₂, hrun₂, heq₂⟩ := parseTokens_runs options ⟨second, eof⟩
  obtain ⟨log, ss, hrun, heq⟩ := parseTokens_runs options ⟨first ++ second, eof⟩
  have hclean : noted log₁ = [] := by
    simpa [heq₁, ParseResult.success] using hfirst
  have hmore : (setting options eof).Ends second := ends_of_startsAnew heof hsecond
  obtain ⟨log', hlog', hrun'⟩ := hrun₁.statements_append hmore hclean hrun₂
  obtain ⟨rfl, hend⟩ := hrun'.unique hrun
  cases hend
  rw [heq, heq₁, heq₂, hlog']
  exact ⟨rfl, rfl⟩

/-- `if: $a: { $b = $a }`, behind which an `else:` or `endif` would belong to it. -/
def openEnded : List Token := [
  .placeless Kind.keywordBegin "if:" [some "if"], .placeless Kind.var "$a" [],
  .placeless Kind.colon ":" [], .placeless Kind.openCurly "\x7b" [],
  .placeless Kind.var "$b" [], .placeless Kind.assign "=" [], .placeless Kind.var "$a" [],
  .placeless Kind.closeCurly "\x7d" []]

/-- `while: $a: { =` -/
def brokenOff : List Token := [
  .placeless Kind.keywordBegin "while:" [some "while"], .placeless Kind.var "$a" [],
  .placeless Kind.colon ":" [], .placeless Kind.openCurly "\x7b" [],
  .placeless Kind.assign "=" []]

/-- The condition stays whole, and both errors are those of the loop alone. -/
theorem parseTokens_openEnded_brokenOff :
    let stop := Token.placeless Kind.eof "" []
    let r := parseTokens .default ⟨openEnded ++ brokenOff, stop⟩
    r.program.statements =
        [.conditional (.var "$a") [.assignment "$b" (.var "$a")] none, .skipped] ∧
      r.errors = [.about .invalidStatement (.placeless Kind.assign "=" []),
        .unexpected Kind.closeCurly stop] := by
  intro stop r
  have h := parseTokens_append .default openEnded brokenOff stop rfl rfl (by
    rintro t ⟨⟩
    exact .inr (.inr ⟨rfl, by decide⟩))
  exact h

end DollarScript
