import DollarScript.Proofs.Parser.Agreement
import DollarScript.Proofs.Parser.BraceCounter

/-! However malformed a program is, its blocks are those that counting curly brackets finds. -/
namespace DollarScript

namespace Cause

/-- A token of the kind was expected and not found. -/
def expects (kind : String) : Cause → Bool
  | .unexpectedToken expected _ => expected == kind
  | _ => false

end Cause

namespace Parser

open Brace

/-- Neither the end token nor a delimiter can be taken for a curly bracket. -/
structure Setting.Plain (g : Setting) : Prop where
  eof : g.eof.kind ∉ kinds
  delimiter : ∀ kind ∈ g.delimiter, kind ∉ kinds

variable {g : Setting} {room depth limit : Nat} {x : ExprPart} {part : Part}
  {ts us : List Token} {log : List Event} {r : Ending Expr} {q : Ending (List Statement)}
  {f : Fault} {b : Braces}

theorem Setting.Plain.exists_cons {kind : String} (hg : g.Plain) (hk : (g.next ts).kind = kind)
    (h : kind ∈ kinds) : ∃ t us, ts = t :: us ∧ t.kind = kind := by
  cases ts with
  | nil => exact absurd (hk ▸ h) hg.eof
  | cons t us => exact ⟨t, us, rfl, hk⟩

theorem op_not_brace (op : BinaryOp) : op.kind ∉ kinds := by
  cases op <;> decide

theorem ExprRun.braces (h : ExprRun g room x ts r) : b.run limit r.rest = b.run limit ts := by
  induction h with
  | number hk | badNumber hk | var hk | tooDeep hk => exact Braces.run_other hk (by decide)
  | innerFails hk _ ih | unclosed hk _ _ ih => exact ih.trans (Braces.run_other hk (by decide))
  | bracketed hk _ hc ih =>
    exact ((Braces.run_other hc (by decide)).trans ih).trans (Braces.run_other hk (by decide))
  | noFactor | done => rfl
  | firstFails _ ih => exact ih
  | first _ _ ih ih' => exact ih'.trans ih
  | operandFails ho _ ih =>
    exact ih.trans (Braces.run_other (opAmong_eq_some.mp ho).2 (op_not_brace _))
  | operand ho _ _ ih ih' =>
    exact (ih'.trans ih).trans (Braces.run_other (opAmong_eq_some.mp ho).2 (op_not_brace _))

theorem TestRun.braces (h : TestRun g room ts r) : b.run limit r.rest = b.run limit ts := by
  cases h with
  | leftFails h | plain h => exact h.braces
  | @rightFails _ us _ _ _ h ho h' | @compared _ us _ _ _ h ho h' =>
    have hop : b.run limit us.tail = b.run limit us :=
      Braces.run_other (opAmong_eq_some.mp ho).2 (op_not_brace _)
    exact (h'.braces.trans hop).trans h.braces

theorem HeadRun.braces (hg : g.Plain) (h : HeadRun g room ts r) :
    b.run limit r.rest = b.run limit ts := by
  cases h with
  | testFails hk h | «open» hk h | undelimited hk h =>
    exact h.braces.trans (Braces.run_other hk (by decide))
  | @delimited _ us _ hk h hd hc =>
    have hdel : b.run limit us.tail = b.run limit us :=
      Braces.run_other hc (hg.delimiter _ hd)
    exact (hdel.trans h.braces).trans (Braces.run_other hk (by decide))

/-- While an error is looked past, only a stray bracket is passed. -/
theorem recovered_braces (hb : b.opened.length = depth) (ts : List Token) :
    b.run limit (recovered depth ts) = b.run limit ts := by
  fun_induction recovered depth ts with
  | case1 => rfl
  | case2 => rfl
  | case3 t ts hs hc hd =>
    have hnil : b.opened = [] := List.length_eq_zero_iff.mp (hb.trans hd)
    have hk : t.kind = Kind.closeCurly := by simpa [Token.is] using hc
    have hstray : b.step limit (t :: ts) = b := by
      simp [Braces.step, hk, hnil, show Kind.closeCurly ≠ Kind.openCurly by decide]
    rw [Braces.run, hstray]
  | case4 => rfl
  | case5 t ts hs hc ih =>
    have hother : t.kind ∉ kinds := by
      grind [Token.startsStatement, Kind.startsStatement, Kind.statementStarts, Token.is, kinds]
    rw [ih, Braces.run, Braces.step_other hother]

/-- A fault for want of a curly bracket. -/
def Fault.isUnclosed (f : Fault) : Bool := f.cause.expects Kind.closeCurly

/-- The events that concern a curly bracket which is there. -/
def Event.ofBrace (g : Setting) : Event → Bool
  | .noted f => f.isTooDeep g
  | .closed _ _ _ => true

/-- Neither opening nor closing a curly bracket is what went wrong. -/
def Fault.Foreign (g : Setting) (f : Fault) : Prop :=
  f.isTooDeep g = false ∧ f.isUnclosed = false

theorem Fault.isUnclosed_unexpected {g : Setting} {kind : String} {ts : List Token}
    (h : kind ≠ Kind.closeCurly) : (Fault.unexpected g kind ts).isUnclosed = false := by
  simpa [Fault.isUnclosed, Fault.unexpected, Cause.expects] using h

theorem ExprRun.foreign (h : ExprRun g room x ts r) (hr : r = .error f us) : f.Foreign g := by
  induction h with
  | badNumber | noFactor =>
    cases hr
    exact ⟨rfl, rfl⟩
  | tooDeep hk =>
    cases hr
    refine ⟨?_, rfl⟩
    simp [Fault.isTooDeep, hk, show Kind.openSquare ≠ Kind.openCurly by decide]
  | unclosed =>
    cases hr
    exact ⟨rfl, Fault.isUnclosed_unexpected (by decide)⟩
  | innerFails _ _ ih | firstFails _ ih | operandFails _ _ ih => exact ih hr
  | first _ _ _ ih | operand _ _ _ _ ih => exact ih hr
  | _ => cases hr

theorem TestRun.foreign (h : TestRun g room ts (.error f us)) : f.Foreign g := by
  cases h with
  | leftFails h => exact h.foreign rfl
  | rightFails _ _ h => exact h.foreign rfl

theorem HeadRun.foreign (hg : g.Plain) (h : HeadRun g room ts (.error f us)) :
    f.Foreign g := by
  cases h with
  | testFails _ h => exact h.foreign
  | undelimited _ _ hd =>
    refine ⟨rfl, Fault.isUnclosed_unexpected ?_⟩
    rintro rfl
    exact hg.delimiter _ hd (by decide)

/-- Passing tokens while `depth` brackets are open opens as many as it closes, and the events are
those that the counter sees. -/
def Passes (g : Setting) (depth : Nat) (ts : List Token) (events : List Event)
    (us : List Token) : Prop :=
  (noted events).countP Fault.isUnclosed = 0 ∧
  ∀ b : Braces, b.opened.length = depth →
    b.run g.maxNesting ts =
      Braces.run g.maxNesting ⟨b.opened, b.events ++ events.filter (Event.ofBrace g)⟩ us

/-- Passing all tokens that there are leaves as many more brackets open as are complained of. -/
def Exhausts (g : Setting) (depth : Nat) (ts : List Token) (events : List Event) : Prop :=
  ∀ b : Braces, b.opened.length = depth → ∃ left : List (List Token),
    b.run g.maxNesting ts =
      ⟨left ++ b.opened, b.events ++ events.filter (Event.ofBrace g)⟩ ∧
    left.length = (noted events).countP Fault.isUnclosed

variable {events events' : List Event} {vs : List Token}

theorem Passes.of_run (h : ∀ b : Braces, b.opened.length = depth →
    b.run g.maxNesting us = b.run g.maxNesting ts) : Passes g depth ts [] us := by
  refine ⟨rfl, ?_⟩
  intro b hb
  simp [h b hb]

theorem Passes.trans (h : Passes g depth ts events us) (h' : Passes g depth us events' vs) :
    Passes g depth ts (events ++ events') vs := by
  refine ⟨by simp [h.1, h'.1], ?_⟩
  intro b hb
  have hnext := h'.2 ⟨b.opened, b.events ++ events.filter (Event.ofBrace g)⟩ hb
  rw [h.2 b hb, hnext]
  simp

theorem Passes.exhausts (h : Passes g depth ts events us) (h' : Exhausts g depth us events') :
    Exhausts g depth ts (events ++ events') := by
  intro b hb
  obtain ⟨left, hrun, hleft⟩ := h'
    ⟨b.opened, b.events ++ events.filter (Event.ofBrace g)⟩ hb
  refine ⟨left, ?_, by simp [h.1, hleft]⟩
  rw [h.2 b hb, hrun]
  simp

theorem Passes.exhausts_nil (h : Passes g depth ts events []) : Exhausts g depth ts events := by
  intro b hb
  exact ⟨[], h.2 b hb, h.1.symm⟩

theorem Passes.foreign (hf : f.Foreign g) : Passes g depth ts [.noted f] ts := by
  obtain ⟨hd, hu⟩ := hf
  refine ⟨by simp [hu], ?_⟩
  intro b _
  simp [Event.ofBrace, hd]

theorem Passes.tooDeep (hg : g.Plain) (hk : (g.next ts).kind = Kind.openCurly)
    (hm : g.maxNesting ≤ depth) :
    Passes g depth ts [.noted ⟨ts, .nestingTooDeep g.maxNesting⟩] ts.tail := by
  obtain ⟨t, us, rfl, ht⟩ := hg.exists_cons hk (by decide)
  refine ⟨rfl, ?_⟩
  intro b hb
  have hdeep : ¬ b.opened.length < g.maxNesting := by omega
  simp [Braces.run, Braces.step, ht, hdeep, Event.ofBrace, Fault.isTooDeep,
    Cause.isNestingTooDeep, Setting.next]

/-- The counter behind a bracket that may be opened. -/
theorem Braces.run_open (hg : g.Plain) (hk : (g.next ts).kind = Kind.openCurly)
    (hb : b.opened.length < g.maxNesting) :
    b.run g.maxNesting ts = Braces.run g.maxNesting ⟨ts :: b.opened, b.events⟩ ts.tail := by
  obtain ⟨t, us, rfl, ht⟩ := hg.exists_cons hk (by decide)
  simp [Braces.run, Braces.step, ht, hb]

theorem Braces.run_close (hg : g.Plain) (hk : (g.next us).kind = Kind.closeCurly)
    (opener : List Token) (outer : List (List Token)) (events : List Event) :
    Braces.run g.maxNesting ⟨opener :: outer, events⟩ us =
      Braces.run g.maxNesting ⟨outer, events ++ [.closed outer.length opener us]⟩ us.tail := by
  obtain ⟨t, vs, rfl, ht⟩ := hg.exists_cons hk (by decide)
  simp [Braces.run, Braces.step, ht, show Kind.closeCurly ≠ Kind.openCurly by decide]

theorem Passes.block (hg : g.Plain) (hk : (g.next ts).kind = Kind.openCurly)
    (hd : depth < g.maxNesting) (h : Passes g (depth + 1) ts.tail events us)
    (hc : (g.next us).kind = Kind.closeCurly) :
    Passes g depth ts (events ++ [.closed depth ts us]) us.tail := by
  refine ⟨by simp [h.1], ?_⟩
  intro b hb
  have hopen := Braces.run_open (b := b) hg hk (by omega)
  have hbody := h.2 ⟨ts :: b.opened, b.events⟩ (by simp [hb])
  rw [hopen, hbody, Braces.run_close hg hc, hb]
  simp [Event.ofBrace, List.filter_cons]

theorem Exhausts.block (hg : g.Plain) (hk : (g.next ts).kind = Kind.openCurly)
    (hd : depth < g.maxNesting) (h : Exhausts g (depth + 1) ts.tail events) :
    Exhausts g depth ts (events ++ [.noted (.unexpected g Kind.closeCurly us)]) := by
  intro b hb
  have hopen := Braces.run_open (b := b) hg hk (by omega)
  obtain ⟨left, hbody, hleft⟩ := h ⟨ts :: b.opened, b.events⟩ (by simp [hb])
  refine ⟨left ++ [ts], ?_, ?_⟩
  · rw [hopen, hbody]
    simp [Event.ofBrace, Fault.isTooDeep, Fault.unexpected, Cause.isNestingTooDeep]
  · simp [hleft, Fault.isUnclosed, Fault.unexpected, Cause.expects]

/-- A statement that starts with no kind of statement is one token: a curly bracket only if that
closes nothing. -/
theorem Passes.invalid (hk : Part.ofKind? (g.next ts).kind = none) (hs : ¬ g.Stops depth ts) :
    Passes g depth ts [.noted ⟨ts, .invalidStatement⟩] ts.tail := by
  have hf : (⟨ts, .invalidStatement⟩ : Fault).Foreign g := ⟨rfl, rfl⟩
  suffices hrun : Passes g depth ts [] ts.tail from (Passes.foreign hf).trans hrun
  refine .of_run ?_
  intro b hb
  by_cases hc : (g.next ts).kind = Kind.closeCurly
  · have hzero : depth = 0 := by
      simp only [Setting.Stops, hc, and_true, not_or] at hs
      omega
    have hrec : b.run g.maxNesting (recovered 0 ts) = b.run g.maxNesting ts :=
      recovered_braces (hb.trans hzero) ts
    cases ts with
    | nil => rfl
    | cons t ts =>
      have ht : t.kind = Kind.closeCurly := hc
      have hstart : t.startsStatement = false := Part.ofKind?_eq_none.mp hk
      simpa [recovered, hstart, Token.is, ht] using hrec
  · have ho : (g.next ts).kind ≠ Kind.openCurly := by
      intro ho
      simp [Part.ofKind?_eq_block.mpr ho] at hk
    exact Braces.run_other (g := g) rfl (by simp [kinds, ho, hc])

theorem Run.statements_nil {ss : List Statement}
    (h : Run g depth .statements [] log (.ok ss us)) : log = [] ∧ us = [] := by
  cases h with
  | stop => exact ⟨rfl, rfl⟩
  | next hn => exact absurd (.inl rfl) hn

theorem Passes.other {kind : String} (hk : (g.next ts).kind = kind) (h : kind ∉ kinds) :
    Passes g depth ts [] ts.tail :=
  .of_run fun _ _ => Braces.run_other hk h

theorem Passes.pastEnd (g : Setting) (depth : Nat) (ts : List Token) :
    Passes g depth ts [] (g.pastEnd ts) := by
  unfold Setting.pastEnd
  split
  · rename_i hk
    exact .other hk (by decide)
  · exact .of_run fun _ _ => rfl

theorem HeadRun.passes {test : Expr} (hg : g.Plain) (h : HeadRun g room ts (.ok test us)) :
    Passes g depth ts [] us :=
  .of_run fun _ _ => h.braces hg

/-- A run keeps step with the counter. Only one that uses up the tokens can leave brackets open,
and then it fails, unless the failure has become a placeholder already. -/
def InStep (g : Setting) (depth : Nat) (part : Part) (ts : List Token) (log : List Event)
    (q : Ending (List Statement)) : Prop :=
  Passes g depth ts (log ++ q.thrown) q.rest ∨
  (q.rest = [] ∧ Exhausts g depth ts (log ++ q.thrown) ∧
    (q.thrown = [] → part = .statement ∨ part = .statements))

theorem InStep.passes {ss : List Statement} (h : InStep g depth part ts log (.ok ss us))
    (hp : ¬ (part = .statement ∨ part = .statements)) : Passes g depth ts log us := by
  rcases h with h | ⟨-, -, hpart⟩
  · simpa [Ending.thrown] using h
  · exact absurd (hpart rfl) hp

theorem Passes.inStep {ss : List Statement} (h : Passes g depth ts log us) :
    InStep g depth part ts log (.ok ss us) := by
  left
  simpa [Ending.thrown] using h

theorem Passes.inStep_error {log' : List Event} {part' : Part} (h : Passes g depth ts log us)
    (h' : InStep g depth part us log' (.error f vs)) :
    InStep g depth part' ts (log ++ log') (.error f vs) := by
  rcases h' with hp | ⟨hvs, he, -⟩
  · left
    simpa using h.trans hp
  · right
    exact ⟨hvs, by simpa using h.exhausts he, by simp [Ending.thrown]⟩

theorem Run.in_step (hg : g.Plain) (h : Run g depth part ts log q)
    (hs : part = .statement → ¬ g.Stops depth ts) : InStep g depth part ts log q := by
  induction h with
  | stop => exact .inl (.of_run fun _ _ => rfl)
  | @next depth ts log s us log' ss vs hn h h' ih ih' =>
    -- a statement leaves brackets open only at the end, and then no other one follows
    simp only [InStep, Ending.thrown, List.append_nil, Ending.rest_ok] at ih ih' ⊢
    rcases ih fun _ => hn with hp | ⟨rfl, he, -⟩
    · rcases ih' (by simp) with hp' | ⟨hvs, he', -⟩
      · exact .inl (hp.trans hp')
      · exact .inr ⟨hvs, hp.exhausts he', by simp⟩
    · obtain ⟨rfl, rfl⟩ := h'.statements_nil
      exact .inr ⟨rfl, by simpa using he, by simp⟩
  | unopened => exact .inl (.foreign ⟨rfl, Fault.isUnclosed_unexpected (by decide)⟩)
  | tooDeep hk hm => exact .inl (.tooDeep hg hk hm)
  | @unclosed depth ts log ss us hk hd h hn ih =>
    have hus : us = [] := by simpa [Setting.Stops, hn] using h.statements_stops
    subst hus
    simp only [InStep, Ending.thrown, List.append_nil, Ending.rest_ok] at ih ⊢
    have hbody : Exhausts g (depth + 1) ts.tail log := by
      rcases ih (by simp) with hp | ⟨-, he, -⟩
      · exact hp.exhausts_nil
      · exact he
    exact .inr ⟨rfl, hbody.block hg hk hd, by simp⟩
  | @closed depth ts log ss us hk hd h hc ih =>
    -- there is a closing bracket, so the statements in front of it have left none open
    obtain ⟨t, vs, rfl, -⟩ := hg.exists_cons hc (by decide)
    rcases ih (by simp) with hp | ⟨hnil, -⟩
    · rw [Ending.thrown, List.append_nil] at hp
      exact (hp.block hg hk hd hc).inStep
    · cases hnil
  | headFails hh =>
    exact .inl ((Passes.of_run fun _ _ => hh.braces hg).trans (.foreign (hh.foreign hg)))
  | consequentFails hh _ ih => exact (hh.passes hg).inStep_error (ih (by simp))
  | alone hh _ _ ih =>
    have hbody := (ih (by simp)).passes (by simp)
    simpa using (((hh.passes hg).trans hbody).trans (.pastEnd g _ _)).inStep
  | alternateFails hh _ ha _ ih ih' =>
    have hbody := (ih (by simp)).passes (by simp)
    have hfirst := ((hh.passes hg).trans hbody).trans (.other ha.1 (by decide))
    simpa using hfirst.inStep_error (ih' (by simp))
  | alternate hh _ ha _ ih ih' =>
    have hbody := (ih (by simp)).passes (by simp)
    have hfirst := ((hh.passes hg).trans hbody).trans (.other ha.1 (by decide))
    have hother := (ih' (by simp)).passes (by simp)
    simpa using ((hfirst.trans hother).trans (.pastEnd g _ _)).inStep
  | @unassigned depth ts hk hn =>
    have hf : (Fault.unexpected g Kind.assign ts.tail).Foreign g :=
      ⟨rfl, Fault.isUnclosed_unexpected (by decide)⟩
    exact .inl ((Passes.other hk (by decide)).trans (.foreign hf))
  | @valueFails depth ts f us hk ha hv =>
    have htarget : Passes g depth ts [] ts.tail.tail :=
      (Passes.other hk (by decide)).trans (.other ha (by decide))
    have hvalue : Passes g depth ts [] us := htarget.trans (.of_run fun _ _ => hv.braces)
    exact .inl (hvalue.trans (.foreign (hv.foreign rfl)))
  | @assigned depth ts value us hk ha hv =>
    have htarget : Passes g depth ts [] ts.tail.tail :=
      (Passes.other hk (by decide)).trans (.other ha (by decide))
    exact (htarget.trans (.of_run fun _ _ => hv.braces)).inStep
  | @simple depth part ts log s us hk hb _ ih =>
    have hpart : ¬ (part = .statement ∨ part = .statements) := by
      rcases Part.ofKind?_cases hk with rfl | rfl | rfl <;> simp
    exact ((ih fun h => absurd (.inl h) hpart).passes hpart).inStep
  | block hk _ ih => exact ((ih (by simp)).passes (by simp)).inStep
  | @skipped depth part ts log f us hk h ih =>
    have hpart : part ≠ .statement := by
      rcases Part.ofKind?_cases hk with rfl | rfl | rfl <;> simp
    rcases ih fun h => absurd h hpart with hp | ⟨hus, he, -⟩
    · have hrec : Passes g depth us [] (recovered depth us) :=
        .of_run fun b hb => recovered_braces hb us
      refine Passes.inStep ?_
      simpa [Ending.thrown] using hp.trans hrec
    · cases hus
      exact .inr ⟨rfl, by simpa [Ending.thrown] using he, by simp⟩
  | invalid hk => exact (Passes.invalid hk (hs rfl)).inStep

/-- A bracket that is missed is missed at the end. -/
theorem Run.unclosed_at_end (hg : g.Plain) (h : Run g depth part ts log q) :
    ∀ f ∈ noted (log ++ q.thrown), f.isUnclosed = true →
      f = .unexpected g Kind.closeCurly [] := by
  have single : ∀ {f : Fault}, f.Foreign g → ∀ f' ∈ noted [.noted f], f'.isUnclosed = true →
      f' = .unexpected g Kind.closeCurly [] := by
    intro f hf f' hmem hu
    rw [noted_single, List.mem_singleton] at hmem
    rw [hmem, hf.2] at hu
    cases hu
  induction h with
  | stop | assigned => simp [Ending.thrown]
  | next _ _ _ ih ih' | alternate _ _ _ _ ih ih' | alternateFails _ _ _ _ ih ih' =>
    simp only [Ending.thrown, List.append_nil, noted_append, List.mem_append] at ih ih' ⊢
    grind
  | unopened => exact single ⟨rfl, Fault.isUnclosed_unexpected (by decide)⟩
  | tooDeep => simp [Ending.thrown, Fault.isUnclosed, Cause.expects]
  | unclosed _ _ h hn ih =>
    have hus := h.statements_stops
    simp only [Setting.Stops, hn, and_false, or_false] at hus
    subst hus
    simp only [Ending.thrown, List.append_nil, noted_append, noted_single, List.mem_append,
      List.mem_singleton] at ih ⊢
    grind
  | closed _ _ _ _ ih | alone _ _ _ ih | simple _ _ _ ih | block _ _ ih =>
    simpa [Ending.thrown] using ih
  | headFails hh => exact single (hh.foreign hg)
  | consequentFails _ _ ih => exact ih
  | unassigned => exact single ⟨rfl, Fault.isUnclosed_unexpected (by decide)⟩
  | valueFails _ _ hv => exact single (hv.foreign rfl)
  | skipped _ _ ih => simpa [Ending.thrown] using ih
  | invalid => exact single ⟨rfl, rfl⟩

theorem Run.unclosed_eq {ss : List Statement} (hg : g.Plain)
    (h : Run g depth part ts log (.ok ss us)) :
    (noted log).filter Fault.isUnclosed =
      List.replicate ((noted log).countP Fault.isUnclosed) (.unexpected g Kind.closeCurly []) := by
  refine List.eq_replicate_iff.mpr ⟨List.countP_eq_length_filter.symm, ?_⟩
  intro f hf
  obtain ⟨hmem, hu⟩ := List.mem_filter.mp hf
  exact h.unclosed_at_end hg f (by simpa [Ending.thrown] using hmem) hu

/-- A block that was closed is a run of its own. -/
theorem Run.of_closed {d : Nat} (h : Run g depth part ts log q)
    (hc : .closed d us vs ∈ log) :
    ∃ log' ss, Run g d .block us log' (.ok ss vs.tail) := by
  induction h with
  | stop | unopened | tooDeep | headFails | unassigned | valueFails | assigned => cases hc
  | next _ _ _ ih ih' | alternate _ _ _ _ ih ih' | alternateFails _ _ _ _ ih ih' =>
    rcases List.mem_append.mp hc with h | h
    · exact ih h
    · exact ih' h
  | closed hk hd h hcl ih =>
    rcases List.mem_append.mp hc with hin | hlast
    · exact ih hin
    · cases List.mem_singleton.mp hlast
      exact ⟨_, _, .closed hk hd h hcl⟩
  | unclosed _ _ _ _ ih | consequentFails _ _ ih | alone _ _ _ ih | simple _ _ _ ih
  | block _ _ ih => exact ih hc
  | skipped _ _ ih =>
    rcases List.mem_append.mp hc with hin | hlast
    · exact ih hin
    · cases List.mem_singleton.mp hlast
  | invalid => cases List.mem_singleton.mp hc

/-- The reader of blocks, called in front of `ts` while `depth` blocks are open, ends in front of
`us`. -/
def BlockTakes (g : Setting) (depth : Nat) (ts us : List Token) : Prop :=
  ∀ s : State, s.rest = ts → s.blockDepth = depth → s.nesting = depth →
    ∃ body s', block g (statement g (g.maxNesting - (depth + 1))) s = .ok body s' ∧ s'.rest = us

theorem Run.block_takes {ss : List Statement} (h : Run g depth .block ts log (.ok ss us)) :
    BlockTakes g depth ts us := by
  rintro s rfl rfl hn
  have hreads : s.blockDepth < g.maxNesting → ReadsAt g (s.blockDepth + 1)
      (statement g (g.maxNesting - (s.blockDepth + 1))) :=
    fun hlt => statement_readsAt g _ _ (by omega)
  obtain ⟨log', body, vs, hrun, heq⟩ | ⟨log', f, vs, hrun, heq⟩ := block_does hn hreads
  · obtain ⟨-, hq⟩ := h.unique hrun
    cases hq
    exact ⟨_, _, heq, rfl⟩
  · cases (h.unique hrun).2

theorem noted_filter (g : Setting) (log : List Event) :
    noted (log.filter (Event.ofBrace g)) = (noted log).filter (Fault.isTooDeep g) := by
  induction log with
  | nil => rfl
  | cons e log ih =>
    cases e with
    | noted f =>
      have hcons : ∀ log', noted (.noted f :: log') = f :: noted log' := fun _ => rfl
      by_cases hf : f.isTooDeep g <;> simp [Event.ofBrace, hf, hcons, ih]
    | closed d us vs =>
      have hcons : ∀ log', noted (.closed d us vs :: log') = noted log' := fun _ => rfl
      simp [Event.ofBrace, List.filter_cons, hcons, ih]

end Parser

open DollarScript.Parser DollarScript.Brace

/-- Blocks follow the counter of curly brackets, whatever else is wrong: the brackets rejected are
those that the counter finds too deep, those missed at the end are as many as it leaves open, and
each one that closes something ends the block which its partner opened. -/
theorem blocks_follow_counter (options : ParserOptions) (stream : TokenStream)
    (heof : stream.eof.kind ∉ Brace.kinds)
    (hdelimiter : ∀ kind ∈ options.conditionDelimiter, Kind.canonical kind ∉ Brace.kinds) :
    let g := setting options stream.eof
    let ts := stream.tokens
    let m := options.maxNesting
    ∃ log ss, Run g 0 .statements ts log (.ok ss []) ∧
      parseTokens options stream = ⟨⟨ss⟩, (noted log).map (Fault.diagnostic g)⟩ ∧
      (noted log).filter (Fault.isTooDeep g) =
        ((List.range ts.length).filter (TooDeep m ts ·)).map
          (fun i => ⟨ts.drop i, .nestingTooDeep m⟩) ∧
      (parseTokens options stream).errors.filter (·.cause.expects Kind.closeCurly) =
        List.replicate (level m ts ts.length) (.unexpected Kind.closeCurly stream.eof) ∧
      ∀ j, Closes m ts j → ∃ i, Matches m ts i j ∧ (∀ k, Matches m ts k j → k = i) ∧
        .closed (level m ts i) (ts.drop i) (ts.drop j) ∈ log ∧
        BlockTakes g (level m ts i) (ts.drop i) (ts.drop (j + 1)) := by
  intro g ts m
  have hg : g.Plain := by
    refine ⟨heof, ?_⟩
    intro kind hk
    obtain ⟨name, hname, rfl⟩ := Option.map_eq_some_iff.mp hk
    exact hdelimiter name hname
  obtain ⟨log, ss, hrun, heq⟩ := parseTokens_runs options stream
  have hexhausts : Exhausts g 0 ts log := by
    rcases hrun.in_step hg (by simp) with hp | ⟨-, he, -⟩
    · simpa [Ending.thrown] using hp.exhausts_nil
    · simpa [Ending.thrown] using he
  obtain ⟨left, hleft, hlength⟩ := hexhausts ⟨[], []⟩ rfl
  have hcounted := Braces.counted_upTo m ts ts.length
  rw [← Braces.run_eq_upTo, show m = g.maxNesting from rfl, hleft] at hcounted
  simp only [List.append_nil, List.nil_append] at hcounted
  refine ⟨log, ss, hrun, heq, ?_, ?_, ?_⟩
  · rw [← noted_filter]
    exact hcounted.tooDeep
  · have hnumber : (noted log).countP Fault.isUnclosed = level m ts ts.length :=
      hlength.symm.trans hcounted.depth
    have hcause : (fun d : Diagnostic => d.cause.expects Kind.closeCurly) ∘ Fault.diagnostic g =
        Fault.isUnclosed := rfl
    rw [heq, List.filter_map, hcause, hrun.unclosed_eq hg, hnumber, List.map_replicate]
    rfl
  · intro j hj
    have hlt : j < ts.length := by
      obtain ⟨t, ht, -⟩ := Option.map_eq_some_iff.mp hj.1
      exact (List.getElem?_eq_some_iff.mp ht).1
    obtain ⟨i, hm, hmem⟩ := hcounted.closing j hlt hj
    have hlog := (List.mem_filter.mp hmem).1
    obtain ⟨log', body, hblock⟩ := hrun.of_closed hlog
    refine ⟨i, hm, fun k hk => hk.unique hm, hlog, ?_⟩
    rw [List.tail_drop] at hblock
    exact hblock.block_takes

/-- `{ { = } } {` -/
def unevenBraces : TokenStream where
  tokens := [
    .placeless Kind.openCurly "\x7b" [], .placeless Kind.openCurly "\x7b" [],
    .placeless Kind.assign "=" [], .placeless Kind.closeCurly "\x7d" [],
    .placeless Kind.closeCurly "\x7d" [], .placeless Kind.openCurly "\x7b" []]
  eof := .placeless Kind.eof "" []

/-- With one level, the second bracket is rejected, the first closing one ends the first block, and
the last one is missed. -/
theorem blocks_of_unevenBraces :
    let ts := unevenBraces.tokens
    let g := setting ⟨some "colon", 1⟩ unevenBraces.eof
    ∃ log, (parseTokens ⟨some "colon", 1⟩ unevenBraces).errors =
        (noted log).map (Fault.diagnostic g) ∧
      (noted log).filter (Fault.isTooDeep g) = [⟨ts.drop 1, .nestingTooDeep 1⟩] ∧
      (parseTokens ⟨some "colon", 1⟩ unevenBraces).errors.filter
        (·.cause.expects Kind.closeCurly) = [.unexpected Kind.closeCurly unevenBraces.eof] ∧
      ∃ i, Matches 1 ts i 3 ∧ .closed (level 1 ts i) (ts.drop i) (ts.drop 3) ∈ log := by
  intro ts g
  have hdelimiter : ∀ kind ∈ some "colon", Kind.canonical kind ∉ Brace.kinds := by
    rintro kind ⟨⟩
    decide
  obtain ⟨log, ss, -, heq, hdeep, hmissed, hclosed⟩ :=
    blocks_follow_counter ⟨some "colon", 1⟩ unevenBraces (by decide) hdelimiter
  obtain ⟨i, hm, -, hlog, -⟩ := hclosed 3 ⟨rfl, by decide⟩
  refine ⟨log, ?_, ?_, ?_, i, hm, hlog⟩
  · rw [heq]
  · rw [hdeep]
    rfl
  · rw [hmissed]
    rfl

end DollarScript
