import DollarScript.Proofs.Parser.Agreement
import DollarScript.Proofs.Scanner.Lossless
import Mathlib.Data.List.Chain

/-! Diagnostics stand at tokens, in the order of the tokens, and a token that went wrong is not
complained of again. -/
namespace DollarScript

namespace Parser

/-- The fault stands at one of the tokens; where it names the kind that was found, this is the kind
of that token, and another one was expected. -/
structure Fault.Anchored (g : Setting) (ts : List Token) (f : Fault) : Prop where
  within : f.place <:+ ts
  found : ∀ expected found, f.cause = .unexpectedToken expected found →
    found = (g.next f.place).kind ∧ expected ≠ found

/-- Reading can go on in front of the tokens: with a statement, or with the end of a block. -/
def Setting.Resumes (g : Setting) (depth : Nat) (ts : List Token) : Prop :=
  Part.ofKind? (g.next ts).kind ≠ none ∨ (0 < depth ∧ (g.next ts).kind = Kind.closeCurly)

/-- Reading has come as far as the tokens since the fault. If the fault is at the first of them,
then that is a token which reading can go on with. -/
def Fault.Past (g : Setting) (depth : Nat) (ts : List Token) (f : Fault) : Prop :=
  ts <:+ f.place ∧ (ts = f.place → ts = [] ∨ g.Resumes depth ts)

/-- The fault `f'` can come next after `f`: at a later token, unless there is none or the token is
a bracket that may not be opened. -/
def Fault.Before (g : Setting) (f f' : Fault) : Prop :=
  f'.place <:+ f.place ∧ (f'.place = f.place → f.place = [] ∨ f'.isTooDeep g = true)

variable {g : Setting} {room depth : Nat} {x : ExprPart} {part : Part} {ts us vs : List Token}
  {log log' : List Event} {r : Ending Expr} {q : Ending (List Statement)} {f f' : Fault}

theorem Fault.Anchored.mono (h : f.Anchored g us) (hs : us <:+ ts) : f.Anchored g ts :=
  ⟨h.within.trans hs, h.found⟩

theorem anchored_unexpected {kind : String} (hk : (g.next us).kind ≠ kind) (hs : us <:+ ts) :
    (Fault.unexpected g kind us).Anchored g ts := by
  refine ⟨hs, ?_⟩
  rintro expected found ⟨⟩
  exact ⟨rfl, hk.symm⟩

/-- Nothing is said to be found by a fault of another cause. -/
theorem anchored_other {cause : Cause} (hs : us <:+ ts)
    (hc : ∀ expected found, cause ≠ .unexpectedToken expected found) :
    (⟨us, cause⟩ : Fault).Anchored g ts :=
  ⟨hs, fun expected found h => absurd h (hc expected found)⟩

theorem ExprRun.anchored (h : ExprRun g room x ts r) (hr : r = .error f us) :
    f.Anchored g ts ∧ us <:+ f.place := by
  induction h with
  | badNumber | tooDeep =>
    cases hr
    exact ⟨anchored_other (List.suffix_refl _) (by simp), List.tail_suffix _⟩
  | noFactor =>
    cases hr
    exact ⟨anchored_other (List.suffix_refl _) (by simp), List.suffix_refl _⟩
  | unclosed _ h hn =>
    cases hr
    exact ⟨anchored_unexpected hn (h.suffix.trans (List.tail_suffix _)), List.suffix_refl _⟩
  | innerFails _ _ ih | operandFails _ _ ih =>
    exact ⟨(ih hr).1.mono (List.tail_suffix _), (ih hr).2⟩
  | firstFails _ ih => exact ih hr
  | first h _ _ ih => exact ⟨(ih hr).1.mono h.suffix, (ih hr).2⟩
  | operand _ h _ _ ih => exact ⟨(ih hr).1.mono (h.suffix.trans (List.tail_suffix _)), (ih hr).2⟩
  | _ => cases hr

theorem TestRun.anchored (h : TestRun g room ts (.error f us)) :
    f.Anchored g ts ∧ us <:+ f.place := by
  cases h with
  | leftFails h => exact h.anchored rfl
  | rightFails h _ h' =>
    obtain ⟨ha, hs⟩ := h'.anchored rfl
    exact ⟨ha.mono ((List.tail_suffix _).trans h.suffix), hs⟩

theorem HeadRun.anchored (h : HeadRun g room ts (.error f us)) :
    f.Anchored g ts.tail ∧ us <:+ f.place := by
  cases h with
  | testFails _ h => exact h.anchored
  | undelimited _ h _ hn => exact ⟨anchored_unexpected hn h.suffix, List.suffix_refl _⟩

theorem Fault.Past.mono (h : f.Past g depth us) (hs : vs <:+ us) : f.Past g depth vs := by
  refine ⟨hs.trans h.1, ?_⟩
  rintro rfl
  obtain rfl : us = f.place := h.1.eq_of_length_le hs.length_le
  exact h.2 rfl

theorem eq_nil_of_suffix_tail (hs : us <:+ ts) (ht : ts <:+ us.tail) : ts = [] := by
  have hle := hs.length_le
  have hlt := ht.length_le
  rw [List.length_tail] at hlt
  exact List.length_eq_zero_iff.mp (by omega)

/-- A token more has been taken, so the fault is left behind at any depth. -/
theorem past_of_tail (hs : us <:+ f.place) (hv : vs <:+ us.tail) : f.Past g depth vs := by
  refine ⟨(hv.trans (List.tail_suffix _)).trans hs, ?_⟩
  rintro rfl
  exact .inl (eq_nil_of_suffix_tail hs hv)

theorem recovered_resumes (h : recovered depth us = us) : us = [] ∨ g.Resumes depth us := by
  cases us with
  | nil => exact .inl rfl
  | cons t us =>
    right
    have hshorter := (recovered_suffix depth us).length_le
    by_cases ht : t.startsStatement = true
    · left
      intro hk
      rw [Part.ofKind?_eq_none] at hk
      exact absurd (hk.symm.trans ht) (by decide)
    by_cases hc : t.is Kind.closeCurly = true
    · have hk : t.kind = Kind.closeCurly := by simpa [Token.is] using hc
      have hd : depth ≠ 0 := by
        intro hd
        simp only [recovered, ht, hc, hd, if_true, Bool.false_eq_true, if_false] at h
        exact absurd (congrArg List.length h) (by simp)
      exact .inr ⟨by omega, hk⟩
    · simp only [recovered, ht, hc, Bool.false_eq_true, if_false] at h
      rw [h, List.length_cons] at hshorter
      omega

/-- The token at which a statement failed may be met again, but only as one to go on with. -/
theorem past_recovered (hs : us <:+ f.place) : f.Past g depth (recovered depth us) := by
  have hrec := recovered_suffix depth us
  refine ⟨hrec.trans hs, ?_⟩
  intro heq
  have hus : us = recovered depth us := by
    refine (hrec.eq_of_length_le ?_).symm
    rw [heq]
    exact hs.length_le
  rw [← hus]
  exact recovered_resumes hus.symm

/-- All faults among the events are such. -/
def AllNoted (P : Fault → Prop) (events : List Event) : Prop := ∀ f ∈ noted events, P f

section AllNoted
variable {P Q : Fault → Prop}

@[simp] theorem allNoted_nil : AllNoted P [] := by
  simp [AllNoted]

@[simp] theorem allNoted_append :
    AllNoted P (log ++ log') ↔ AllNoted P log ∧ AllNoted P log' := by
  simp only [AllNoted, noted_append, List.forall_mem_append]

@[simp] theorem allNoted_noted : AllNoted P [.noted f] ↔ P f := by
  simp [AllNoted]

@[simp] theorem allNoted_closed {opener closer : List Token} :
    AllNoted P [.closed depth opener closer] := by
  simp [AllNoted]

theorem AllNoted.imp (h : AllNoted P log) (hpq : ∀ f, P f → Q f) : AllNoted Q log :=
  fun f hf => hpq f (h f hf)

end AllNoted

theorem AllNoted.mono (h : AllNoted (Fault.Anchored g us) log) (hs : us <:+ ts) :
    AllNoted (Fault.Anchored g ts) log :=
  h.imp fun _ hf => hf.mono hs

theorem AllNoted.past_mono (h : AllNoted (Fault.Past g depth us) log) (hs : vs <:+ us) :
    AllNoted (Fault.Past g depth vs) log :=
  h.imp fun _ hf => hf.mono hs

theorem Run.anchored (h : Run g depth part ts log q) :
    AllNoted (Fault.Anchored g ts) (log ++ q.thrown) := by
  induction h with
  | stop | assigned => simp [Ending.thrown]
  | next _ h _ ih ih' =>
    simp only [Ending.thrown, List.append_nil, allNoted_append] at ih ih' ⊢
    exact ⟨ih, ih'.mono h.suffix⟩
  | unopened hk => simpa [Ending.thrown] using anchored_unexpected hk (List.suffix_refl _)
  | tooDeep | invalid =>
    simpa [Ending.thrown] using anchored_other (List.suffix_refl _) (by simp)
  | unclosed _ _ h hn ih =>
    simp only [Ending.thrown, List.append_nil, allNoted_append, allNoted_noted] at ih ⊢
    exact ⟨ih.mono (List.tail_suffix _),
      anchored_unexpected hn (h.suffix.trans (List.tail_suffix _))⟩
  | closed _ _ _ _ ih =>
    simp only [Ending.thrown, List.append_nil, allNoted_append, allNoted_closed, and_true] at ih ⊢
    exact ih.mono (List.tail_suffix _)
  | headFails hh =>
    simpa [Ending.thrown] using hh.anchored.1.mono (List.tail_suffix _)
  | consequentFails hh _ ih | alone hh _ _ ih =>
    exact ih.mono (hh.suffix.trans (List.tail_suffix _))
  | alternateFails hh hb _ _ ih ih' | alternate hh hb _ _ ih ih' =>
    have hhead := hh.suffix.trans (List.tail_suffix _)
    have hother := ih'.mono ((List.tail_suffix _).trans (hb.suffix.trans hhead))
    rw [Ending.thrown, List.append_nil] at ih
    rw [List.append_assoc, allNoted_append]
    exact ⟨ih.mono hhead, hother⟩
  | unassigned _ hn =>
    simpa [Ending.thrown] using anchored_unexpected hn (List.tail_suffix _)
  | valueFails _ _ hv =>
    have hvalue := (hv.anchored rfl).1.mono ((List.tail_suffix _).trans (List.tail_suffix _))
    simpa [Ending.thrown] using hvalue
  | simple _ _ _ ih | block _ _ ih => exact ih
  | skipped _ _ ih => simpa [Ending.thrown] using ih

/-- What was noted is left behind, and what is thrown has been met. -/
theorem Run.past (h : Run g depth part ts log q) :
    AllNoted (Fault.Past g depth q.rest) log ∧ AllNoted (q.rest <:+ ·.place) q.thrown := by
  induction h with
  | stop | assigned => simp [Ending.thrown]
  | next _ _ h' ih ih' =>
    simp only [Ending.thrown, allNoted_append, allNoted_nil, and_true] at ih ih' ⊢
    exact ⟨ih.past_mono h'.suffix, ih'⟩
  | unopened | unassigned => simp [Ending.thrown, Fault.unexpected]
  | tooDeep => simpa [Ending.thrown] using List.tail_suffix _
  | unclosed _ _ h hn ih =>
    obtain rfl := h.statements_exhausted hn
    refine ⟨ih.1.imp fun f _ => ⟨List.nil_suffix, fun _ => .inl rfl⟩, ?_⟩
    simp [Ending.thrown]
  | closed _ _ _ _ ih =>
    rw [allNoted_append]
    refine ⟨⟨?_, allNoted_closed⟩, allNoted_nil⟩
    exact ih.1.imp fun _ hf => past_of_tail hf.1 (List.suffix_refl _)
  | headFails hh => simpa [Ending.thrown] using hh.anchored.2
  | consequentFails _ _ ih => exact ih
  | alone _ _ _ ih => exact ⟨ih.1.past_mono (pastEnd_suffix g _), allNoted_nil⟩
  | alternateFails _ _ _ h' ih ih' =>
    rw [allNoted_append]
    exact ⟨⟨ih.1.past_mono (h'.suffix.trans (List.tail_suffix _)), ih'.1⟩, ih'.2⟩
  | alternate _ _ _ h' ih ih' =>
    rw [allNoted_append]
    have hend := pastEnd_suffix g
    refine ⟨⟨ih.1.past_mono ?_, ih'.1.past_mono (hend _)⟩, allNoted_nil⟩
    exact ((hend _).trans h'.suffix).trans (List.tail_suffix _)
  | valueFails _ _ hv => simpa [Ending.thrown] using (hv.anchored rfl).2
  | simple _ _ _ ih | block _ _ ih => exact ih
  | skipped _ _ ih =>
    simp only [Ending.thrown, allNoted_append, allNoted_noted, allNoted_nil, and_true] at ih ⊢
    exact ⟨ih.1.past_mono (recovered_suffix _ _), past_recovered ih.2⟩
  | invalid =>
    rw [allNoted_noted]
    exact ⟨past_of_tail (List.suffix_refl _) (List.suffix_refl _), allNoted_nil⟩

/-- A part that starts with its own kind of token fails behind that token, or for want of room. -/
theorem Run.inside (hk : Part.ofKind? (g.next ts).kind = some part)
    (h : Run g depth part ts log q) :
    AllNoted (fun f => f.place <:+ ts.tail ∨ f.isTooDeep g = true) (log ++ q.thrown) := by
  cases h with
  | stop | next | simple | block | skipped | invalid =>
    rcases Part.ofKind?_cases hk with h | h | h <;> cases h
  | unopened hn => exact absurd (Part.ofKind?_eq_block.mp hk) hn
  | tooDeep hk' =>
    simp [Ending.thrown, Fault.isTooDeep, Cause.isNestingTooDeep, hk']
  | unclosed _ _ h =>
    have hbody := h.anchored
    simp only [Ending.thrown, List.append_nil, allNoted_append, allNoted_noted] at hbody ⊢
    exact ⟨hbody.imp fun f hf => .inl hf.within, .inl h.suffix⟩
  | closed _ _ h =>
    have hbody := h.anchored
    simp only [Ending.thrown, List.append_nil, allNoted_append, allNoted_closed, and_true]
      at hbody ⊢
    exact hbody.imp fun f hf => .inl hf.within
  | headFails hh => simpa [Ending.thrown] using Or.inl hh.anchored.1.within
  | consequentFails hh hb | alone hh hb =>
    exact hb.anchored.imp fun f hf => .inl (hf.within.trans hh.suffix)
  | alternateFails hh hb _ hb' | alternate hh hb _ hb' =>
    have hbody := hb.anchored
    have hvs := (List.tail_suffix _).trans (hb.suffix.trans hh.suffix)
    rw [Ending.thrown, List.append_nil] at hbody
    rw [List.append_assoc, allNoted_append]
    exact ⟨hbody.imp fun f hf => .inl (hf.within.trans hh.suffix),
      hb'.anchored.imp fun f hf => .inl (hf.within.trans hvs)⟩
  | unassigned => simp [Ending.thrown, Fault.unexpected]
  | valueFails _ _ hv =>
    have hvalue := (hv.anchored rfl).1.within.trans (List.tail_suffix _)
    simpa [Ending.thrown] using Or.inl hvalue
  | assigned => exact allNoted_nil

/-- A fault in statements is at their first token only if reading could not go on with that, or if
it could not for want of room. -/
def Fault.Fresh (g : Setting) (depth : Nat) (ts : List Token) (f : Fault) : Prop :=
  f.place = ts → ts = [] ∨ f.isTooDeep g = true ∨ ¬ g.Resumes depth ts

theorem fresh_of_tail (h : f.place <:+ ts.tail) : f.Fresh g depth ts := by
  intro heq
  rw [heq] at h
  exact .inl (eq_nil_of_suffix_tail (List.suffix_refl _) h)

theorem Run.statement_fresh (hs : ¬ g.Stops depth ts) (h : Run g depth .statement ts log q) :
    AllNoted (Fault.Fresh g depth ts) log := by
  have fresh : ∀ f : Fault, f.place <:+ ts.tail ∨ f.isTooDeep g = true → f.Fresh g depth ts := by
    rintro f (hf | hf)
    · exact fresh_of_tail hf
    · exact fun _ => .inr (.inl hf)
  cases h with
  | simple hk _ h | block hk h =>
    simpa [Ending.thrown] using (h.inside hk).imp fresh
  | skipped hk h => exact (h.inside hk).imp fresh
  | invalid hk =>
    rw [allNoted_noted]
    intro _
    by_cases hne : ts = []
    · exact .inl hne
    · refine .inr (.inr ?_)
      rintro (hr | hr)
      · exact hr hk
      · exact hs (.inr hr)

theorem Run.statements_fresh (h : Run g depth .statements ts log q) :
    AllNoted (Fault.Fresh g depth ts) log := by
  cases h with
  | stop => exact allNoted_nil
  | next hn h h' =>
    rw [allNoted_append]
    refine ⟨h.statement_fresh hn, ?_⟩
    have hbehind := h'.anchored
    rw [Ending.thrown, List.append_nil] at hbehind
    exact hbehind.imp fun f hf => fresh_of_tail (hf.within.trans h.statement_suffix)

/-- The faults among the events follow each other. -/
def Ordered (g : Setting) (events : List Event) : Prop := (noted events).IsChain (Fault.Before g)

theorem Ordered.append (h : Ordered g log) (h' : Ordered g log')
    (hlink : ∀ f ∈ noted log, ∀ f' ∈ noted log', f.Before g f') : Ordered g (log ++ log') := by
  rw [Ordered, noted_append, List.isChain_append]
  refine ⟨h, h', ?_⟩
  intro f hf f' hf'
  exact hlink f (List.mem_of_getLast? hf) f' (List.mem_of_head? hf')

theorem ordered_nil : Ordered g [] := List.isChain_nil

theorem ordered_single (f : Fault) : Ordered g [.noted f] := List.isChain_singleton f

theorem before_of_fresh (h : f.Past g depth us) (hs : f'.place <:+ us)
    (hf : f'.Fresh g depth us) : f.Before g f' := by
  refine ⟨hs.trans h.1, ?_⟩
  intro heq
  have hus : us = f.place := h.1.eq_of_length_le (heq ▸ hs.length_le)
  rcases hf (heq.trans hus.symm) with hnil | hdeep | hn
  · exact .inl (hus.symm.trans hnil)
  · exact .inr hdeep
  · rcases h.2 hus with hnil | hr
    · exact .inl (hus.symm.trans hnil)
    · exact absurd hr hn

theorem before_of_tail (h : us <:+ f.place) (hs : f'.place <:+ us.tail) : f.Before g f' := by
  refine ⟨(hs.trans (List.tail_suffix _)).trans h, ?_⟩
  intro heq
  rw [heq] at hs
  exact .inl (eq_nil_of_suffix_tail h hs)

theorem Run.ordered (h : Run g depth part ts log q) : Ordered g (log ++ q.thrown) := by
  induction h with
  | stop | assigned => exact ordered_nil
  | next _ h h' ih ih' =>
    simp only [Ending.thrown, List.append_nil] at ih ih' ⊢
    refine ih.append ih' ?_
    intro f hf f' hf'
    have hwithin := (h'.anchored f' (by simpa [Ending.thrown] using hf')).within
    exact before_of_fresh (h.past.1 f hf) hwithin (h'.statements_fresh f' hf')
  | unclosed _ _ h hn ih =>
    obtain rfl := h.statements_exhausted hn
    simp only [Ending.thrown, List.append_nil] at ih ⊢
    refine ih.append (ordered_single _) ?_
    intro f hf f' hf'
    rw [noted_single, List.mem_singleton] at hf'
    subst hf'
    exact ⟨List.nil_suffix, fun h => .inl h.symm⟩
  | closed _ _ _ _ ih =>
    simpa [Ordered, Ending.thrown] using ih
  | unopened | tooDeep | headFails | unassigned | valueFails | invalid =>
    exact ordered_single _
  | consequentFails _ _ ih | alone _ _ _ ih | simple _ _ _ ih | block _ _ ih => exact ih
  | alternateFails _ hb _ h' ih ih' | alternate _ hb _ h' ih ih' =>
    rw [Ending.thrown, List.append_nil] at ih
    rw [List.append_assoc]
    refine ih.append ih' ?_
    intro f hf f' hf'
    exact before_of_tail (hb.past.1 f hf).1 (h'.anchored f' hf').within
  | skipped _ _ ih => simpa [Ending.thrown] using ih

/-- Where a fault stands among the tokens, counted from the front. -/
def Fault.index (ts : List Token) (f : Fault) : Nat := ts.length - f.place.length

theorem Fault.Anchored.place_eq (h : f.Anchored g ts) : f.place = ts.drop (f.index ts) :=
  List.suffix_iff_eq_drop.mp h.within

theorem Fault.index_le (ts : List Token) (f : Fault) : f.index ts ≤ ts.length := Nat.sub_le _ _

theorem Fault.Before.index_le (h : f.Before g f') : f.index ts ≤ f'.index ts :=
  Nat.sub_le_sub_left h.1.length_le _

theorem Fault.Before.index_lt (h : f.Before g f') (hf : f.Anchored g ts) :
    f.index ts < f'.index ts ∨ f.index ts = ts.length ∨ f'.isTooDeep g = true := by
  have hle := hf.within.length_le
  have hlen := h.1.length_le
  unfold Fault.index
  by_cases heq : f'.place.length = f.place.length
  · rcases h.2 (h.1.eq_of_length heq) with hnil | hdeep
    · exact .inr (.inl (by simp [hnil]))
    · exact .inr (.inr hdeep)
  · exact .inl (by omega)

theorem getElem?_withEof (g : Setting) (ts : List Token) {i : Nat} (hi : i ≤ ts.length) :
    (ts ++ [g.eof])[i]? = some (g.next (ts.drop i)) := by
  rcases Nat.lt_or_eq_of_le hi with hlt | rfl
  · rw [List.getElem?_append_left hlt, Setting.next, List.head?_drop]
    simp [hlt]
  · simp [Setting.next]

theorem Fault.Anchored.getElem? (h : f.Anchored g ts) :
    (ts ++ [g.eof])[f.index ts]? = some (g.next f.place) := by
  rw [getElem?_withEof g ts (f.index_le ts), ← h.place_eq]

end Parser

/-- The tokens with the end token behind them. -/
def TokenStream.withEof (stream : TokenStream) : List Token := stream.tokens ++ [stream.eof]

/-- A diagnostic and the index of a token. -/
structure Anchor where
  index : Nat
  diagnostic : Diagnostic

namespace Anchor

/-- The diagnostic is about the token, and if it says what it found, then it found this token, of
another kind than was expected. -/
def Holds (stream : TokenStream) (a : Anchor) : Prop :=
  ∃ t, stream.withEof[a.index]? = some t ∧
    a.diagnostic.position = t.position ∧ a.diagnostic.span = t.span ∧
    ∀ expected found, a.diagnostic.cause = .unexpectedToken expected found →
      found = t.kind ∧ expected ≠ found

/-- The second diagnostic does not repeat the first: it is about a later token, but for the end
token and for a bracket that may not be opened. -/
def Precedes (stream : TokenStream) (a b : Anchor) : Prop :=
  a.index < b.index ∨ a.index = stream.tokens.length ∨
    b.diagnostic.cause.isNestingTooDeep = true ∧
      stream.withEof[b.index]?.map Token.kind = some Kind.openCurly

end Anchor

open DollarScript.Parser

def Parser.Fault.anchor (g : Setting) (ts : List Token) (f : Fault) : Anchor :=
  ⟨f.index ts, f.diagnostic g⟩

theorem Parser.Fault.Anchored.holds {stream : TokenStream} {g : Setting} {f : Fault}
    (hg : g.eof = stream.eof) (h : f.Anchored g stream.tokens) :
    (f.anchor g stream.tokens).Holds stream := by
  refine ⟨g.next f.place, ?_, rfl, rfl, h.found⟩
  rw [TokenStream.withEof, ← hg]
  exact h.getElem?

theorem Parser.Fault.Before.precedes {stream : TokenStream} {g : Setting} {f f' : Fault}
    (hg : g.eof = stream.eof) (h : f.Before g f') (hf : f.Anchored g stream.tokens)
    (hf' : f'.Anchored g stream.tokens) :
    (f.anchor g stream.tokens).Precedes stream (f'.anchor g stream.tokens) := by
  rcases h.index_lt hf with hlt | hend | hdeep
  · exact .inl hlt
  · exact .inr (.inl hend)
  · obtain ⟨hcause, hkind⟩ : f'.cause.isNestingTooDeep = true ∧
        (g.next f'.place).kind = Kind.openCurly := by
      simpa [Fault.isTooDeep] using hdeep
    refine .inr (.inr ⟨hcause, ?_⟩)
    rw [TokenStream.withEof, ← hg]
    simp [Fault.anchor, hf'.getElem?, hkind]

/-- Tokens start one behind the other, and none behind the end token. -/
theorem scan_starts (r : Registry) (source : List Char) :
    (Scanner.scan r source).withEof.Pairwise fun t u => t.span.start ≤ u.span.start := by
  have h : Scanner.Lossless r 0 source (Scanner.scan r source).tokens :=
    Scanner.cutFrom_lossless r .origin 0 source
  refine List.pairwise_append.mpr ⟨?_, List.pairwise_singleton _ _, ?_⟩
  · exact h.apart.imp fun hapart => Nat.le_of_lt hapart.1
  · intro t ht u hu
    obtain ⟨before, body, after, htext, hcut⟩ := h.cut t ht
    rw [List.mem_singleton] at hu
    rw [hu, hcut.span, htext]
    simp [Scanner.scan, Token.eof]

theorem exists_anchors (options : ParserOptions) (stream : TokenStream) :
    ∃ anchors : List Anchor,
      anchors.map Anchor.diagnostic = (parseTokens options stream).errors ∧
      (∀ a ∈ anchors, a.Holds stream) ∧
      (anchors.map Anchor.index).Pairwise (· ≤ ·) ∧
      anchors.IsChain (Anchor.Precedes stream) := by
  let g := setting options stream.eof
  obtain ⟨log, ss, hrun, heq⟩ := parseTokens_runs options stream
  have hanchored := hrun.anchored
  have hordered := hrun.ordered
  rw [Ending.thrown, List.append_nil] at hanchored hordered
  refine ⟨(noted log).map (Fault.anchor g stream.tokens), ?_, ?_, ?_, ?_⟩
  · rw [heq, List.map_map]
    rfl
  · intro a ha
    obtain ⟨f, hf, rfl⟩ := List.mem_map.mp ha
    exact (hanchored f hf).holds rfl
  · rw [List.map_map, ← List.isChain_iff_pairwise, List.isChain_map]
    exact hordered.imp fun f f' h => h.index_le
  · rw [List.isChain_map]
    refine List.IsChain.imp_of_mem_imp ?_ hordered
    intro f f' hf hf' h
    exact h.precedes rfl (hanchored f hf) (hanchored f' hf')

theorem Anchor.start_le {stream : TokenStream} {a b : Anchor}
    (hs : stream.withEof.Pairwise fun t u => t.span.start ≤ u.span.start)
    (ha : a.Holds stream) (hb : b.Holds stream) (hab : a.index ≤ b.index) :
    a.diagnostic.span.start ≤ b.diagnostic.span.start := by
  obtain ⟨t, ht, -, htspan, -⟩ := ha
  obtain ⟨u, hu, -, huspan, -⟩ := hb
  rw [htspan, huspan]
  rcases Nat.lt_or_eq_of_le hab with hlt | heq
  · obtain ⟨hi, rfl⟩ := List.getElem?_eq_some_iff.mp ht
    obtain ⟨hj, rfl⟩ := List.getElem?_eq_some_iff.mp hu
    exact List.pairwise_iff_getElem.mp hs _ _ hi hj hlt
  · rw [heq, hu] at ht
    cases ht
    exact Nat.le_refl _

/-- Each diagnostic is about a token, they come in the order of the tokens, and no two are about
the same one, but for the end token and for a bracket that may not be opened. -/
theorem diagnostics_in_order (options : ParserOptions) :
    (∀ stream : TokenStream, ∃ anchors : List Anchor,
      anchors.map Anchor.diagnostic = (parseTokens options stream).errors ∧
      (∀ a ∈ anchors, a.Holds stream) ∧
      (anchors.map Anchor.index).Pairwise (· ≤ ·) ∧
      anchors.IsChain (Anchor.Precedes stream)) ∧
    ∀ (r : Registry) (source : List Char),
      ((parse r options source).errors.map (·.span.start)).Pairwise (· ≤ ·) := by
  refine ⟨exists_anchors options, ?_⟩
  intro r source
  obtain ⟨anchors, hmap, hholds, hsorted, -⟩ := exists_anchors options (Scanner.scan r source)
  rw [parse, ← hmap, List.map_map, List.pairwise_map]
  rw [List.pairwise_map] at hsorted
  refine hsorted.imp_of_mem ?_
  intro a b ha hb hab
  exact Anchor.start_le (scan_starts r source) (hholds a ha) (hholds b hb) hab

end DollarScript
