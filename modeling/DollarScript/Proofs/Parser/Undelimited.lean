import DollarScript.Proofs.Parser.Acceptance
import DollarScript.Proofs.Parser.Blocks
import DollarScript.Proofs.Parser.Placeholders
import DollarScript.Proofs.Parser.Progress

/-! Parsing without a delimiter behind conditions what was written with one: a delimiter that is not
asked for is not passed over, so only programs without conditions stay what they are. -/
namespace DollarScript

namespace Statement

/-- No condition stands anywhere in the statements. -/
def Unconditional (ss : List Statement) : Prop :=
  ∀ test consequent alternate, ¬ Occurs (.conditional test consequent alternate) ss

theorem unconditional_nil : Unconditional [] := by
  intro test consequent alternate h
  cases h

theorem unconditional_assignment (target : String) (value : Expr) :
    Unconditional [.assignment target value] := by
  intro test consequent alternate h
  cases h with
  | later h => cases h

theorem unconditional_block {body : List Statement} :
    Unconditional [.block body] ↔ Unconditional body := by
  constructor
  · intro h test consequent alternate ho
    exact h _ _ _ (.inBlock ho)
  · intro h test consequent alternate ho
    cases ho with
    | later ho => cases ho
    | inBlock ho => exact h _ _ _ ho

theorem unconditional_cons {s : Statement} {ss : List Statement} :
    Unconditional (s :: ss) ↔ Unconditional [s] ∧ Unconditional ss := by
  constructor
  · intro h
    refine ⟨?_, fun _ _ _ ho => h _ _ _ (.later ho)⟩
    intro test consequent alternate ho
    cases ho with
    | here => exact h _ _ _ .here
    | later ho => cases ho
    | inBlock ho => exact h _ _ _ (.inBlock ho)
    | inConsequent ho => exact h _ _ _ (.inConsequent ho)
    | inAlternate ho => exact h _ _ _ (.inAlternate ho)
  · rintro ⟨hs, hss⟩ test consequent alternate ho
    cases ho with
    | here => exact hs _ _ _ .here
    | later ho => exact hss _ _ _ ho
    | inBlock ho => exact hs _ _ _ (.inBlock ho)
    | inConsequent ho => exact hs _ _ _ (.inConsequent ho)
    | inAlternate ho => exact hs _ _ _ (.inAlternate ho)

mutual

/-- How many opening curly brackets spell a statement if `more` of them follow each test, besides
the one that opens its block. -/
def braces (more : Nat) : Statement → Nat
  | .conditional _ consequent alternate =>
    more + (bracesAll more consequent + 1) + bracesAlternate more alternate
  | .block body => bracesAll more body + 1
  | .assignment _ _ | .invalid | .skipped => 0

def bracesAll (more : Nat) : List Statement → Nat
  | [] => 0
  | s :: rest => s.braces more + bracesAll more rest

def bracesAlternate (more : Nat) : Option (List Statement) → Nat
  | none => 0
  | some body => bracesAll more body + 1

end

mutual

theorem braces_le (s : Statement) : s.braces 0 ≤ s.braces 1 := by
  cases s with
  | conditional test consequent alternate =>
    have hc := bracesAll_le consequent
    cases alternate with
    | none =>
      simp only [braces, bracesAlternate]
      omega
    | some body =>
      have ha := bracesAll_le body
      simp only [braces, bracesAlternate]
      omega
  | block body =>
    have hb := bracesAll_le body
    simp only [braces]
    omega
  | _ => simp only [braces, Nat.le_refl]

theorem bracesAll_le (ss : List Statement) : bracesAll 0 ss ≤ bracesAll 1 ss := by
  cases ss with
  | nil => simp only [bracesAll, Nat.le_refl]
  | cons s rest =>
    have hs := braces_le s
    have hr := bracesAll_le rest
    simp only [bracesAll]
    omega

end

/-- A condition takes one bracket more if its delimiter is one. -/
theorem Occurs.braces_lt {s : Statement} {ss : List Statement} (h : Occurs s ss)
    (hs : s.braces 0 < s.braces 1) : bracesAll 0 ss < bracesAll 1 ss := by
  induction h with
  | @here rest =>
    have hr := bracesAll_le rest
    simp only [bracesAll]
    omega
  | @later t rest _ ih =>
    have ht := braces_le t
    simp only [bracesAll]
    omega
  | @inBlock body rest _ ih =>
    have hr := bracesAll_le rest
    simp only [bracesAll, braces]
    omega
  | @inConsequent test body alternate rest _ ih =>
    have hr := bracesAll_le rest
    have ha : bracesAlternate 0 alternate ≤ bracesAlternate 1 alternate := by
      cases alternate with
      | none => simp only [bracesAlternate, Nat.le_refl]
      | some other =>
        have ho := bracesAll_le other
        simp only [bracesAlternate]
        omega
    simp only [bracesAll, braces]
    omega
  | @inAlternate test consequent body rest _ ih =>
    have hr := bracesAll_le rest
    have hc := bracesAll_le consequent
    simp only [bracesAll, braces, bracesAlternate]
    omega

theorem unconditional_of_braces {ss : List Statement} (h : bracesAll 1 ss = bracesAll 0 ss) :
    Unconditional ss := by
  intro test consequent alternate ho
  have hc := bracesAll_le consequent
  have hlt := ho.braces_lt (by
    cases alternate with
    | none =>
      simp only [braces, bracesAlternate]
      omega
    | some body =>
      have ha := bracesAll_le body
      simp only [braces, bracesAlternate]
      omega)
  omega

end Statement

namespace Parser

open Statement

/-- The same, but without a delimiter behind conditions. -/
def Setting.undelimited (g : Setting) : Setting := { g with delimiter := none }

variable {g : Setting} {room depth : Nat} {x : ExprPart} {part : Part} {ts us us' : List Token}
  {log log' : List Event} {r : Ending Expr} {q : Ending (List Statement)}
  {ss ss' : List Statement} {test test' : Expr} {kind : String}

/-- Expressions do not ask for the delimiter. -/
theorem ExprRun.undelimited (h : ExprRun g room x ts r) : ExprRun g.undelimited room x ts r := by
  induction h with
  | number hk hv => exact .number hk hv
  | badNumber hk hv => exact .badNumber hk hv
  | var hk => exact .var hk
  | tooDeep hk => exact .tooDeep hk
  | innerFails hk _ ih => exact .innerFails hk ih
  | unclosed hk _ hn ih => exact .unclosed hk ih hn
  | bracketed hk _ hc ih => exact .bracketed hk ih hc
  | noFactor hk => exact .noFactor hk
  | firstFails _ ih => exact .firstFails ih
  | first _ _ ih ih' => exact .first ih ih'
  | done hn => exact .done hn
  | operandFails ho _ ih => exact .operandFails ho ih
  | operand ho _ _ ih ih' => exact .operand ho ih ih'

theorem TestRun.undelimited (h : TestRun g room ts r) : TestRun g.undelimited room ts r := by
  cases h with
  | leftFails h => exact .leftFails h.undelimited
  | plain h hn => exact .plain h.undelimited hn
  | rightFails h ho h' => exact .rightFails h.undelimited ho h'.undelimited
  | compared h ho h' => exact .compared h.undelimited ho h'.undelimited

/-- What has no condition is read in the same way. -/
theorem Run.undelimited (h : Run g depth part ts log q) (hlog : noted log = [])
    (hq : q = .ok ss us) (hss : Unconditional ss) :
    Run g.undelimited depth part ts log (.ok ss us) := by
  induction h generalizing ss us with
  | stop hs =>
    cases hq
    exact .stop hs
  | next hn _ _ ih ih' =>
    cases hq
    rw [noted_append, List.append_eq_nil_iff] at hlog
    obtain ⟨hs, hrest⟩ := unconditional_cons.mp hss
    exact .next hn (ih hlog.1 rfl hs) (ih' hlog.2 rfl hrest)
  | closed hk hlt _ hc ih =>
    cases hq
    rw [noted_append, List.append_eq_nil_iff] at hlog
    exact .closed hk hlt (ih hlog.1 rfl hss) hc
  | alone | alternate =>
    cases hq
    exact absurd .here (hss _ _ _)
  | assigned hk ha hv =>
    cases hq
    exact .assigned hk ha hv.undelimited
  | simple hk hb _ ih =>
    cases hq
    exact .simple hk hb (ih hlog rfl hss)
  | block hk _ ih =>
    cases hq
    exact .block hk (ih hlog rfl (unconditional_block.mp hss))
  | skipped | invalid => simp at hlog
  | _ => cases hq

/-- Where no delimiter is asked for, it stands where the block has to start. -/
theorem HeadRun.kind_of_undelimited (hd : g.delimiter = some kind)
    (h : HeadRun g room ts (.ok test us)) (h' : HeadRun g.undelimited room ts (.ok test' us')) :
    (g.next us').kind = kind := by
  cases h with
  | «open» _ _ hn => cases hn.symm.trans hd
  | delimited _ ht hd' hk =>
    cases hd.symm.trans hd'
    cases h' with
    | «open» _ ht' =>
      cases ht.undelimited.unique ht'
      exact hk
    | delimited _ _ hn => cases hn

/-- Only a delimiter that opens a block can be taken for a block. -/
theorem Run.unconditional (hd : g.delimiter = some kind) (hne : kind ≠ Kind.openCurly)
    (h : Run g depth part ts log q) (hlog : noted log = []) (hq : q = .ok ss us)
    (h' : Run g.undelimited depth part ts log' (.ok ss' us')) (hlog' : noted log' = []) :
    Unconditional ss := by
  induction h generalizing ss us log' ss' us' with
  | stop =>
    cases hq
    exact unconditional_nil
  | next hn hs _ ih ih' =>
    cases hq
    rw [noted_append, List.append_eq_nil_iff] at hlog
    cases h' with
    | stop hs => exact absurd hs hn
    | next _ k k' =>
      rw [noted_append, List.append_eq_nil_iff] at hlog'
      have hfirst := ih hlog.1 rfl k hlog'.1
      -- without a condition both readings go on at the same token
      obtain ⟨-, heq⟩ := (hs.undelimited hlog.1 rfl hfirst).unique k
      cases heq
      exact unconditional_cons.mpr ⟨hfirst, ih' hlog.2 rfl k' hlog'.2⟩
  | closed _ _ _ _ ih =>
    cases hq
    rw [noted_append, List.append_eq_nil_iff] at hlog
    cases h' with
    | closed _ _ k =>
      rw [noted_append, List.append_eq_nil_iff] at hlog'
      exact ih hlog.1 rfl k hlog'.1
  | alone hh | alternate hh =>
    have hopen : kind = Kind.openCurly := by
      cases h' with
      | alone k kb => exact (hh.kind_of_undelimited hd k).symm.trans (kb.block_starts)
      | alternate k kb => exact (hh.kind_of_undelimited hd k).symm.trans (kb.block_starts)
    exact absurd hopen hne
  | assigned =>
    cases hq
    exact unconditional_assignment _ _
  | simple hk hb _ ih =>
    cases hq
    cases h' with
    | simple hk' _ k =>
      cases hk.symm.trans hk'
      exact ih hlog rfl k hlog'
    | block hk' =>
      cases hk.symm.trans hk'
      exact absurd rfl hb
    | skipped => simp at hlog'
    | invalid => simp at hlog'
  | block hk _ ih =>
    cases hq
    refine unconditional_block.mpr ?_
    cases h' with
    | simple hk' hb =>
      cases hk.symm.trans hk'
      exact absurd rfl hb
    | block _ k => exact ih hlog rfl k hlog'
    | skipped => simp at hlog'
    | invalid => simp at hlog'
  | skipped | invalid => simp at hlog
  | _ => cases hq

/-- How many of the tokens are opening curly brackets. -/
def openings (ts : List Token) : Nat := ts.countP (·.kind == Kind.openCurly)

/-- With no room at all, each opening bracket is an event of the counter. -/
theorem length_events_run (events : List Event) (ts : List Token) :
    (Braces.run 0 ⟨[], events⟩ ts).events.length = events.length + openings ts := by
  induction ts generalizing events with
  | nil => rfl
  | cons t ts ih =>
    by_cases ho : t.kind = Kind.openCurly
    · simp only [Braces.run, Braces.step, ho, ↓reduceIte, Nat.not_lt_zero, ih, openings,
        List.countP_cons, beq_self_eq_true, List.length_append, List.length_singleton]
      omega
    · have hstep : Braces.step 0 ⟨[], events⟩ (t :: ts) = ⟨[], events⟩ := by
        simp only [Braces.step, ho, ↓reduceIte, ite_self]
      rw [Braces.run, hstep, ih]
      simp [openings, ho]

theorem openings_eq_of_run
    (h : Braces.run 0 ⟨[], []⟩ us = Braces.run 0 ⟨[], []⟩ ts) : openings us = openings ts := by
  have hlen := congrArg (·.events.length) h
  simpa only [length_events_run, List.length_nil, Nat.zero_add] using hlen

theorem openings_tail (hk : (g.next ts).kind = kind) (hne : kind ≠ Kind.openCurly) :
    openings ts.tail = openings ts := by
  cases ts with
  | nil => rfl
  | cons t ts =>
    have ht : t.kind ≠ Kind.openCurly := fun ho => hne (hk.symm.trans ho)
    simp [openings, ht]

theorem openings_tail_succ (hk : (g.next ts).kind = Kind.openCurly) (hne : ts ≠ []) :
    openings ts.tail + 1 = openings ts := by
  cases ts with
  | nil => exact absurd rfl hne
  | cons t ts =>
    have ht : t.kind = Kind.openCurly := hk
    simp [openings, ht]

theorem openings_pastEnd (g : Setting) (ts : List Token) :
    openings (g.pastEnd ts) = openings ts := by
  unfold Setting.pastEnd
  split
  · rename_i hk
    exact openings_tail hk (by decide)
  · rfl

/-- How many opening brackets a delimiter adds to each condition. -/
def Setting.moreBraces (g : Setting) : Nat := if g.delimiter = some Kind.openCurly then 1 else 0

/-- The end token may be taken for the delimiter, but then nothing is left for a block. -/
theorem HeadRun.openings (h : HeadRun g room ts (.ok test us)) (hus : us ≠ []) :
    openings us + g.moreBraces = openings ts := by
  cases h with
  | «open» hk ht hn =>
    have hkeyword := openings_tail hk (by decide)
    have htest := openings_eq_of_run ht.braces
    rw [Setting.moreBraces, hn, if_neg (by simp)]
    exact htest.trans hkeyword
  | @delimited _ vs kind hk ht hd hc =>
    have hkeyword := openings_tail hk (by decide)
    have htest := openings_eq_of_run ht.braces
    have hvs : vs ≠ [] := by
      rintro rfl
      exact hus rfl
    have hdelimiter : openings vs.tail + g.moreBraces = openings vs := by
      by_cases ho : kind = Kind.openCurly
      · rw [Setting.moreBraces, hd, ho, if_pos rfl]
        exact openings_tail_succ (hc.trans ho) hvs
      · rw [Setting.moreBraces, hd, if_neg (by simpa using ho)]
        exact openings_tail hc ho
    exact (hdelimiter.trans htest).trans hkeyword

/-- The brackets that were read are those of the statements; a block has its own besides. -/
theorem Run.openings (h : Run g depth part ts log q) (hlog : noted log = [])
    (hq : q = .ok ss us) :
    openings us + bracesAll g.moreBraces ss + (if part = .block then 1 else 0) = openings ts := by
  induction h generalizing ss us with
  | stop =>
    cases hq
    rfl
  | next _ _ _ ih ih' =>
    cases hq
    rw [noted_append, List.append_eq_nil_iff] at hlog
    have hfirst := ih hlog.1 rfl
    have hrest := ih' hlog.2 rfl
    simp only [bracesAll, reduceCtorEq, ↓reduceIte] at hfirst hrest ⊢
    omega
  | @closed _ _ _ _ vs hk hlt hbody hc ih =>
    have hne := (Run.closed hk hlt hbody hc).block_ne_nil
    cases hq
    rw [noted_append, List.append_eq_nil_iff] at hlog
    have hopen := openings_tail_succ hk hne
    have hinner := ih hlog.1 rfl
    have hclose := openings_tail hc (by decide)
    simp only [reduceCtorEq, ↓reduceIte] at hinner ⊢
    omega
  | @alone _ _ _ _ _ _ vs hh hb _ ih =>
    cases hq
    have hhead := hh.openings hb.block_ne_nil
    have hblock := ih hlog rfl
    have hend := openings_pastEnd g vs
    simp only [bracesAll, braces, bracesAlternate, reduceCtorEq, ↓reduceIte] at hblock ⊢
    omega
  | @alternate _ _ _ _ _ _ vs _ _ ws hh hb ha _ ih ih' =>
    cases hq
    rw [noted_append, List.append_eq_nil_iff] at hlog
    have hhead := hh.openings hb.block_ne_nil
    have hblock := ih hlog.1 rfl
    have helse := openings_tail ha.1 (by decide)
    have hother := ih' hlog.2 rfl
    have hend := openings_pastEnd g ws
    simp only [bracesAll, braces, bracesAlternate, reduceCtorEq, ↓reduceIte] at hblock hother ⊢
    omega
  | assigned hk ha hv =>
    cases hq
    have htarget := openings_tail hk (by decide)
    have hsign := openings_tail ha (by decide)
    have hvalue := openings_eq_of_run hv.braces
    simpa [bracesAll, braces] using (hvalue.trans hsign).trans htarget
  | simple hk hb _ ih =>
    cases hq
    simpa only [hb, reduceCtorEq, ↓reduceIte] using ih hlog rfl
  | block _ _ ih =>
    cases hq
    have hblock := ih hlog rfl
    simp only [bracesAll, braces, reduceCtorEq, ↓reduceIte] at hblock ⊢
    omega
  | skipped | invalid => simp at hlog
  | _ => cases hq

end Parser

open DollarScript.Parser

/-- What parses with a delimiter behind each condition parses without one to the same program
exactly if it has no condition: a delimiter that is not asked for stands in the way of the block. -/
theorem undelimited_iff_unconditional (kind : String) (limit : Nat) (stream : TokenStream)
    (h : (parseTokens ⟨some kind, limit⟩ stream).success = true) :
    ((parseTokens ⟨none, limit⟩ stream).success = true ∧
      (parseTokens ⟨none, limit⟩ stream).program =
        (parseTokens ⟨some kind, limit⟩ stream).program) ↔
    Statement.Unconditional (parseTokens ⟨some kind, limit⟩ stream).program.statements := by
  obtain ⟨log, ss, hrun, heq⟩ := parseTokens_runs ⟨some kind, limit⟩ stream
  obtain ⟨log', ss', hrun', heq'⟩ := parseTokens_runs ⟨none, limit⟩ stream
  have hlog : noted log = [] := by simpa [ParseResult.success, heq] using h
  rw [heq, heq']
  constructor
  · rintro ⟨hs, hprogram⟩
    have hlog' : noted log' = [] := by simpa [ParseResult.success] using hs
    cases hprogram
    by_cases ho : Kind.canonical kind = Kind.openCurly
    · -- such a delimiter may be taken for a block, but the brackets are then too few
      have hwith := hrun.openings hlog rfl
      have hwithout := hrun'.openings hlog' rfl
      have hone : (setting ⟨some kind, limit⟩ stream.eof).moreBraces = 1 :=
        if_pos (congrArg some ho)
      have hzero : (setting ⟨none, limit⟩ stream.eof).moreBraces = 0 := rfl
      rw [hone] at hwith
      rw [hzero] at hwithout
      have hsame : Statement.bracesAll 1 ss = Statement.bracesAll 0 ss := by omega
      exact Statement.unconditional_of_braces hsame
    · exact hrun.unconditional rfl ho hlog rfl hrun' hlog'
  · intro hss
    obtain ⟨rfl, hq⟩ := (hrun.undelimited hlog rfl hss).unique hrun'
    cases hq
    simp [ParseResult.success, hlog]

/-- `{ $y = $x }` -/
def blockAlone : TokenStream where
  tokens := [
    .placeless Kind.openCurly "\x7b" [], .placeless Kind.var "$y" [],
    .placeless Kind.assign "=" [], .placeless Kind.var "$x" [],
    .placeless Kind.closeCurly "\x7d" []]
  eof := .placeless Kind.eof "" []

/-- A block that no condition decides on is the same in both. -/
theorem undelimited_blockAlone :
    (parseTokens ⟨some "colon", 1⟩ blockAlone).success = true ∧
    (parseTokens ⟨none, 1⟩ blockAlone).success = true ∧
    (parseTokens ⟨none, 1⟩ blockAlone).program =
      (parseTokens ⟨some "colon", 1⟩ blockAlone).program := by
  have hs : (parseTokens ⟨some "colon", 1⟩ blockAlone).success = true := by decide
  have hprogram : (parseTokens ⟨some "colon", 1⟩ blockAlone).program.statements =
      [.block [.assignment "$y" (.var "$x")]] := rfl
  refine ⟨hs, (undelimited_iff_unconditional "colon" 1 blockAlone hs).mpr ?_⟩
  rw [hprogram]
  exact Statement.unconditional_block.mpr (Statement.unconditional_assignment _ _)

/-- `if: $x: { }` -/
def guardedBlock : TokenStream where
  tokens := [
    .placeless Kind.keywordBegin "if:" [some "if"], .placeless Kind.var "$x" [],
    .placeless Kind.colon ":" [], .placeless Kind.openCurly "\x7b" [],
    .placeless Kind.closeCurly "\x7d" []]
  eof := .placeless Kind.eof "" []

/-- Not every program is the same in both. -/
theorem guardedBlock_needs_delimiter :
    ¬ ∀ (kind : String) (limit : Nat) (stream : TokenStream),
      (parseTokens ⟨some kind, limit⟩ stream).success = true →
      (parseTokens ⟨none, limit⟩ stream).success = true ∧
        (parseTokens ⟨none, limit⟩ stream).program =
          (parseTokens ⟨some kind, limit⟩ stream).program := by
  intro h
  obtain ⟨hs, -⟩ := h "colon" 1 guardedBlock (by decide)
  exact absurd hs (by decide)

end DollarScript
