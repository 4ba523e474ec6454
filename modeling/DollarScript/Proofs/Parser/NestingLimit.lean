import DollarScript.Proofs.Parser.Order

/-! A higher nesting limit changes nothing where the limit was not in the way. -/
namespace DollarScript

namespace Parser

/-- The same but for the limit: the rules look at the same tokens and name the same faults. -/
def Setting.withLimit (g : Setting) (limit : Nat) : Setting := { g with maxNesting := limit }

/-- The fault has another reason than the limit. -/
def Fault.WithinLimit (f : Fault) : Prop := f.cause.isNestingTooDeep = false

variable {g : Setting} {room room' depth limit : Nat} {x : ExprPart} {part : Part}
  {ts : List Token} {log : List Event} {r : Ending Expr} {q : Ending (List Statement)}

theorem not_withinLimit : ¬ (⟨ts, .nestingTooDeep limit⟩ : Fault).WithinLimit := by
  simp [Fault.WithinLimit, Cause.isNestingTooDeep]

/-- More brackets may be opened than were. -/
theorem ExprRun.withLimit (h : ExprRun g room x ts r) (hr : AllNoted Fault.WithinLimit r.thrown)
    (hle : room ≤ room') : ExprRun (g.withLimit limit) room' x ts r := by
  induction h generalizing room' with
  | number hk hv => exact .number hk hv
  | badNumber hk hv => exact .badNumber hk hv
  | var hk => exact .var hk
  | tooDeep =>
    rw [Ending.thrown, allNoted_noted] at hr
    exact absurd hr not_withinLimit
  | innerFails hk _ ih =>
    obtain ⟨k, rfl⟩ := Nat.exists_eq_add_of_lt hle
    exact .innerFails hk (ih hr (by omega))
  | unclosed hk _ hn ih =>
    obtain ⟨k, rfl⟩ := Nat.exists_eq_add_of_lt hle
    exact .unclosed hk (ih allNoted_nil (by omega)) hn
  | bracketed hk _ hc ih =>
    obtain ⟨k, rfl⟩ := Nat.exists_eq_add_of_lt hle
    exact .bracketed hk (ih allNoted_nil (by omega)) hc
  | noFactor hk => exact .noFactor hk
  | firstFails _ ih => exact .firstFails (ih hr hle)
  | first _ _ ih ih' => exact .first (ih allNoted_nil hle) (ih' hr hle)
  | done hn => exact .done hn
  | operandFails ho _ ih => exact .operandFails ho (ih hr hle)
  | operand ho _ _ ih ih' => exact .operand ho (ih allNoted_nil hle) (ih' hr hle)

theorem TestRun.withLimit (h : TestRun g room ts r) (hr : AllNoted Fault.WithinLimit r.thrown)
    (hle : room ≤ room') : TestRun (g.withLimit limit) room' ts r := by
  cases h with
  | leftFails h => exact .leftFails (h.withLimit hr hle)
  | plain h hn => exact .plain (h.withLimit allNoted_nil hle) hn
  | rightFails h ho h' =>
    exact .rightFails (h.withLimit allNoted_nil hle) ho (h'.withLimit hr hle)
  | compared h ho h' =>
    exact .compared (h.withLimit allNoted_nil hle) ho (h'.withLimit allNoted_nil hle)

theorem HeadRun.withLimit (h : HeadRun g room ts r) (hr : AllNoted Fault.WithinLimit r.thrown)
    (hle : room ≤ room') : HeadRun (g.withLimit limit) room' ts r := by
  cases h with
  | testFails hk h => exact .testFails hk (h.withLimit hr hle)
  | «open» hk h hd => exact .open hk (h.withLimit allNoted_nil hle) hd
  | undelimited hk h hd hn => exact .undelimited hk (h.withLimit allNoted_nil hle) hd hn
  | delimited hk h hd hk' => exact .delimited hk (h.withLimit allNoted_nil hle) hd hk'

/-- A run that never met its limit is a run with any higher limit. -/
theorem Run.withLimit (hle : g.maxNesting ≤ limit) (h : Run g depth part ts log q)
    (hlog : AllNoted Fault.WithinLimit (log ++ q.thrown)) :
    Run (g.withLimit limit) depth part ts log q := by
  -- as many more brackets may be opened at any depth
  have hroom : ∀ depth, g.maxNesting - depth ≤ limit - depth := fun _ => by omega
  induction h with
  | stop hs => exact .stop hs
  | next hn _ _ ih ih' =>
    simp only [Ending.thrown, List.append_nil, allNoted_append] at ih ih' hlog
    exact .next hn (ih hlog.1) (ih' hlog.2)
  | unopened hk => exact .unopened hk
  | tooDeep =>
    rw [List.nil_append, Ending.thrown, allNoted_noted] at hlog
    exact absurd hlog not_withinLimit
  | unclosed hk hlt _ hn ih =>
    rw [allNoted_append] at hlog
    refine .unclosed hk (Nat.lt_of_lt_of_le hlt hle) (ih ?_) hn
    rw [Ending.thrown, List.append_nil]
    exact hlog.1
  | closed hk hlt _ hc ih =>
    simp only [Ending.thrown, List.append_nil, allNoted_append] at ih hlog
    exact .closed hk (Nat.lt_of_lt_of_le hlt hle) (ih hlog.1) hc
  | headFails hh => exact .headFails (hh.withLimit hlog (hroom _))
  | consequentFails hh _ ih =>
    exact .consequentFails (hh.withLimit allNoted_nil (hroom _)) (ih hlog)
  | alone hh _ hn ih => exact .alone (hh.withLimit allNoted_nil (hroom _)) (ih hlog) hn
  | alternateFails hh _ ha _ ih ih' =>
    rw [List.append_assoc, allNoted_append] at hlog
    rw [Ending.thrown, List.append_nil] at ih
    exact .alternateFails (hh.withLimit allNoted_nil (hroom _)) (ih hlog.1) ha (ih' hlog.2)
  | alternate hh _ ha _ ih ih' =>
    rw [List.append_assoc, allNoted_append] at hlog
    rw [Ending.thrown, List.append_nil] at ih
    exact .alternate (hh.withLimit allNoted_nil (hroom _)) (ih hlog.1) ha (ih' hlog.2)
  | unassigned hk hn => exact .unassigned hk hn
  | valueFails hk ha hv => exact .valueFails hk ha (hv.withLimit hlog (hroom _))
  | assigned hk ha hv => exact .assigned hk ha (hv.withLimit allNoted_nil (hroom _))
  | simple hk hb _ ih => exact .simple hk hb (ih hlog)
  | block hk _ ih => exact .block hk (ih hlog)
  | skipped hk _ ih =>
    rw [Ending.thrown, List.append_nil] at hlog
    exact .skipped hk (ih hlog)
  | invalid hk => exact .invalid hk

end Parser

open DollarScript.Parser

/-- If no diagnostic says that nesting was too deep, then a higher limit gives the same program
and the same diagnostics. -/
theorem parseTokens_higher_limit (delimiter : Option String) (limit limit' : Nat)
    (stream : TokenStream) (hle : limit ≤ limit')
    (h : ∀ d ∈ (parseTokens ⟨delimiter, limit⟩ stream).errors,
      d.cause.isNestingTooDeep = false) :
    parseTokens ⟨delimiter, limit'⟩ stream = parseTokens ⟨delimiter, limit⟩ stream := by
  obtain ⟨log, ss, hrun, heq⟩ := parseTokens_runs ⟨delimiter, limit⟩ stream
  obtain ⟨log', ss', hrun', heq'⟩ := parseTokens_runs ⟨delimiter, limit'⟩ stream
  have hlog : AllNoted Fault.WithinLimit (log ++ []) := by
    rw [List.append_nil]
    intro f hf
    rw [heq] at h
    exact h _ (List.mem_map_of_mem hf)
  have hraised : Run (setting ⟨delimiter, limit'⟩ stream.eof) 0 .statements stream.tokens log
      (.ok ss []) := hrun.withLimit hle hlog
  obtain ⟨rfl, hend⟩ := hraised.unique hrun'
  cases hend
  rw [heq, heq']
  rfl

/-- `{ $a = [ $b } if: [ $a` -/
def unclosedBrackets : TokenStream where
  tokens := [
    .placeless Kind.openCurly "\x7b" [], .placeless Kind.var "$a" [],
    .placeless Kind.assign "=" [], .placeless Kind.openSquare "[" [],
    .placeless Kind.var "$b" [], .placeless Kind.closeCurly "\x7d" [],
    .placeless Kind.keywordBegin "if:" [some "if"], .placeless Kind.openSquare "[" [],
    .placeless Kind.var "$a" []]
  eof := .placeless Kind.eof "" []

/-- Two levels are open at most, so a limit of two will do for both diagnostics. -/
theorem parseTokens_unclosedBrackets :
    (parseTokens ⟨some "colon", 2⟩ unclosedBrackets).errors =
      [.unexpected Kind.closeSquare (.placeless Kind.closeCurly "\x7d" []),
        .unexpected Kind.closeSquare (.placeless Kind.eof "" [])] ∧
    parseTokens ⟨some "colon", 256⟩ unclosedBrackets =
      parseTokens ⟨some "colon", 2⟩ unclosedBrackets := by
  refine ⟨by decide, parseTokens_higher_limit (some "colon") 2 256 unclosedBrackets ?_ ?_⟩
  · decide
  · decide

end DollarScript
