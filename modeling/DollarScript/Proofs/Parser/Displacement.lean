import DollarScript.Proofs.Parser.Agreement

/-! A parse does not look at the places of tokens: without them it takes the same steps, and so it
ends with the same program and the same causes. -/
namespace DollarScript

/-- A token apart from its place. -/
def Token.displaced (t : Token) : Token := { t with position := .origin, span := ⟨0, 0⟩ }

def TokenStream.displaced (s : TokenStream) : TokenStream :=
  ⟨s.tokens.map Token.displaced, s.eof.displaced⟩

@[simp] theorem Token.kind_displaced (t : Token) : t.displaced.kind = t.kind := rfl

@[simp] theorem Token.text_displaced (t : Token) : t.displaced.text = t.text := rfl

namespace Parser

def Setting.displaced (g : Setting) : Setting := { g with eof := g.eof.displaced }

def Fault.displaced (f : Fault) : Fault := ⟨f.place.map Token.displaced, f.cause⟩

def Event.displaced : Event → Event
  | .noted f => .noted f.displaced
  | .closed depth opener closer =>
    .closed depth (opener.map Token.displaced) (closer.map Token.displaced)

def Ending.displaced {α : Type} : Ending α → Ending α
  | .ok a ts => .ok a (ts.map Token.displaced)
  | .error f ts => .error f.displaced (ts.map Token.displaced)

variable {g : Setting} {room depth : Nat} {x : ExprPart} {part : Part} {ts : List Token}
  {log : List Event} {r : Ending Expr} {q : Ending (List Statement)}

@[simp] theorem next_displaced (g : Setting) (ts : List Token) :
    g.displaced.next (ts.map Token.displaced) = (g.next ts).displaced := by
  cases ts <;> rfl

@[simp] theorem opAmong_displaced (ops : List BinaryOp) (t : Token) :
    opAmong ops t.displaced = opAmong ops t := rfl

@[simp] theorem opensAlternate_displaced (t : Token) :
    opensAlternate t.displaced ↔ opensAlternate t := Iff.rfl

@[simp] theorem stops_displaced :
    g.displaced.Stops depth (ts.map Token.displaced) ↔ g.Stops depth ts := by
  simp [Setting.Stops]

theorem pastEnd_displaced :
    g.displaced.pastEnd (ts.map Token.displaced) = (g.pastEnd ts).map Token.displaced := by
  simp only [Setting.pastEnd, next_displaced, Token.kind_displaced]
  split
  · rw [List.map_tail]
  · rfl

theorem recovered_displaced (depth : Nat) (ts : List Token) :
    recovered depth (ts.map Token.displaced) = (recovered depth ts).map Token.displaced := by
  induction ts with
  | nil => rfl
  | cons t ts ih =>
    have hstarts : t.displaced.startsStatement = t.startsStatement := rfl
    have hcloses : t.displaced.is Kind.closeCurly = t.is Kind.closeCurly := rfl
    simp only [List.map_cons, recovered, hstarts, hcloses, ih]
    split
    · rfl
    · split
      · split <;> rfl
      · rfl

@[simp] theorem unexpected_displaced (g : Setting) (kind : String) (ts : List Token) :
    (Fault.unexpected g kind ts).displaced =
      Fault.unexpected g.displaced kind (ts.map Token.displaced) := by
  simp [Fault.unexpected, Fault.displaced]

theorem kind_next_displaced {kind : String} :
    (g.displaced.next (ts.map Token.displaced)).kind = kind ↔ (g.next ts).kind = kind := by
  rw [next_displaced, Token.kind_displaced]

theorem ExprRun.displaced (h : ExprRun g room x ts r) :
    ExprRun g.displaced room x (ts.map Token.displaced) r.displaced := by
  induction h with
  | number hk hv =>
    simp only [Ending.displaced, List.map_tail]
    exact .number (kind_next_displaced.mpr hk) (by simpa using hv)
  | badNumber hk hv =>
    simp only [Ending.displaced, List.map_tail]
    exact .badNumber (kind_next_displaced.mpr hk) (by simpa using hv)
  | var hk =>
    simp only [Ending.displaced, List.map_tail]
    rw [← Token.text_displaced, ← next_displaced]
    exact .var (kind_next_displaced.mpr hk)
  | tooDeep hk =>
    simp only [Ending.displaced, List.map_tail]
    exact .tooDeep (kind_next_displaced.mpr hk)
  | innerFails hk _ ih =>
    rw [List.map_tail] at ih
    exact .innerFails (kind_next_displaced.mpr hk) ih
  | unclosed hk _ hn ih =>
    rw [List.map_tail] at ih
    simp only [Ending.displaced, unexpected_displaced]
    exact .unclosed (kind_next_displaced.mpr hk) ih (by simpa using hn)
  | bracketed hk _ hc ih =>
    rw [List.map_tail] at ih
    simp only [Ending.displaced, List.map_tail]
    exact .bracketed (kind_next_displaced.mpr hk) ih (kind_next_displaced.mpr hc)
  | noFactor hk => exact .noFactor (by simpa using hk)
  | firstFails _ ih => exact .firstFails ih
  | first _ _ ih ih' => exact .first ih ih'
  | done hn => exact .done (by simpa using hn)
  | operandFails ho _ ih =>
    rw [List.map_tail] at ih
    exact .operandFails (by simpa using ho) ih
  | operand ho _ _ ih ih' =>
    rw [List.map_tail] at ih
    exact .operand (by simpa using ho) ih ih'

theorem TestRun.displaced (h : TestRun g room ts r) :
    TestRun g.displaced room (ts.map Token.displaced) r.displaced := by
  cases h with
  | leftFails h => exact .leftFails h.displaced
  | plain h hn => exact .plain h.displaced (by simpa using hn)
  | rightFails h ho h' =>
    have hright := h'.displaced
    rw [List.map_tail] at hright
    exact .rightFails h.displaced (by simpa using ho) hright
  | compared h ho h' =>
    have hright := h'.displaced
    rw [List.map_tail] at hright
    exact .compared h.displaced (by simpa using ho) hright

theorem HeadRun.displaced (h : HeadRun g room ts r) :
    HeadRun g.displaced room (ts.map Token.displaced) r.displaced := by
  cases h with
  | testFails hk h =>
    have htest := h.displaced
    rw [List.map_tail] at htest
    exact .testFails (kind_next_displaced.mpr hk) htest
  | «open» hk h hd =>
    have htest := h.displaced
    rw [List.map_tail] at htest
    exact .open (kind_next_displaced.mpr hk) htest hd
  | undelimited hk h hd hn =>
    have htest := h.displaced
    rw [List.map_tail] at htest
    simp only [Ending.displaced, unexpected_displaced]
    exact .undelimited (kind_next_displaced.mpr hk) htest hd (by simpa using hn)
  | delimited hk h hd hc =>
    have htest := h.displaced
    rw [List.map_tail] at htest
    simp only [Ending.displaced, List.map_tail]
    exact .delimited (kind_next_displaced.mpr hk) htest hd (kind_next_displaced.mpr hc)

/-- Without places, a run takes the same steps. -/
theorem Run.displaced (h : Run g depth part ts log q) :
    Run g.displaced depth part (ts.map Token.displaced) (log.map Event.displaced)
      q.displaced := by
  induction h with
  | stop hs => exact .stop (stops_displaced.mpr hs)
  | next hn _ _ ih ih' =>
    rw [List.map_append]
    exact .next (mt stops_displaced.mp hn) ih ih'
  | unopened hk =>
    simp only [Ending.displaced, unexpected_displaced]
    exact .unopened (by simpa using hk)
  | tooDeep hk hm =>
    simp only [Ending.displaced, List.map_tail]
    exact .tooDeep (kind_next_displaced.mpr hk) hm
  | unclosed hk hlt _ hn ih =>
    rw [List.map_tail] at ih
    simp only [Ending.displaced, unexpected_displaced]
    exact .unclosed (kind_next_displaced.mpr hk) hlt ih (by simpa using hn)
  | closed hk hlt _ hc ih =>
    rw [List.map_tail] at ih
    rw [List.map_append]
    simp only [Ending.displaced, List.map_tail]
    exact .closed (kind_next_displaced.mpr hk) hlt ih (kind_next_displaced.mpr hc)
  | headFails hh => exact .headFails hh.displaced
  | consequentFails hh _ ih => exact .consequentFails hh.displaced ih
  | alone hh _ hn ih =>
    simp only [Ending.displaced, ← pastEnd_displaced]
    exact .alone hh.displaced ih (by simpa using hn)
  | alternateFails hh _ ha _ ih ih' =>
    rw [List.map_tail] at ih'
    rw [List.map_append]
    exact .alternateFails hh.displaced ih (by simpa using ha) ih'
  | alternate hh _ ha _ ih ih' =>
    rw [List.map_tail] at ih'
    rw [List.map_append]
    simp only [Ending.displaced, ← pastEnd_displaced]
    exact .alternate hh.displaced ih (by simpa using ha) ih'
  | unassigned hk hn =>
    simp only [Ending.displaced, unexpected_displaced, List.map_tail]
    refine .unassigned (kind_next_displaced.mpr hk) ?_
    rw [← List.map_tail]
    exact mt kind_next_displaced.mp hn
  | valueFails hk ha hv =>
    have hvalue := hv.displaced
    rw [List.map_tail, List.map_tail] at hvalue
    refine .valueFails (kind_next_displaced.mpr hk) ?_ hvalue
    rw [← List.map_tail]
    exact kind_next_displaced.mpr ha
  | assigned hk ha hv =>
    have hvalue := hv.displaced
    rw [List.map_tail, List.map_tail] at hvalue
    simp only [Ending.displaced]
    rw [← Token.text_displaced, ← next_displaced]
    refine .assigned (kind_next_displaced.mpr hk) ?_ hvalue
    rw [← List.map_tail]
    exact kind_next_displaced.mpr ha
  | simple hk hb _ ih => exact .simple (by simpa using hk) hb ih
  | block hk _ ih => exact .block (by simpa using hk) ih
  | skipped hk _ ih =>
    rw [List.map_append]
    simp only [Ending.displaced, ← recovered_displaced]
    exact .skipped (by simpa using hk) ih
  | invalid hk =>
    simp only [Ending.displaced, List.map_tail]
    exact .invalid (by simpa using hk)

theorem noted_displaced (log : List Event) :
    noted (log.map Event.displaced) = (noted log).map Fault.displaced := by
  induction log with
  | nil => rfl
  | cons e log ih =>
    cases e with
    | noted f => simpa [noted, Event.displaced] using ih
    | closed depth opener closer => simpa [noted, Event.displaced] using ih

end Parser

open DollarScript.Parser

/-- What a diagnostic says, wherever it is. -/
def ParseResult.causes (r : ParseResult) : List Cause := r.errors.map Diagnostic.cause

/-- The program and the causes of the diagnostics are those of the tokens without places. -/
theorem parseTokens_displaced (options : ParserOptions) (stream : TokenStream) :
    (parseTokens options stream).program = (parseTokens options stream.displaced).program ∧
      (parseTokens options stream).causes = (parseTokens options stream.displaced).causes := by
  obtain ⟨log, ss, hrun, heq⟩ := parseTokens_runs options stream
  obtain ⟨log', ss', hrun', heq'⟩ := parseTokens_runs options stream.displaced
  obtain ⟨rfl, hend⟩ := hrun'.unique hrun.displaced
  cases hend
  rw [heq, heq']
  refine ⟨rfl, ?_⟩
  simp [ParseResult.causes, noted_displaced, Fault.diagnostic, Fault.displaced, Diagnostic.about]

/-- Tokens that differ in nothing but their places are parsed alike. -/
theorem parseTokens_of_displaced {stream stream' : TokenStream}
    (h : stream.displaced = stream'.displaced) (options : ParserOptions) :
    (parseTokens options stream).program = (parseTokens options stream').program ∧
      (parseTokens options stream).causes = (parseTokens options stream').causes := by
  obtain ⟨hprogram, hcauses⟩ := parseTokens_displaced options stream
  obtain ⟨hprogram', hcauses'⟩ := parseTokens_displaced options stream'
  rw [hprogram, hcauses, h, hprogram', hcauses']
  exact ⟨rfl, rfl⟩

end DollarScript
