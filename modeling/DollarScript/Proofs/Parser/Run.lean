import DollarScript.Parser

/-! What a parse does, as rules over the tokens that are left. Fuel and counters do not occur: how
many levels may still be opened, or are open, is handed down. -/
namespace DollarScript

/-- A token without a place; nothing but its place is left out of what a parse looks at. -/
def Token.placeless (kind text : String) (captures : List (Option String)) : Token :=
  ⟨kind, text, captures, none, .origin, ⟨0, 0⟩⟩

def Cause.isNestingTooDeep : Cause → Bool
  | .nestingTooDeep _ => true
  | _ => false

namespace Parser

/-- The next token; behind the last one, the end token. -/
def Setting.next (g : Setting) (ts : List Token) : Token := ts.head?.getD g.eof

/-- A cause at the first of some tokens, or at the end token if there is none left. -/
structure Fault where
  place : List Token
  cause : Cause

namespace Fault

def unexpected (g : Setting) (kind : String) (ts : List Token) : Fault :=
  ⟨ts, .unexpectedToken kind (g.next ts).kind⟩

def diagnostic (g : Setting) (f : Fault) : Diagnostic := .about f.cause (g.next f.place)

/-- A fault at a curly bracket that may not be opened. -/
def isTooDeep (g : Setting) (f : Fault) : Bool :=
  f.cause.isNestingTooDeep && (g.next f.place).kind == Kind.openCurly

end Fault

/-- How reading ends: with what was read or with a fault, in front of the tokens not yet taken. -/
abbrev Ending (α : Type) : Type := EStateM.Result Fault (List Token) α

def Ending.rest {α : Type} : Ending α → List Token
  | .ok _ ts => ts
  | .error _ ts => ts

@[simp] theorem Ending.rest_ok {α : Type} (a : α) (ts : List Token) :
    Ending.rest (.ok a ts) = ts := rfl

@[simp] theorem Ending.rest_error {α : Type} (f : Fault) (ts : List Token) :
    Ending.rest (.error f ts : Ending α) = ts := rfl

/-- The operator among `ops` that the token stands for. -/
def opAmong (ops : List BinaryOp) (t : Token) : Option BinaryOp :=
  (BinaryOp.ofKind? t.kind).filter ops.contains

theorem ofKind?_eq_some {kind : String} {op : BinaryOp} :
    BinaryOp.ofKind? kind = some op ↔ kind = op.kind := by
  constructor
  · intro h
    have hk := List.find?_some h
    exact (beq_iff_eq.mp hk).symm
  · rintro rfl
    cases op <;> decide

theorem opAmong_eq_some {ops : List BinaryOp} {t : Token} {op : BinaryOp} :
    opAmong ops t = some op ↔ op ∈ ops ∧ t.kind = op.kind := by
  simp [opAmong, Option.filter_eq_some_iff, ofKind?_eq_some, and_comm]

theorem opAmong_eq_none {ops : List BinaryOp} {t : Token} :
    opAmong ops t = none ↔ ∀ op ∈ ops, t.kind ≠ op.kind := by
  simp only [Option.eq_none_iff_forall_ne_some, ne_eq, opAmong_eq_some, not_and]

def comparisons : List BinaryOp := [.eq, .strictEq]

/-- Kinds with which a factor can start. -/
def factorStarts : List String := [Kind.number, Kind.var, Kind.openSquare]

@[simp] theorem mem_factorStarts {kind : String} : kind ∈ factorStarts ↔
    kind = Kind.number ∨ kind = Kind.var ∨ kind = Kind.openSquare := by
  simp [factorStarts]

/-- Operators of one strength are grouped to the left. -/
inductive Layer where
  | term
  | sum
  deriving DecidableEq

def Layer.ops : Layer → List BinaryOp
  | .term => [.mul, .div]
  | .sum => [.add, .sub]

/-- A factor, all operands of a layer, or those of them behind `left`. -/
inductive ExprPart where
  | factor
  | whole (layer : Layer)
  | behind (layer : Layer) (left : Expr)

def Layer.operand : Layer → ExprPart
  | .term => .factor
  | .sum => .whole .term

/-- Reading an expression while `room` more brackets may be opened. -/
inductive ExprRun (g : Setting) : (room : Nat) → ExprPart → List Token → Ending Expr → Prop
  | number {room ts value} : (g.next ts).kind = Kind.number →
      Binary64.read? (g.next ts).text = some value →
      ExprRun g room .factor ts (.ok (.number value) ts.tail)
  | badNumber {room ts} : (g.next ts).kind = Kind.number →
      Binary64.read? (g.next ts).text = none →
      ExprRun g room .factor ts (.error ⟨ts, .invalidFactor⟩ ts.tail)
  | var {room ts} : (g.next ts).kind = Kind.var →
      ExprRun g room .factor ts (.ok (.var (g.next ts).text) ts.tail)
  | tooDeep {ts} : (g.next ts).kind = Kind.openSquare →
      ExprRun g 0 .factor ts (.error ⟨ts, .nestingTooDeep g.maxNesting⟩ ts.tail)
  | innerFails {room ts f us} : (g.next ts).kind = Kind.openSquare →
      ExprRun g room (.whole .sum) ts.tail (.error f us) →
      ExprRun g (room + 1) .factor ts (.error f us)
  | unclosed {room ts e us} : (g.next ts).kind = Kind.openSquare →
      ExprRun g room (.whole .sum) ts.tail (.ok e us) → (g.next us).kind ≠ Kind.closeSquare →
      ExprRun g (room + 1) .factor ts (.error (.unexpected g Kind.closeSquare us) us)
  | bracketed {room ts e us} : (g.next ts).kind = Kind.openSquare →
      ExprRun g room (.whole .sum) ts.tail (.ok e us) → (g.next us).kind = Kind.closeSquare →
      ExprRun g (room + 1) .factor ts (.ok e us.tail)
  | noFactor {room ts} : (g.next ts).kind ∉ factorStarts →
      ExprRun g room .factor ts (.error ⟨ts, .invalidFactor⟩ ts)
  | firstFails {room layer ts f us} : ExprRun g room layer.operand ts (.error f us) →
      ExprRun g room (.whole layer) ts (.error f us)
  | first {room layer ts left us r} : ExprRun g room layer.operand ts (.ok left us) →
      ExprRun g room (.behind layer left) us r → ExprRun g room (.whole layer) ts r
  | done {room layer left ts} : opAmong layer.ops (g.next ts) = none →
      ExprRun g room (.behind layer left) ts (.ok left ts)
  | operandFails {room layer left ts op f us} : opAmong layer.ops (g.next ts) = some op →
      ExprRun g room layer.operand ts.tail (.error f us) →
      ExprRun g room (.behind layer left) ts (.error f us)
  | operand {room layer left ts op right us r} : opAmong layer.ops (g.next ts) = some op →
      ExprRun g room layer.operand ts.tail (.ok right us) →
      ExprRun g room (.behind layer (.binary op left right)) us r →
      ExprRun g room (.behind layer left) ts r

/-- Reading the test of a condition. -/
inductive TestRun (g : Setting) (room : Nat) : List Token → Ending Expr → Prop
  | leftFails {ts f us} : ExprRun g room (.whole .sum) ts (.error f us) →
      TestRun g room ts (.error f us)
  | plain {ts e us} : ExprRun g room (.whole .sum) ts (.ok e us) →
      opAmong comparisons (g.next us) = none → TestRun g room ts (.ok e us)
  | rightFails {ts left us op f vs} : ExprRun g room (.whole .sum) ts (.ok left us) →
      opAmong comparisons (g.next us) = some op →
      ExprRun g room (.whole .sum) us.tail (.error f vs) → TestRun g room ts (.error f vs)
  | compared {ts left us op right vs} : ExprRun g room (.whole .sum) ts (.ok left us) →
      opAmong comparisons (g.next us) = some op →
      ExprRun g room (.whole .sum) us.tail (.ok right vs) →
      TestRun g room ts (.ok (.binary op left right) vs)

/-- Reading what stands before the first block of a condition. -/
inductive HeadRun (g : Setting) (room : Nat) : List Token → Ending Expr → Prop
  | testFails {ts f us} : (g.next ts).kind = Kind.keywordBegin →
      TestRun g room ts.tail (.error f us) → HeadRun g room ts (.error f us)
  | open {ts test us} : (g.next ts).kind = Kind.keywordBegin →
      TestRun g room ts.tail (.ok test us) → g.delimiter = none → HeadRun g room ts (.ok test us)
  | undelimited {ts test us kind} : (g.next ts).kind = Kind.keywordBegin →
      TestRun g room ts.tail (.ok test us) → g.delimiter = some kind →
      (g.next us).kind ≠ kind → HeadRun g room ts (.error (.unexpected g kind us) us)
  | delimited {ts test us kind} : (g.next ts).kind = Kind.keywordBegin →
      TestRun g room ts.tail (.ok test us) → g.delimiter = some kind →
      (g.next us).kind = kind → HeadRun g room ts (.ok test us.tail)

inductive Part where
  | statement
  | statements
  | block
  | conditional
  | assignment
  deriving DecidableEq

/-- The part that a token of the kind opens where a statement is to be read. -/
def Part.ofKind? (kind : String) : Option Part :=
  if kind = Kind.keywordBegin then some .conditional
  else if kind = Kind.var then some .assignment
  else if kind = Kind.openCurly then some .block
  else none

theorem statementStarts_nodup : Kind.keywordBegin ≠ Kind.var ∧
    Kind.keywordBegin ≠ Kind.openCurly ∧ Kind.var ≠ Kind.openCurly := by
  decide

@[simp] theorem Part.ofKind?_eq_conditional {kind : String} :
    Part.ofKind? kind = some .conditional ↔ kind = Kind.keywordBegin := by
  grind [Part.ofKind?]

@[simp] theorem Part.ofKind?_eq_assignment {kind : String} :
    Part.ofKind? kind = some .assignment ↔ kind = Kind.var := by
  have := statementStarts_nodup
  grind [Part.ofKind?]

@[simp] theorem Part.ofKind?_eq_block {kind : String} :
    Part.ofKind? kind = some .block ↔ kind = Kind.openCurly := by
  have := statementStarts_nodup
  grind [Part.ofKind?]

theorem Part.ofKind?_eq_none {kind : String} :
    Part.ofKind? kind = none ↔ Kind.startsStatement kind = false := by
  grind [Part.ofKind?, Kind.startsStatement, Kind.statementStarts]

theorem Part.ofKind?_cases {kind : String} {part : Part} (h : Part.ofKind? kind = some part) :
    part = .conditional ∨ part = .assignment ∨ part = .block := by
  grind [Part.ofKind?]

theorem Part.opened {kind : String} {part : Part} (h : Part.ofKind? kind = some part) :
    part ≠ .statement ∧ part ≠ .statements := by
  rcases Part.ofKind?_cases h with rfl | rfl | rfl <;> decide

/-- What a parse leaves behind besides the program: a fault that it recovered from, or a block that
was opened inside `depth` others and closed, given by the tokens from its opening and from its
closing bracket on. -/
inductive Event where
  | noted (fault : Fault)
  | closed (depth : Nat) (opener closer : List Token)

/-- The faults among the events. -/
def noted (log : List Event) : List Fault :=
  log.filterMap fun
    | .noted f => some f
    | .closed _ _ _ => none

@[simp] theorem noted_nil : noted [] = [] := rfl

@[simp] theorem noted_append (log log' : List Event) :
    noted (log ++ log') = noted log ++ noted log' := by
  simp [noted]

@[simp] theorem noted_single (f : Fault) : noted [.noted f] = [f] := rfl

@[simp] theorem noted_closed (depth : Nat) (opener closer : List Token) :
    noted [.closed depth opener closer] = [] := rfl

/-- The event that an ending is about to become. -/
def Ending.thrown {α : Type} : Ending α → List Event
  | .ok _ _ => []
  | .error f _ => [.noted f]

/-- Statements end with the tokens, those of a block also at a closing bracket. -/
def Setting.Stops (g : Setting) (depth : Nat) (ts : List Token) : Prop :=
  ts = [] ∨ (0 < depth ∧ (g.next ts).kind = Kind.closeCurly)

def opensAlternate (t : Token) : Prop :=
  t.kind = Kind.keywordBegin ∧ t.keyword? = some Kind.elseKeyword

/-- Passes the keyword that may end a condition. -/
def Setting.pastEnd (g : Setting) (ts : List Token) : List Token :=
  if (g.next ts).kind = Kind.keywordEnd then ts.tail else ts

/-- Reading statements while `depth` blocks are open. What is read is a list for every part: the
statements of a block or of a program, and one statement for the other parts. -/
inductive Run (g : Setting) :
    (depth : Nat) → Part → List Token → List Event → Ending (List Statement) → Prop
  | stop {depth ts} : g.Stops depth ts → Run g depth .statements ts [] (.ok [] ts)
  | next {depth ts log s us log' ss vs} : ¬ g.Stops depth ts →
      Run g depth .statement ts log (.ok [s] us) →
      Run g depth .statements us log' (.ok ss vs) →
      Run g depth .statements ts (log ++ log') (.ok (s :: ss) vs)
  | unopened {depth ts} : (g.next ts).kind ≠ Kind.openCurly →
      Run g depth .block ts [] (.error (.unexpected g Kind.openCurly ts) ts)
  | tooDeep {depth ts} : (g.next ts).kind = Kind.openCurly → g.maxNesting ≤ depth →
      Run g depth .block ts [] (.error ⟨ts, .nestingTooDeep g.maxNesting⟩ ts.tail)
  | unclosed {depth ts log ss us} : (g.next ts).kind = Kind.openCurly → depth < g.maxNesting →
      Run g (depth + 1) .statements ts.tail log (.ok ss us) → (g.next us).kind ≠ Kind.closeCurly →
      Run g depth .block ts log (.error (.unexpected g Kind.closeCurly us) us)
  | closed {depth ts log ss us} : (g.next ts).kind = Kind.openCurly → depth < g.maxNesting →
      Run g (depth + 1) .statements ts.tail log (.ok ss us) → (g.next us).kind = Kind.closeCurly →
      Run g depth .block ts (log ++ [.closed depth ts us]) (.ok ss us.tail)
  | headFails {depth ts f us} : HeadRun g (g.maxNesting - depth) ts (.error f us) →
      Run g depth .conditional ts [] (.error f us)
  | consequentFails {depth ts test us log f vs} :
      HeadRun g (g.maxNesting - depth) ts (.ok test us) →
      Run g depth .block us log (.error f vs) → Run g depth .conditional ts log (.error f vs)
  | alone {depth ts test us log body vs} :
      HeadRun g (g.maxNesting - depth) ts (.ok test us) →
      Run g depth .block us log (.ok body vs) → ¬ opensAlternate (g.next vs) →
      Run g depth .conditional ts log (.ok [.conditional test body none] (g.pastEnd vs))
  | alternateFails {depth ts test us log body vs log' f ws} :
      HeadRun g (g.maxNesting - depth) ts (.ok test us) →
      Run g depth .block us log (.ok body vs) → opensAlternate (g.next vs) →
      Run g depth .block vs.tail log' (.error f ws) →
      Run g depth .conditional ts (log ++ log') (.error f ws)
  | alternate {depth ts test us log body vs log' other ws} :
      HeadRun g (g.maxNesting - depth) ts (.ok test us) →
      Run g depth .block us log (.ok body vs) → opensAlternate (g.next vs) →
      Run g depth .block vs.tail log' (.ok other ws) →
      Run g depth .conditional ts (log ++ log')
        (.ok [.conditional test body (some other)] (g.pastEnd ws))
  | unassigned {depth ts} : (g.next ts).kind = Kind.var → (g.next ts.tail).kind ≠ Kind.assign →
      Run g depth .assignment ts [] (.error (.unexpected g Kind.assign ts.tail) ts.tail)
  | valueFails {depth ts f us} : (g.next ts).kind = Kind.var →
      (g.next ts.tail).kind = Kind.assign →
      ExprRun g (g.maxNesting - depth) (.whole .sum) ts.tail.tail (.error f us) →
      Run g depth .assignment ts [] (.error f us)
  | assigned {depth ts value us} : (g.next ts).kind = Kind.var →
      (g.next ts.tail).kind = Kind.assign →
      ExprRun g (g.maxNesting - depth) (.whole .sum) ts.tail.tail (.ok value us) →
      Run g depth .assignment ts [] (.ok [.assignment (g.next ts).text value] us)
  | simple {depth part ts log s us} : Part.ofKind? (g.next ts).kind = some part →
      part ≠ .block → Run g depth part ts log (.ok [s] us) →
      Run g depth .statement ts log (.ok [s] us)
  | block {depth ts log ss us} : Part.ofKind? (g.next ts).kind = some .block →
      Run g depth .block ts log (.ok ss us) → Run g depth .statement ts log (.ok [.block ss] us)
  | skipped {depth part ts log f us} : Part.ofKind? (g.next ts).kind = some part →
      Run g depth part ts log (.error f us) →
      Run g depth .statement ts (log ++ [.noted f]) (.ok [.skipped] (recovered depth us))
  | invalid {depth ts} : Part.ofKind? (g.next ts).kind = none →
      Run g depth .statement ts [.noted ⟨ts, .invalidStatement⟩] (.ok [.invalid] ts.tail)

variable {g : Setting} {room depth : Nat} {x : ExprPart} {part : Part} {ts : List Token}
  {log log' : List Event} {r r' : Ending Expr} {q q' : Ending (List Statement)}

theorem kinds_of_factors :
    Kind.number ≠ Kind.var ∧ Kind.number ≠ Kind.openSquare ∧ Kind.var ≠ Kind.openSquare := by
  decide

theorem ExprRun.unique (h : ExprRun g room x ts r) (h' : ExprRun g room x ts r') : r' = r := by
  have hkinds := kinds_of_factors
  induction h generalizing r' with
  | number hk hv => cases h' <;> simp_all
  | badNumber hk hv => cases h' <;> simp_all
  | var hk => cases h' <;> simp_all
  | tooDeep hk => cases h' <;> simp_all
  | innerFails hk _ ih =>
    cases h' with
    | innerFails _ h => exact ih h
    | unclosed _ h => cases ih h
    | bracketed _ h => cases ih h
    | _ => simp_all
  | unclosed hk _ hn ih =>
    cases h' with
    | innerFails _ h => cases ih h
    | unclosed _ h => cases ih h; rfl
    | bracketed _ h hc => cases ih h; contradiction
    | _ => simp_all
  | bracketed hk _ hn ih =>
    cases h' with
    | innerFails _ h => cases ih h
    | unclosed _ h => cases ih h; contradiction
    | bracketed _ h hc => cases ih h; rfl
    | _ => simp_all
  | noFactor hk => cases h' <;> simp_all
  | firstFails _ ih => cases h' with
    | firstFails h => exact ih h
    | first h => cases ih h
  | first _ _ ih ih' => cases h' with
    | firstFails h => cases ih h
    | first h h' => cases ih h; exact ih' h'
  | done hk => cases h' <;> simp_all
  | operandFails hk _ ih => cases h' with
    | done hn => simp_all
    | operandFails _ h => exact ih h
    | operand _ h => cases ih h
  | operand hk _ _ ih ih' => cases h' with
    | done hn => simp_all
    | operandFails _ h => cases ih h
    | operand ho h h' =>
      cases ih h
      rw [hk] at ho
      cases ho
      exact ih' h'

theorem TestRun.unique (h : TestRun g room ts r) (h' : TestRun g room ts r') : r' = r := by
  cases h with
  | leftFails h => cases h' with
    | leftFails k => exact h.unique k
    | _ k => cases h.unique k
  | plain h hn => cases h' with
    | leftFails k => cases h.unique k
    | plain k => exact h.unique k
    | _ k ho => cases h.unique k; simp_all
  | rightFails h ho h₂ => cases h' with
    | leftFails k => cases h.unique k
    | plain k => cases h.unique k; simp_all
    | rightFails k ho' k₂ => cases h.unique k; exact h₂.unique k₂
    | compared k ho' k₂ => cases h.unique k; cases h₂.unique k₂
  | compared h ho h₂ => cases h' with
    | leftFails k => cases h.unique k
    | plain k => cases h.unique k; simp_all
    | rightFails k ho' k₂ => cases h.unique k; cases h₂.unique k₂
    | compared k ho' k₂ =>
      cases h.unique k
      cases h₂.unique k₂
      rw [ho] at ho'
      cases ho'
      rfl

theorem HeadRun.unique (h : HeadRun g room ts r) (h' : HeadRun g room ts r') : r' = r := by
  cases h with
  | testFails _ h => cases h' with
    | testFails _ k => exact h.unique k
    | _ _ k => cases h.unique k
  | «open» _ h hd => cases h' with
    | testFails _ k => cases h.unique k
    | «open» _ k => exact h.unique k
    | _ _ k => simp_all
  | undelimited _ h hd hn => cases h' with
    | testFails _ k => cases h.unique k
    | _ _ k => cases h.unique k; simp_all
  | delimited _ h hd hn => cases h' with
    | testFails _ k => cases h.unique k
    | _ _ k => cases h.unique k; simp_all

/-- The rules leave no choice. -/
theorem Run.unique (h : Run g depth part ts log q) (h' : Run g depth part ts log' q') :
    log' = log ∧ q' = q := by
  induction h generalizing log' q' with
  | stop hs => cases h' with
    | stop => exact ⟨rfl, rfl⟩
    | next hn => exact absurd hs hn
  | next hn _ _ ih ih' => cases h' with
    | stop hs => exact absurd hs hn
    | next _ k k' =>
      obtain ⟨rfl, heq⟩ := ih k
      cases heq
      obtain ⟨rfl, heq⟩ := ih' k'
      cases heq
      exact ⟨rfl, rfl⟩
  | unopened hk => cases h' <;> simp_all
  | tooDeep hk hm => cases h' with
    | tooDeep => exact ⟨rfl, rfl⟩
    | unopened hn => exact absurd hk hn
    | unclosed _ hlt => omega
    | closed _ hlt => omega
  | unclosed hk hlt _ hn ih => cases h' with
    | unopened hk' => exact absurd hk hk'
    | tooDeep _ hm => omega
    | unclosed _ _ k =>
      obtain ⟨rfl, heq⟩ := ih k
      cases heq
      exact ⟨rfl, rfl⟩
    | closed _ _ k hc =>
      obtain ⟨rfl, heq⟩ := ih k
      cases heq
      exact absurd hc hn
  | closed hk hlt _ hc ih => cases h' with
    | unopened hk' => exact absurd hk hk'
    | tooDeep _ hm => omega
    | unclosed _ _ k hn =>
      obtain ⟨rfl, heq⟩ := ih k
      cases heq
      exact absurd hc hn
    | closed _ _ k hc =>
      obtain ⟨rfl, heq⟩ := ih k
      cases heq
      exact ⟨rfl, rfl⟩
  | headFails hh => cases h' with
    | headFails k => exact ⟨rfl, by cases hh.unique k; rfl⟩
    | _ k => cases hh.unique k
  | consequentFails hh _ ih => cases h' with
    | headFails k => cases hh.unique k
    | consequentFails k k₂ => cases hh.unique k; exact ih k₂
    | alone k k₂ => cases hh.unique k; cases (ih k₂).2
    | alternateFails k k₂ => cases hh.unique k; cases (ih k₂).2
    | alternate k k₂ => cases hh.unique k; cases (ih k₂).2
  | alone hh _ hn ih => cases h' with
    | headFails k => cases hh.unique k
    | consequentFails k k₂ => cases hh.unique k; cases (ih k₂).2
    | alone k k₂ =>
      cases hh.unique k
      obtain ⟨rfl, heq⟩ := ih k₂
      cases heq
      exact ⟨rfl, rfl⟩
    | alternateFails k k₂ ha => cases hh.unique k; cases (ih k₂).2; exact absurd ha hn
    | alternate k k₂ ha => cases hh.unique k; cases (ih k₂).2; exact absurd ha hn
  | alternateFails hh _ ha _ ih ih' => cases h' with
    | headFails k => cases hh.unique k
    | consequentFails k k₂ => cases hh.unique k; cases (ih k₂).2
    | alone k k₂ hn => cases hh.unique k; cases (ih k₂).2; exact absurd ha hn
    | alternateFails k k₂ _ k₃ =>
      cases hh.unique k
      obtain ⟨rfl, heq⟩ := ih k₂
      cases heq
      obtain ⟨rfl, heq⟩ := ih' k₃
      exact ⟨rfl, heq⟩
    | alternate k k₂ _ k₃ => cases hh.unique k; cases (ih k₂).2; cases (ih' k₃).2
  | alternate hh _ ha _ ih ih' => cases h' with
    | headFails k => cases hh.unique k
    | consequentFails k k₂ => cases hh.unique k; cases (ih k₂).2
    | alone k k₂ hn => cases hh.unique k; cases (ih k₂).2; exact absurd ha hn
    | alternateFails k k₂ _ k₃ => cases hh.unique k; cases (ih k₂).2; cases (ih' k₃).2
    | alternate k k₂ _ k₃ =>
      cases hh.unique k
      obtain ⟨rfl, heq⟩ := ih k₂
      cases heq
      obtain ⟨rfl, heq⟩ := ih' k₃
      cases heq
      exact ⟨rfl, rfl⟩
  | unassigned hk hn => cases h' <;> simp_all
  | valueFails hk ha hv => cases h' with
    | unassigned _ hn => exact absurd ha hn
    | valueFails _ _ k => cases hv.unique k; exact ⟨rfl, rfl⟩
    | assigned _ _ k => cases hv.unique k
  | assigned hk ha hv => cases h' with
    | unassigned _ hn => exact absurd ha hn
    | valueFails _ _ k => cases hv.unique k
    | assigned _ _ k => cases hv.unique k; exact ⟨rfl, rfl⟩
  | simple hk hb _ ih => cases h' with
    | simple hk' _ k =>
      cases hk.symm.trans hk'
      exact ih k
    | block hk' =>
      cases hk.symm.trans hk'
      exact absurd rfl hb
    | skipped hk' k =>
      cases hk.symm.trans hk'
      cases (ih k).2
    | invalid hk' => cases hk.symm.trans hk'
  | block hk _ ih => cases h' with
    | simple hk' hb =>
      cases hk.symm.trans hk'
      exact absurd rfl hb
    | block _ k =>
      obtain ⟨rfl, heq⟩ := ih k
      cases heq
      exact ⟨rfl, rfl⟩
    | skipped hk' k =>
      cases hk.symm.trans hk'
      cases (ih k).2
    | invalid hk' => cases hk.symm.trans hk'
  | skipped hk _ ih => cases h' with
    | simple hk' _ k =>
      cases hk.symm.trans hk'
      cases (ih k).2
    | block hk' k =>
      cases hk.symm.trans hk'
      cases (ih k).2
    | skipped hk' k =>
      cases hk.symm.trans hk'
      obtain ⟨rfl, heq⟩ := ih k
      cases heq
      exact ⟨rfl, rfl⟩
    | invalid hk' => cases hk.symm.trans hk'
  | invalid hk => cases h' <;> simp_all

theorem length_lt_of_suffix_tail {us : List Token} (hne : ts ≠ []) (h : us <:+ ts.tail) :
    us.length < ts.length := by
  have hpos := List.length_pos_iff.mpr hne
  have hle := h.length_le
  rw [List.length_tail] at hle
  omega

theorem ExprRun.suffix (h : ExprRun g room x ts r) : r.rest <:+ ts := by
  induction h with
  | number | badNumber | var | tooDeep => exact List.tail_suffix _
  | innerFails _ _ ih | unclosed _ _ _ ih => exact ih.trans (List.tail_suffix _)
  | bracketed _ _ _ ih => exact ((List.tail_suffix _).trans ih).trans (List.tail_suffix _)
  | noFactor | done => exact List.suffix_refl _
  | firstFails _ ih => exact ih
  | first _ _ ih ih' => exact ih'.trans ih
  | operandFails _ _ ih => exact ih.trans (List.tail_suffix _)
  | operand _ _ _ ih ih' => exact (ih'.trans ih).trans (List.tail_suffix _)

theorem ExprRun.factor_starts {e : Expr} {us : List Token}
    (h : ExprRun g room .factor ts (.ok e us)) : (g.next ts).kind ∈ factorStarts := by
  cases h <;> simp_all

theorem ExprRun.operand_starts {layer : Layer} {e : Expr} {us : List Token}
    (h : ExprRun g room layer.operand ts (.ok e us)) : (g.next ts).kind ∈ factorStarts := by
  cases layer with
  | term => exact h.factor_starts
  | sum => cases h with
    | first h _ => exact h.factor_starts

theorem op_not_factorStart (op : BinaryOp) : op.kind ∉ factorStarts := by
  cases op <;> decide

/-- An end token that is an operator has no operand behind it. -/
theorem ExprRun.operand_shorter {layer : Layer} {op : BinaryOp} {e : Expr} {us : List Token}
    (ho : opAmong layer.ops (g.next ts) = some op)
    (h : ExprRun g room layer.operand ts.tail (.ok e us)) : us.length < ts.length := by
  cases ts with
  | nil =>
    have hk := h.operand_starts
    rw [List.tail_nil, (opAmong_eq_some.mp ho).2] at hk
    exact absurd hk (op_not_factorStart op)
  | cons t ts =>
    have hs := h.suffix.length_le
    simp only [Ending.rest_ok, List.tail_cons] at hs
    exact Nat.lt_succ_of_le hs

theorem TestRun.suffix (h : TestRun g room ts r) : r.rest <:+ ts := by
  cases h with
  | leftFails h | plain h => exact h.suffix
  | rightFails h _ h' | compared h _ h' =>
    exact (h'.suffix.trans (List.tail_suffix _)).trans h.suffix

/-- The keyword in front is taken in any case. -/
theorem HeadRun.suffix (h : HeadRun g room ts r) : r.rest <:+ ts.tail := by
  cases h with
  | testFails _ h | «open» _ h | undelimited _ h => exact h.suffix
  | delimited _ h => exact (List.tail_suffix _).trans h.suffix

theorem recovered_suffix (depth : Nat) (ts : List Token) : recovered depth ts <:+ ts := by
  fun_induction recovered depth ts with
  | case1 => exact List.suffix_refl _
  | case2 => exact List.suffix_refl _
  | case3 => exact List.suffix_cons _ _
  | case4 => exact List.suffix_refl _
  | case5 _ _ _ _ ih => exact ih.trans (List.suffix_cons _ _)

theorem pastEnd_suffix (g : Setting) (ts : List Token) : g.pastEnd ts <:+ ts := by
  unfold Setting.pastEnd
  split
  · exact List.tail_suffix _
  · exact List.suffix_refl _

theorem Run.suffix (h : Run g depth part ts log q) : q.rest <:+ ts := by
  induction h with
  | stop | unopened => exact List.suffix_refl _
  | next _ _ _ ih ih' => exact ih'.trans ih
  | tooDeep | unassigned | invalid => exact List.tail_suffix _
  | unclosed _ _ _ _ ih => exact ih.trans (List.tail_suffix _)
  | closed _ _ _ _ ih => exact ((List.tail_suffix _).trans ih).trans (List.tail_suffix _)
  | headFails h => exact h.suffix.trans (List.tail_suffix _)
  | consequentFails h _ ih => exact (ih.trans h.suffix).trans (List.tail_suffix _)
  | alone h _ _ ih =>
    exact (((pastEnd_suffix g _).trans ih).trans h.suffix).trans (List.tail_suffix _)
  | alternateFails h _ _ _ ih ih' =>
    have hb := (ih'.trans (List.tail_suffix _)).trans ih
    exact (hb.trans h.suffix).trans (List.tail_suffix _)
  | alternate h _ _ _ ih ih' =>
    have hb := (ih'.trans (List.tail_suffix _)).trans ih
    exact (((pastEnd_suffix g _).trans hb).trans h.suffix).trans (List.tail_suffix _)
  | valueFails _ _ h | assigned _ _ h =>
    exact (h.suffix.trans (List.tail_suffix _)).trans (List.tail_suffix _)
  | simple _ _ _ ih | block _ _ ih => exact ih
  | skipped _ _ ih => exact (recovered_suffix _ _).trans ih

theorem Run.suffix_tail (hk : Part.ofKind? (g.next ts).kind = some part)
    (h : Run g depth part ts log q) : q.rest <:+ ts.tail := by
  cases h with
  | stop | next | simple | block | skipped | invalid =>
    rcases Part.ofKind?_cases hk with h | h | h <;> cases h
  | unopened hn => exact absurd (Part.ofKind?_eq_block.mp hk) hn
  | tooDeep | unassigned => exact List.suffix_refl _
  | unclosed _ _ h => exact h.suffix
  | closed _ _ h => exact (List.tail_suffix _).trans h.suffix
  | headFails h => exact h.suffix
  | consequentFails h h₁ => exact h₁.suffix.trans h.suffix
  | alone h h₁ => exact ((pastEnd_suffix g _).trans h₁.suffix).trans h.suffix
  | alternateFails h h₁ _ h₂ =>
    exact ((h₂.suffix.trans (List.tail_suffix _)).trans h₁.suffix).trans h.suffix
  | alternate h h₁ _ h₂ =>
    have hb := (h₂.suffix.trans (List.tail_suffix _)).trans h₁.suffix
    exact ((pastEnd_suffix g _).trans hb).trans h.suffix
  | valueFails _ _ h | assigned _ _ h => exact h.suffix.trans (List.tail_suffix _)

/-- A statement takes the token in front of it, however it ends. -/
theorem Run.statement_suffix (h : Run g depth .statement ts log q) : q.rest <:+ ts.tail := by
  cases h with
  | simple hk _ h => exact h.suffix_tail hk
  | block hk h => simpa using h.suffix_tail hk
  | skipped hk h => exact (recovered_suffix _ _).trans (h.suffix_tail hk)
  | invalid => exact List.suffix_refl _

end Parser

end DollarScript
