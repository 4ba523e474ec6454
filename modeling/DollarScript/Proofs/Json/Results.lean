import DollarScript.Parser
import DollarScript.Proofs.Json.Writing
import DollarScript.Proofs.Program.Bracketed

/-! The result of a parse can be told from its JSON: all of the program and all that is wrong with
it. -/
namespace DollarScript

/-- A number among the operands is finite. -/
def Operand.IsFinite : Operand → Prop
  | .number (.finite _ _) | .var _ => True
  | .number (.infinite _) | .number .nan => False

instance : DecidablePred Operand.IsFinite
  | .number (.finite _ _) | .var _ => .isTrue trivial
  | .number (.infinite _) | .number .nan => .isFalse id

/-! ### Finite programs have finite JSON -/

theorem Expr.finite_toJson {e : Expr} (h : ∀ x ∈ e.operands, x.IsFinite) : e.toJson.Finite := by
  induction e with
  | number value =>
    cases value with
    | finite negative rank => simpa [Expr.toJson] using Json.Finite.real negative rank
    | infinite negative => exact (h _ List.mem_cons_self).elim
    | nan => exact (h _ List.mem_cons_self).elim
  | var name => simp [Expr.toJson]
  | binary op left right hleft hright =>
    obtain ⟨hl, hr⟩ := List.forall_mem_append.mp h
    simp [Expr.toJson, hleft hl, hright hr]

namespace Statement

mutual

theorem finite_toJson (s : Statement) (h : ∀ x ∈ s.operands, x.IsFinite) : s.toJson.Finite := by
  cases s with
  | conditional test consequent alternate =>
    simp only [operands, List.forall_mem_append] at h
    have htest := Expr.finite_toJson h.1
    have hconsequent := finite_toJsonAll consequent h.2.1
    have halternate := finite_alternateJson alternate h.2.2
    simpa [toJson, htest, halternate] using hconsequent
  | assignment target value =>
    simp [toJson, Expr.finite_toJson (List.forall_mem_cons.mp h).2]
  | block body => simpa [toJson] using finite_toJsonAll body h
  | invalid => simp [toJson]
  | skipped => simp [toJson]

theorem finite_toJsonAll (body : List Statement) (h : ∀ x ∈ operandsAll body, x.IsFinite) :
    ∀ v ∈ toJsonAll body, v.Finite := by
  cases body with
  | nil => simp [toJsonAll]
  | cons s rest =>
    obtain ⟨hs, hrest⟩ := List.forall_mem_append.mp h
    exact List.forall_mem_cons.mpr ⟨finite_toJson s hs, finite_toJsonAll rest hrest⟩

theorem finite_alternateJson (alternate : Option (List Statement))
    (h : ∀ x ∈ operandsAlternate alternate, x.IsFinite) : (alternateJson alternate).Finite := by
  cases alternate with
  | none => exact .null
  | some body => simpa [alternateJson] using finite_toJsonAll body h

end

end Statement

theorem Cause.finite_toJson (c : Cause) : c.toJson.Finite := by
  cases c <;> simp [Cause.toJson]

theorem Diagnostic.finite_toJson (d : Diagnostic) : d.toJson.Finite := by
  simp [Diagnostic.toJson, Span.toJson, d.cause.finite_toJson]

/-! ### The JSON of different things is different -/

theorem Expr.toJson_injective : Function.Injective Expr.toJson := by
  intro e
  induction e with
  | number value =>
    intro e' h
    cases e' <;> simp_all [Expr.toJson]
  | var name =>
    intro e' h
    cases e' <;> simp_all [Expr.toJson]
  | binary op left right hleft hright =>
    intro e' h
    cases e' with
    | binary op' left' right' =>
      simp only [Expr.toJson, Json.obj.injEq, List.cons.injEq, Prod.mk.injEq, Json.str.injEq,
        true_and, and_true] at h
      rw [BinaryOp.symbol_injective h.1, hleft h.2.1, hright h.2.2]
    | _ => simp [Expr.toJson] at h

namespace Statement

mutual

theorem toJson_injective (s s' : Statement) (h : s.toJson = s'.toJson) : s = s' := by
  cases s with
  | conditional test consequent alternate =>
    cases s' with
    | conditional test' consequent' alternate' =>
      simp only [toJson, Json.obj.injEq, Json.arr.injEq, List.cons.injEq, Prod.mk.injEq, true_and,
        and_true] at h
      obtain ⟨htest, hconsequent, halternate⟩ := h
      rw [Expr.toJson_injective htest, toJsonAll_injective _ _ hconsequent,
        alternateJson_injective _ _ halternate]
    | _ => simp [toJson] at h
  | assignment target value =>
    cases s' with
    | assignment target' value' =>
      simp only [toJson, Json.obj.injEq, Json.str.injEq, List.cons.injEq, Prod.mk.injEq, true_and,
        and_true] at h
      rw [h.1, Expr.toJson_injective h.2]
    | _ => simp [toJson] at h
  | block body =>
    cases s' with
    | block body' =>
      simp only [toJson, Json.obj.injEq, Json.arr.injEq, List.cons.injEq, Prod.mk.injEq, true_and,
        and_true] at h
      rw [toJsonAll_injective _ _ h]
    | _ => simp [toJson] at h
  | invalid =>
    cases s' with
    | invalid => rfl
    | _ => simp [toJson] at h
  | skipped =>
    cases s' with
    | skipped => rfl
    | _ => simp [toJson] at h

theorem toJsonAll_injective (body body' : List Statement)
    (h : toJsonAll body = toJsonAll body') : body = body' := by
  cases body with
  | nil =>
    cases body' with
    | nil => rfl
    | cons s' rest' => cases h
  | cons s rest =>
    cases body' with
    | nil => cases h
    | cons s' rest' =>
      obtain ⟨hs, hrest⟩ := List.cons.inj h
      rw [toJson_injective s s' hs, toJsonAll_injective rest rest' hrest]

theorem alternateJson_injective (alternate alternate' : Option (List Statement))
    (h : alternateJson alternate = alternateJson alternate') : alternate = alternate' := by
  cases alternate with
  | none =>
    cases alternate' with
    | none => rfl
    | some body' => cases h
  | some body =>
    cases alternate' with
    | none => cases h
    | some body' =>
      simp only [alternateJson, Json.obj.injEq, Json.arr.injEq, List.cons.injEq, Prod.mk.injEq,
        true_and, and_true] at h
      rw [toJsonAll_injective _ _ h]

end

end Statement

theorem Program.toJson_injective : Function.Injective Program.toJson := by
  intro p q h
  simp only [Program.toJson, Json.obj.injEq, Json.arr.injEq, List.cons.injEq, Prod.mk.injEq,
    true_and, and_true] at h
  exact congrArg Program.mk (Statement.toJsonAll_injective _ _ h)

theorem Cause.toJson_injective : Function.Injective Cause.toJson := by
  intro c c' h
  cases c <;> cases c' <;> simp_all [Cause.toJson]

theorem Diagnostic.toJson_injective : Function.Injective Diagnostic.toJson := by
  intro d d' h
  simp only [Diagnostic.toJson, Span.toJson, Json.obj.injEq, Json.natural.injEq, List.cons.injEq,
    Prod.mk.injEq, true_and, and_true] at h
  obtain ⟨hcause, hline, hcolumn, hstart, hstop⟩ := h
  obtain ⟨cause, ⟨line, column⟩, ⟨start, stop⟩⟩ := d
  obtain ⟨cause', ⟨line', column'⟩, ⟨start', stop'⟩⟩ := d'
  cases Cause.toJson_injective hcause
  simp_all

/-! ### Results -/

namespace ParseResult

variable {r s : ParseResult} {success success' : Bool}

/-- The JSON of a result that is said to be a success or not, whatever its errors. -/
def toJsonAs (success : Bool) (r : ParseResult) : Json := .obj [
  ("success", .bool success),
  ("ast", r.program.toJson),
  ("errors", .arr (r.errors.map Diagnostic.toJson))]

/-- The JSON of a result by itself says what its errors say. -/
theorem toJson_eq_toJsonAs (r : ParseResult) : r.toJson = toJsonAs r.success r := rfl

/-- Every number in the program is finite. -/
def AllFinite (r : ParseResult) : Prop :=
  ∀ x ∈ Statement.operandsAll r.program.statements, x.IsFinite

instance : DecidablePred AllFinite := fun _ => List.decidableBAll _ _

theorem AllFinite.toJsonAs (h : r.AllFinite) (success : Bool) : (toJsonAs success r).Finite := by
  have hprogram := Statement.finite_toJsonAll _ h
  have herrors := Diagnostic.finite_toJson
  simpa [ParseResult.toJsonAs, Program.toJson, herrors] using hprogram

theorem eq_of_toJsonAs (h : toJsonAs success r = toJsonAs success' s) :
    success = success' ∧ r = s := by
  simp only [toJsonAs, Json.obj.injEq, Json.bool.injEq, Json.arr.injEq, List.cons.injEq,
    Prod.mk.injEq, true_and, and_true] at h
  obtain ⟨hsuccess, hprogram, herrors⟩ := h
  obtain ⟨program, errors⟩ := r
  obtain ⟨program', errors'⟩ := s
  cases Program.toJson_injective hprogram
  cases List.map_injective_iff.mpr Diagnostic.toJson_injective herrors
  exact ⟨hsuccess, rfl⟩

/-- Results whose JSON has the same text, in either form, are the same in everything. -/
theorem eq_of_json_text (hr : r.AllFinite) (hs : s.AllFinite)
    (h : (toJsonAs success r).compact = (toJsonAs success' s).compact ∨
      ∃ depth, (toJsonAs success r).pretty depth = (toJsonAs success' s).pretty depth) :
    success = success' ∧ r = s := by
  have hr' := hr.toJsonAs success
  have hs' := hs.toJsonAs success'
  rcases h with hcompact | ⟨depth, hpretty⟩
  · exact eq_of_toJsonAs (hr'.eq_of_compact hs' hcompact)
  · exact eq_of_toJsonAs (hr'.eq_of_pretty hs' depth hpretty)

/-- A number and something wrong with its place. -/
def tooDeep (value : Binary64) : ParseResult where
  program := compared value
  errors := [⟨.nestingTooDeep 2, ⟨1, 4⟩, ⟨3, 4⟩⟩, ⟨.unexpectedToken "RBRACE" "\n", ⟨2, 1⟩, ⟨5, 5⟩⟩]

theorem eq_of_json_text_tooDeep :
    (tooDeep (.ofDecimal false ⟨50, -1⟩)).AllFinite ∧
      (tooDeep (.ofDecimal false ⟨5, 0⟩)).AllFinite ∧
      (tooDeep (.ofDecimal false ⟨50, -1⟩)).toJson.pretty 0 =
        (tooDeep (.ofDecimal false ⟨5, 0⟩)).toJson.pretty 0 ∧
      tooDeep (.ofDecimal false ⟨50, -1⟩) = tooDeep (.ofDecimal false ⟨5, 0⟩) := by
  have hr : (tooDeep (.ofDecimal false ⟨50, -1⟩)).AllFinite := by decide +kernel
  have hs : (tooDeep (.ofDecimal false ⟨5, 0⟩)).AllFinite := by decide +kernel
  have h : (tooDeep (.ofDecimal false ⟨50, -1⟩)).toJson.pretty 0 =
      (tooDeep (.ofDecimal false ⟨5, 0⟩)).toJson.pretty 0 := by decide +kernel
  have htext := h
  rw [toJson_eq_toJsonAs, toJson_eq_toJsonAs] at htext
  exact ⟨hr, hs, h, (eq_of_json_text hr hs (.inr ⟨0, htext⟩)).2⟩

end ParseResult

end DollarScript
