import DollarScript.Proofs.Parser.Agreement

/-! Placeholders in a program stand for diagnostics: there are none exactly when nothing was wrong,
and never more of them than diagnostics. -/
namespace DollarScript

namespace Statement

/-- A statement stands in the list, or in a block of one that does, at any depth. -/
inductive Occurs (s : Statement) : List Statement → Prop
  | here {rest} : Occurs s (s :: rest)
  | later {t rest} : Occurs s rest → Occurs s (t :: rest)
  | inBlock {body rest} : Occurs s body → Occurs s (.block body :: rest)
  | inConsequent {test body alternate rest} :
      Occurs s body → Occurs s (.conditional test body alternate :: rest)
  | inAlternate {test consequent body rest} :
      Occurs s body → Occurs s (.conditional test consequent (some body) :: rest)

mutual

/-- How many placeholders stand in a statement, at any depth. -/
def placeholders : Statement → Nat
  | .conditional _ consequent alternate =>
    placeholdersAll consequent + placeholdersAlternate alternate
  | .assignment _ _ => 0
  | .block body => placeholdersAll body
  | .invalid => 1
  | .skipped => 1

def placeholdersAll : List Statement → Nat
  | [] => 0
  | s :: rest => s.placeholders + placeholdersAll rest

def placeholdersAlternate : Option (List Statement) → Nat
  | none => 0
  | some body => placeholdersAll body

end

theorem Occurs.placeholders_pos {s : Statement} {ss : List Statement} (h : Occurs s ss)
    (hs : 0 < s.placeholders) : 0 < placeholdersAll ss := by
  induction h with
  | here =>
    simp only [placeholdersAll]
    omega
  | later _ ih =>
    simp only [placeholdersAll]
    omega
  | inBlock _ ih | inConsequent _ ih | inAlternate _ ih =>
    simp only [placeholdersAll, placeholders, placeholdersAlternate]
    omega

mutual

theorem occurs_of_placeholders {s : Statement} {rest : List Statement} (h : 0 < s.placeholders) :
    Occurs .invalid (s :: rest) ∨ Occurs .skipped (s :: rest) := by
  cases s with
  | conditional test consequent alternate =>
    by_cases hc : 0 < placeholdersAll consequent
    · exact (occurs_of_placeholdersAll hc).imp .inConsequent .inConsequent
    · cases alternate with
      | none =>
        simp only [placeholders, placeholdersAlternate] at h
        omega
      | some body =>
        have hb : 0 < placeholdersAll body := by
          simp only [placeholders, placeholdersAlternate] at h
          omega
        exact (occurs_of_placeholdersAll hb).imp .inAlternate .inAlternate
  | assignment => simp [placeholders] at h
  | block body =>
    have hb : 0 < placeholdersAll body := by simpa only [placeholders] using h
    exact (occurs_of_placeholdersAll hb).imp .inBlock .inBlock
  | invalid => exact .inl .here
  | skipped => exact .inr .here

theorem occurs_of_placeholdersAll {ss : List Statement} (h : 0 < placeholdersAll ss) :
    Occurs .invalid ss ∨ Occurs .skipped ss := by
  cases ss with
  | nil => simp [placeholdersAll] at h
  | cons s rest =>
    by_cases hs : 0 < s.placeholders
    · exact occurs_of_placeholders hs
    · have hr : 0 < placeholdersAll rest := by
        simp only [placeholdersAll] at h
        omega
      exact (occurs_of_placeholdersAll hr).imp .later .later

end

theorem placeholdersAll_eq_zero {ss : List Statement} :
    placeholdersAll ss = 0 ↔ ¬ Occurs .invalid ss ∧ ¬ Occurs .skipped ss := by
  constructor
  · intro h
    constructor <;> intro ho
    · have := ho.placeholders_pos (by decide)
      omega
    · have := ho.placeholders_pos (by decide)
      omega
  · rintro ⟨hi, hs⟩
    rcases Nat.eq_zero_or_pos (placeholdersAll ss) with h | h
    · exact h
    · rcases occurs_of_placeholdersAll h with h | h
      · exact absurd h hi
      · exact absurd h hs

end Statement

namespace Parser

open Statement

variable {g : Setting} {depth : Nat} {part : Part} {ts us : List Token} {log : List Event}
  {q : Ending (List Statement)} {ss : List Statement}

/-- A part that fails may lose placeholders, but the fault it fails with becomes one in turn. -/
theorem Run.placeholders (h : Run g depth part ts log q) (hq : q = .ok ss us) :
    placeholdersAll ss ≤ (noted log).length ∧
      (placeholdersAll ss = 0 → (noted log).length = 0) := by
  induction h generalizing ss us with
  | stop =>
    cases hq
    simp [placeholdersAll]
  | next _ _ _ ih ih' =>
    cases hq
    have hs := ih rfl
    have hr := ih' rfl
    simp only [placeholdersAll, noted_append, List.length_append] at hs hr ⊢
    omega
  | closed _ _ _ _ ih =>
    cases hq
    simpa using ih rfl
  | alone _ _ _ ih =>
    cases hq
    simpa [placeholdersAll, Statement.placeholders, placeholdersAlternate] using ih rfl
  | alternate _ _ _ _ ih ih' =>
    cases hq
    have hc := ih rfl
    have ha := ih' rfl
    simp only [placeholdersAll, Statement.placeholders, placeholdersAlternate, noted_append,
      List.length_append]
    omega
  | assigned =>
    cases hq
    simp [placeholdersAll, Statement.placeholders]
  | simple _ _ _ ih =>
    cases hq
    exact ih rfl
  | block _ _ ih =>
    cases hq
    simpa [placeholdersAll, Statement.placeholders] using ih rfl
  | skipped | invalid =>
    cases hq
    simp [placeholdersAll, Statement.placeholders]
  | _ => cases hq

end Parser

/-- Nothing was wrong exactly when no placeholder stands anywhere in the program. -/
theorem success_iff_no_placeholder (options : ParserOptions) (stream : TokenStream) :
    let r := parseTokens options stream
    (r.success = true ↔ r.errors = []) ∧
    (r.errors = [] ↔ ¬ Statement.Occurs .invalid r.program.statements ∧
      ¬ Statement.Occurs .skipped r.program.statements) ∧
    Statement.placeholdersAll r.program.statements ≤ r.errors.length := by
  obtain ⟨log, ss, hrun, heq⟩ := Parser.parseTokens_runs options stream
  obtain ⟨hle, hzero⟩ := hrun.placeholders rfl
  rw [heq]
  refine ⟨by simp [ParseResult.success], ?_, by simpa using hle⟩
  rw [← Statement.placeholdersAll_eq_zero, ← List.length_eq_zero_iff, List.length_map]
  exact ⟨fun hn => Nat.le_zero.mp (hn ▸ hle), hzero⟩

end DollarScript
