import DollarScript.Parser
import DollarScript.Proofs.Registry.History

/-! Calls with priorities may change places as long as those of one priority keep their order. -/
namespace DollarScript

namespace Call

def name : Call → String
  | .register name .. | .addPattern name _ | .addPatternWithPriority name ..
  | .addRegex name _ | .addRegexWithPriority name .. | .addLiteral name _ => name

/-- The priority that a call carries, whether it fails or not. -/
def priority : Call → Option Int
  | .register _ _ priority => priority
  | .addPatternWithPriority _ _ priority | .addRegexWithPriority _ _ priority => some priority
  | .addPattern .. | .addRegex .. | .addLiteral .. => none

variable {call : Call} {x : Registration}

theorem of_registration? (h : call.registration? = some x) :
    x.name = call.name ∧ x.priority = call.priority := by
  cases call with
  | addRegex | addRegexWithPriority =>
    obtain ⟨p, -, rfl⟩ := Option.map_eq_some_iff.mp h
    exact ⟨rfl, rfl⟩
  | _ =>
    cases h
    exact ⟨rfl, rfl⟩

theorem run_entries {r : Registry} {q : Int} (hx : call.registration? = some x)
    (hq : call.priority = some q) :
    (call.run r).entries = Registry.sortByPriority
      (Registry.addPattern (Kind.canonical call.name) x.pattern (some q) r.entries) := by
  obtain ⟨hname, hpriority⟩ := of_registration? hx
  simp only [run, hx, Registry.register, hpriority, hq, hname, Option.isSome_some, if_true]

end Call

/-- Every call has a priority, which is the same for all calls of one kind. -/
structure Prioritized (calls : List Call) : Prop where
  given : ∀ c ∈ calls, c.priority ≠ none
  agreed : ∀ c ∈ calls, ∀ d ∈ calls, Kind.canonical c.name = Kind.canonical d.name →
    c.priority = d.priority

/-- The same calls, where those of one priority are in the same order. -/
structure Rearranged (calls calls' : List Call) : Prop where
  perm : calls'.Perm calls
  order : ∀ p, calls'.filter (·.priority = p) = calls.filter (·.priority = p)

variable {calls calls' : List Call} {call : Call} {p q : Int}

theorem Prioritized.mono (h : Prioritized calls) (hsub : calls' ⊆ calls) : Prioritized calls' where
  given c hc := h.given c (hsub hc)
  agreed c hc d hd := h.agreed c (hsub hc) d (hsub hd)

/-- If one priority was ever given for a kind, its entry has it. -/
theorem Entry.ofHistory_priority {history : List Registration} {kind : String}
    (hmem : kind ∈ history.map Registration.kind)
    (h : ∀ x ∈ history, x.kind = kind → x.priority = some p) :
    (ofHistory history kind).priority = p := by
  obtain ⟨x, hx, hkind⟩ := List.mem_map.mp hmem
  have hgiven : p ∈ (history.filter (·.kind = kind)).filterMap Registration.priority := by
    refine List.mem_filterMap.mpr ⟨x, ?_, h x hx hkind⟩
    simp [hx, hkind]
  have honly : ∀ q ∈ (history.filter (·.kind = kind)).filterMap Registration.priority, q = p := by
    intro q hq
    obtain ⟨y, hy, hpriority⟩ := List.mem_filterMap.mp hq
    obtain ⟨hy, hkind⟩ := List.mem_filter.mp hy
    rw [h y hy (by simpa using hkind)] at hpriority
    exact (Option.some.inj hpriority).symm
  have hlast := List.getLast?_eq_some_getLast (List.ne_nil_of_mem hgiven)
  rw [ofHistory, hlast]
  exact honly _ (List.getLast_mem _)

namespace Registry

variable {es : List Entry}

/-- If the entry of a name has the priority that is given with a pattern, it stays among those of
its priority, and no others are changed. -/
theorem ofPriority_addPattern {name : String} (pattern : Pattern)
    (h : ∀ e ∈ es, e.name = name → e.priority = q) :
    ofPriority p (addPattern name pattern (some q) es) =
      if q = p then addPattern name pattern (some q) (ofPriority p es) else ofPriority p es := by
  induction es with
  | nil =>
    by_cases hq : q = p
    · rw [if_pos hq]
      exact ofPriority_cons_of_eq hq
    · rw [if_neg hq]
      exact ofPriority_cons_of_ne hq
  | cons e es ih =>
    have ih := ih fun f hf => h f (List.mem_cons_of_mem e hf)
    by_cases he : e.name = name
    · have hpriority := h e List.mem_cons_self he
      by_cases hq : q = p
      · rw [if_pos hq, ofPriority_cons_of_eq (hpriority.trans hq)]
        simp [addPattern, he, ofPriority, hq]
      · rw [if_neg hq, ofPriority_cons_of_ne (hpriority.trans_ne hq)]
        simp [addPattern, he, ofPriority, hq]
    · by_cases hp : e.priority = p
      · rw [ofPriority_cons_of_eq hp]
        simp only [addPattern, beq_iff_eq, he, if_false, ofPriority_cons_of_eq hp, ih]
        split <;> rfl
      · rw [ofPriority_cons_of_ne hp]
        simp only [addPattern, beq_iff_eq, he, if_false, ofPriority_cons_of_ne hp, ih]

/-- A call acts on the entries of its priority as if there were no others. -/
theorem ofPriority_run {r : Registry} (hq : call.priority = some q)
    (h : ∀ e ∈ r.entries, e.name = Kind.canonical call.name → e.priority = q) :
    ofPriority p (call.run r).entries =
      if q = p then (call.run ⟨ofPriority p r.entries⟩).entries else ofPriority p r.entries := by
  cases hx : call.registration? with
  | none =>
    simp only [Call.run, hx]
    split <;> rfl
  | some x =>
    have hadd := ofPriority_addPattern (p := p) x.pattern h
    rw [Call.run_entries hx hq, ofPriority_sortByPriority, hadd, Call.run_entries hx hq]
    split
    · rename_i hp
      rw [if_pos hp] at hadd
      rw [← hadd]
      exact ((ofPriority_sorted p _).sortByPriority_eq).symm
    · rfl

end Registry

namespace Prioritized

open Registry

/-- The priority of a call is what the entry of its kind has, if there is one. -/
theorem entry_priority (h : Prioritized (calls ++ [call])) (hp : call.priority = some p) :
    ∀ e ∈ (ofCalls calls).entries, e.name = Kind.canonical call.name → e.priority = p := by
  intro e he hname
  have hrecords := ofCalls_records calls
  rw [hrecords.held e he]
  refine Entry.ofHistory_priority ((hrecords.named e.name).mp (List.mem_map_of_mem he)) ?_
  intro x hx hkind
  obtain ⟨d, hd, hx⟩ := List.mem_filterMap.mp hx
  obtain ⟨hxname, hxpriority⟩ := Call.of_registration? hx
  rw [hxpriority, ← hp]
  refine h.agreed d (List.mem_append_left _ hd) call List.mem_concat_self ?_
  rw [← hxname, ← hname]
  exact hkind

theorem sorted (h : Prioritized calls) : Sorted (ofCalls calls).entries := by
  induction calls using List.reverseRecOn with
  | nil => exact List.Pairwise.nil
  | append_singleton calls call ih =>
    rw [ofCalls_concat]
    cases hx : call.registration? with
    | none =>
      rw [Call.run, hx]
      exact ih (h.mono (List.subset_append_left calls [call]))
    | some x =>
      obtain ⟨q, hq⟩ := Option.ne_none_iff_exists'.mp (h.given call List.mem_concat_self)
      rw [Call.run_entries hx hq]
      exact sortByPriority_sorted _

/-- The entries of one priority are what the calls of this priority build. -/
theorem ofPriority_entries (h : Prioritized calls) (p : Int) :
    ofPriority p (ofCalls calls).entries =
      (ofCalls (calls.filter (·.priority = some p))).entries := by
  induction calls using List.reverseRecOn with
  | nil => rfl
  | append_singleton calls call ih =>
    have ih := ih (h.mono (List.subset_append_left calls [call]))
    obtain ⟨q, hq⟩ := Option.ne_none_iff_exists'.mp (h.given call List.mem_concat_self)
    rw [ofCalls_concat, ofPriority_run hq (h.entry_priority hq), ih, List.filter_append]
    split
    · rename_i hp
      have hkept : [call].filter (·.priority = some p) = [call] := by simp [hq, hp]
      rw [hkept, ofCalls_concat]
    · rename_i hp
      have hleft : [call].filter (·.priority = some p) = [] := by simp [hq, hp]
      rw [hleft, List.append_nil]

end Prioritized

open Registry

/-- Calls that agree on the priority of each kind build the same registry in every order that
leaves calls of equal priority as they were, so what is read with it does not depend on the order. -/
theorem ofCalls_rearranged (h : Prioritized calls) (hr : Rearranged calls calls') :
    ofCalls calls' = ofCalls calls ∧
    ∀ source, Scanner.scan (ofCalls calls') source = Scanner.scan (ofCalls calls) source ∧
      Scanner.words (ofCalls calls') source = Scanner.words (ofCalls calls) source ∧
      ∀ options, parse (ofCalls calls') options source = parse (ofCalls calls) options source := by
  have h' : Prioritized calls' := h.mono hr.perm.subset
  have hentries : (ofCalls calls').entries = (ofCalls calls).entries := by
    refine h'.sorted.eq_of_ofPriority h.sorted ?_
    intro p
    rw [h'.ofPriority_entries, h.ofPriority_entries, hr.order]
  have hsame : ofCalls calls' = ofCalls calls := congrArg Registry.mk hentries
  rw [hsame]
  exact ⟨rfl, fun source => ⟨rfl, rfl, fun options => rfl⟩⟩

/-- Two kinds of one priority, and between them one of a higher priority in two spellings. -/
def interleaved : List Call := [
  .addPatternWithPriority "plus" (.literal "+") 1, .register "Word" (.literal "ab") (some 5),
  .addPatternWithPriority "join" (.literal "++") 1, .addPatternWithPriority "WORD" (.literal "a") 5]

/-- The same calls, kind by kind. -/
def grouped : List Call := [
  .register "Word" (.literal "ab") (some 5), .addPatternWithPriority "WORD" (.literal "a") 5,
  .addPatternWithPriority "plus" (.literal "+") 1, .addPatternWithPriority "join" (.literal "++") 1]

theorem ofCalls_grouped :
    ofCalls grouped = ofCalls interleaved ∧
    layout (ofCalls interleaved).entries = [("WORD", 5), ("PLUS", 1), ("JOIN", 1)] := by
  have hagreed : Prioritized interleaved := ⟨by decide, by decide +kernel⟩
  have hkept : Rearranged interleaved grouped := by
    constructor
    · exact .trans (.cons _ (.swap ..)) (.trans (.swap ..) (.cons _ (.cons _ (.swap ..))))
    · intro p
      by_cases hp : p = some 5
      · simp [interleaved, grouped, Call.priority, hp]
      · simp [interleaved, grouped, Call.priority, Ne.symm hp, List.filter_cons]
  refine ⟨(ofCalls_rearranged hagreed hkept).1, ?_⟩
  decide +kernel

end DollarScript
