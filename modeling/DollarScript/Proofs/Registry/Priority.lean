import DollarScript.Proofs.Registry.History
import DollarScript.Proofs.Scanner.FirstMatch

/-! The first kind that matches has the highest priority of all that match, as long as kinds without
a priority do not come to stand behind kinds of a lower one. -/
namespace DollarScript

/-- The pattern matches all of the text, or a front of it that is of use. -/
def Pattern.Matches (p : Pattern) (text : List Char) : Extent → Prop
  | .front => ∃ m, p.Offers text m
  | .whole => ∃ m, p.matchWhole text = some m

def Entry.Matches (e : Entry) (text : List Char) (extent : Extent) : Prop :=
  ∃ p ∈ e.patterns, p.Matches text extent

variable {text : List Char} {extent : Extent}

theorem Pattern.match?_eq_none {p : Pattern} :
    p.match? extent text = none ↔ ¬ p.Matches text extent := by
  cases extent with
  | front => simp only [Pattern.match?_front_eq_none, Pattern.Matches, not_exists]
  | whole =>
    simp only [Pattern.match?, Pattern.Matches, Option.eq_none_iff_forall_ne_some, not_exists,
      ne_eq]

theorem Entry.match?_eq_none {e : Entry} :
    e.match? extent text = none ↔ ¬ e.Matches text extent := by
  simp only [Entry.match?, List.findSome?_eq_none_iff, Pattern.match?_eq_none, Entry.Matches,
    not_exists, not_and]

namespace Registry

variable {es : List Entry} {r : Registry} {history : List Registration} {calls : List Call}
  {x : Registration} {hit : Hit}

theorem sorted_iff_layout : Sorted es ↔ (layout es).Pairwise fun a b => b.2 ≤ a.2 := by
  rw [layout, List.pairwise_map]
  exact Iff.rfl

/-- A kind without a priority comes behind all others and has priority 0. -/
theorem Sorted.addPattern {name : String} {pattern : Pattern} (h : Sorted es)
    (hn : ∀ e ∈ es, 0 ≤ e.priority) : Sorted (addPattern name pattern none es) := by
  rw [sorted_iff_layout, layout_addPattern]
  refine List.pairwise_append.mpr ⟨sorted_iff_layout.mp h, ?_, ?_⟩
  · split
    · exact List.Pairwise.nil
    · exact List.pairwise_singleton _ _
  · intro a ha b hb
    obtain ⟨e, he, rfl⟩ := List.mem_map.mp ha
    split at hb
    · cases hb
    · cases List.mem_singleton.mp hb
      exact hn e he

theorem Sorted.register
    (h : x.priority = none → Sorted r.entries ∧ ∀ e ∈ r.entries, 0 ≤ e.priority) :
    Sorted (r.register x.name x.pattern x.priority).entries := by
  cases hp : x.priority with
  | none =>
    obtain ⟨hs, hn⟩ := h hp
    exact hs.addPattern hn
  | some p => exact sortByPriority_sorted _

/-- If no priority given is negative, no kind has a negative one. -/
theorem Records.nonneg (h : Records history es)
    (hn : ∀ x ∈ history, ∀ p ∈ x.priority, 0 ≤ p) : ∀ e ∈ es, 0 ≤ e.priority := by
  intro e he
  rw [h.held e he]
  have hgiven : ∀ p ∈ (history.filter (·.kind = e.name)).filterMap Registration.priority,
      0 ≤ p := by
    intro p hp
    obtain ⟨x, hx, hpriority⟩ := List.mem_filterMap.mp hp
    exact hn x (List.mem_of_mem_filter hx) p hpriority
  simp only [Entry.ofHistory]
  cases hlast : ((history.filter (·.kind = e.name)).filterMap Registration.priority).getLast? with
  | none => exact Int.le_refl 0
  | some p => exact hgiven p (List.mem_of_getLast? hlast)

theorem ofCalls_sorted
    (h : (∀ x ∈ calls.filterMap Call.registration?, ∀ p ∈ x.priority, 0 ≤ p) ∨
      ∃ x, (calls.filterMap Call.registration?).getLast? = some x ∧ x.priority ≠ none) :
    Sorted (ofCalls calls).entries := by
  induction calls using List.reverseRecOn with
  | nil => exact List.Pairwise.nil
  | append_singleton calls call ih =>
    rw [ofCalls_concat]
    cases hx : call.registration? with
    | none =>
      rw [Call.run, hx]
      simpa [List.filterMap_append, hx] using ih (by simpa [List.filterMap_append, hx] using h)
    | some x =>
      simp only [Call.run, hx]
      refine .register fun hpriority => ?_
      have hlast : (calls ++ [call]).filterMap Call.registration? =
          calls.filterMap Call.registration? ++ [x] := by
        simp [List.filterMap_append, hx]
      rw [hlast] at h
      rcases h with hn | ⟨y, hy, hne⟩
      · have hfront := fun y hy => hn y (List.mem_append_left [x] hy)
        exact ⟨ih (.inl hfront), (ofCalls_records calls).nonneg hfront⟩
      · rw [List.getLast?_concat, Option.some.injEq] at hy
        exact absurd (hy ▸ hpriority) hne

theorem first?_eq_some_iff : r.first? extent text = some hit ↔
    r.entries[hit.index]? = some hit.entry ∧ hit.entry.match? extent text = some hit.found ∧
      ∀ k e, r.entries[k]? = some e → e.Matches text extent → hit.index ≤ k := by
  rw [first?, firstFrom_eq_some]
  simp only [Nat.zero_add, Entry.match?_eq_none]
  constructor
  · rintro ⟨i, rfl, he, hf, hbefore⟩
    exact ⟨he, hf, fun k e hk hm => Nat.le_of_not_lt fun hlt => hbefore k hlt e hk hm⟩
  · rintro ⟨he, hf, hleast⟩
    exact ⟨hit.index, rfl, he, hf, fun k hlt e hk hm => absurd (hleast k e hk hm) (by omega)⟩

theorem first?_eq_none_iff :
    r.first? extent text = none ↔ ∀ e ∈ r.entries, ¬ e.Matches text extent := by
  simp only [first?, firstFrom_eq_none, Entry.match?_eq_none]

/-- Where entries are sorted, none behind another has a higher priority. -/
theorem Sorted.priority_le {i k : Nat} {e f : Entry} (h : Sorted es) (he : es[i]? = some e)
    (hf : es[k]? = some f) (hle : i ≤ k) : f.priority ≤ e.priority := by
  obtain ⟨hi, rfl⟩ := List.getElem?_eq_some_iff.mp he
  obtain ⟨hk, rfl⟩ := List.getElem?_eq_some_iff.mp hf
  rcases Nat.eq_or_lt_of_le hle with rfl | hlt
  · exact Int.le_refl _
  · exact List.pairwise_iff_getElem.mp h i k hi hk hlt

/-- If no priority was negative, or the last pattern that was registered came with one, then the
kind found for a text has the highest priority of all kinds that match it, and of those the first
place. Calls that fail register nothing and do not count. -/
theorem highest_priority_first (calls : List Call)
    (h : (∀ x ∈ calls.filterMap Call.registration?, ∀ p ∈ x.priority, 0 ≤ p) ∨
      ∃ x, (calls.filterMap Call.registration?).getLast? = some x ∧ x.priority ≠ none)
    (extent : Extent) (text : List Char) :
    let r := ofCalls calls
    (∀ hit, r.first? extent text = some hit →
      r.entries[hit.index]? = some hit.entry ∧ hit.entry.Matches text extent ∧
      (∀ e ∈ r.entries, e.Matches text extent → e.priority ≤ hit.entry.priority) ∧
      ∀ k e, r.entries[k]? = some e → e.Matches text extent →
        e.priority = hit.entry.priority → hit.index ≤ k) ∧
    (r.first? extent text = none ↔ ∀ e ∈ r.entries, ¬ e.Matches text extent) := by
  intro r
  have hsorted : Sorted r.entries := ofCalls_sorted h
  refine ⟨?_, first?_eq_none_iff⟩
  intro hit hfirst
  obtain ⟨hentry, hfound, hleast⟩ := first?_eq_some_iff.mp hfirst
  refine ⟨hentry, ?_, ?_, fun k e hk hm _ => hleast k e hk hm⟩
  · refine Classical.byContradiction fun hno => ?_
    rw [Entry.match?_eq_none.mpr hno] at hfound
    cases hfound
  · intro e he hm
    obtain ⟨k, hk⟩ := List.mem_iff_getElem?.mp he
    exact hsorted.priority_le hentry hk (hleast k e hk hm)

/-- Two kinds without a priority, and two of one priority between them. -/
def mixedCalls : List Call := [
  .addLiteral "word" "ab", .addPatternWithPriority "letter" (.literal "a") 3,
  .register "pair" (.literal "ab") (some 3), .addLiteral "rest" "a"]

/-- A kind of a negative priority before one without, put behind it by the last call. -/
def loweredCalls : List Call := [
  .addPatternWithPriority "low" (.literal "a") (-1), .addLiteral "plain" "a",
  .addPatternWithPriority "LOW" (.literal "b") (-2)]

theorem highest_priority_mixed :
    ((ofCalls mixedCalls).first? .front ['a', 'b']).map (·.entry.name) = some "LETTER" ∧
    ((ofCalls mixedCalls).first? .whole ['a', 'b']).map (·.entry.name) = some "PAIR" ∧
    (∀ e ∈ (ofCalls mixedCalls).entries, e.Matches ['a', 'b'] .whole → e.priority ≤ 3) ∧
    ((ofCalls loweredCalls).first? .front ['a']).map (·.entry.name) = some "PLAIN" ∧
    (∀ e ∈ (ofCalls loweredCalls).entries, e.Matches ['a'] .front → e.priority ≤ 0) := by
  have hmixed := highest_priority_first mixedCalls (.inl (by decide)) .whole ['a', 'b']
  have hlowered := highest_priority_first loweredCalls (.inr ⟨_, rfl, by decide⟩) .front ['a']
  exact ⟨by decide, by decide, (hmixed.1 _ rfl).2.2.1, by decide, (hlowered.1 _ rfl).2.2.1⟩

-- the second call does not sort, so the kind of the lower priority stays in front
example : ((ofCalls (loweredCalls.take 2)).first? .front ['a']).map (·.entry.priority) =
    some (-1) := by
  decide

end Registry

end DollarScript
