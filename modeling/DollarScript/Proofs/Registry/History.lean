import DollarScript.Proofs.Registry.Sorting
import DollarScript.Proofs.Text.Uppercase

/-! What a registry holds after a sequence of calls: one entry for each name, with the patterns
given for it and the last of its priorities. -/
namespace DollarScript

/-- A pattern given for a name. -/
structure Registration where
  name : String
  pattern : Pattern
  priority : Option Int

/-- The kind that the name stands for. -/
def Registration.kind (x : Registration) : String := Kind.canonical x.name

/-- The ways to register a pattern. -/
inductive Call where
  | register (name : String) (pattern : Pattern) (priority : Option Int)
  | addPattern (name : String) (pattern : Pattern)
  | addPatternWithPriority (name : String) (pattern : Pattern) (priority : Int)
  | addRegex (name source : String)
  | addRegexWithPriority (name source : String) (priority : Int)
  | addLiteral (name text : String)

namespace Call

/-- What a call registers: nothing, if its source is no regular expression. -/
def registration? : Call → Option Registration
  | .register name pattern priority => some ⟨name, pattern, priority⟩
  | .addPattern name pattern => some ⟨name, pattern, none⟩
  | .addPatternWithPriority name pattern priority => some ⟨name, pattern, some priority⟩
  | .addRegex name source => (Pattern.regex? source).map fun p => ⟨name, p, none⟩
  | .addRegexWithPriority name source priority =>
    (Pattern.regex? source).map fun p => ⟨name, p, some priority⟩
  | .addLiteral name text => some ⟨name, .literal text, none⟩

/-- A call that fails leaves the registry as it is. -/
def run (r : Registry) (call : Call) : Registry :=
  match call.registration? with
  | some x => r.register x.name x.pattern x.priority
  | none => r

end Call

/-- The entry that a history leaves for a kind: its patterns in the order of the calls, and the
last priority given, or 0. -/
def Entry.ofHistory (history : List Registration) (kind : String) : Entry where
  name := kind
  priority := ((history.filter (·.kind = kind)).filterMap Registration.priority).getLast?.getD 0
  patterns := (history.filter (·.kind = kind)).map Registration.pattern

/-- The entry with one more pattern; a priority replaces that of the entry. -/
def Entry.extend (e : Entry) (pattern : Pattern) (priority : Option Int) : Entry :=
  { e with priority := priority.getD e.priority, patterns := e.patterns ++ [pattern] }

namespace Entry

variable {history : List Registration} {kind : String}

theorem ofHistory_concat_of_eq {x : Registration} (h : x.kind = kind) :
    ofHistory (history ++ [x]) kind = (ofHistory history kind).extend x.pattern x.priority := by
  have hfilter : (history ++ [x]).filter (·.kind = kind) =
      history.filter (·.kind = kind) ++ [x] := by
    simp [h]
  simp only [ofHistory, extend, hfilter, List.map_append, List.filterMap_append]
  cases hx : x.priority with
  | none => simp [hx]
  | some p => simp [hx]

theorem ofHistory_concat_of_ne {x : Registration} (h : x.kind ≠ kind) :
    ofHistory (history ++ [x]) kind = ofHistory history kind := by
  simp [ofHistory, h]

theorem ofHistory_new (h : kind ∉ history.map Registration.kind) :
    ofHistory history kind = ⟨kind, 0, []⟩ := by
  have hnone : history.filter (·.kind = kind) = [] := by
    rw [List.filter_eq_nil_iff]
    intro x hx hk
    exact h (List.mem_map.mpr ⟨x, hx, by simpa using hk⟩)
  simp [ofHistory, hnone]

end Entry

namespace Registry

/-- The registry after some calls, from an empty one on. -/
def ofCalls (calls : List Call) : Registry := calls.foldl Call.run empty

/-- There is one entry for each kind in the history, and it holds what was given for this kind. -/
structure Records (history : List Registration) (es : List Entry) : Prop where
  distinct : (es.map Entry.name).Nodup
  named : ∀ kind, kind ∈ es.map Entry.name ↔ kind ∈ history.map Registration.kind
  held : ∀ e ∈ es, e = Entry.ofHistory history e.name

/-- Names and priorities in their order. -/
def layout (es : List Entry) : List (String × Int) := es.map fun e => (e.name, e.priority)

variable {history : List Registration} {es es' : List Entry}

/-- A pattern goes to the first entry of its name, or else to a new entry behind all others. -/
theorem addPattern_cases (name : String) (pattern : Pattern) (priority : Option Int)
    (es : List Entry) :
    (name ∉ es.map Entry.name ∧
      addPattern name pattern priority es = es ++ [Entry.extend ⟨name, 0, []⟩ pattern priority]) ∨
    ∃ front e back, es = front ++ e :: back ∧ e.name = name ∧
      addPattern name pattern priority es = front ++ e.extend pattern priority :: back := by
  induction es with
  | nil => exact .inl ⟨List.not_mem_nil, rfl⟩
  | cons e es ih =>
    unfold addPattern
    by_cases he : e.name = name
    · right
      refine ⟨[], e, es, rfl, he, ?_⟩
      rw [if_pos (beq_iff_eq.mpr he)]
      rfl
    · rw [if_neg (mt beq_iff_eq.mp he)]
      rcases ih with ⟨hnew, heq⟩ | ⟨front, f, back, rfl, hf, heq⟩
      · left
        refine ⟨?_, by rw [heq, List.cons_append]⟩
        rw [List.map_cons, List.mem_cons, not_or]
        exact ⟨fun h => he h.symm, hnew⟩
      · exact .inr ⟨e :: front, f, back, rfl, hf, by rw [heq, List.cons_append]⟩

theorem Records.empty : Records [] [] := ⟨List.nodup_nil, by simp, by simp⟩

theorem Records.perm (h : Records history es) (hp : es'.Perm es) : Records history es' := by
  have hnames := hp.map Entry.name
  refine ⟨hnames.nodup_iff.mpr h.distinct, ?_, ?_⟩
  · intro kind
    rw [hnames.mem_iff, h.named]
  · intro e he
    exact h.held e (hp.mem_iff.mp he)

/-- The kind of the last registration stands in front of the other kinds, which are as before. -/
theorem Records.cons {x : Registration} (hdistinct : (es.map Entry.name).Nodup)
    (hother : x.kind ∉ es.map Entry.name)
    (hnamed : ∀ kind, kind ≠ x.kind →
      (kind ∈ es.map Entry.name ↔ kind ∈ history.map Registration.kind))
    (hheld : ∀ e ∈ es, e = Entry.ofHistory history e.name) :
    Records (history ++ [x]) (Entry.ofHistory (history ++ [x]) x.kind :: es) := by
  refine ⟨List.nodup_cons.mpr ⟨hother, hdistinct⟩, ?_, ?_⟩
  · intro kind
    rw [List.map_cons, List.mem_cons, List.map_append, List.mem_append, List.map_singleton,
      List.mem_singleton]
    by_cases hkind : kind = x.kind
    · exact iff_of_true (.inl hkind) (.inr hkind)
    · rw [hnamed kind hkind]
      exact ⟨fun h => .inl (h.resolve_left hkind), fun h => .inr (h.resolve_right hkind)⟩
  · intro e he
    rcases List.mem_cons.mp he with rfl | he
    · rfl
    · have hne : x.kind ≠ e.name := fun h => hother (h ▸ List.mem_map_of_mem he)
      rw [Entry.ofHistory_concat_of_ne hne]
      exact hheld e he

/-- One registration more is recorded. -/
theorem Records.addPattern (h : Records history es) (x : Registration) :
    Records (history ++ [x]) (addPattern x.kind x.pattern x.priority es) := by
  have hextend : Entry.ofHistory (history ++ [x]) x.kind =
      (Entry.ofHistory history x.kind).extend x.pattern x.priority :=
    Entry.ofHistory_concat_of_eq rfl
  rcases addPattern_cases x.kind x.pattern x.priority es with
    ⟨hnew, heq⟩ | ⟨front, e, back, rfl, hname, heq⟩
  · have hhistory : x.kind ∉ history.map Registration.kind := by rwa [← h.named]
    rw [heq, ← Entry.ofHistory_new hhistory, ← hextend]
    refine Records.perm ?_ (List.perm_append_singleton _ es)
    exact .cons h.distinct hnew (fun kind _ => h.named kind) h.held
  · have h := h.perm List.perm_middle.symm
    have he : e = Entry.ofHistory history x.kind := by
      rw [← hname]
      exact h.held e List.mem_cons_self
    obtain ⟨hother, hdistinct⟩ := List.nodup_cons.mp h.distinct
    rw [heq, he, ← hextend]
    refine Records.perm ?_ List.perm_middle
    refine .cons hdistinct (hname ▸ hother) ?_ fun f hf => h.held f (List.mem_cons_of_mem _ hf)
    intro kind hkind
    rw [← h.named, List.map_cons, List.mem_cons, hname]
    exact ⟨.inr, fun hor => hor.resolve_left hkind⟩

theorem Records.register {r : Registry} (h : Records history r.entries) (x : Registration) :
    Records (history ++ [x]) (r.register x.name x.pattern x.priority).entries := by
  have hadd := h.addPattern x
  unfold Registry.register
  split
  · exact hadd.perm (sortByPriority_perm _)
  · exact hadd

theorem ofCalls_concat (calls : List Call) (call : Call) :
    ofCalls (calls ++ [call]) = call.run (ofCalls calls) := by
  simp [ofCalls]

theorem ofCalls_records (calls : List Call) :
    Records (calls.filterMap Call.registration?) (ofCalls calls).entries := by
  induction calls using List.reverseRecOn with
  | nil => exact .empty
  | append_singleton calls call ih =>
    rw [ofCalls_concat, List.filterMap_append]
    cases hx : call.registration? with
    | none => simpa [Call.run, hx] using ih
    | some x => simpa [Call.run, hx] using ih.register x

/-- Look-up makes a name canonical again, which changes nothing, and there is one entry at most. -/
theorem Records.indexOf? {r : Registry} (h : Records history r.entries) (name : String) (i : Nat) :
    r.indexOf? (Kind.canonical name) = some i ↔
      (r.entries[i]?).map Entry.name = some (Kind.canonical name) := by
  rw [Registry.indexOf?, Kind.canonical_canonical, List.findIdx?_eq_some_iff_getElem]
  constructor
  · rintro ⟨hi, hname, -⟩
    simpa [hi] using hname
  · intro hname
    obtain ⟨e, he, hname⟩ := Option.map_eq_some_iff.mp hname
    obtain ⟨hi, rfl⟩ := List.getElem?_eq_some_iff.mp he
    refine ⟨hi, by simpa using hname, ?_⟩
    intro j hj
    have hne := List.pairwise_iff_getElem.mp h.distinct j i (by simp; omega) (by simpa) hj
    simpa [hname] using hne

/-- Without a priority, nothing is moved. -/
theorem layout_addPattern (name : String) (pattern : Pattern) (es : List Entry) :
    layout (addPattern name pattern none es) =
      layout es ++ if name ∈ es.map Entry.name then [] else [(name, 0)] := by
  rcases addPattern_cases name pattern none es with ⟨hnew, heq⟩ | ⟨front, e, back, rfl, hname, heq⟩
  · rw [heq, if_neg hnew]
    simp [layout, Entry.extend]
  · have hmem : name ∈ (front ++ e :: back).map Entry.name := by
      simp [hname]
    rw [heq, if_pos hmem]
    simp [layout, Entry.extend]

/-- Whatever the calls were, there is one entry for each canonical name that was registered, found
under this name; it holds all patterns given for it, in order, and the last priority given, or 0. A
call with a priority leaves the entries sorted. One without changes neither order nor priorities
and puts a new entry last. A call that fails changes nothing. -/
theorem ofCalls_follows_history (calls : List Call) :
    let r := ofCalls calls
    Records (calls.filterMap Call.registration?) r.entries ∧
    (∀ name i, r.indexOf? (Kind.canonical name) = some i ↔
      (r.entries[i]?).map Entry.name = some (Kind.canonical name)) ∧
    (∀ call x, call.registration? = some x → x.priority ≠ none →
      Sorted (ofCalls (calls ++ [call])).entries) ∧
    (∀ call x, call.registration? = some x → x.priority = none →
      layout (ofCalls (calls ++ [call])).entries =
        layout r.entries ++ if x.kind ∈ r.entries.map Entry.name then [] else [(x.kind, 0)]) ∧
    (∀ call, call.registration? = none → ofCalls (calls ++ [call]) = r) := by
  intro r
  have hrecords := ofCalls_records calls
  refine ⟨hrecords, hrecords.indexOf?, ?_, ?_, ?_⟩
  · intro call x hx hpriority
    rw [ofCalls_concat]
    obtain ⟨p, hp⟩ := Option.ne_none_iff_exists'.mp hpriority
    simp only [Call.run, hx, Registry.register, hp, Option.isSome_some, if_true]
    exact sortByPriority_sorted _
  · intro call x hx hpriority
    rw [ofCalls_concat]
    simp only [Call.run, hx, Registry.register, hpriority, Option.isSome_none, Bool.false_eq_true,
      if_false]
    exact layout_addPattern x.kind x.pattern r.entries
  · intro call hx
    rw [ofCalls_concat, Call.run, hx]

-- the last call neither moves its kind to the front nor gives it another entry
example : layout (ofCalls [.addLiteral "Sign" "+", .addPatternWithPriority "word" (.literal "a") 2,
    .register "sign" (.literal "-") (some 1), .addLiteral "SIGN" "*"]).entries =
      [("WORD", 2), ("SIGN", 1)] := by
  decide

end Registry

end DollarScript
