import DollarScript.Proofs.Parser.Accounting

/-! A parse ends, whatever the end token is: every statement takes a token, so there are no more
statements, and no more diagnostics, than tokens. -/
namespace DollarScript

namespace Statement

mutual

/-- How many statements there are in a statement, itself and those in its blocks. -/
def nodes : Statement → Nat
  | .conditional _ consequent alternate => nodesAll consequent + nodesAlternate alternate + 1
  | .block body => nodesAll body + 1
  | .assignment _ _ | .invalid | .skipped => 1

def nodesAll : List Statement → Nat
  | [] => 0
  | s :: rest => s.nodes + nodesAll rest

def nodesAlternate : Option (List Statement) → Nat
  | none => 0
  | some body => nodesAll body

end

@[simp] theorem nodesAll_single (s : Statement) : nodesAll [s] = s.nodes := by
  simp [nodesAll]

end Statement

namespace Parser

open Statement

/-- Of the tokens `ts`, those before the one at `i` have been taken. -/
def State.At (s : State) (ts : List Token) (i : Nat) : Prop := i ≤ ts.length ∧ s.rest = ts.drop i

variable {g : Setting} {depth : Nat} {part : Part} {ts us : List Token} {log : List Event}
  {q : Ending (List Statement)} {ss : List Statement}

theorem length_tail_lt (h : ts ≠ []) : ts.tail.length < ts.length :=
  length_lt_of_suffix_tail h (List.suffix_refl _)

theorem length_tail_le (ts : List Token) : ts.tail.length ≤ ts.length :=
  (List.tail_suffix ts).length_le

/-- A block that is read takes its bracket, even if the end token is one. -/
theorem Run.block_ne_nil (h : Run g depth .block ts log (.ok ss us)) : ts ≠ [] := by
  rintro rfl
  cases h with
  | closed hk _ h hc =>
    have hus : _ = [] := List.suffix_nil.mp h.suffix
    rw [Ending.rest_ok] at hus
    rw [hus] at hc
    exact absurd (hk.symm.trans hc) (by decide)

/-- The end token cannot be both the target and the sign of an assignment. -/
theorem ne_nil_of_assign (hk : (g.next ts).kind = Kind.var)
    (ha : (g.next ts.tail).kind = Kind.assign) : ts ≠ [] := by
  rintro rfl
  exact absurd (hk.symm.trans ha) (by decide)

/-- There are no more statements than tokens were taken, and a block also takes its bracket. -/
theorem Run.nodes_le (h : Run g depth part ts log q) (hs : part = .statement → ts ≠ [])
    (hq : q = .ok ss us) :
    nodesAll ss + us.length ≤ ts.length ∧
      (part = .block → nodesAll ss + us.length < ts.length) := by
  induction h generalizing ss us with
  | stop =>
    cases hq
    simp [nodesAll]
  | next hn _ _ ih ih' =>
    cases hq
    have hhead := (ih (fun _ hnil => hn (.inl hnil)) rfl).1
    have hrest := (ih' (by simp) rfl).1
    rw [nodesAll_single] at hhead
    rw [nodesAll]
    exact ⟨by omega, by simp⟩
  | @closed _ ts _ _ us hk hlt hbody hc ih =>
    have hne := (Run.closed hk hlt hbody hc).block_ne_nil
    cases hq
    have hle := (ih (by simp) rfl).1
    have hbracket := length_tail_lt hne
    have hclose := length_tail_le us
    exact ⟨by omega, by omega⟩
  | @alone _ ts _ us _ _ vs hhead _ _ ih =>
    cases hq
    -- the keyword may have been the end token, but the bracket of the block was not
    have hblock := (ih (by simp) rfl).2 rfl
    have htest := hhead.suffix.length_le
    have hkeyword := length_tail_le ts
    have hend := (pastEnd_suffix g vs).length_le
    rw [Ending.rest_ok] at htest
    rw [nodesAll_single, nodes, nodesAlternate]
    exact ⟨by omega, by simp⟩
  | @alternate _ ts _ us _ _ vs _ _ ws hhead _ _ _ ih ih' =>
    cases hq
    have hblock := (ih (by simp) rfl).2 rfl
    have hother := (ih' (by simp) rfl).1
    have htest := hhead.suffix.length_le
    have hkeyword := length_tail_le ts
    have helse := length_tail_le vs
    have hend := (pastEnd_suffix g ws).length_le
    rw [Ending.rest_ok] at htest
    rw [nodesAll_single, nodes, nodesAlternate]
    exact ⟨by omega, by simp⟩
  | @assigned _ ts _ us hk ha hvalue =>
    cases hq
    have htarget := length_tail_lt (ne_nil_of_assign hk ha)
    have hle := hvalue.suffix.length_le
    have hsign := length_tail_le ts.tail
    rw [Ending.rest_ok] at hle
    rw [nodesAll_single, nodes]
    exact ⟨by omega, by simp⟩
  | simple hk _ _ ih =>
    cases hq
    exact ⟨(ih (absurd · (Part.opened hk).1) rfl).1, by simp⟩
  | block _ _ ih =>
    cases hq
    have hblock := (ih (by simp) rfl).2 rfl
    rw [nodesAll_single, nodes]
    exact ⟨by omega, by simp⟩
  | skipped hk hfails =>
    have hlt := length_lt_of_suffix_tail (hs rfl) (Run.skipped hk hfails).statement_suffix
    cases hq
    rw [Ending.rest_ok] at hlt
    rw [nodesAll_single, nodes]
    exact ⟨by omega, by simp⟩
  | invalid =>
    cases hq
    have hlt := length_tail_lt (hs rfl)
    rw [nodesAll_single, nodes]
    exact ⟨by omega, by simp⟩
  | _ => cases hq

theorem le_and_le_tail {c : Prop} {n : Nat} (h : n ≤ ts.tail.length) :
    n ≤ ts.length ∧ (c → n ≤ ts.tail.length) :=
  ⟨Nat.le_trans h (length_tail_le ts), fun _ => h⟩

/-- There are no more faults than tokens were taken. A part that a token opens has that token to
spare, for the fault that may still end it. -/
theorem Run.noted_le (h : Run g depth part ts log q) (hs : part = .statement → ts ≠ []) :
    (noted log).length + q.rest.length ≤ ts.length ∧
      (Part.ofKind? (g.next ts).kind = some part →
        (noted log).length + q.rest.length ≤ ts.tail.length) := by
  induction h with
  | stop => exact ⟨by simp, fun hk => absurd rfl (Part.opened hk).2⟩
  | next hn _ _ ih ih' =>
    have hhead := (ih fun _ hnil => hn (.inl hnil)).1
    have hrest := (ih' (by simp)).1
    simp only [Ending.rest_ok, noted_append, List.length_append] at hhead hrest ⊢
    exact ⟨by omega, fun hk => absurd rfl (Part.opened hk).2⟩
  | unopened hn => exact ⟨by simp, fun hk => absurd (Part.ofKind?_eq_block.mp hk) hn⟩
  | tooDeep => exact le_and_le_tail (by simp)
  | unclosed _ _ _ _ ih => exact le_and_le_tail (ih (by simp)).1
  | @closed _ _ _ _ us _ _ _ _ ih =>
    have hbody := (ih (by simp)).1
    have hclose := length_tail_le us
    simp only [Ending.rest_ok, noted_append, noted_closed, List.append_nil] at hbody ⊢
    exact le_and_le_tail (by omega)
  | headFails hhead =>
    have hle := hhead.suffix.length_le
    exact le_and_le_tail (by simpa using hle)
  | consequentFails hhead _ ih =>
    have hblock := (ih (by simp)).1
    have hle := hhead.suffix.length_le
    exact le_and_le_tail (Nat.le_trans hblock hle)
  | @alone _ _ _ _ _ _ vs hhead _ _ ih =>
    have hblock := (ih (by simp)).1
    have hle := hhead.suffix.length_le
    have hend := (pastEnd_suffix g vs).length_le
    simp only [Ending.rest_ok] at hblock hle ⊢
    exact le_and_le_tail (by omega)
  | @alternateFails _ _ _ _ _ _ vs _ _ _ hhead _ _ _ ih ih' =>
    have hblock := (ih (by simp)).1
    have hother := (ih' (by simp)).1
    have hle := hhead.suffix.length_le
    have helse := length_tail_le vs
    simp only [Ending.rest_ok, noted_append, List.length_append] at hblock hle ⊢
    exact le_and_le_tail (by omega)
  | @alternate _ _ _ _ _ _ vs _ _ ws hhead _ _ _ ih ih' =>
    have hblock := (ih (by simp)).1
    have hother := (ih' (by simp)).1
    have hle := hhead.suffix.length_le
    have helse := length_tail_le vs
    have hend := (pastEnd_suffix g ws).length_le
    simp only [Ending.rest_ok, noted_append, List.length_append] at hblock hother hle ⊢
    exact le_and_le_tail (by omega)
  | unassigned => exact le_and_le_tail (by simp)
  | valueFails _ _ hvalue | assigned _ _ hvalue =>
    have hle := (hvalue.suffix.trans (List.tail_suffix _)).length_le
    exact le_and_le_tail (by simpa using hle)
  | simple hk _ _ ih =>
    exact ⟨(ih (absurd · (Part.opened hk).1)).1, fun hk => absurd rfl (Part.opened hk).1⟩
  | block _ _ ih => exact ⟨(ih (by simp)).1, fun hk => absurd rfl (Part.opened hk).1⟩
  | @skipped depth _ _ _ _ us hk _ ih =>
    -- the fault that is noted only now makes use of the token that the part had to spare
    have hspare := (ih (absurd · (Part.opened hk).1)).2 hk
    have hlt := length_tail_lt (hs rfl)
    have hle := (recovered_suffix depth us).length_le
    simp only [Ending.rest_ok, Ending.rest_error, noted_append, noted_single,
      List.length_append, List.length_singleton] at hspare ⊢
    exact ⟨by omega, fun hk => absurd rfl (Part.opened hk).1⟩
  | invalid =>
    have hlt := length_tail_lt (hs rfl)
    simp only [Ending.rest_ok, noted_single, List.length_singleton]
    exact ⟨by omega, fun hk => absurd rfl (Part.opened hk).1⟩

/-- A suffix of the tokens is where they have been taken up to some index. -/
theorem State.at_of_suffix {s : State} (h : s.rest <:+ ts) : s.At ts (ts.length - s.rest.length) :=
  ⟨Nat.sub_le _ _, List.suffix_iff_eq_drop.mp h⟩

theorem State.at_of_statement {entry exit : State} (h : entry.rest <:+ ts) (hne : entry.rest ≠ [])
    (h' : exit.rest <:+ entry.rest.tail) : ∃ i j, entry.At ts i ∧ exit.At ts j ∧ i < j := by
  refine ⟨_, _, at_of_suffix h, at_of_suffix ((h'.trans (List.tail_suffix _)).trans h), ?_⟩
  have hshorter := length_lt_of_suffix_tail hne h'
  have hle := h.length_le
  omega

end Parser

open DollarScript.Parser

/-- Whatever its tokens and its end token are, a parse ends: it is a run of the rules, which know
no fuel, and no loop of it is cut short. Each call of `statement` starts in front of a token and
takes at least that; the cursor never passes the end and is there at last. So there are no more
diagnostics, and no more statements at any depth, than tokens. -/
theorem parse_makes_progress (options : ParserOptions) (stream : TokenStream) :
    (Watched.program (setting options stream.eof)).reader = program (setting options stream.eof) ∧
    .outOfFuel ∉ parseSteps options stream ∧
    (∃ log ss s, Run (setting options stream.eof) 0 .statements stream.tokens log (.ok ss []) ∧
      program (setting options stream.eof) (.initial stream.tokens) = .ok ss s ∧
      s.At stream.tokens stream.tokens.length) ∧
    (∀ s, .reached s ∈ parseSteps options stream → ∃ i, s.At stream.tokens i) ∧
    (∀ entry exit, .returned .statement entry exit ∈ parseSteps options stream →
      ∃ i j, entry.At stream.tokens i ∧ exit.At stream.tokens j ∧ i < j) ∧
    (parseTokens options stream).errors.length ≤ stream.tokens.length ∧
    Statement.nodesAll (parseTokens options stream).program.statements ≤
      stream.tokens.length := by
  refine ⟨Watched.reader_program _, ?_, ?_, ?_, ?_, ?_⟩
  · intro h
    exact parseSteps_sound h
  · obtain ⟨log, ss, hrun, heq⟩ := program_runs (setting options stream.eof) stream.tokens
    exact ⟨log, ss, _, hrun, heq, Nat.le_refl _, List.drop_length.symm⟩
  · intro s h
    exact ⟨_, State.at_of_suffix (parseSteps_sound h).1⟩
  · intro entry exit h
    obtain ⟨⟨hentry, -, -⟩, hstatement⟩ := parseSteps_sound h
    obtain ⟨hne, hexit⟩ := hstatement rfl
    exact State.at_of_statement hentry hne hexit
  · obtain ⟨log, ss, hrun, heq⟩ := parseTokens_runs options stream
    have hnoted := (hrun.noted_le (by simp)).1
    have hnodes := (hrun.nodes_le (by simp) rfl).1
    rw [heq]
    simp only [List.length_map, Ending.rest_ok, List.length_nil, Nat.add_zero] at hnoted hnodes ⊢
    exact ⟨hnoted, hnodes⟩

end DollarScript
