import DollarScript.Proofs.Parser.Run

/-! Curly brackets, counted: which are open in front of a token, which one a bracket closes, and
which there is no room for. Nothing else of the tokens counts. -/
namespace DollarScript

namespace Brace

/-- The kinds of the two curly brackets. -/
def kinds : List String := [Kind.openCurly, Kind.closeCurly]

/-- How many brackets are open behind a token if `depth` were before; at most `limit` can be. -/
def count (limit depth : Nat) (t : Token) : Nat :=
  if t.kind = Kind.openCurly then if depth < limit then depth + 1 else depth
  else if t.kind = Kind.closeCurly then depth - 1
  else depth

/-- How many brackets are open in front of token `i`. -/
def level (limit : Nat) (ts : List Token) (i : Nat) : Nat := (ts.take i).foldl (count limit) 0

def kindAt (ts : List Token) (i : Nat) : Option String := ts[i]?.map Token.kind

/-- Token `i` would open one bracket too many. -/
def TooDeep (limit : Nat) (ts : List Token) (i : Nat) : Prop :=
  kindAt ts i = some Kind.openCurly ∧ level limit ts i = limit

instance (limit : Nat) (ts : List Token) (i : Nat) : Decidable (TooDeep limit ts i) :=
  inferInstanceAs (Decidable (_ ∧ _))

/-- Token `j` closes a bracket; one that does not, for none is open, is stray. -/
def Closes (limit : Nat) (ts : List Token) (j : Nat) : Prop :=
  kindAt ts j = some Kind.closeCurly ∧ 0 < level limit ts j

/-- The bracket that token `i` opens is still open in front of token `j`. -/
structure Pending (limit : Nat) (ts : List Token) (i j : Nat) : Prop where
  before : i < j
  opens : kindAt ts i = some Kind.openCurly
  within : ∀ k, i < k → k ≤ j → level limit ts i < level limit ts k

/-- Token `j` closes the bracket that token `i` opens: the innermost of those still open. -/
structure Matches (limit : Nat) (ts : List Token) (i j : Nat) : Prop
    extends Pending limit ts i j where
  closes : kindAt ts j = some Kind.closeCurly
  innermost : level limit ts j = level limit ts i + 1

variable {limit : Nat} {ts us : List Token} {i j k : Nat} {t : Token}

theorem getElem?_eq_of_drop (h : ts.drop i = t :: us) : ts[i]? = some t := by
  rw [← List.head?_drop, h, List.head?_cons]

theorem kindAt_eq (h : ts.drop i = t :: us) : kindAt ts i = some t.kind := by
  simp [kindAt, getElem?_eq_of_drop h]

theorem kindAt_eq_none (h : ts.drop i = []) : kindAt ts i = none := by
  simpa [kindAt] using List.drop_eq_nil_iff.mp h

theorem level_succ (h : ts.drop i = t :: us) :
    level limit ts (i + 1) = count limit (level limit ts i) t := by
  simp [level, List.take_add_one, getElem?_eq_of_drop h]

theorem level_succ_nil (h : ts.drop i = []) : level limit ts (i + 1) = level limit ts i := by
  have hlen := List.drop_eq_nil_iff.mp h
  simp [level, List.take_of_length_le hlen, List.take_of_length_le (Nat.le_succ_of_le hlen)]

theorem count_le {depth : Nat} (h : depth ≤ limit) : count limit depth t ≤ limit := by
  unfold count
  split
  · split <;> omega
  · split <;> omega

theorem level_le (limit : Nat) (ts : List Token) (i : Nat) : level limit ts i ≤ limit := by
  induction i with
  | zero => exact Nat.zero_le _
  | succ i ih =>
    cases hd : ts.drop i with
    | nil =>
      rw [level_succ_nil hd]
      exact ih
    | cons t us =>
      rw [level_succ hd]
      exact count_le ih

/-- No two brackets are closed by one token. -/
theorem Matches.unique (h : Matches limit ts i k) (h' : Matches limit ts j k) : i = j := by
  have hi := h.innermost
  have hj := h'.innermost
  rcases Nat.lt_trichotomy i j with hlt | heq | hlt
  · have := h.within j hlt (Nat.le_of_lt h'.before)
    omega
  · exact heq
  · have := h'.within i hlt (Nat.le_of_lt h.before)
    omega

/-- Passing a token behind which the bracket is still open. -/
theorem Pending.succ (h : Pending limit ts i j)
    (hl : level limit ts i < level limit ts (j + 1)) : Pending limit ts i (j + 1) := by
  refine ⟨Nat.lt_succ_of_lt h.before, h.opens, ?_⟩
  intro k hi hj
  rcases Nat.lt_or_eq_of_le hj with hlt | rfl
  · exact h.within k hi (Nat.le_of_lt_succ hlt)
  · exact hl

theorem Pending.opened (hk : kindAt ts i = some Kind.openCurly)
    (hl : level limit ts i < level limit ts (i + 1)) : Pending limit ts i (i + 1) := by
  refine ⟨Nat.lt_succ_self i, hk, ?_⟩
  intro k hi hj
  have hki : k = i + 1 := by omega
  rw [hki]
  exact hl

end Brace

namespace Parser

open Brace

/-- The brackets that are open, innermost first, each with all tokens from it on, and what has
happened to brackets so far. -/
structure Braces where
  opened : List (List Token)
  events : List Event

namespace Braces

/-- Passes the first of the tokens. -/
def step (limit : Nat) (b : Braces) : List Token → Braces
  | [] => b
  | t :: ts =>
    if t.kind = Kind.openCurly then
      if b.opened.length < limit then ⟨(t :: ts) :: b.opened, b.events⟩
      else ⟨b.opened, b.events ++ [.noted ⟨t :: ts, .nestingTooDeep limit⟩]⟩
    else if t.kind = Kind.closeCurly then
      match b.opened with
      | [] => b
      | opener :: outer => ⟨outer, b.events ++ [.closed outer.length opener (t :: ts)]⟩
    else b

/-- Passes all tokens. -/
def run (limit : Nat) : Braces → List Token → Braces
  | b, [] => b
  | b, t :: ts => (b.step limit (t :: ts)).run limit ts

variable {limit i : Nat} {b : Braces} {ts : List Token}

theorem step_other {t : Token} (h : t.kind ∉ kinds) : b.step limit (t :: ts) = b := by
  obtain ⟨ho, hc⟩ : t.kind ≠ Kind.openCurly ∧ t.kind ≠ Kind.closeCurly := by
    simpa [kinds] using h
  simp [step, ho, hc]

theorem run_other {g : Setting} {kind : String} (hk : (g.next ts).kind = kind)
    (h : kind ∉ kinds) : b.run limit ts.tail = b.run limit ts := by
  cases ts with
  | nil => rfl
  | cons t ts =>
    have ht : t.kind ∉ kinds := by
      rw [show t.kind = kind from hk]
      exact h
    rw [run, step_other ht, List.tail_cons]

/-- What is known in front of token `i`. -/
def upTo (limit : Nat) (ts : List Token) : (i : Nat) → Braces
  | 0 => ⟨[], []⟩
  | i + 1 => (upTo limit ts i).step limit (ts.drop i)

theorem run_step (b : Braces) (ts : List Token) :
    (b.step limit ts).run limit ts.tail = b.run limit ts := by
  cases ts <;> rfl

theorem run_upTo (limit : Nat) (ts : List Token) (i : Nat) :
    (upTo limit ts i).run limit (ts.drop i) = Braces.run limit ⟨[], []⟩ ts := by
  induction i with
  | zero => rfl
  | succ i ih => rw [upTo, ← List.tail_drop, run_step, ih]

theorem run_eq_upTo (limit : Nat) (ts : List Token) :
    Braces.run limit ⟨[], []⟩ ts = upTo limit ts ts.length := by
  rw [← run_upTo limit ts ts.length, List.drop_length]
  rfl

/-- What is remembered of brackets is what the counter says of them. -/
structure Counted (limit : Nat) (ts : List Token) (i : Nat) (b : Braces) : Prop where
  depth : b.opened.length = level limit ts i
  pending : ∀ opener outer, opener :: outer <:+ b.opened →
    ∃ k, opener = ts.drop k ∧ level limit ts k = outer.length ∧ Pending limit ts k i
  tooDeep : noted b.events = ((List.range i).filter (TooDeep limit ts ·)).map
    fun k => ⟨ts.drop k, .nestingTooDeep limit⟩
  closing : ∀ j < i, Closes limit ts j → ∃ k, Matches limit ts k j ∧
    .closed (level limit ts k) (ts.drop k) (ts.drop j) ∈ b.events

theorem Counted.initial : Counted limit ts 0 ⟨[], []⟩ := by
  refine ⟨rfl, ?_, rfl, ?_⟩
  · intro opener outer h
    simp at h
  · intro j hj
    omega

theorem Counted.still_pending (h : Counted limit ts i b) {opener : List Token}
    {outer : List (List Token)} (ho : opener :: outer <:+ b.opened)
    (hl : outer.length < level limit ts (i + 1)) :
    ∃ k, opener = ts.drop k ∧ level limit ts k = outer.length ∧ Pending limit ts k (i + 1) := by
  obtain ⟨k, hk, hlevel, hp⟩ := h.pending opener outer ho
  exact ⟨k, hk, hlevel, hp.succ (by omega)⟩

theorem Counted.all_pending (h : Counted limit ts i b)
    (hl : level limit ts (i + 1) = level limit ts i) :
    ∀ opener outer, opener :: outer <:+ b.opened →
      ∃ k, opener = ts.drop k ∧ level limit ts k = outer.length ∧ Pending limit ts k (i + 1) := by
  intro opener outer ho
  refine h.still_pending ho ?_
  rw [hl, ← h.depth]
  exact ho.length_le

theorem Counted.none_tooDeep (h : Counted limit ts i b) (ht : ¬ TooDeep limit ts i) :
    noted b.events = ((List.range (i + 1)).filter (TooDeep limit ts ·)).map
      fun k => ⟨ts.drop k, .nestingTooDeep limit⟩ := by
  rw [List.range_succ, List.filter_append, h.tooDeep]
  simp [ht]

theorem Counted.closing_succ (h : Counted limit ts i b) {events : List Event}
    (hsub : b.events ⊆ events)
    (hi : Closes limit ts i → ∃ k, Matches limit ts k i ∧
      .closed (level limit ts k) (ts.drop k) (ts.drop i) ∈ events) :
    ∀ j < i + 1, Closes limit ts j → ∃ k, Matches limit ts k j ∧
      .closed (level limit ts k) (ts.drop k) (ts.drop j) ∈ events := by
  intro j hj hc
  rcases Nat.lt_or_eq_of_le (Nat.le_of_lt_succ hj) with hlt | rfl
  · obtain ⟨k, hm, hmem⟩ := h.closing j hlt hc
    exact ⟨k, hm, hsub hmem⟩
  · exact hi hc

/-- Passing a token that neither opens nor closes a bracket, nor tries to open one. -/
theorem Counted.idle (h : Counted limit ts i b) (hl : level limit ts (i + 1) = level limit ts i)
    (ht : ¬ TooDeep limit ts i) (hc : ¬ Closes limit ts i) : Counted limit ts (i + 1) b where
  depth := h.depth.trans hl.symm
  pending := h.all_pending hl
  tooDeep := h.none_tooDeep ht
  closing := h.closing_succ (List.Subset.refl _) (absurd · hc)

theorem Counted.opened (h : Counted limit ts i b) (hk : kindAt ts i = some Kind.openCurly)
    (hl : level limit ts (i + 1) = level limit ts i + 1) (hd : level limit ts i < limit) :
    Counted limit ts (i + 1) ⟨ts.drop i :: b.opened, b.events⟩ where
  depth := by simp [h.depth, hl]
  pending := by
    intro opener outer ho
    rcases List.suffix_cons_iff.mp ho with heq | hsuf
    · cases heq
      exact ⟨i, rfl, h.depth.symm, .opened hk (by omega)⟩
    · refine h.still_pending hsuf ?_
      have hle := hsuf.length_le
      rw [h.depth, List.length_cons] at hle
      omega
  tooDeep := h.none_tooDeep fun ht => absurd ht.2 (Nat.ne_of_lt hd)
  closing := h.closing_succ (List.Subset.refl _)
    fun hc => absurd (hk.symm.trans hc.1) (by decide)

theorem Counted.rejected (h : Counted limit ts i b) (ht : TooDeep limit ts i)
    (hl : level limit ts (i + 1) = level limit ts i) :
    Counted limit ts (i + 1)
      ⟨b.opened, b.events ++ [.noted ⟨ts.drop i, .nestingTooDeep limit⟩]⟩ where
  depth := h.depth.trans hl.symm
  pending := h.all_pending hl
  tooDeep := by
    rw [List.range_succ, List.filter_append, noted_append, h.tooDeep]
    simp [ht]
  closing := h.closing_succ (List.subset_append_left _ _)
    fun hc => absurd (ht.1.symm.trans hc.1) (by decide)

theorem Counted.closed {opener : List Token} {outer : List (List Token)} {events : List Event}
    (h : Counted limit ts i ⟨opener :: outer, events⟩)
    (hk : kindAt ts i = some Kind.closeCurly)
    (hl : level limit ts (i + 1) = level limit ts i - 1) :
    Counted limit ts (i + 1)
      ⟨outer, events ++ [.closed outer.length opener (ts.drop i)]⟩ := by
  have hd : outer.length + 1 = level limit ts i := h.depth
  have ht : ¬ TooDeep limit ts i := fun ht => absurd (hk.symm.trans ht.1) (by decide)
  refine ⟨by simp only; omega, ?_, ?_, h.closing_succ (List.subset_append_left _ _) ?_⟩
  · intro opener' outer' ho
    refine h.still_pending (ho.trans (List.suffix_cons _ _)) ?_
    have hle := ho.length_le
    simp only [List.length_cons] at hle
    omega
  · rw [noted_append, noted_closed, List.append_nil]
    exact h.none_tooDeep ht
  · intro _
    obtain ⟨k, rfl, hlevel, hp⟩ := h.pending opener outer (List.suffix_refl _)
    refine ⟨k, ⟨hp, hk, by omega⟩, ?_⟩
    simp [hlevel]

theorem Counted.step (h : Counted limit ts i b) :
    Counted limit ts (i + 1) (b.step limit (ts.drop i)) := by
  cases hd : ts.drop i with
  | nil =>
    have hk := kindAt_eq_none hd
    exact h.idle (level_succ_nil hd) (by simp [TooDeep, hk]) (by simp [Closes, hk])
  | cons t us =>
    have hk := kindAt_eq hd
    have hl : level limit ts (i + 1) = count limit (level limit ts i) t := level_succ hd
    unfold count at hl
    simp only [Braces.step, h.depth]
    by_cases ho : t.kind = Kind.openCurly
    · rw [ho] at hk
      by_cases hlt : level limit ts i < limit
      · rw [if_pos ho, if_pos hlt] at hl
        rw [if_pos ho, if_pos hlt, ← hd]
        exact h.opened hk hl hlt
      · rw [if_pos ho, if_neg hlt] at hl
        rw [if_pos ho, if_neg hlt, ← hd]
        exact h.rejected ⟨hk, Nat.le_antisymm (level_le limit ts i) (Nat.le_of_not_lt hlt)⟩ hl
    have ht : ¬ TooDeep limit ts i := by simp [TooDeep, hk, ho]
    by_cases hc : t.kind = Kind.closeCurly
    · rw [if_neg ho, if_pos hc] at hl
      rw [if_neg ho, if_pos hc, ← hd]
      rw [hc] at hk
      obtain ⟨opened, events⟩ := b
      cases opened with
      | nil =>
        have hzero : level limit ts i = 0 := h.depth.symm
        exact h.idle (by omega) ht (by simp [Closes, hzero])
      | cons opener outer => exact h.closed hk hl
    · rw [if_neg ho, if_neg hc] at hl
      rw [if_neg ho, if_neg hc]
      exact h.idle hl ht (by simp [Closes, hk, hc])

theorem counted_upTo (limit : Nat) (ts : List Token) (i : Nat) :
    Counted limit ts i (upTo limit ts i) := by
  induction i with
  | zero => exact .initial
  | succ i ih => exact ih.step

end Braces

end Parser

end DollarScript
