import DollarScript.Scanner

/-! Which kind and which pattern of it win at the front of a text. Patterns may report any length;
one that takes nothing, too much, or part of a character is passed over. -/
namespace DollarScript

namespace Text

variable {text front back : List Char} {n : Nat}

@[simp] theorem byteLength_nil : byteLength [] = 0 := rfl

@[simp] theorem byteLength_cons (c : Char) (cs : List Char) :
    byteLength (c :: cs) = c.utf8Size + byteLength cs := rfl

@[simp] theorem byteLength_append (cs ds : List Char) :
    byteLength (cs ++ ds) = byteLength cs + byteLength ds := by
  induction cs with
  | nil => simp
  | cons c cs ih =>
    simp only [List.cons_append, byteLength_cons, ih]
    omega

theorem byteLength_eq_zero : byteLength text = 0 ↔ text = [] := by
  cases text with
  | nil => simp
  | cons c cs =>
    have := c.utf8Size_pos
    simp only [byteLength_cons, reduceCtorEq, iff_false]
    omega

/-- Fronts of one text are told apart by how many bytes they take. -/
theorem append_inj_of_byteLength {front' back' : List Char}
    (h : front ++ back = front' ++ back') (hl : byteLength front = byteLength front') :
    front = front' ∧ back = back' := by
  induction front generalizing front' with
  | nil =>
    have hnil : front' = [] := byteLength_eq_zero.mp hl.symm
    subst hnil
    exact ⟨rfl, h⟩
  | cons c front ih =>
    cases front' with
    | nil => exact absurd (byteLength_eq_zero.mp hl) (by simp)
    | cons d front' =>
      simp only [List.cons_append, List.cons.injEq] at h
      obtain ⟨rfl, h⟩ := h
      simp only [byteLength_cons, Nat.add_left_cancel_iff] at hl
      obtain ⟨rfl, rfl⟩ := ih h hl
      exact ⟨rfl, rfl⟩

theorem splitBytes?_append (front back : List Char) :
    splitBytes? (byteLength front) (front ++ back) = some (front, back) := by
  induction front with
  | nil => simp [splitBytes?]
  | cons c front ih =>
    obtain ⟨k, hk⟩ : ∃ k, c.utf8Size = k + 1 := ⟨c.utf8Size - 1, by have := c.utf8Size_pos; omega⟩
    have hlen : byteLength (c :: front) = (k + byteLength front) + 1 := by
      simp only [byteLength_cons]
      omega
    rw [hlen, List.cons_append, splitBytes?, if_pos (by omega),
      show k + byteLength front + 1 - c.utf8Size = byteLength front by omega, ih]
    rfl

theorem splitBytes?_eq_some :
    splitBytes? n text = some (front, back) ↔ text = front ++ back ∧ byteLength front = n := by
  constructor
  · intro h
    fun_induction splitBytes? n text generalizing front with
    | case1 cs =>
      cases h
      exact ⟨rfl, rfl⟩
    | case2 => cases h
    | case3 n c cs hle ih =>
      obtain ⟨⟨front', back'⟩, hsplit, heq⟩ := Option.map_eq_some_iff.mp h
      cases heq
      obtain ⟨rfl, hlen⟩ := ih hsplit
      refine ⟨rfl, ?_⟩
      simp only [byteLength_cons]
      omega
    | case4 => cases h
  · rintro ⟨rfl, rfl⟩
    exact splitBytes?_append front back

end Text

open Text

/-- Called on the text, the pattern reports a match that takes something and ends between
characters. -/
def Pattern.Offers (p : Pattern) (text : List Char) (m : Match) : Prop :=
  p.matchFront text = some m ∧ 0 < m.length ∧
    ∃ front back, text = front ++ back ∧ byteLength front = m.length

/-- The match is that of the first pattern which offers one. -/
def Entry.Offers (e : Entry) (text : List Char) (m : Match) : Prop :=
  ∃ before p after, e.patterns = before ++ p :: after ∧ p.Offers text m ∧
    ∀ q ∈ before, ∀ m', ¬ q.Offers text m'

/-- None of the patterns offers a match. -/
def Entry.Refuses (e : Entry) (text : List Char) : Prop :=
  ∀ p ∈ e.patterns, ∀ m, ¬ p.Offers text m

variable {text : List Char} {m : Match}

theorem Pattern.match?_front_eq_some {p : Pattern} :
    p.match? .front text = some m ↔ p.Offers text m := by
  simp only [Pattern.match?, Option.filter_eq_some_iff, Match.acceptable, Bool.and_eq_true,
    decide_eq_true_eq, Option.isSome_iff_exists, Prod.exists, splitBytes?_eq_some,
    Pattern.Offers]

theorem Pattern.match?_front_eq_none {p : Pattern} :
    p.match? .front text = none ↔ ∀ m, ¬ p.Offers text m := by
  simp only [Option.eq_none_iff_forall_ne_some, ne_eq, Pattern.match?_front_eq_some]

theorem Entry.match?_front_eq_some {e : Entry} :
    e.match? .front text = some m ↔ e.Offers text m := by
  simp only [Entry.match?, List.findSome?_eq_some_iff, Pattern.match?_front_eq_some,
    Pattern.match?_front_eq_none, Entry.Offers]

theorem Entry.match?_front_eq_none {e : Entry} :
    e.match? .front text = none ↔ e.Refuses text := by
  simp only [Entry.match?, List.findSome?_eq_none_iff, Pattern.match?_front_eq_none,
    Entry.Refuses]

theorem Entry.Offers.split {e : Entry} (h : e.Offers text m) :
    0 < m.length ∧ ∃ front back, text = front ++ back ∧ byteLength front = m.length := by
  obtain ⟨_, _, _, -, ⟨-, hpos, hsplit⟩, -⟩ := h
  exact ⟨hpos, hsplit⟩

namespace Registry

variable {extent : Extent} {entries : List Entry} {index : Nat} {hit : Hit} {r : Registry}

theorem firstFrom_eq_some : firstFrom extent text index entries = some hit ↔
    ∃ i, hit.index = index + i ∧ entries[i]? = some hit.entry ∧
      hit.entry.match? extent text = some hit.found ∧
      ∀ k < i, ∀ e, entries[k]? = some e → e.match? extent text = none := by
  induction entries generalizing index with
  | nil => simp [firstFrom]
  | cons e rest ih =>
    cases hm : e.match? extent text with
    | some found =>
      simp only [firstFrom, hm]
      constructor
      · intro h
        cases h
        exact ⟨0, rfl, rfl, hm, fun k hk => absurd hk (Nat.not_lt_zero k)⟩
      · rintro ⟨i, hi, he, hf, hbefore⟩
        cases i with
        | zero =>
          obtain ⟨k, e', m⟩ := hit
          cases he
          cases hm.symm.trans hf
          cases hi
          rfl
        | succ i =>
          have hnone := hbefore 0 (Nat.succ_pos i) e rfl
          rw [hm] at hnone
          cases hnone
    | none =>
      simp only [firstFrom, hm, ih]
      constructor
      · rintro ⟨i, hi, he, hf, hbefore⟩
        refine ⟨i + 1, by omega, he, hf, ?_⟩
        intro k hk e' he'
        cases k with
        | zero =>
          cases he'
          exact hm
        | succ k => exact hbefore k (by omega) e' he'
      · rintro ⟨i, hi, he, hf, hbefore⟩
        cases i with
        | zero =>
          cases he
          rw [hm] at hf
          cases hf
        | succ i =>
          refine ⟨i, by omega, he, hf, ?_⟩
          intro k hk e' he'
          exact hbefore (k + 1) (by omega) e' he'

theorem firstFrom_eq_none : firstFrom extent text index entries = none ↔
    ∀ e ∈ entries, e.match? extent text = none := by
  induction entries generalizing index with
  | nil => simp [firstFrom]
  | cons e rest ih =>
    cases hm : e.match? extent text with
    | none => simp [firstFrom, hm, ih]
    | some found => simp [firstFrom, hm]

/-- The hit is that of the least index at which a kind offers a match. -/
theorem first?_front_eq_some : r.first? .front text = some hit ↔
    r.entries[hit.index]? = some hit.entry ∧ hit.entry.Offers text hit.found ∧
      ∀ k < hit.index, ∀ e, r.entries[k]? = some e → e.Refuses text := by
  simp only [first?, firstFrom_eq_some, Entry.match?_front_eq_some, Entry.match?_front_eq_none,
    Nat.zero_add]
  constructor
  · rintro ⟨i, rfl, h⟩
    exact h
  · intro h
    exact ⟨hit.index, rfl, h⟩

theorem first?_front_eq_none :
    r.first? .front text = none ↔ ∀ e ∈ r.entries, e.Refuses text := by
  simp only [first?, firstFrom_eq_none, Entry.match?_front_eq_none]

end Registry

end DollarScript
