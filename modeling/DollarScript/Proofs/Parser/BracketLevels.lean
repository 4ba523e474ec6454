import DollarScript.Token

/-! Brackets of both kinds, counted: how many are open in front of a token, and where the first is
that is one too many. -/
namespace DollarScript

namespace Brackets

def openers : List String := [Kind.openCurly, Kind.openSquare]

def closers : List String := [Kind.closeCurly, Kind.closeSquare]

/-- The kinds of all four brackets. -/
def kinds : List String := openers ++ closers

/-- How many brackets are open behind a token if `n` were in front of it. -/
def count (n : Nat) (t : Token) : Nat :=
  if t.kind ∈ openers then n + 1 else if t.kind ∈ closers then n - 1 else n

/-- How many brackets are open behind the tokens if `n` were in front of them. -/
def levelFrom (n : Nat) (ts : List Token) : Nat := ts.foldl count n

/-- How many brackets are open in front of token `i`. -/
def level (ts : List Token) (i : Nat) : Nat := levelFrom 0 (ts.take i)

/-- Token `i` opens the bracket of that level. -/
def Opens (ts : List Token) (i n : Nat) : Prop :=
  ∃ t, ts[i]? = some t ∧ t.kind ∈ openers ∧ level ts i + 1 = n

/-- If `n` brackets are open in front of the tokens, there are never more than `m`. -/
def Within (m : Nat) : (n : Nat) → List Token → Prop
  | n, [] => n ≤ m
  | n, t :: ts => n ≤ m ∧ Within m (count n t) ts

/-- All brackets are closed that are opened, and never more than `depth` of them are open. -/
structure Balanced (depth : Nat) (ts : List Token) : Prop where
  closed : ∀ n, levelFrom n ts = n
  within : ∀ n, Within (n + depth) n ts

/-- At `place` the first bracket stands that is one too many if `m` may be open. -/
def Exceeds (m n : Nat) (ts place : List Token) : Prop :=
  ∃ passed t us, ts = passed ++ place ∧ place = t :: us ∧ t.kind ∈ openers ∧
    Within m n passed ∧ levelFrom n passed = m

variable {m n depth : Nat} {t opener closer : Token} {ts us place : List Token}

theorem count_opener (h : t.kind ∈ openers) : count n t = n + 1 := if_pos h

theorem count_closer (h : t.kind ∈ closers) : count n t = n - 1 := by
  have hn : t.kind ∉ openers := by
    intro ho
    simp only [openers, closers, List.mem_cons, List.not_mem_nil, or_false] at h ho
    rcases h with h | h <;> rw [h] at ho <;> revert ho <;> decide
  rw [count, if_neg hn, if_pos h]

theorem count_other (h : t.kind ∉ kinds) : count n t = n := by
  rw [kinds, List.mem_append, not_or] at h
  rw [count, if_neg h.1, if_neg h.2]

theorem levelFrom_append (n : Nat) (ts us : List Token) :
    levelFrom n (ts ++ us) = levelFrom (levelFrom n ts) us := List.foldl_append

theorem Within.start (h : Within m n ts) : n ≤ m := by
  cases ts with
  | nil => exact h
  | cons t ts => exact h.1

theorem Within.append (h : Within m n ts) (h' : Within m (levelFrom n ts) us) :
    Within m n (ts ++ us) := by
  induction ts generalizing n with
  | nil => exact h'
  | cons t ts ih => exact ⟨h.1, ih h.2 h'⟩

theorem Within.left (h : Within m n (ts ++ us)) : Within m n ts := by
  induction ts generalizing n with
  | nil => exact h.start
  | cons t ts ih => exact ⟨h.1, ih h.2⟩

theorem Within.mono {m' : Nat} (h : Within m n ts) (hm : m ≤ m') : Within m' n ts := by
  induction ts generalizing n with
  | nil => exact Nat.le_trans h hm
  | cons t ts ih => exact ⟨Nat.le_trans h.1 hm, ih h.2⟩

theorem Within.levelFrom_take (h : Within m n ts) (i : Nat) : levelFrom n (ts.take i) ≤ m := by
  induction ts generalizing n i with
  | nil =>
    rw [List.take_nil]
    exact h
  | cons t ts ih =>
    cases i with
    | zero => exact h.1
    | succ i => exact ih h.2 i

theorem balanced_nil : Balanced 0 [] := ⟨fun _ => rfl, fun n => Nat.le_refl n⟩

theorem Balanced.mono {depth' : Nat} (h : Balanced depth ts) (hd : depth ≤ depth') :
    Balanced depth' ts :=
  ⟨h.closed, fun n => (h.within n).mono (Nat.add_le_add_left hd n)⟩

theorem Balanced.append (h : Balanced depth ts) (h' : Balanced depth us) :
    Balanced depth (ts ++ us) := by
  refine ⟨?_, ?_⟩
  · intro n
    rw [levelFrom_append, h.closed, h'.closed]
  · intro n
    refine (h.within n).append ?_
    rw [h.closed]
    exact h'.within n

theorem Balanced.cons (ht : t.kind ∉ kinds) (h : Balanced depth ts) :
    Balanced depth (t :: ts) := by
  have hcount : ∀ n, count n t = n := fun n => count_other ht
  refine ⟨?_, ?_⟩
  · intro n
    change levelFrom (count n t) ts = n
    rw [hcount, h.closed]
  · intro n
    refine ⟨Nat.le_add_right n depth, ?_⟩
    rw [hcount]
    exact h.within n

theorem balanced_others (h : ∀ t ∈ ts, t.kind ∉ kinds) : Balanced 0 ts := by
  induction ts with
  | nil => exact balanced_nil
  | cons t ts ih =>
    exact .cons (h t List.mem_cons_self) (ih fun u hu => h u (List.mem_cons_of_mem t hu))

/-- A pair of brackets is one level more. -/
theorem Balanced.enclosed (ho : opener.kind ∈ openers) (hc : closer.kind ∈ closers)
    (h : Balanced depth ts) : Balanced (depth + 1) (opener :: (ts ++ [closer])) := by
  refine ⟨?_, ?_⟩
  · intro n
    change levelFrom (count n opener) (ts ++ [closer]) = n
    rw [count_opener ho, levelFrom_append, h.closed]
    exact count_closer hc
  · intro n
    refine ⟨by omega, ?_⟩
    rw [count_opener ho]
    have hbody := (h.within (n + 1)).mono (show n + 1 + depth ≤ n + (depth + 1) by omega)
    refine hbody.append ?_
    rw [h.closed]
    refine ⟨by omega, ?_⟩
    rw [count_closer hc]
    exact show n + 1 - 1 ≤ n + (depth + 1) by omega

theorem Exceeds.here (ht : t.kind ∈ openers) : Exceeds m m (t :: ts) (t :: ts) :=
  ⟨[], t, ts, rfl, rfl, ht, Nat.le_refl m, rfl⟩

theorem Exceeds.append (h : Within m n ts) (h' : Exceeds m (levelFrom n ts) us place) :
    Exceeds m n (ts ++ us) place := by
  obtain ⟨passed, t, vs, rfl, hplace, ht, hwithin, hlevel⟩ := h'
  refine ⟨ts ++ passed, t, vs, (List.append_assoc _ _ _).symm, hplace, ht, h.append hwithin, ?_⟩
  rw [levelFrom_append, hlevel]

/-- What is closed again, and fits, is passed over. -/
theorem Exceeds.behind (h : Balanced depth ts) (hd : n + depth ≤ m) (h' : Exceeds m n us place) :
    Exceeds m n (ts ++ us) place := by
  refine .append ((h.within n).mono hd) ?_
  rwa [h.closed]

theorem Exceeds.opened (ht : t.kind ∈ openers) (hn : n < m) (h : Exceeds m (n + 1) ts place) :
    Exceeds m n (t :: ts) place := by
  have hlevel : levelFrom n [t] = n + 1 := count_opener ht
  have hwithin : Within m n [t] := by
    refine ⟨Nat.le_of_lt hn, ?_⟩
    rw [count_opener ht]
    exact hn
  rw [← hlevel] at h
  exact .append hwithin h

theorem Exceeds.start (h : Exceeds m n ts place) : n ≤ m := by
  obtain ⟨_, _, _, -, -, -, hwithin, -⟩ := h
  exact hwithin.start

theorem Exceeds.cons (ht : t.kind ∉ kinds) (h : Exceeds m n ts place) :
    Exceeds m n (t :: ts) place := by
  have hpassed : Balanced 0 [t] := .cons ht balanced_nil
  exact .behind hpassed h.start h

/-- The place is where the level above the limit is opened for the first time. -/
theorem Exceeds.first (h : Exceeds m 0 ts place) :
    ∃ i t us, place = t :: us ∧ ts[i]? = some t ∧ Opens ts i (m + 1) ∧
      ∀ j < i, ¬ Opens ts j (m + 1) := by
  obtain ⟨passed, t, us, rfl, rfl, ht, hwithin, hlevel⟩ := h
  have hget : (passed ++ t :: us)[passed.length]? = some t := by simp
  refine ⟨passed.length, t, us, rfl, hget, ⟨t, hget, ht, ?_⟩, ?_⟩
  · rw [level, List.take_left, hlevel]
  · rintro j hj ⟨u, hu, ho, hopens⟩
    -- behind such a bracket, but still in front of the place, the level would be too high
    have htake : (passed ++ t :: us).take j = passed.take j :=
      List.take_append_of_le_length (Nat.le_of_lt hj)
    rw [level, htake] at hopens
    rw [List.getElem?_append_left hj] at hu
    have hle := hwithin.levelFrom_take (j + 1)
    rw [List.take_add_one, hu, Option.toList_some, levelFrom_append] at hle
    have hcount : levelFrom (levelFrom 0 (passed.take j)) [u] = levelFrom 0 (passed.take j) + 1 :=
      count_opener ho
    omega

end Brackets

end DollarScript
