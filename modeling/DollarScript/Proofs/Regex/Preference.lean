import DollarScript.Proofs.Regex.Machine

/-! The preferred match of a pattern, as its tree says it: what is tried first, and what is gone
back to. The program made from the tree finds it. -/
namespace DollarScript.Regex

/-! ### The order of attempts -/

/-- What follows a pattern: the outcome at a spot, with the places noted so far. -/
abbrev Continuation := Spot → Slots → Option Slots

/-- A greedy choice prefers to go in. -/
def prefer (greedy : Bool) (inside outside : Option Slots) : Option Slots :=
  if greedy then inside.or outside else outside.or inside

/-- Exactly `count` rounds. -/
def times (block : Continuation → Continuation) : (count : Nat) → Continuation → Continuation
  | 0, k => k
  | count + 1, k => block (times block count k)

theorem times_succ (block : Continuation → Continuation) (count : Nat) (k : Continuation) :
    times block (count + 1) k = times block count (block k) := by
  induction count with
  | zero => rfl
  | succ count ih =>
    rw [times, ih]
    rfl

/-- At most `count` rounds. -/
def upTo (block : Continuation → Continuation) (greedy : Bool) :
    (count : Nat) → Continuation → Continuation
  | 0, k => k
  | count + 1, k => fun spot slots =>
    prefer greedy (block (upTo block greedy count k) spot slots) (k spot slots)

/-- Any number of rounds, each of which takes a character. -/
def rounds (block : Continuation → Continuation) (greedy : Bool) (k : Continuation) (spot : Spot)
    (slots : Slots) : Option Slots :=
  let again : Continuation := fun spot' slots' =>
    if _h : spot'.rest.length < spot.rest.length then rounds block greedy k spot' slots' else none
  prefer greedy (block again spot slots) (k spot slots)
termination_by spot.rest.length

namespace Tree

mutual

/-- The outcome of the tree with a continuation behind it, by going back to the next choice where
one fails. -/
def first? : Tree → Continuation → Continuation
  | .empty, k => k
  | .set s, k => fun spot slots =>
    match spot.rest with
    | [] => none
    | c :: rest => if s.contains c then k (spot.next c rest) slots else none
  | .look l, k => fun spot slots =>
    if l.holds spot.place.before spot.place.after then k spot slots else none
  | .group index body, k => fun spot slots =>
    first? body (fun stop slots => k stop (slots.set (2 * index + 1) (some stop.index))) spot
      (slots.set (2 * index) (some spot.index))
  | .repetition body least most greedy, k =>
    match most with
    | none => times (first? body) least (rounds (first? body) greedy k)
    | some m => times (first? body) least (upTo (first? body) greedy (m - least) k)
  | .concat items, k => firstAll? items k
  | .alternate items, k => firstAny? items k

def firstAll? : List Tree → Continuation → Continuation
  | [], k => k
  | t :: ts, k => first? t (firstAll? ts k)

def firstAny? : List Tree → Continuation → Continuation
  | [], _ => fun _ _ => none
  | t :: ts, k => fun spot slots => (first? t k spot slots).or (firstAny? ts k spot slots)

end

section

variable (k : Continuation) (spot : Spot) (slots : Slots)

@[simp] theorem first?_empty : Tree.empty.first? k = k := rfl

@[simp] theorem first?_set_nil (s : CharSet) (index : Nat) (before : Option Char) :
    (Tree.set s).first? k ⟨index, before, []⟩ slots = none := rfl

@[simp] theorem first?_set_cons (s : CharSet) (index : Nat) (before : Option Char) (c : Char)
    (rest : List Char) :
    (Tree.set s).first? k ⟨index, before, c :: rest⟩ slots =
      if s.contains c then k ⟨index + 1, some c, rest⟩ slots else none := rfl

@[simp] theorem first?_look (l : Look) :
    (Tree.look l).first? k spot slots =
      if l.holds spot.before spot.rest.head? then k spot slots else none := rfl

@[simp] theorem first?_group (index : Nat) (body : Tree) :
    (Tree.group index body).first? k spot slots =
      body.first? (fun stop slots => k stop (slots.set (2 * index + 1) (some stop.index))) spot
        (slots.set (2 * index) (some spot.index)) := rfl

@[simp] theorem first?_concat_nil : (Tree.concat []).first? k = k := rfl

@[simp] theorem first?_concat_cons (t : Tree) (ts : List Tree) :
    (Tree.concat (t :: ts)).first? k = t.first? ((Tree.concat ts).first? k) := rfl

@[simp] theorem first?_alternate_nil : (Tree.alternate []).first? k spot slots = none := rfl

@[simp] theorem first?_alternate_cons (t : Tree) (ts : List Tree) :
    (Tree.alternate (t :: ts)).first? k spot slots =
      (t.first? k spot slots).or ((Tree.alternate ts).first? k spot slots) := rfl

theorem first?_repetition_none (body : Tree) (least : Nat) (greedy : Bool) :
    (Tree.repetition body least none greedy).first? k =
      times body.first? least (rounds body.first? greedy k) := rfl

theorem first?_repetition_some (body : Tree) (least most : Nat) (greedy : Bool) :
    (Tree.repetition body least (some most) greedy).first? k =
      times body.first? least (upTo body.first? greedy (most - least) k) := rfl

end

mutual

/-- Every loop without a limit takes a character in each round. -/
def steady : Tree → Bool
  | .empty | .set _ | .look _ => true
  | .group _ body => steady body
  | .repetition body _ most _ => steady body && (most.isSome || body.consumes)
  | .concat items | .alternate items => allSteady items

def allSteady : List Tree → Bool
  | [] => true
  | t :: ts => steady t && allSteady ts

end

end Tree

/-! ### Code at an address -/

namespace Program

variable {p : Program} {base pc b b' : Nat} {code code' : List Inst} {inst : Inst}
  {k k' : Continuation}

/-- The code stands at an address of the program. -/
def Holds (p : Program) (base : Nat) (code : List Inst) : Prop :=
  ∀ i inst, code[i]? = some inst → p.code[base + i]? = some inst

theorem Holds.front (h : p.Holds base (code ++ code')) : p.Holds base code := by
  intro i inst hi
  apply h
  rw [List.getElem?_append_left (List.getElem?_eq_some_iff.mp hi).1, hi]

theorem Holds.back (h : p.Holds base (code ++ code')) :
    p.Holds (base + code.length) code' := by
  intro i inst hi
  rw [Nat.add_assoc]
  apply h
  rw [List.getElem?_append_right (Nat.le_add_right ..), Nat.add_sub_cancel_left, hi]

theorem Holds.head (h : p.Holds base (inst :: code)) : p.code[base]? = some inst :=
  h 0 inst rfl

theorem Holds.tail (h : p.Holds base (inst :: code)) : p.Holds (base + 1) code := by
  intro i inst hi
  rw [Nat.add_assoc, Nat.add_comm 1]
  exact h (i + 1) inst hi

/-- Going on at an address has the outcome of the continuation, wherever fewer than `b` characters
are left. -/
def Goes (p : Program) (b pc : Nat) (k : Continuation) : Prop :=
  ∀ spot slots, spot.rest.length < b → ∃ n, p.Tries n [(spot, ⟨pc, slots⟩)] (k spot slots)

theorem Goes.mono (h : p.Goes b pc k) (hle : b' ≤ b) : p.Goes b' pc k :=
  fun spot slots hlt => h spot slots (Nat.lt_of_lt_of_le hlt hle)

/-- An instruction with a single way on. -/
theorem tries_single {spot spot' : Spot} {t t' : Thread} {n : Nat} {r : Option Slots}
    (here : p.code[t.pc]? ≠ some .accept) (hways : p.ways spot t = [(spot', t')])
    (h : p.Tries n [(spot', t')] r) : p.Tries (n + 1) [(spot, t)] r := by
  refine .step here ?_
  rwa [hways, List.append_nil]

theorem tries_dead {spot : Spot} {t : Thread} (here : p.code[t.pc]? ≠ some .accept)
    (hways : p.ways spot t = []) : p.Tries 1 [(spot, t)] none := by
  refine .step here ?_
  rw [hways]
  exact .nil

theorem Tries.append {ws ws' : List (Spot × Thread)} {m n : Nat} {r r' : Option Slots}
    (h : p.Tries m ws r) (h' : p.Tries n ws' r') : ∃ n, p.Tries n (ws ++ ws') (r.or r') := by
  cases r with
  | none => exact ⟨m + n, h.append_none h'⟩
  | some slots => exact ⟨m, h.append_some ws'⟩

theorem goes_take {s : CharSet} (hcode : p.code[pc]? = some (.take s))
    (h : p.Goes b (pc + 1) k) : p.Goes (b + 1) pc ((Tree.set s).first? k) := by
  have here : p.code[pc]? ≠ some .accept := by simp [hcode]
  rintro ⟨index, before, rest⟩ slots hlt
  cases rest with
  | nil =>
    rw [Tree.first?_set_nil]
    exact ⟨1, tries_dead here (by simp [ways, hcode])⟩
  | cons c rest =>
    rw [Tree.first?_set_cons]
    by_cases hc : s.contains c
    · obtain ⟨n, hn⟩ := h ⟨index + 1, some c, rest⟩ slots (Nat.lt_of_succ_lt_succ hlt)
      rw [if_pos hc]
      exact ⟨n + 1, tries_single here (by simp [ways, hcode, hc, Spot.next]) hn⟩
    · rw [if_neg hc]
      exact ⟨1, tries_dead here (by simp [ways, hcode, hc])⟩

theorem goes_look {l : Look} (hcode : p.code[pc]? = some (.look l))
    (h : p.Goes b (pc + 1) k) : p.Goes b pc ((Tree.look l).first? k) := by
  have here : p.code[pc]? ≠ some .accept := by simp [hcode]
  intro spot slots hlt
  rw [Tree.first?_look]
  by_cases hl : l.holds spot.before spot.rest.head?
  · obtain ⟨n, hn⟩ := h spot slots hlt
    rw [if_pos hl]
    exact ⟨n + 1, tries_single here (by simp [ways, hcode, Spot.place, hl]) hn⟩
  · rw [if_neg hl]
    exact ⟨1, tries_dead here (by simp [ways, hcode, Spot.place, hl])⟩

theorem goes_save {slot : Nat} (hcode : p.code[pc]? = some (.save slot))
    (h : p.Goes b (pc + 1) k) :
    p.Goes b pc fun spot slots => k spot (slots.set slot (some spot.index)) := by
  intro spot slots hlt
  obtain ⟨n, hn⟩ := h spot (slots.set slot (some spot.index)) hlt
  exact ⟨n + 1, tries_single (by simp [hcode]) (by simp [ways, hcode]) hn⟩

theorem goes_jump {target : Nat} (hcode : p.code[pc]? = some (.jump target))
    (h : p.Goes b target k) : p.Goes b pc k := by
  intro spot slots hlt
  obtain ⟨n, hn⟩ := h spot slots hlt
  exact ⟨n + 1, tries_single (by simp [hcode]) (by simp [ways, hcode]) hn⟩

theorem goes_split {preferred other : Nat} (hcode : p.code[pc]? = some (.split preferred other))
    (h : p.Goes b preferred k) (h' : p.Goes b other k') :
    p.Goes b pc fun spot slots => (k spot slots).or (k' spot slots) := by
  intro spot slots hlt
  obtain ⟨m, hm⟩ := h spot slots hlt
  obtain ⟨n, hn⟩ := h' spot slots hlt
  obtain ⟨l, hl⟩ := hm.append hn
  refine ⟨l + 1, .step (by simp [hcode]) ?_⟩
  simpa [ways, hcode] using hl

theorem goes_choice {greedy : Bool} {inside outside : Nat}
    (hcode : p.code[pc]? = some (.choice greedy inside outside)) (h : p.Goes b inside k)
    (h' : p.Goes b outside k') :
    p.Goes b pc fun spot slots => prefer greedy (k spot slots) (k' spot slots) := by
  cases greedy with
  | true => exact goes_split hcode h h'
  | false => exact goes_split hcode h' h

/-! ### Repetitions -/

/-- Instructions that stand for a part of a pattern, wherever they are put; `w` is 1 if the part
takes a character. -/
def Renders (p : Program) (block : Nat → List Inst) (part : Continuation → Continuation)
    (w : Nat) : Prop :=
  ∀ ⦃base b : Nat⦄ ⦃k : Continuation⦄, p.Holds base (block base) →
    p.Goes b (base + (block base).length) k → p.Goes (b + w) base (part k)

variable {block : Nat → List Inst} {part : Continuation → Continuation} {w count : Nat}
  {greedy : Bool}

theorem goes_times (hblock : p.Renders block part w)
    (hcode : p.Holds base (Tree.copies block count base))
    (h : p.Goes b (base + (Tree.copies block count base).length) k) :
    p.Goes (b + count * w) base (times part count k) := by
  induction count generalizing base with
  | zero => simpa [Tree.copies, times] using h
  | succ count ih =>
    simp only [Tree.copies] at hcode h
    rw [List.length_append, ← Nat.add_assoc] at h
    have hothers := ih hcode.back h
    have hfirst := hblock hcode.front hothers
    rwa [Nat.add_assoc, ← Nat.succ_mul] at hfirst

theorem goes_upTo (hblock : p.Renders block part w) {exit : Nat}
    (hcode : p.Holds base (Tree.optionalCopies block greedy exit count base))
    (hlast : exit = base + (Tree.optionalCopies block greedy exit count base).length)
    (h : p.Goes b exit k) : p.Goes b base (upTo part greedy count k) := by
  induction count generalizing base with
  | zero =>
    simp only [Tree.optionalCopies, List.length_nil, Nat.add_zero] at hlast
    rwa [← hlast]
  | succ count ih =>
    simp only [Tree.optionalCopies, List.cons_append] at hcode hlast
    have hinside := hcode.tail
    have hothers := ih hinside.back (by
      rw [List.length_cons, List.length_append] at hlast
      omega)
    have hround := hblock hinside.front hothers
    exact goes_choice hcode.head (hround.mono (Nat.le_add_right ..)) h

/-- A loop whose rounds start at `inside`. -/
theorem goes_rounds {inside outside : Nat}
    (hcode : p.code[pc]? = some (.choice greedy inside outside))
    (hround : ∀ {b k}, p.Goes b pc k → p.Goes (b + 1) inside (part k))
    (h : p.Goes b outside k) : p.Goes b pc (rounds part greedy k) := by
  induction b with
  | zero => exact fun spot slots hlt => absurd hlt (Nat.not_lt_zero _)
  | succ b ih =>
    intro spot slots hlt
    -- a round from here comes back with fewer characters left
    have hagain : p.Goes spot.rest.length pc fun spot' slots' =>
        if _h : spot'.rest.length < spot.rest.length then rounds part greedy k spot' slots'
        else none := by
      intro spot' slots' hlt'
      simp only [hlt', dif_pos]
      exact ih (h.mono (Nat.le_succ b)) spot' slots' (by omega)
    rw [rounds]
    exact goes_choice hcode (hround hagain) (h.mono (by omega)) spot slots
      (Nat.lt_succ_self _)

theorem goes_loop (hblock : p.Renders block part 1)
    (hcode : p.Holds base (Tree.loop block true greedy base))
    (h : p.Goes b (base + (Tree.loop block true greedy base).length) k) :
    p.Goes b base (rounds part greedy k) := by
  simp only [Tree.loop, if_true, List.cons_append] at hcode h
  rw [List.length_cons, List.length_append, List.length_singleton] at h
  refine goes_rounds hcode.head ?_ h
  intro b k hk
  exact hblock hcode.tail.front (goes_jump hcode.tail.back.head hk)

theorem goes_loopOnce (hblock : p.Renders block part 1)
    (hcode : p.Holds base (Tree.loopOnce block greedy base))
    (h : p.Goes b (base + (Tree.loopOnce block greedy base).length) k) :
    p.Goes (b + 1) base (part (rounds part greedy k)) := by
  simp only [Tree.loopOnce] at hcode h
  rw [List.length_append, List.length_singleton, ← Nat.add_assoc] at h
  refine hblock hcode.front (goes_rounds hcode.back.head ?_ h)
  intro b k hk
  exact hblock hcode.front hk

end Program

/-! ### The code of a tree -/

namespace Tree

section

variable {block : Nat → List Inst} (hblock : ∀ a b, (block a).length = (block b).length)

include hblock

theorem length_copies (count base base' : Nat) :
    (copies block count base).length = (copies block count base').length := by
  induction count generalizing base base' with
  | zero => rfl
  | succ count ih =>
    simp only [copies, List.length_append]
    rw [hblock base base', ih _ (base' + (block base').length)]

theorem length_optionalCopies (greedy : Bool) (exit count base address : Nat) :
    (optionalCopies block greedy exit count base).length =
      count * ((block address).length + 1) := by
  induction count generalizing base with
  | zero => simp [optionalCopies]
  | succ count ih =>
    simp only [optionalCopies, List.cons_append, List.length_cons, List.length_append]
    rw [ih, hblock (base + 1) address, Nat.succ_mul]
    omega

theorem length_loopOnce (greedy : Bool) (base base' : Nat) :
    (loopOnce block greedy base).length = (loopOnce block greedy base').length := by
  simp [loopOnce, hblock base base']

theorem length_loop (consumes greedy : Bool) (base base' : Nat) :
    (loop block consumes greedy base).length = (loop block consumes greedy base').length := by
  cases consumes with
  | true => simp [loop, hblock (base + 1) (base' + 1)]
  | false => simp [loop, length_loopOnce hblock greedy (base + 1) (base' + 1)]

end

mutual

/-- Code takes as much room at one address as at another. -/
theorem length_code (t : Tree) (base base' : Nat) :
    (t.code base).length = (t.code base').length := by
  match t with
  | .empty => rfl
  | .set _ => rfl
  | .look _ => rfl
  | .group _ body => simp [code, length_code body (base + 1) (base' + 1)]
  | .repetition body least none greedy =>
    cases least with
    | zero =>
      simp only [code]
      exact length_loop (length_code body) ..
    | succ n =>
      simp only [code, List.length_append]
      rw [length_copies (length_code body) n base base',
        length_loopOnce (length_code body) greedy _ (base' + (copies body.code n base').length)]
  | .repetition body least (some m) greedy =>
    simp only [code, List.length_append]
    rw [length_copies (length_code body) least base base',
      length_optionalCopies (length_code body) greedy _ _ _ 0,
      length_optionalCopies (length_code body) greedy _ _ _ 0]
  | .concat items =>
    simp only [code]
    exact length_codeAll items base base'
  | .alternate items =>
    simp only [code]
    exact length_codeAny items base base'

theorem length_codeAll (ts : List Tree) (base base' : Nat) :
    (codeAll ts base).length = (codeAll ts base').length := by
  match ts with
  | [] => rfl
  | t :: ts =>
    simp only [codeAll, List.length_append]
    rw [length_code t base base', length_codeAll ts _ (base' + (code t base').length)]

theorem length_codeAny (ts : List Tree) (base base' : Nat) :
    (codeAny ts base).length = (codeAny ts base').length := by
  match ts with
  | [] => rfl
  | [t] =>
    simp only [codeAny]
    exact length_code t base base'
  | t :: u :: ts =>
    simp only [codeAny, List.cons_append, List.length_cons, List.length_append]
    rw [length_code t (base + 1) (base' + 1),
      length_codeAny (u :: ts) _ (base' + 1 + (code t (base' + 1)).length + 1)]

end

open Program

variable {p : Program}

theorem renders_repetition_none {body : Tree} {least : Nat} {greedy : Bool}
    (hbody : p.Renders body.code body.first? 1) (hconsumes : body.consumes = true) :
    p.Renders (Tree.repetition body least none greedy).code
      (Tree.repetition body least none greedy).first? (decide (0 < least)).toNat := by
  intro base b k hcode hk
  rw [first?_repetition_none]
  cases least with
  | zero =>
    simp only [code, hconsumes] at hcode hk
    exact goes_loop hbody hcode hk
  | succ n =>
    simp only [code] at hcode hk
    rw [List.length_append, ← Nat.add_assoc] at hk
    have hloop := goes_loopOnce hbody hcode.back hk
    rw [times_succ]
    exact (goes_times hbody hcode.front hloop).mono (by simp)

theorem renders_repetition_some {body : Tree} {least most w : Nat} {greedy : Bool}
    (hbody : p.Renders body.code body.first? w) :
    p.Renders (Tree.repetition body least (some most) greedy).code
      (Tree.repetition body least (some most) greedy).first? (least * w) := by
  intro base b k hcode hk
  rw [first?_repetition_some]
  simp only [code] at hcode hk
  refine goes_times hbody hcode.front ?_
  have hlength := length_optionalCopies (length_code body) greedy
    (base + (copies body.code least base).length +
      (most - least) * ((body.code (base + (copies body.code least base).length)).length + 1))
    (most - least) (base + (copies body.code least base).length)
    (base + (copies body.code least base).length)
  refine goes_upTo hbody hcode.back (by rw [hlength]) ?_
  rwa [List.length_append, hlength, ← Nat.add_assoc] at hk

mutual

/-- The code of a tree goes through the attempts in the order of the tree. -/
theorem renders_code (t : Tree) (h : t.steady = true) :
    p.Renders t.code t.first? t.consumes.toNat := by
  match t with
  | .empty =>
    intro base b k hcode hk
    simpa [code, consumes] using hk
  | .set s =>
    intro base b k hcode hk
    exact goes_take hcode.head hk
  | .look l =>
    intro base b k hcode hk
    exact goes_look hcode.head hk
  | .group index body =>
    intro base b k hcode hk
    rw [steady] at h
    simp only [code, List.cons_append] at hcode hk
    rw [List.length_cons, List.length_append, List.length_singleton] at hk
    have hstop := goes_save hcode.tail.back.head (show p.Goes b _ k by
      rwa [show base + 1 + (code body (base + 1)).length + 1 =
        base + ((code body (base + 1)).length + 1 + 1) by omega])
    rw [first?, consumes]
    exact goes_save hcode.head (renders_code body h hcode.tail.front hstop)
  | .repetition body least none greedy =>
    simp only [steady, Option.isSome_none, Bool.false_or, Bool.and_eq_true] at h
    have hbody := renders_code body h.1
    rw [h.2] at hbody
    simpa [consumes, h.2] using renders_repetition_none hbody h.2
  | .repetition body least (some most) greedy =>
    simp only [steady, Option.isSome_some, Bool.true_or, Bool.and_true] at h
    intro base b k hcode hk
    refine (renders_repetition_some (renders_code body h) hcode hk).mono ?_
    cases hbody : body.consumes with
    | false => simp [consumes, hbody]
    | true => cases least <;> simp [consumes, hbody]
  | .concat items =>
    intro base b k hcode hk
    rw [steady] at h
    rw [first?, consumes]
    exact renders_codeAll items h hcode hk
  | .alternate items =>
    intro base b k hcode hk
    rw [steady] at h
    rw [first?, consumes]
    exact renders_codeAny items h hcode hk

theorem renders_codeAll (ts : List Tree) (h : allSteady ts = true) :
    p.Renders (codeAll ts) (firstAll? ts) (anyConsumes ts).toNat := by
  match ts with
  | [] =>
    intro base b k hcode hk
    simpa [codeAll, anyConsumes, firstAll?] using hk
  | t :: ts =>
    intro base b k hcode hk
    simp only [allSteady, Bool.and_eq_true] at h
    simp only [codeAll] at hcode hk
    rw [List.length_append, ← Nat.add_assoc] at hk
    have hothers := renders_codeAll ts h.2 hcode.back hk
    have hfirst := renders_code t h.1 hcode.front hothers
    rw [firstAll?]
    refine hfirst.mono ?_
    cases ht : t.consumes <;> cases hts : anyConsumes ts <;> simp [anyConsumes, ht, hts]

theorem renders_codeAny (ts : List Tree) (h : allSteady ts = true) :
    p.Renders (codeAny ts) (firstAny? ts) (allConsume ts).toNat := by
  match ts with
  | [] =>
    intro base b k hcode hk
    have hnone := goes_take hcode.head hk
    rintro ⟨index, before, rest⟩ slots hlt
    cases rest with
    | nil => simpa [firstAny?] using hnone ⟨index, before, []⟩ slots hlt
    | cons c rest =>
      simpa [CharSet.contains, firstAny?] using hnone ⟨index, before, c :: rest⟩ slots hlt
  | [t] =>
    intro base b k hcode hk
    simp only [allSteady, Bool.and_eq_true] at h
    simp only [codeAny] at hcode hk
    simpa [firstAny?, allConsume] using renders_code t h.1 hcode hk
  | t :: u :: ts =>
    intro base b k hcode hk
    simp only [allSteady, Bool.and_eq_true] at h
    simp only [codeAny, List.cons_append] at hcode hk
    simp only [List.length_cons, List.length_append] at hk
    have hexit : p.Goes b (base + 1 + (code t (base + 1)).length + 1 +
        (codeAny (u :: ts) (base + 1 + (code t (base + 1)).length + 1)).length) k := by
      convert hk using 1
      omega
    have hback := renders_codeAny (u :: ts) (by simpa [allSteady] using h.2)
      hcode.tail.back.tail hexit
    have hfront := renders_code t h.1 hcode.tail.front (goes_jump hcode.tail.back.head hexit)
    have hall : (allConsume (t :: u :: ts)).toNat ≤ t.consumes.toNat ∧
        (allConsume (t :: u :: ts)).toNat ≤ (allConsume (u :: ts)).toNat := by
      rw [allConsume]
      cases t.consumes <;> cases allConsume (u :: ts) <;> decide
    rw [firstAny?]
    exact goes_split hcode.head (hfront.mono (Nat.add_le_add_left hall.1 b))
      (hback.mono (Nat.add_le_add_left hall.2 b))

end

end Tree

/-! ### Searching -/

/-- Where a match ends, everything is noted. -/
def finish : Continuation := fun _ slots => some slots

/-- A program that is tied to the start of the text finds the preferred match of its tree. -/
theorem Program.search?_ofTree {t : Tree} (ha : t.anchored = true) (hs : t.steady = true)
    (text : List Char) :
    (Program.ofTree t).search? text =
      (Tree.group 0 t).first? finish (.origin text) (Program.ofTree t).blank := by
  have hcode : (Program.ofTree t).Holds 0 ((Tree.group 0 t).code 0 ++ [.accept]) := by
    intro i inst hi
    simpa [Program.ofTree] using hi
  have hfinish : (Program.ofTree t).Goes (text.length + 1) (0 + ((Tree.group 0 t).code 0).length)
      finish := fun spot slots _ => ⟨0, .accept hcode.back.head⟩
  have hgoes := Tree.renders_code (Tree.group 0 t) (by rwa [Tree.steady]) hcode.front hfinish
  obtain ⟨n, hn⟩ := hgoes (.origin text) (Program.ofTree t).blank
    (Nat.lt_of_lt_of_le (Nat.lt_succ_self _) (Nat.le_add_right ..))
  exact Program.search?_eq ha hn

end DollarScript.Regex
