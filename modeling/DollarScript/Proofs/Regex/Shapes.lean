import DollarScript.Pattern
import DollarScript.Proofs.Regex.Preference

/-! What the usual shapes of patterns take from the front of a text: words, runs of characters, and
choices between words. -/
namespace DollarScript

namespace Regex

/-- The spot behind some characters. -/
def Spot.past (spot : Spot) (front : List Char) : Spot :=
  ⟨spot.index + front.length, front.getLast?.or spot.before, spot.rest.drop front.length⟩

@[simp] theorem Spot.past_nil (spot : Spot) : spot.past [] = spot := by
  simp [Spot.past]

@[simp] theorem Spot.past_cons (index : Nat) (before : Option Char) (c : Char)
    (front rest : List Char) :
    Spot.past ⟨index, before, c :: rest⟩ (c :: front) =
      Spot.past ⟨index + 1, some c, rest⟩ front := by
  simp only [Spot.past, List.length_cons, List.drop_succ_cons, Spot.mk.injEq, and_true]
  refine ⟨by omega, ?_⟩
  cases front with
  | nil => rfl
  | cons d front =>
    rw [List.getLast?_cons_cons, List.getLast?_cons]
    rfl

@[simp] theorem Spot.index_past (spot : Spot) (front : List Char) :
    (spot.past front).index = spot.index + front.length := rfl

@[simp] theorem Spot.past_origin (text front : List Char) :
    (Spot.origin text).past front = ⟨front.length, front.getLast?, text.drop front.length⟩ := by
  simp [Spot.past, Spot.origin]

@[simp] theorem CharSet.contains_single (a c : Char) :
    (CharSet.single a).contains c = (c == a) := by
  rw [Bool.eq_iff_iff]
  simp only [single, contains, Bool.and_eq_true, decide_eq_true_eq, beq_iff_eq]
  exact ⟨fun h => Char.le_antisymm h.2 h.1, by rintro rfl; exact ⟨Char.le_refl _, Char.le_refl _⟩⟩

/-! ### Words -/

/-- Characters that stand for themselves, one after the other. -/
def Tree.word : List Char → Tree
  | [c] => .set (.single c)
  | cs => .concat (cs.map fun c => .set (.single c))

/-- One of several words; the first that goes is preferred. -/
def Tree.oneOf (words : List String) : Tree := .alternate (words.map fun w => .word w.toList)

variable {k : Continuation} {spot : Spot} {slots : Slots}

theorem Tree.first?_singles (w : List Char) (spot : Spot) :
    (Tree.concat (w.map fun c => .set (.single c))).first? k spot slots =
      if w.isPrefixOf spot.rest then k (spot.past w) slots else none := by
  induction w generalizing spot with
  | nil => simp
  | cons a w ih =>
    obtain ⟨index, before, rest⟩ := spot
    rw [List.map_cons, Tree.first?_concat_cons]
    cases rest with
    | nil => simp
    | cons c rest =>
      rw [Tree.first?_set_cons, ih, CharSet.contains_single]
      by_cases hc : c = a
      · subst hc
        simp
      · simp [hc, Ne.symm hc]

theorem Tree.first?_word (w : List Char) :
    (Tree.word w).first? k spot slots =
      if w.isPrefixOf spot.rest then k (spot.past w) slots else none := by
  rw [← Tree.first?_singles]
  unfold Tree.word
  split
  · simp
  · rfl

theorem Tree.first?_oneOf (words : List String) :
    (Tree.oneOf words).first? k spot slots = words.findSome? fun w =>
      if w.toList.isPrefixOf spot.rest then k (spot.past w.toList) slots else none := by
  induction words with
  | nil => simp [Tree.oneOf]
  | cons w words ih =>
    rw [Tree.oneOf, List.map_cons, Tree.first?_alternate_cons, ← Tree.oneOf, ih, Tree.first?_word,
      List.findSome?_cons]
    split
    · cases k (spot.past w.toList) slots <;> rfl
    · rfl

/-! ### Runs -/

/-- What fails behind some characters fails in front of them, whatever is noted. -/
def Eager (k : Continuation) : Prop :=
  ∀ spot slots front slots', front <+: spot.rest →
    k (spot.past front) slots' = none → k spot slots = none

/-- What fails behind a run of the set fails in front of it. -/
def Exhausts (k : Continuation) (s : CharSet) : Prop :=
  ∀ spot slots, k (spot.past (spot.rest.takeWhile s.contains)) slots = none → k spot slots = none

theorem Eager.exhausts (hk : Eager k) (s : CharSet) : Exhausts k s := fun spot slots =>
  hk spot slots _ slots (List.takeWhile_prefix _)

theorem Eager.noting (hk : Eager k) (note : Spot → Slots → Slots) :
    Eager fun stop slots => k stop (note stop slots) := by
  intro spot slots front slots' hfront hnone
  exact hk spot _ front _ hfront hnone

theorem eager_some (note : Spot → Slots → Slots) :
    Eager fun stop slots => some (note stop slots) := by
  intro spot slots front slots' _ hnone
  cases hnone

/-- With nothing to go back for, a greedy run takes all it can. -/
theorem rounds_set (s : CharSet) (hk : Exhausts k s) (spot : Spot) :
    rounds (Tree.set s).first? true k spot slots =
      k (spot.past (spot.rest.takeWhile s.contains)) slots := by
  obtain ⟨index, before, rest⟩ := spot
  induction rest generalizing index before with
  | nil =>
    rw [rounds]
    simp [prefer]
  | cons c rest ih =>
    have hrun := hk ⟨index, before, c :: rest⟩ slots
    rw [rounds]
    by_cases hc : s.contains c
    · simp only [hc, List.takeWhile_cons_of_pos, Spot.past_cons] at hrun
      cases hfound : k (Spot.past ⟨index + 1, some c, rest⟩ (rest.takeWhile s.contains)) slots with
      | none => simp [prefer, hc, ih, hfound, hrun hfound]
      | some found => simp [prefer, hc, ih, hfound]
    · simp [prefer, hc]

/-- A run of at least one character. -/
theorem Tree.first?_run (s : CharSet) (hk : Exhausts k s) :
    (Tree.repetition (.set s) 1 none true).first? k spot slots =
      if (spot.rest.takeWhile s.contains).isEmpty then none
      else k (spot.past (spot.rest.takeWhile s.contains)) slots := by
  obtain ⟨index, before, rest⟩ := spot
  rw [Tree.first?_repetition_none]
  cases rest with
  | nil => simp [times]
  | cons c rest =>
    by_cases hc : s.contains c
    · simp [times, hc, rounds_set s hk]
    · simp [times, hc]

/-- A part that may be left out, with nothing to go back for. -/
theorem Tree.first?_optional (body : Tree) :
    (Tree.repetition body 0 (some 1) true).first? k spot slots =
      (body.first? k spot slots).or (k spot slots) := by
  simp [Tree.first?_repetition_some, times, upTo, prefer]

/-! ### Patterns -/

/-- Tied to the start of a text. -/
def Tree.atFront (body : Tree) : Tree := .concat [.look .startText, body]

/-- Tied to both ends. -/
def Tree.asWhole (body : Tree) : Tree := .concat [.look .startText, body, .look .endText]

/-- What is noted when the pattern has matched at the front of a text. -/
def Tree.front? (body : Tree) (text : List Char) : Option Slots :=
  body.first? (fun stop slots => some (slots.set 1 (some stop.index))) (.origin text)
    ((List.replicate (2 * (body.groups + 1)) none).set 0 (some 0))

theorem Tree.anchored_atFront (body : Tree) : body.atFront.anchored = true := by
  simp [Tree.atFront, Tree.anchored, Tree.firstAnchored]

theorem Tree.anchored_asWhole (body : Tree) : body.asWhole.anchored = true := by
  simp [Tree.asWhole, Tree.anchored, Tree.firstAnchored]

theorem search?_atFront {body : Tree} (hs : body.steady = true) (text : List Char) :
    (Program.ofTree body.atFront).search? text = body.front? text := by
  have hsteady : body.atFront.steady = true := by
    simp [Tree.atFront, Tree.steady, Tree.allSteady, hs]
  have hblank : (Program.ofTree body.atFront).blank =
      List.replicate (2 * (body.groups + 1)) none := by
    simp [Program.blank, Program.ofTree, Tree.atFront, Tree.groups, Tree.allGroups]
  rw [Program.search?_ofTree (Tree.anchored_atFront body) hsteady, hblank]
  simp [Tree.atFront, Spot.origin, Look.holds, Tree.front?, finish]

end Regex

open Regex

/-- The pattern with a given tree. -/
def Pattern.ofTree (source : String) (body : Tree) : Pattern where
  source := source
  matchFront := fun text => (Regex.find? (.ofTree body.atFront) text).map (matchOf text)
  matchWhole := fun text => (Regex.find? (.ofTree body.asWhole) text).map (matchOf text)

namespace Pattern

variable {source : String} {body : Tree} {text : List Char}

theorem regex?_eq_ofTree (hfront : Reader.read? (frontText source.toList) = some body.atFront)
    (hwhole : Reader.read? (wholeText source.toList) = some body.asWhole) :
    regex? source = some (ofTree source body) := by
  simp [regex?, compile?, hfront, hwhole, ofTree]

theorem matchFront_of_none (hs : body.steady = true) (h : body.front? text = none) :
    (ofTree source body).matchFront text = none := by
  simp [ofTree, find?, search?_atFront hs, h]

/-- The first two slots say what a match covers, the others what its groups took. -/
theorem matchFront_of_some {n : Nat} {slots : Slots} (hs : body.steady = true)
    (h : body.front? text = some (some 0 :: some n :: slots)) :
    (ofTree source body).matchFront text =
      some ⟨Text.byteLength (text.take n), (pairs slots).map fun g => g.map fun (start, stop) =>
        String.ofList (between text start stop)⟩ := by
  simp [ofTree, find?, search?_atFront hs, h, pairs, matchOf]

end Pattern

end DollarScript
