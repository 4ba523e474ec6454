import DollarScript.Proofs.Regex.Embedding

/-! The groups of a pattern are numbered from 1 on, so only the program around the pattern notes where
the whole match starts and ends. -/
namespace DollarScript.Regex

namespace Tree

mutual

/-- No group of the tree has the number of the whole match. -/
def numbered : Tree → Bool
  | .empty | .set _ | .look _ => true
  | .group index body => 0 < index && body.numbered
  | .repetition body _ _ _ => body.numbered
  | .concat items | .alternate items => allNumbered items

def allNumbered : List Tree → Bool
  | [] => true
  | t :: ts => t.numbered && allNumbered ts

end

theorem allNumbered_iff {ts : List Tree} :
    allNumbered ts = true ↔ ∀ t ∈ ts, t.numbered = true := by
  induction ts with
  | nil => simp [allNumbered]
  | cons t ts ih => simp [allNumbered, ih]

theorem numbered_repeated {body : Tree} (h : body.numbered = true) (least : Nat)
    (most : Option Nat) (greedy : Bool) : (body.repeated least most greedy).numbered = true := by
  unfold repeated
  split
  split
  · rfl
  · split
    · exact h
    · exact h

theorem numbered_atFront {t : Tree} (h : t.numbered = true) : t.atFront.numbered = true := by
  simp [atFront, numbered, allNumbered, h]

theorem numbered_asWhole {t : Tree} (h : t.numbered = true) : t.asWhole.numbered = true := by
  simp [asWhole, numbered, allNumbered, h]

end Tree

namespace Reader

/-! ### Reading -/

structure Level.Numbered (level : Level) : Prop where
  branches : ∀ b ∈ level.branches, b.value.numbered = true
  parts : ∀ p ∈ level.parts, p.tree.numbered = true

structure GroupFrame.Numbered (frame : GroupFrame) : Prop where
  level : frame.level.Numbered
  index : ∀ i ∈ frame.index, 0 < i

/-- All that was read so far has numbers above 0. -/
structure State.Numbered (s : State) : Prop where
  level : s.level.Numbered
  outer : ∀ frame ∈ s.outer, frame.Numbered

variable {s s' : State} {cs rest : List Char}

theorem numbered_joinAll {parts : List Part} (h : ∀ p ∈ parts, p.tree.numbered = true) :
    (Part.joinAll parts).value.numbered = true := by
  unfold Part.joinAll
  split
  · rfl
  · rename_i p
    exact h p List.mem_cons_self
  · rw [Tree.numbered, Tree.allNumbered_iff]
    intro t ht
    obtain ⟨p, hp, rfl⟩ := List.mem_map.mp ht
    exact h p (List.mem_reverse.mp hp)

theorem Level.Numbered.close {level : Level} (h : level.Numbered) :
    level.close.value.numbered = true := by
  have hlast := numbered_joinAll h.parts
  unfold Level.close
  split
  · exact hlast
  · rw [Tree.numbered, Tree.allNumbered_iff]
    intro t ht
    obtain ⟨b, hb, rfl⟩ := List.mem_map.mp ht
    rcases List.mem_cons.mp (List.mem_reverse.mp hb) with rfl | hb
    · exact hlast
    · exact h.branches b hb

theorem State.Numbered.push (h : s.Numbered) {tree : Tree} (ht : tree.numbered = true)
    (depth : Nat) (repeatable : Bool) : (s.push tree depth repeatable).Numbered := by
  refine ⟨⟨h.level.branches, ?_⟩, h.outer⟩
  intro p hp
  rcases List.mem_cons.mp hp with rfl | hp
  · exact ht
  · exact h.level.parts p hp

theorem State.Numbered.openGroup (h : s.Numbered) {index : Option Nat} (hi : ∀ i ∈ index, 0 < i)
    (flags : Flags) : (s.openGroup index flags).Numbered := by
  refine ⟨⟨by simp [State.openGroup, Level.empty], by simp [State.openGroup, Level.empty]⟩, ?_⟩
  intro frame hframe
  rcases List.mem_cons.mp hframe with rfl | hframe
  · exact ⟨h.level, hi⟩
  · exact h.outer frame hframe

theorem State.Numbered.closeGroup? (h : s.Numbered) (hs : s.closeGroup? = some s') :
    s'.Numbered := by
  unfold State.closeGroup? at hs
  split at hs
  · cases hs
  · rename_i frame outer houter
    have hframe := h.outer frame (by rw [houter]; exact List.mem_cons_self)
    have hrest : ∀ f ∈ outer, f.Numbered := by
      intro f hf
      exact h.outer f (by rw [houter]; exact List.mem_cons_of_mem _ hf)
    cases hs
    refine State.Numbered.push ⟨hframe.level, hrest⟩ ?_ _ _
    cases hindex : frame.index with
    | none => exact h.level.close
    | some i =>
      have hi := hframe.index i hindex
      simp [Tree.numbered, hi, h.level.close]

theorem State.Numbered.repeatLast? (h : s.Numbered) {least : Nat} {most : Option Nat} {eager : Bool}
    (hs : s.repeatLast? least most eager = some s') : s'.Numbered := by
  unfold State.repeatLast? at hs
  split at hs
  · cases hs
  · rename_i p parts hparts
    split at hs
    · cases hs
      have hall := h.level.parts
      rw [hparts] at hall
      refine ⟨⟨h.level.branches, ?_⟩, h.outer⟩
      intro q hq
      rcases List.mem_cons.mp hq with rfl | hq
      · exact Tree.numbered_repeated (hall p List.mem_cons_self) _ _ _
      · exact hall q (List.mem_cons_of_mem _ hq)
    · cases hs

theorem State.Numbered.openNamed? (h : s.Numbered) {r : Option (List Char × List Char)}
    (hs : s.openNamed? r = some (s', rest)) : s'.Numbered := by
  unfold State.openNamed? at hs
  split at hs
  · split at hs
    · cases hs
    · cases hs
      have hi : ∀ i ∈ some (s.groups + 1), 0 < i := by simp
      refine State.Numbered.openGroup ?_ hi _
      exact ⟨h.level, h.outer⟩
  · cases hs

theorem State.Numbered.useFlags? (h : s.Numbered) {r : Option (Flags × Bool × Char × List Char)}
    (hs : s.useFlags? r = some (s', rest)) : s'.Numbered := by
  unfold State.useFlags? at hs
  split at hs
  · cases hs
  · split at hs
    · cases hs
      exact h.openGroup (by simp) _
    · split at hs
      · cases hs
        have hempty : Tree.empty.numbered = true := rfl
        refine State.Numbered.push ?_ hempty _ _
        exact ⟨h.level, h.outer⟩
      · cases hs

/-- A group that is opened has the next number, or none. -/
theorem State.Numbered.readGroup (h : s.Numbered) (hs : readGroup s cs = some (s', rest)) :
    s'.Numbered := by
  rcases readGroup_cases s cs with ⟨r, hr⟩ | ⟨r, hr⟩ | ⟨rest', hr⟩
  · exact h.openNamed? (hr.symm.trans hs)
  · exact h.useFlags? (hr.symm.trans hs)
  · cases hr.symm.trans hs
    have hi : ∀ i ∈ some (s.groups + 1), 0 < i := by simp
    refine State.Numbered.openGroup ?_ hi _
    exact ⟨h.level, h.outer⟩

theorem numbered_toTree (flags : Flags) (p : Primitive) : (p.toTree flags).numbered = true := by
  cases p <;> rfl

theorem State.Numbered.readNext (h : s.Numbered) (hs : readNext s cs = some (s', rest)) :
    s'.Numbered := by
  cases cs with
  | nil => cases hs
  | cons c cs =>
    have hrepeat : ∀ {least most cs}, ((s.repeatLast? least most (readEager cs).1).map
        (·, (readEager cs).2)) = some (s', rest) → s'.Numbered := by
      intro least most cs hs
      obtain ⟨s₁, hs₁, heq⟩ := Option.map_eq_some_iff.mp hs
      cases heq
      exact h.repeatLast? hs₁
    unfold Reader.readNext at hs
    dsimp only at hs
    split at hs
    · exact h.readGroup hs
    · obtain ⟨s₁, hs₁, heq⟩ := Option.map_eq_some_iff.mp hs
      cases heq
      exact h.closeGroup? hs₁
    · cases hs
      refine ⟨⟨?_, by simp⟩, h.outer⟩
      intro b hb
      rcases List.mem_cons.mp hb with rfl | hb
      · exact numbered_joinAll h.level.parts
      · exact h.level.branches b hb
    · obtain ⟨p, -, heq⟩ := Option.map_eq_some_iff.mp hs
      cases heq
      exact h.push rfl _ _
    · exact hrepeat hs
    · exact hrepeat hs
    · exact hrepeat hs
    · split at hs
      · exact hrepeat hs
      · cases hs
    · obtain ⟨p, -, heq⟩ := Option.map_eq_some_iff.mp hs
      cases heq
      exact h.push (numbered_toTree _ _) _ _
    all_goals
      cases hs
      exact h.push rfl _ _

theorem State.Numbered.readAll (h : s.Numbered) {fuel : Nat} {item : Item Tree}
    (hs : readAll fuel s cs = some item) : item.value.numbered = true := by
  induction fuel generalizing s cs with
  | zero => cases hs
  | succ fuel ih =>
    cases hskip : skip s.flags.ignoreBlanks cs with
    | nil =>
      obtain ⟨-, rfl⟩ := readAll_of_nil hskip hs
      exact h.level.close
    | cons c more =>
      obtain ⟨s', rest, hnext, hs⟩ := readAll_of_cons hskip hs
      exact ih (h.readNext hnext) hs

theorem numbered_of_read? {t : Tree} (h : read? cs = some t) : t.numbered = true := by
  obtain ⟨item, hitem, rfl⟩ := read?_eq_some h
  have hinitial : State.initial.Numbered :=
    ⟨⟨by simp [State.initial, Level.empty], by simp [State.initial, Level.empty]⟩,
      by simp [State.initial]⟩
  exact hinitial.readAll hitem

end Reader

/-! ### Code -/

/-- The instruction goes on between two addresses, and does not note an end of the whole match. -/
def Inst.Stays (low high : Nat) : Inst → Prop
  | .take _ | .look _ => True
  | .save slot => 2 ≤ slot
  | .split preferred other => (low ≤ preferred ∧ preferred ≤ high) ∧ low ≤ other ∧ other ≤ high
  | .jump target => low ≤ target ∧ target ≤ high
  | .accept => False

theorem stays_choice {greedy : Bool} {low high inside outside : Nat}
    (hi : low ≤ inside ∧ inside ≤ high) (ho : low ≤ outside ∧ outside ≤ high) :
    (Inst.choice greedy inside outside).Stays low high := by
  cases greedy with
  | true => exact ⟨hi, ho⟩
  | false => exact ⟨ho, hi⟩

namespace Tree

/-- Wherever the block is put, it goes on within itself or right behind itself. -/
def Confined (block : Nat → List Inst) : Prop :=
  ∀ ⦃base low high : Nat⦄, low ≤ base → base + (block base).length ≤ high →
    ∀ inst ∈ block base, inst.Stays low high

variable {block : Nat → List Inst} {base low high : Nat} {greedy : Bool}

theorem confined_copies (hblock : Confined block) (count : Nat) : Confined (copies block count) := by
  intro base low high hlow hhigh inst hinst
  induction count generalizing base with
  | zero => cases hinst
  | succ count ih =>
    simp only [copies, List.length_append, List.mem_append] at hhigh hinst
    rcases hinst with hinst | hinst
    · exact hblock hlow (by omega) inst hinst
    · exact ih (by omega) (by omega) hinst

theorem stays_optionalCopies (hblock : Confined block) {exit count : Nat} (hlow : low ≤ base)
    (hhigh : base + (optionalCopies block greedy exit count base).length ≤ high)
    (hexit : low ≤ exit ∧ exit ≤ high) :
    ∀ inst ∈ optionalCopies block greedy exit count base, inst.Stays low high := by
  intro inst hinst
  induction count generalizing base with
  | zero => cases hinst
  | succ count ih =>
    simp only [optionalCopies, List.cons_append, List.length_cons, List.length_append,
      List.mem_cons, List.mem_append] at hhigh hinst
    rcases hinst with rfl | hinst | hinst
    · exact stays_choice ⟨by omega, by omega⟩ hexit
    · exact hblock (by omega) (by omega) inst hinst
    · exact ih (by omega) (by omega) hinst

theorem confined_loopOnce (hblock : Confined block) (greedy : Bool) :
    Confined (loopOnce block greedy) := by
  intro base low high hlow hhigh inst hinst
  simp only [loopOnce, List.length_append, List.length_cons, List.length_nil, List.mem_append,
    List.mem_singleton] at hhigh hinst
  rcases hinst with hinst | rfl
  · exact hblock hlow (by omega) inst hinst
  · exact stays_choice ⟨by omega, by omega⟩ ⟨by omega, by omega⟩

theorem confined_loop (hblock : Confined block) (consumes greedy : Bool) :
    Confined (loop block consumes greedy) := by
  intro base low high hlow hhigh inst hinst
  cases consumes with
  | true =>
    simp only [loop, if_true, List.cons_append, List.length_cons, List.length_append,
      List.length_nil, List.mem_cons, List.mem_append, List.not_mem_nil, or_false] at hhigh hinst
    rcases hinst with rfl | hinst | rfl
    · exact stays_choice ⟨by omega, by omega⟩ ⟨by omega, by omega⟩
    · exact hblock (by omega) (by omega) inst hinst
    · exact ⟨by omega, by omega⟩
  | false =>
    simp only [loop, Bool.false_eq_true, if_false, List.length_cons, List.mem_cons] at hhigh hinst
    rcases hinst with rfl | hinst
    · exact stays_choice ⟨by omega, by omega⟩ ⟨by omega, by omega⟩
    · exact confined_loopOnce hblock greedy (by omega) (by omega) inst hinst

mutual

/-- The code of a tree never leaves to anywhere but right behind itself. -/
theorem confined_code (t : Tree) (h : t.numbered = true) : Confined t.code := by
  intro base low high hlow hhigh inst hinst
  match t with
  | .empty => cases hinst
  | .set _ =>
    obtain rfl := List.mem_singleton.mp hinst
    trivial
  | .look _ =>
    obtain rfl := List.mem_singleton.mp hinst
    trivial
  | .group index body =>
    simp only [numbered, Bool.and_eq_true, decide_eq_true_eq] at h
    simp only [code, List.cons_append, List.length_cons, List.length_append, List.length_nil,
      List.mem_cons, List.mem_append, List.not_mem_nil, or_false] at hhigh hinst
    rcases hinst with rfl | hinst | rfl
    · show 2 ≤ 2 * index
      omega
    · exact confined_code body h.2 (by omega) (by omega) inst hinst
    · show 2 ≤ 2 * index + 1
      omega
  | .repetition body least none greedy =>
    have hbody := confined_code body h
    cases least with
    | zero => exact confined_loop hbody _ _ hlow hhigh inst hinst
    | succ n =>
      simp only [code, List.length_append, List.mem_append] at hhigh hinst
      rcases hinst with hinst | hinst
      · exact confined_copies hbody n hlow (by omega) inst hinst
      · exact confined_loopOnce hbody greedy (by omega) (by omega) inst hinst
  | .repetition body least (some m) greedy =>
    have hbody := confined_code body h
    simp only [code, List.length_append, List.mem_append] at hhigh hinst
    rcases hinst with hinst | hinst
    · exact confined_copies hbody least hlow (by omega) inst hinst
    · have hlength := length_optionalCopies (length_code body) greedy
        (base + (copies body.code least base).length + (m - least) *
          ((body.code (base + (copies body.code least base).length)).length + 1))
        (m - least) (base + (copies body.code least base).length)
        (base + (copies body.code least base).length)
      exact stays_optionalCopies hbody (by omega) (by omega) ⟨by omega, by omega⟩ inst hinst
  | .concat items => exact confined_codeAll items h hlow hhigh inst hinst
  | .alternate items => exact confined_codeAny items h hlow hhigh inst hinst

theorem confined_codeAll (ts : List Tree) (h : allNumbered ts = true) : Confined (codeAll ts) := by
  intro base low high hlow hhigh inst hinst
  match ts with
  | [] => cases hinst
  | t :: ts =>
    simp only [allNumbered, Bool.and_eq_true] at h
    simp only [codeAll, List.length_append, List.mem_append] at hhigh hinst
    rcases hinst with hinst | hinst
    · exact confined_code t h.1 hlow (by omega) inst hinst
    · exact confined_codeAll ts h.2 (by omega) (by omega) inst hinst

theorem confined_codeAny (ts : List Tree) (h : allNumbered ts = true) : Confined (codeAny ts) := by
  intro base low high hlow hhigh inst hinst
  match ts with
  | [] =>
    obtain rfl := List.mem_singleton.mp hinst
    trivial
  | [t] =>
    simp only [allNumbered, Bool.and_true] at h
    exact confined_code t h hlow hhigh inst hinst
  | t :: u :: ts =>
    rw [allNumbered, Bool.and_eq_true] at h
    simp only [codeAny, List.cons_append, List.length_cons, List.length_append, List.mem_cons,
      List.mem_append] at hhigh hinst
    rcases hinst with rfl | hinst | rfl | hinst
    · exact ⟨⟨by omega, by omega⟩, by omega, by omega⟩
    · exact confined_code t h.1 (by omega) (by omega) inst hinst
    · exact ⟨by omega, by omega⟩
    · exact confined_codeAny (u :: ts) h.2 (by omega) (by omega) inst hinst

end

end Tree

end DollarScript.Regex
