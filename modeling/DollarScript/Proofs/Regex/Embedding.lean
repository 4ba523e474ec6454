import DollarScript.Proofs.Regex.Locality
import DollarScript.Proofs.Regex.Shapes

/-! A pattern that can be read by itself is read alike inside of a group: what is put around it ties
all of it to the start of a text, or to both ends. -/
namespace DollarScript.Regex.Reader

open DollarScript.Text

/-! ### Groups -/

/-- Opens a group by its name, if that is new. -/
def State.openNamed? (s : State) (r : Option (List Char × List Char)) : Option (State × List Char) :=
  match r with
  | some (name, rest) =>
    if s.names.contains name then none
    else
      let s := { s with groups := s.groups + 1, names := name :: s.names }
      some (s.openGroup (some s.groups) s.flags, rest)
  | none => none

/-- Opens a group with settings of its own, or changes those of the group it is in. -/
def State.useFlags? (s : State) (r : Option (Flags × Bool × Char × List Char)) :
    Option (State × List Char) :=
  match r with
  | none => none
  | some (flags, changed, close, rest) =>
    if close = ':' then some (s.openGroup none flags, rest)
    else if changed then some ({ s with flags := flags }.push .empty 0 false, rest)
    else none

def State.openNumbered (s : State) : State :=
  let s := { s with groups := s.groups + 1 }
  s.openGroup (some s.groups) s.flags

variable {tail cs cs' rest more : List Char} {c : Char} {s : State}

theorem readGroup_named (h : skip s.flags.ignoreBlanks cs = '?' :: 'P' :: '<' :: more ∨
    skip s.flags.ignoreBlanks cs = '?' :: '<' :: more) :
    readGroup s cs = s.openNamed? (readName [] more) := by
  unfold readGroup
  rcases h with h | h
  · rw [h]
    rfl
  · rw [h]
    rfl

theorem readGroup_flags (h : skip s.flags.ignoreBlanks cs = '?' :: more)
    (hnamed : ∀ rest, more ≠ 'P' :: '<' :: rest) (hangle : ∀ rest, more ≠ '<' :: rest) :
    readGroup s cs = s.useFlags? (readFlags s.flags [] more) := by
  unfold readGroup
  rw [h]
  split
  · rename_i heq
    cases heq
    exact absurd rfl (hnamed _)
  · rename_i heq
    cases heq
    exact absurd rfl (hangle _)
  · rename_i heq
    cases heq
    rfl
  · rename_i hquestion
    exact absurd rfl (hquestion more)

theorem readGroup_plain (h : ∀ rest, skip s.flags.ignoreBlanks cs ≠ '?' :: rest) :
    readGroup s cs = some (s.openNumbered, skip s.flags.ignoreBlanks cs) := by
  unfold readGroup
  split
  · rename_i heq
    exact absurd heq (h _)
  · rename_i heq
    exact absurd heq (h _)
  · rename_i heq
    exact absurd heq (h _)
  · rfl

/-- The three kinds of groups. -/
theorem readGroup_cases (s : State) (cs : List Char) :
    (∃ r, readGroup s cs = s.openNamed? r) ∨ (∃ r, readGroup s cs = s.useFlags? r) ∨
      ∃ rest, readGroup s cs = some (s.openNumbered, rest) := by
  unfold readGroup
  split
  · exact .inl ⟨_, rfl⟩
  · exact .inl ⟨_, rfl⟩
  · exact .inr (.inl ⟨_, rfl⟩)
  · exact .inr (.inr ⟨_, rfl⟩)

/-- The state with one more group around all others. -/
def State.within (s : State) (frame : GroupFrame) : State := { s with outer := s.outer ++ [frame] }

/-- An outcome with one more group around it. -/
def wrapped (frame : GroupFrame) (r : Option (State × List Char)) : Option (State × List Char) :=
  r.map fun p => (p.1.within frame, p.2)

variable {frame : GroupFrame}

theorem Agrees.wrapped {α : Type} {r r' : Option (α × List Char)} (h : Agrees tail r r')
    (f : α → State) :
    Agrees tail (wrapped frame (r.map fun p => (f p.1, p.2)))
      (r'.map fun p => ((f p.1).within frame, p.2)) := by
  rw [Reader.wrapped, Option.map_map, Option.map_eq_bind, Option.map_eq_bind]
  exact h.bind fun a rest rest' hrest => agrees_some _ hrest

theorem agrees_openNamed? (ht : Closing tail) (hcs : Behind tail cs cs') :
    Agrees tail (wrapped frame (s.openNamed? (readName [] cs)))
      ((s.within frame).openNamed? (readName [] cs')) := by
  cases hname : readName [] cs with
  | none => exact agrees_none
  | some p =>
    obtain ⟨name, rest⟩ := p
    obtain ⟨rest', hname', hrest⟩ := local_readName [] ht hcs _ _ hname
    rw [hname']
    unfold State.openNamed?
    by_cases hnew : s.names.contains name
    · simp only [hnew]
      exact agrees_none
    · have hnew' : ¬ (s.within frame).names.contains name = true := hnew
      simp only [hnew, hnew']
      exact agrees_some _ hrest

theorem agrees_useFlags? (tail more : List Char) :
    Agrees tail (wrapped frame (s.useFlags? (readFlags s.flags [] more)))
      ((s.within frame).useFlags? (readFlags s.flags [] (more ++ tail))) := by
  cases hread : readFlags s.flags [] more with
  | none => exact agrees_none
  | some p =>
    obtain ⟨flags, changed, close, rest⟩ := p
    rw [readFlags_append hread tail]
    unfold State.useFlags?
    by_cases hclose : close = ':'
    · simp only [hclose]
      exact agrees_some _ (behind_append tail rest)
    · cases changed with
      | true =>
        simp only [hclose]
        exact agrees_some _ (behind_append tail rest)
      | false =>
        simp only [hclose]
        exact agrees_none

theorem agrees_readGroup (ht : Closing tail) (hcs : Behind tail cs cs') :
    Agrees tail (wrapped frame (readGroup s cs)) (readGroup (s.within frame) cs') := by
  have hskip := hcs.skip ht s.flags.ignoreBlanks
  by_cases hquestion : ∃ more, skip s.flags.ignoreBlanks cs = '?' :: more
  · obtain ⟨more, hl⟩ := hquestion
    rw [hl] at hskip
    have hl' : skip (s.within frame).flags.ignoreBlanks cs' = '?' :: (more ++ tail) := hskip.cons
    by_cases hnamed : ∃ rest, more = 'P' :: '<' :: rest
    · obtain ⟨rest, rfl⟩ := hnamed
      rw [readGroup_named (.inl hl), readGroup_named (.inl hl')]
      exact agrees_openNamed? ht (behind_append tail rest)
    · by_cases hangle : ∃ rest, more = '<' :: rest
      · obtain ⟨rest, rfl⟩ := hangle
        rw [readGroup_named (.inr hl), readGroup_named (.inr hl')]
        exact agrees_openNamed? ht (behind_append tail rest)
      · rw [not_exists] at hnamed hangle
        rw [readGroup_flags hl hnamed hangle, readGroup_flags hl']
        · exact agrees_useFlags? tail more
        · intro rest heq
          obtain ⟨more', rfl, hrest⟩ := Behind.of_head ht (.inl heq.symm) (by decide)
          obtain ⟨more', rfl, -⟩ := Behind.of_head ht (.inl hrest) (by decide)
          exact hnamed _ rfl
        · intro rest heq
          obtain ⟨more', rfl, -⟩ := Behind.of_head ht (.inl heq.symm) (by decide)
          exact hangle _ rfl
  · rw [not_exists] at hquestion
    rw [readGroup_plain hquestion, readGroup_plain]
    · exact agrees_some _ hskip
    · intro rest heq
      have hflags : (s.within frame).flags = s.flags := rfl
      rw [hflags] at heq
      rw [heq] at hskip
      obtain ⟨more, hl, -⟩ := hskip.of_head ht (by decide)
      exact hquestion more hl

/-! ### The whole pattern -/

theorem repeatLast?_within (s : State) (least : Nat) (most : Option Nat) (eager : Bool) :
    (s.within frame).repeatLast? least most eager =
      (s.repeatLast? least most eager).map (·.within frame) := by
  have hlevel : (s.within frame).level = s.level := rfl
  unfold State.repeatLast?
  rw [hlevel]
  split
  · rfl
  · split
    · rfl
    · rfl

theorem closeGroup?_within {s' : State} (h : s.closeGroup? = some s') :
    (s.within frame).closeGroup? = some (s'.within frame) := by
  obtain ⟨level, outer, flags, groups, names⟩ := s
  cases outer with
  | nil => cases h
  | cons first outer =>
    cases h
    rfl

theorem agrees_repeatLast? (ht : Closing tail) (hcs : Behind tail cs cs') (least : Nat)
    (most : Option Nat) :
    Agrees tail
      (wrapped frame ((s.repeatLast? least most (readEager cs).1).map (·, (readEager cs).2)))
      (((s.within frame).repeatLast? least most (readEager cs').1).map (·, (readEager cs').2)) := by
  obtain ⟨heager, hrest⟩ := readEager_behind ht hcs
  rw [heager, repeatLast?_within]
  cases s.repeatLast? least most (readEager cs).1 with
  | none => exact agrees_none
  | some s' => exact agrees_some _ hrest

/-- A step takes the same whether or not there is one more group around. -/
theorem agrees_readNext (ht : Closing tail) (c : Char) (cs : List Char) :
    Agrees tail (wrapped frame (readNext s (c :: cs)))
      (readNext (s.within frame) (c :: (cs ++ tail))) := by
  have hl := behind_append tail cs
  unfold readNext
  dsimp only
  split
  · exact agrees_readGroup ht hl
  · cases hclose : s.closeGroup? with
    | none => exact agrees_none
    | some s' =>
      rw [closeGroup?_within hclose]
      exact agrees_some _ hl
  · exact agrees_some _ hl
  · exact (local_readSet s.flags ht hl).wrapped fun item => s.push (.set item.value) item.depth true
  · exact agrees_repeatLast? ht hl 0 (some 1)
  · exact agrees_repeatLast? ht hl 0 none
  · exact agrees_repeatLast? ht hl 1 none
  · cases hcounts : readCounts s.flags.ignoreBlanks cs with
    | none => exact agrees_none
    | some p =>
      obtain ⟨least, most, rest⟩ := p
      have hcounts' : readCounts (s.within frame).flags.ignoreBlanks (cs ++ tail) =
          some (least, most, rest ++ tail) := readCounts_behind ht hl hcounts
      rw [hcounts']
      exact agrees_repeatLast? ht ((behind_append tail rest).skip ht s.flags.ignoreBlanks) least most
  · exact (local_readEscape s.flags ht hl).wrapped fun p => s.push (p.toTree s.flags) 0 true
  all_goals exact agrees_some _ hl

theorem readAll_of_nil {fuel : Nat} {item : Item Tree} (hskip : skip s.flags.ignoreBlanks cs = [])
    (h : readAll (fuel + 1) s cs = some item) : s.outer = [] ∧ s.level.close = item := by
  simp only [readAll, hskip] at h
  split at h
  · rename_i houter
    exact ⟨List.isEmpty_iff.mp houter, Option.some.inj h⟩
  · cases h

theorem readAll_of_cons {fuel : Nat} {item : Item Tree}
    (hskip : skip s.flags.ignoreBlanks cs = c :: more) (h : readAll (fuel + 1) s cs = some item) :
    ∃ s' rest, readNext s (c :: more) = some (s', rest) ∧ readAll fuel s' rest = some item := by
  simp only [readAll, hskip] at h
  obtain ⟨⟨s', rest⟩, hnext, h⟩ := Option.bind_eq_some_iff.mp h
  exact ⟨s', rest, hnext, h⟩

/-- The group around a pattern, behind the start of the text. -/
def anchorFrame : GroupFrame := ⟨⟨[], [⟨.look .startText, 0, true⟩]⟩, none, .initial⟩

/-- A pattern behind the start of the text, both read. -/
def anchoredState (item : Item Tree) (groups : Nat) (names : List (List Char)) : State :=
  ⟨⟨[], [⟨item.value, item.depth + 1, true⟩, ⟨.look .startText, 0, true⟩]⟩, [], .initial, groups,
    names⟩

theorem readNext_close (houter : s.outer = []) (more : List Char) :
    readNext (s.within anchorFrame) (')' :: more) =
      some (anchoredState s.level.close s.groups s.names, more) := by
  obtain ⟨level, outer, flags, groups, names⟩ := s
  subst houter
  rfl

/-- Where the group around a pattern is closed, the pattern is a part. -/
theorem readAll_within {fuel fuel' : Nat} {item item' : Item Tree} (ht : Closing (')' :: more))
    (hcs : Behind (')' :: more) cs cs') (h : readAll fuel s cs = some item)
    (h' : readAll fuel' (s.within anchorFrame) cs' = some item') :
    ∃ fuel' groups names, readAll fuel' (anchoredState item groups names) more = some item' := by
  induction fuel generalizing fuel' s cs cs' with
  | zero => cases h
  | succ fuel ih =>
    cases fuel' with
    | zero => cases h'
    | succ fuel' =>
      have hskip : Behind (')' :: more) (skip s.flags.ignoreBlanks cs)
          (skip (s.within anchorFrame).flags.ignoreBlanks cs') := hcs.skip ht s.flags.ignoreBlanks
      cases hl : skip s.flags.ignoreBlanks cs with
      | nil =>
        obtain ⟨houter, rfl⟩ := readAll_of_nil hl h
        rw [hl] at hskip
        rcases hskip with hl' | ⟨-, hl'⟩
        · obtain ⟨s', rest, hnext, h'⟩ := readAll_of_cons hl' h'
          cases hnext.symm.trans (readNext_close houter more)
          exact ⟨fuel', _, _, h'⟩
        · -- a comment hides the end of the group, which is then left open
          obtain ⟨hnil, -⟩ := readAll_of_nil hl' h'
          simp [State.within] at hnil
      | cons c l =>
        obtain ⟨s', rest, hnext, h⟩ := readAll_of_cons hl h
        rw [hl] at hskip
        obtain ⟨s'', rest', hnext', h'⟩ := readAll_of_cons hskip.cons h'
        have hwrapped : wrapped anchorFrame (readNext s (c :: l)) =
            some (s'.within anchorFrame, rest) := by
          rw [hnext]
          rfl
        obtain ⟨rest₁, hnext₁, hrest⟩ := agrees_readNext ht c l _ _ hwrapped
        cases hnext'.symm.trans hnext₁
        exact ih hrest h h'

def State.initial : State := ⟨.empty, [], .initial, 0, []⟩

theorem read?_eq_some {t : Tree} (h : read? cs = some t) :
    ∃ item, readAll (cs.length + 1) .initial cs = some item ∧ item.value = t := by
  obtain ⟨item, hitem, h⟩ := Option.bind_eq_some_iff.mp h
  split at h
  · exact ⟨item, hitem, Option.some.inj h⟩
  · cases h

/-- One step forward where the next character and its outcome are known. -/
theorem readAll_step {fuel : Nat} {item : Item Tree} {s' : State}
    (hskip : skip s.flags.ignoreBlanks cs = c :: more)
    (hnext : readNext s (c :: more) = some (s', rest)) (h : readAll fuel s cs = some item) :
    ∃ fuel', readAll fuel' s' rest = some item := by
  cases fuel with
  | zero => cases h
  | succ fuel =>
    obtain ⟨s₁, rest₁, hnext₁, h⟩ := readAll_of_cons hskip h
    cases hnext.symm.trans hnext₁
    exact ⟨fuel, h⟩

theorem readAll_last {fuel : Nat} {item : Item Tree} (h : readAll fuel s [] = some item) :
    s.level.close = item := by
  cases fuel with
  | zero => cases h
  | succ fuel =>
    have hskip : skip s.flags.ignoreBlanks [] = [] := by
      unfold skip
      split <;> rfl
    exact (readAll_of_nil hskip h).2

/-- A pattern that is one by itself is a part between what is put around it. -/
theorem readAll_anchored {source more : List Char} {item item' : Item Tree} {fuel fuel' : Nat}
    (ht : Closing (')' :: more)) (h : readAll fuel .initial source = some item)
    (h' : readAll fuel' .initial ("\\A(?:".toList ++ (source ++ ')' :: more)) = some item') :
    ∃ fuel' groups names, readAll fuel' (anchoredState item groups names) more = some item' := by
  obtain ⟨fuel', h'⟩ := readAll_step rfl rfl h'
  obtain ⟨fuel', h'⟩ := readAll_step rfl rfl h'
  exact readAll_within ht (behind_append _ source) h h'

theorem read?_frontText {source : List Char} {t t' : Tree} (h : read? source = some t)
    (h' : read? (Pattern.frontText source) = some t') : t' = t.atFront := by
  obtain ⟨item, hitem, rfl⟩ := read?_eq_some h
  obtain ⟨item', hitem', rfl⟩ := read?_eq_some h'
  have htext : Pattern.frontText source = "\\A(?:".toList ++ (source ++ [')']) :=
    List.append_assoc ..
  rw [htext] at hitem'
  have ht : Closing [')'] := ⟨⟨[], rfl⟩, by decide, by decide⟩
  obtain ⟨fuel, groups, names, hread⟩ := readAll_anchored ht hitem hitem'
  obtain rfl := readAll_last hread
  rfl

theorem read?_wholeText {source : List Char} {t t' : Tree} (h : read? source = some t)
    (h' : read? (Pattern.wholeText source) = some t') : t' = t.asWhole := by
  obtain ⟨item, hitem, rfl⟩ := read?_eq_some h
  obtain ⟨item', hitem', rfl⟩ := read?_eq_some h'
  have htext : Pattern.wholeText source = "\\A(?:".toList ++ (source ++ [')', '\\', 'z']) :=
    List.append_assoc ..
  rw [htext] at hitem'
  have ht : Closing [')', '\\', 'z'] := ⟨⟨['\\', 'z'], rfl⟩, by decide, by decide⟩
  obtain ⟨fuel, groups, names, hread⟩ := readAll_anchored ht hitem hitem'
  obtain ⟨fuel, hread⟩ := readAll_step rfl rfl hread
  obtain rfl := readAll_last hread
  rfl

end DollarScript.Regex.Reader
