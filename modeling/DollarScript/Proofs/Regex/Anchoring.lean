import DollarScript.Proofs.Regex.Numbering

/-! Patterns that are tied to an end of a text match there and nowhere else. -/
namespace DollarScript

namespace Regex

namespace Program

/-! ### The ways of a thread -/

/-- Where threads get to from the start of a text. -/
inductive Reaches (p : Program) (text : List Char) : Spot → Thread → Prop
  | start : Reaches p text (.origin text) ⟨0, p.blank⟩
  | step {spot spot' : Spot} {t t' : Thread} (h : Reaches p text spot t)
      (next : (spot', t') ∈ p.ways spot t) : Reaches p text spot' t'

/-- Some thread that starts with the text accepts with these slots. -/
def Accepts (p : Program) (text : List Char) (slots : Slots) : Prop :=
  ∃ spot t, p.Reaches text spot t ∧ p.code[t.pc]? = some .accept ∧ t.slots = slots

variable {p : Program} {text : List Char} {spot spot' : Spot} {t t' : Thread}
  {f : Frontier} {ts : List Thread} {c : Char} {rest : List Char} {slots : Slots}

theorem Reaches.follow {fuel : Nat} (h : p.Reaches text spot t)
    (hf : ∀ u ∈ f.threads, p.Reaches text spot u) :
    ∀ u ∈ (p.follow spot.place fuel t f).threads, p.Reaches text spot u := by
  fun_induction Program.follow p spot.place fuel t f with
  | case1 => exact hf
  | case2 => exact hf
  | case3 => exact hf
  | case4 => simpa using ⟨h, hf⟩
  | case5 => simpa using ⟨h, hf⟩
  | case6 _ _ _ _ _ _ hcode hl ih => exact ih (h.step (by simp [ways, hcode, hl])) hf
  | case7 => exact hf
  | case8 _ _ _ _ _ _ hcode ih => exact ih (h.step (by simp [ways, hcode, Spot.place])) hf
  | case9 _ _ _ _ _ _ hcode ih => exact ih (h.step (by simp [ways, hcode])) hf
  | case10 _ _ _ _ _ _ _ hcode ih ih' =>
    exact ih' (h.step (by simp [ways, hcode])) (ih (h.step (by simp [ways, hcode])) hf)

theorem reaches_moves (hrest : spot.rest = c :: rest) (hts : ∀ t ∈ ts, p.Reaches text spot t)
    (hf : ∀ u ∈ f.threads, p.Reaches text (spot.next c rest) u) :
    ∀ u ∈ (ts.foldl (p.move c (spot.next c rest).place) f).threads,
      p.Reaches text (spot.next c rest) u := by
  induction ts generalizing f with
  | nil => exact hf
  | cons t ts ih =>
    refine ih (fun u hu => hts u (List.mem_cons_of_mem _ hu)) ?_
    unfold move
    split
    · rename_i s hcode
      split
      · rename_i hc
        have hnext : (spot.next c rest, ⟨t.pc + 1, t.slots⟩) ∈ p.ways spot t := by
          simp [ways, hcode, hrest, hc]
        exact ((hts t List.mem_cons_self).step hnext).follow hf
      · exact hf
    · exact hf

theorem mem_of_mem_accepted (h : t ∈ (p.accepted ts).1) : t ∈ ts := by
  induction ts with
  | nil => exact h
  | cons u ts ih =>
    unfold accepted at h
    split at h
    · cases h
    · rcases List.mem_cons.mp h with rfl | h
      · exact List.mem_cons_self
      · exact List.mem_cons_of_mem _ (ih h)

theorem accepts_of_accepted (hts : ∀ t ∈ ts, p.Reaches text spot t)
    (h : (p.accepted ts).2 = some slots) : p.Accepts text slots := by
  induction ts with
  | nil => cases h
  | cons t ts ih =>
    unfold accepted at h
    split at h
    · rename_i hcode
      exact ⟨spot, t, hts t List.mem_cons_self, hcode, Option.some.inj h⟩
    · exact ih (fun u hu => hts u (List.mem_cons_of_mem _ hu)) h

variable {found : Option Slots}

theorem accepts_of_or (hts : ∀ t ∈ ts, p.Reaches text spot t)
    (hfound : ∀ slots, found = some slots → p.Accepts text slots)
    (h : (p.accepted ts).2.or found = some slots) : p.Accepts text slots := by
  rcases Option.or_eq_some_iff.mp h with h | ⟨-, h⟩
  · exact accepts_of_accepted hts h
  · exact hfound slots h

/-- Whatever is found, a thread found it. -/
theorem accepts_of_runFrom (ha : p.anchored = true) (hts : ∀ t ∈ ts, p.Reaches text spot t)
    (hfound : ∀ slots, found = some slots → p.Accepts text slots)
    (h : p.runFrom found spot.index ts spot.rest = some slots) : p.Accepts text slots := by
  obtain ⟨index, before, rest⟩ := spot
  induction rest generalizing index before ts found with
  | nil => exact accepts_of_or hts hfound h
  | cons c rest ih =>
    simp only [runFrom, ha, Bool.or_true, Bool.and_true, if_true] at h
    split at h
    · exact accepts_of_or hts hfound h
    · have hlive : ∀ t ∈ (p.accepted ts).1, p.Reaches text ⟨index, before, c :: rest⟩ t :=
        fun t ht => hts t (mem_of_mem_accepted ht)
      have hmoved := reaches_moves (f := ⟨[], []⟩) rfl hlive (by simp)
      refine ih (fun slots => accepts_of_or hts hfound) (index + 1) (some c) ?_ h
      intro t ht
      exact hmoved t (List.mem_reverse.mp ht)

theorem accepts_of_search? (ha : p.anchored = true) (h : p.search? text = some slots) :
    p.Accepts text slots := by
  have hstart : ∀ t ∈ (p.start ⟨0, none, text.head?⟩ ⟨[], []⟩).threads.reverse,
      p.Reaches text (.origin text) t := by
    intro t ht
    exact Reaches.follow .start (by simp) t (List.mem_reverse.mp ht)
  exact accepts_of_runFrom ha hstart (by simp) h

/-! ### Invariants of threads -/

/-- What one step can do. -/
theorem ways_cases (h : (spot', t') ∈ p.ways spot t) :
    (∃ s c rest, p.code[t.pc]? = some (.take s) ∧ spot.rest = c :: rest ∧
      spot' = spot.next c rest ∧ t' = ⟨t.pc + 1, t.slots⟩) ∨
    (∃ l, p.code[t.pc]? = some (.look l) ∧ l.holds spot.before spot.rest.head? = true ∧
      spot' = spot ∧ t' = ⟨t.pc + 1, t.slots⟩) ∨
    (∃ slot, p.code[t.pc]? = some (.save slot) ∧ spot' = spot ∧
      t' = ⟨t.pc + 1, t.slots.set slot (some spot.index)⟩) ∨
    (∃ target, p.code[t.pc]? = some (.jump target) ∧ spot' = spot ∧ t' = ⟨target, t.slots⟩) ∨
    (∃ preferred other, p.code[t.pc]? = some (.split preferred other) ∧ spot' = spot ∧
      (t' = ⟨preferred, t.slots⟩ ∨ t' = ⟨other, t.slots⟩)) := by
  unfold ways at h
  split at h
  · cases h
  · cases h
  · rename_i s hcode
    split at h
    · cases h
    · rename_i c rest hrest
      split at h
      · cases List.mem_singleton.mp h
        exact .inl ⟨s, c, rest, hcode, hrest, rfl, rfl⟩
      · cases h
  · rename_i l hcode
    split at h
    · rename_i hl
      cases List.mem_singleton.mp h
      exact .inr (.inl ⟨l, hcode, hl, rfl, rfl⟩)
    · cases h
  · rename_i slot hcode
    cases List.mem_singleton.mp h
    exact .inr (.inr (.inl ⟨slot, hcode, rfl, rfl⟩))
  · rename_i target hcode
    cases List.mem_singleton.mp h
    exact .inr (.inr (.inr (.inl ⟨target, hcode, rfl, rfl⟩)))
  · rename_i preferred other hcode
    rcases List.mem_cons.mp h with h | h
    · cases h
      exact .inr (.inr (.inr (.inr ⟨preferred, other, hcode, rfl, .inl rfl⟩)))
    · cases List.mem_singleton.mp h
      exact .inr (.inr (.inr (.inr ⟨preferred, other, hcode, rfl, .inr rfl⟩)))

theorem exists_inst (h : (spot', t') ∈ p.ways spot t) : ∃ inst, p.code[t.pc]? = some inst := by
  cases hcode : p.code[t.pc]? with
  | none => simp [ways, hcode] at h
  | some inst => exact ⟨inst, rfl⟩

theorem ways_save {slot : Nat} (hcode : p.code[t.pc]? = some (.save slot))
    (h : (spot', t') ∈ p.ways spot t) :
    spot' = spot ∧ t' = ⟨t.pc + 1, t.slots.set slot (some spot.index)⟩ := by
  simpa [ways, hcode] using h

theorem ways_look {l : Look} (hcode : p.code[t.pc]? = some (.look l))
    (h : (spot', t') ∈ p.ways spot t) :
    l.holds spot.before spot.rest.head? = true ∧ spot' = spot ∧ t' = ⟨t.pc + 1, t.slots⟩ := by
  simp only [ways, hcode] at h
  split at h
  · rename_i hl
    cases List.mem_singleton.mp h
    exact ⟨hl, rfl, rfl⟩
  · cases h

theorem Reaches.length_slots (h : p.Reaches text spot t) :
    t.slots.length = 2 * (p.groups + 1) := by
  induction h with
  | start => simp [blank]
  | step _ next ih =>
    obtain ⟨_, _, _, _, _, _, rfl⟩ | ⟨_, _, _, _, rfl⟩ | ⟨_, _, _, rfl⟩ | ⟨_, _, _, rfl⟩ |
      ⟨_, _, _, _, rfl | rfl⟩ := ways_cases next
    all_goals simpa using ih

/-- A spot is as far from the end of the text as it says. -/
theorem Reaches.index_add_length (h : p.Reaches text spot t) :
    spot.index + spot.rest.length = text.length := by
  induction h with
  | start => simp [Spot.origin]
  | step _ next ih =>
    obtain ⟨_, c, rest, _, hrest, rfl, _⟩ | ⟨_, _, _, rfl, _⟩ | ⟨_, _, rfl, _⟩ | ⟨_, _, rfl, _⟩ |
      ⟨_, _, _, rfl, _⟩ := ways_cases next
    · rw [hrest, List.length_cons] at ih
      simp only [Spot.next]
      omega
    all_goals exact ih

/-- An instruction that stays in a block takes a thread no further than right behind it, and leaves
the start of the whole match alone. -/
theorem pc_of_stays {inst : Inst} {low high : Nat} (hcode : p.code[t.pc]? = some inst)
    (hstays : inst.Stays low high) (hlow : low ≤ t.pc) (h : (spot', t') ∈ p.ways spot t) :
    low ≤ t'.pc ∧ (t.pc < high → t'.pc ≤ high) ∧ t'.slots[0]? = t.slots[0]? := by
  obtain ⟨s, _, _, hinst, _, _, rfl⟩ | ⟨l, hinst, _, _, rfl⟩ | ⟨slot, hinst, _, rfl⟩ |
    ⟨target, hinst, _, rfl⟩ | ⟨preferred, other, hinst, _, ht⟩ := ways_cases h
  · exact ⟨Nat.le_succ_of_le hlow, Nat.succ_le_of_lt, rfl⟩
  · exact ⟨Nat.le_succ_of_le hlow, Nat.succ_le_of_lt, rfl⟩
  · cases hcode.symm.trans hinst
    have hslot : 2 ≤ slot := hstays
    exact ⟨Nat.le_succ_of_le hlow, Nat.succ_le_of_lt, List.getElem?_set_ne (by omega)⟩
  · cases hcode.symm.trans hinst
    exact ⟨hstays.1, fun _ => hstays.2, rfl⟩
  · cases hcode.symm.trans hinst
    rcases ht with rfl | rfl
    · exact ⟨hstays.1.1, fun _ => hstays.1.2, rfl⟩
    · exact ⟨hstays.2.1, fun _ => hstays.2.2, rfl⟩

end Program

open Program

variable {text : List Char} {spot spot' : Spot} {t : Tree} {u u' : Thread} {found : Found}

/-! ### The start of a match -/

theorem getElem?_ofTree_zero (t : Tree) : (Program.ofTree t).code[0]? = some (.save 0) := by
  simp [Program.ofTree, Tree.code]

theorem getElem?_ofTree_succ (t : Tree) (pc : Nat) :
    (Program.ofTree t).code[pc + 1]? = (t.code 1 ++ [.save 1, .accept])[pc]? := by
  simp [Program.ofTree, Tree.code]

/-- The start of the whole match is noted at the start of the text and never again. -/
theorem start_of_reaches (hn : t.numbered = true) (h : (Program.ofTree t).Reaches text spot u) :
    (u.pc = 0 ∧ spot.index = 0) ∨ (1 ≤ u.pc ∧ u.slots[0]? = some (some 0)) := by
  induction h with
  | start => exact .inl ⟨rfl, rfl⟩
  | @step spot spot' u u' hu next ih =>
    right
    rcases ih with ⟨hpc, hindex⟩ | ⟨hpc, hslot⟩
    · have hcode : (Program.ofTree t).code[u.pc]? = some (.save 0) := by
        rw [hpc, getElem?_ofTree_zero]
      have hlength := hu.length_slots
      obtain ⟨-, rfl⟩ := ways_save hcode next
      refine ⟨Nat.le_add_left 1 _, ?_⟩
      rw [List.getElem?_set_self (by omega), hindex]
    · obtain ⟨pc, hpc'⟩ := Nat.exists_eq_add_of_le' hpc
      obtain ⟨inst, hcode⟩ := exists_inst next
      rw [hpc', getElem?_ofTree_succ] at hcode
      have hmem := List.mem_of_getElem? hcode
      rw [← getElem?_ofTree_succ, ← hpc'] at hcode
      simp only [List.mem_append, List.mem_cons, List.not_mem_nil, or_false] at hmem
      rcases hmem with hmem | rfl | rfl
      · have hstays := Tree.confined_code t hn (Nat.le_refl 1) (Nat.le_refl _) inst hmem
        obtain ⟨hlow, -, hslots⟩ := pc_of_stays hcode hstays hpc next
        exact ⟨hlow, hslots.trans hslot⟩
      · obtain ⟨-, rfl⟩ := ways_save hcode next
        exact ⟨Nat.le_succ_of_le hpc, (List.getElem?_set_ne (by omega)).trans hslot⟩
      · simp [ways, hcode] at next

theorem pairs_eq_cons {slots : Slots} {start stop : Nat} {groups : List (Option (Nat × Nat))}
    (h : pairs slots = some (start, stop) :: groups) :
    slots[0]? = some (some start) ∧ slots[1]? = some (some stop) := by
  match slots with
  | [] => cases h
  | [_] => cases h
  | none :: _ :: _ => cases h
  | some _ :: none :: _ => cases h
  | some a :: some b :: rest =>
    cases h
    exact ⟨rfl, rfl⟩

theorem find?_eq_some {r : Regex} (h : r.find? text = some found) :
    ∃ slots, r.search? text = some slots ∧ slots[0]? = some (some found.start) ∧
      slots[1]? = some (some found.stop) := by
  obtain ⟨slots, hslots, h⟩ := Option.bind_eq_some_iff.mp h
  split at h
  · rename_i start stop groups hpairs
    cases h
    exact ⟨slots, hslots, pairs_eq_cons hpairs⟩
  · cases h

/-- A pattern that is tied to the start of the text matches there. -/
theorem start_eq_zero (ha : t.anchored = true) (hn : t.numbered = true)
    (h : find? (.ofTree t) text = some found) : found.start = 0 := by
  obtain ⟨slots, hslots, hstart, -⟩ := find?_eq_some h
  obtain ⟨spot, u, hu, haccept, rfl⟩ := accepts_of_search? ha hslots
  rcases start_of_reaches hn hu with ⟨hpc, -⟩ | ⟨-, hslot⟩
  · rw [hpc, getElem?_ofTree_zero] at haccept
    cases haccept
  · exact (Option.some.inj (Option.some.inj (hslot.symm.trans hstart))).symm

/-! ### The end of a match -/

/-- Where the pattern ends in the program that ties it to both ends. -/
def Tree.exit (t : Tree) : Nat := 2 + (t.code 2).length

theorem two_le_exit (t : Tree) : 2 ≤ t.exit := Nat.le_add_right ..

theorem getElem?_asWhole (t : Tree) (pc : Nat) :
    (Program.ofTree t.asWhole).code[pc + 2]? =
      (t.code 2 ++ [.look .endText, .save 1, .accept])[pc]? := by
  rw [getElem?_ofTree_succ]
  simp [Tree.asWhole, Tree.code, Tree.codeAll]

/-- What stands where. -/
theorem asWhole_cases {pc : Nat} {inst : Inst}
    (h : (Program.ofTree t.asWhole).code[pc]? = some inst) :
    (pc = 0 ∧ inst = .save 0) ∨ (pc = 1 ∧ inst = .look .startText) ∨
    (2 ≤ pc ∧ pc < t.exit ∧ inst ∈ t.code 2) ∨ (pc = t.exit ∧ inst = .look .endText) ∨
    (pc = t.exit + 1 ∧ inst = .save 1) ∨ (pc = t.exit + 2 ∧ inst = .accept) := by
  match pc with
  | 0 =>
    rw [getElem?_ofTree_zero] at h
    exact .inl ⟨rfl, (Option.some.inj h).symm⟩
  | 1 =>
    rw [getElem?_ofTree_succ] at h
    exact .inr (.inl ⟨rfl, (Option.some.inj h).symm⟩)
  | pc + 2 =>
    rw [getElem?_asWhole] at h
    unfold Tree.exit
    by_cases hpc : pc < (t.code 2).length
    · rw [List.getElem?_append_left hpc] at h
      exact .inr (.inr (.inl ⟨by omega, by omega, List.mem_of_getElem? h⟩))
    · rw [List.getElem?_append_right (by omega)] at h
      obtain ⟨k, rfl⟩ := Nat.exists_eq_add_of_le (Nat.le_of_not_lt hpc)
      rw [Nat.add_sub_cancel_left] at h
      match k with
      | 0 => exact .inr (.inr (.inr (.inl ⟨by omega, (Option.some.inj h).symm⟩)))
      | 1 => exact .inr (.inr (.inr (.inr (.inl ⟨by omega, (Option.some.inj h).symm⟩))))
      | 2 => exact .inr (.inr (.inr (.inr (.inr ⟨by omega, (Option.some.inj h).symm⟩))))

/-- The end of the whole match is noted last, at the end of the text. -/
theorem stop_of_reaches (hn : t.numbered = true)
    (h : (Program.ofTree t.asWhole).Reaches text spot u) :
    (t.exit < u.pc → spot.rest = []) ∧
      (t.exit + 1 < u.pc → u.slots[1]? = some (some spot.index)) := by
  have hexit := two_le_exit t
  induction h with
  | start =>
    exact ⟨fun hpc => absurd hpc (Nat.not_lt_zero _), fun hpc => absurd hpc (Nat.not_lt_zero _)⟩
  | @step spot spot' u u' hu next ih =>
    -- up to its exit the pattern promises nothing
    have hbefore : u'.pc ≤ t.exit → (t.exit < u'.pc → spot'.rest = []) ∧
        (t.exit + 1 < u'.pc → u'.slots[1]? = some (some spot'.index)) :=
      fun hle => ⟨fun hpc => by omega, fun hpc => by omega⟩
    obtain ⟨inst, hcode⟩ := exists_inst next
    rcases asWhole_cases hcode with ⟨hpc, rfl⟩ | ⟨hpc, rfl⟩ | ⟨hlow, hhigh, hmem⟩ | ⟨hpc, rfl⟩ |
      ⟨hpc, rfl⟩ | ⟨-, rfl⟩
    · obtain ⟨rfl, rfl⟩ := ways_save hcode next
      exact hbefore (by simp only; omega)
    · obtain ⟨-, rfl, rfl⟩ := ways_look hcode next
      exact hbefore (by simp only; omega)
    · have hstays := Tree.confined_code t hn (Nat.le_refl 2) (Nat.le_refl _) inst hmem
      exact hbefore ((pc_of_stays hcode hstays hlow next).2.1 hhigh)
    · obtain ⟨hlook, rfl, rfl⟩ := ways_look hcode next
      have hrest : spot'.rest = [] := List.head?_eq_none_iff.mp (Option.isNone_iff_eq_none.mp hlook)
      exact ⟨fun _ => hrest, fun hpc' => by simp only at hpc'; omega⟩
    · obtain ⟨rfl, rfl⟩ := ways_save hcode next
      have hlength := hu.length_slots
      exact ⟨fun _ => ih.1 (by omega), fun _ => List.getElem?_set_self (by omega)⟩
    · simp [ways, hcode] at next

/-- A pattern that is tied to both ends reaches to the end of the text. -/
theorem stop_eq_length (hn : t.numbered = true)
    (h : find? (.ofTree t.asWhole) text = some found) : found.stop = text.length := by
  obtain ⟨slots, hslots, -, hstop⟩ := find?_eq_some h
  obtain ⟨spot, u, hu, haccept, rfl⟩ := accepts_of_search? (Tree.anchored_asWhole t) hslots
  obtain ⟨hrest, hslot⟩ := stop_of_reaches hn hu
  have hpc : u.pc = t.exit + 2 := by
    rcases asWhole_cases haccept with ⟨-, h⟩ | ⟨-, h⟩ | ⟨-, -, h⟩ | ⟨-, h⟩ | ⟨-, h⟩ | ⟨h, -⟩
    · cases h
    · cases h
    · cases Tree.confined_code t hn (Nat.le_refl 2) (Nat.le_refl _) _ h
    · cases h
    · cases h
    · exact h
  have hlength := hu.index_add_length
  rw [hrest (by omega), List.length_nil, Nat.add_zero] at hlength
  rw [hslot (by omega), hlength] at hstop
  exact (Option.some.inj (Option.some.inj hstop)).symm

end Regex

/-! ### Patterns of kinds -/

open Regex Text

namespace Pattern

/-- A match is what the pattern text finds in the text. -/
def Reports (pattern text : List Char) (m : Match) (found : Found) : Prop :=
  ∃ r, compile? pattern = some r ∧ r.find? text = some found ∧ m = matchOf text found

variable {source : String} {p : Pattern} {text : List Char} {m : Match}

theorem reports_of_matchFront (hp : regex? source = some p) (h : p.matchFront text = some m) :
    ∃ found, Reports (frontText source.toList) text m found := by
  obtain ⟨front, hfront, hp⟩ := Option.bind_eq_some_iff.mp hp
  obtain ⟨whole, -, hp⟩ := Option.bind_eq_some_iff.mp hp
  cases hp
  obtain ⟨found, hfound, rfl⟩ := Option.map_eq_some_iff.mp h
  exact ⟨found, front, hfront, hfound, rfl⟩

theorem reports_of_matchWhole (hp : regex? source = some p) (h : p.matchWhole text = some m) :
    ∃ found, Reports (wholeText source.toList) text m found := by
  obtain ⟨front, -, hp⟩ := Option.bind_eq_some_iff.mp hp
  obtain ⟨whole, hwhole, hp⟩ := Option.bind_eq_some_iff.mp hp
  cases hp
  obtain ⟨found, hfound, rfl⟩ := Option.map_eq_some_iff.mp h
  exact ⟨found, whole, hwhole, hfound, rfl⟩

end Pattern

open Pattern

/-- A regular expression in its own right stays tied to the text: its matches start where the text
starts, and those of the whole text end where it ends. -/
theorem matches_keep_to_text {source : String} {p : Pattern}
    (hsource : (compile? source.toList).isSome = true) (hp : regex? source = some p)
    (text : List Char) :
    (∀ m, p.matchFront text = some m →
      ∃ found, Reports (frontText source.toList) text m found ∧ found.start = 0) ∧
    (∀ m, p.matchWhole text = some m →
      ∃ found, Reports (wholeText source.toList) text m found ∧ found.start = 0 ∧
        m.length = byteLength text) := by
  obtain ⟨r, hr⟩ := Option.isSome_iff_exists.mp hsource
  obtain ⟨t, ht, -⟩ := Option.map_eq_some_iff.mp hr
  have hn := Reader.numbered_of_read? ht
  refine ⟨fun m hm => ?_, fun m hm => ?_⟩
  · obtain ⟨found, front, hfront, hfound, rfl⟩ := reports_of_matchFront hp hm
    obtain ⟨t', ht', rfl⟩ := Option.map_eq_some_iff.mp hfront
    refine ⟨found, ⟨_, hfront, hfound, rfl⟩, ?_⟩
    obtain rfl := Reader.read?_frontText ht ht'
    exact start_eq_zero (Tree.anchored_atFront t) (Tree.numbered_atFront hn) hfound
  · obtain ⟨found, whole, hwhole, hfound, rfl⟩ := reports_of_matchWhole hp hm
    obtain ⟨t', ht', rfl⟩ := Option.map_eq_some_iff.mp hwhole
    refine ⟨found, ⟨_, hwhole, hfound, rfl⟩, ?_⟩
    obtain rfl := Reader.read?_wholeText ht ht'
    refine ⟨start_eq_zero (Tree.anchored_asWhole t) (Tree.numbered_asWhole hn) hfound, ?_⟩
    rw [matchOf, stop_eq_length hn hfound, List.take_length]

theorem alternatives_keep_to_text :
    (compile? "a|b".toList).isSome = true ∧ ∃ p m m', regex? "a|b" = some p ∧
      p.matchFront ['b', 'x'] = some m ∧ p.matchWhole ['b'] = some m' ∧
      (∃ found, Reports (frontText "a|b".toList) ['b', 'x'] m found ∧ found.start = 0) ∧
      (∃ found, Reports (wholeText "a|b".toList) ['b'] m' found ∧ found.start = 0 ∧
        m'.length = byteLength ['b']) := by
  have hsource : (compile? "a|b".toList).isSome = true := by decide +kernel
  have hfront : (regex? "a|b").bind (·.matchFront ['b', 'x']) = some ⟨1, []⟩ := by decide +kernel
  have hwhole : (regex? "a|b").bind (·.matchWhole ['b']) = some ⟨1, []⟩ := by decide +kernel
  obtain ⟨p, hp, hm⟩ := Option.bind_eq_some_iff.mp hfront
  rw [hp, Option.bind_some] at hwhole
  exact ⟨hsource, p, _, _, hp, hm, hwhole, (matches_keep_to_text hsource hp _).1 _ hm,
    (matches_keep_to_text hsource hp _).2 _ hwhole⟩

/-- Parentheses that pair up with those around the source put its second alternative out of reach
of the anchors, so that both matches start behind the `x`. -/
theorem stray_parentheses_untie :
    (regex? "a)|(?:b").bind (·.matchFront ['x', 'b']) = some ⟨2, []⟩ ∧
      (compile? (frontText "a)|(?:b".toList)).bind (find? · ['x', 'b']) = some ⟨1, 2, []⟩ ∧
      (regex? "a)|(?:b").bind (·.matchWhole ['x', 'b']) = some ⟨2, []⟩ ∧
      (compile? (wholeText "a)|(?:b".toList)).bind (find? · ['x', 'b']) = some ⟨1, 2, []⟩ ∧
      (compile? "a)|(?:b".toList).isNone = true := by
  decide +kernel

end DollarScript
