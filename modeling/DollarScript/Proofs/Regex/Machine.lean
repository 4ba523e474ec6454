import DollarScript.Regex.Run
import Mathlib.Data.Finset.Card
import Mathlib.Data.Finset.Range

/-! Following all ways to match at once finds what trying them one after the other finds. -/
namespace DollarScript.Regex

/-- A place in a text, with all that follows it. -/
structure Spot where
  index : Nat
  before : Option Char
  rest : List Char

namespace Spot

def place (spot : Spot) : Place := ⟨spot.index, spot.before, spot.rest.head?⟩

/-- The spot behind `c`, with `rest` in front of it. -/
def next (spot : Spot) (c : Char) (rest : List Char) : Spot := ⟨spot.index + 1, some c, rest⟩

/-- Threads at one spot. -/
def all (spot : Spot) (ts : List Thread) : List (Spot × Thread) := ts.map fun t => (spot, t)

/-- Where a match starts to look. -/
def origin (text : List Char) : Spot := ⟨0, none, text⟩

end Spot

namespace Program

/-! ### One way after the other -/

/-- What a thread may go on with, in order of preference. -/
def ways (p : Program) (spot : Spot) (t : Thread) : List (Spot × Thread) :=
  match p.code[t.pc]? with
  | none | some .accept => []
  | some (.take s) =>
    match spot.rest with
    | [] => []
    | c :: rest => if s.contains c then [(spot.next c rest, ⟨t.pc + 1, t.slots⟩)] else []
  | some (.look l) =>
    if l.holds spot.place.before spot.place.after then [(spot, ⟨t.pc + 1, t.slots⟩)] else []
  | some (.save slot) => [(spot, ⟨t.pc + 1, t.slots.set slot (some spot.index)⟩)]
  | some (.jump target) => [(spot, ⟨target, t.slots⟩)]
  | some (.split preferred other) => [(spot, ⟨preferred, t.slots⟩), (spot, ⟨other, t.slots⟩)]

/-- The outcome of trying threads in order, each to its end before the next, and the steps that
it takes. -/
inductive Tries (p : Program) : Nat → List (Spot × Thread) → Option Slots → Prop
  | nil : Tries p 0 [] none
  | accept {spot : Spot} {t : Thread} {ws : List (Spot × Thread)}
      (here : p.code[t.pc]? = some .accept) : Tries p 0 ((spot, t) :: ws) (some t.slots)
  | step {n : Nat} {spot : Spot} {t : Thread} {ws : List (Spot × Thread)} {r : Option Slots}
      (here : p.code[t.pc]? ≠ some .accept) (next : Tries p n (p.ways spot t ++ ws) r) :
    Tries p (n + 1) ((spot, t) :: ws) r

variable {p : Program} {m n : Nat} {spot : Spot} {t : Thread} {ws ws' : List (Spot × Thread)}
  {r r' : Option Slots}

theorem Tries.append_none (h : p.Tries m ws none) (h' : p.Tries n ws' r) :
    p.Tries (m + n) (ws ++ ws') r := by
  generalize hr : (none : Option Slots) = r₀ at h
  induction h with
  | nil => simpa using h'
  | accept => cases hr
  | @step m spot t ws r₀ here _ ih =>
    have hnext := ih hr
    rw [List.append_assoc] at hnext
    rw [Nat.add_right_comm]
    exact .step here hnext

theorem Tries.append_some {slots : Slots} (h : p.Tries n ws (some slots))
    (ws' : List (Spot × Thread)) : p.Tries n (ws ++ ws') (some slots) := by
  generalize hr : some slots = r at h ⊢
  induction h with
  | nil => cases hr
  | accept here => exact .accept here
  | step here _ ih =>
    have hnext := ih hr
    rw [List.append_assoc] at hnext
    exact .step here hnext

/-- Threads behind others count only if all of those fail. -/
theorem Tries.of_append (h : p.Tries n (ws ++ ws') r) :
    (p.Tries n ws r ∧ r.isSome) ∨
      ∃ m k, p.Tries m ws none ∧ p.Tries k ws' r ∧ n = m + k := by
  generalize hws : ws ++ ws' = all at h
  induction h generalizing ws with
  | nil =>
    obtain ⟨rfl, rfl⟩ := List.append_eq_nil_iff.mp hws
    exact .inr ⟨0, 0, .nil, .nil, rfl⟩
  | accept here =>
    cases ws with
    | nil =>
      obtain rfl : ws' = _ := hws
      exact .inr ⟨0, 0, .nil, .accept here, rfl⟩
    | cons w ws =>
      cases hws
      exact .inl ⟨.accept here, rfl⟩
  | @step n spot t others r here next ih =>
    cases ws with
    | nil =>
      obtain rfl : ws' = _ := hws
      exact .inr ⟨0, n + 1, .nil, .step here next, by omega⟩
    | cons w ws =>
      cases hws
      rcases ih (List.append_assoc ..) with ⟨hfront, hsome⟩ | ⟨m, k, hfront, hback, rfl⟩
      · exact .inl ⟨.step here hfront, hsome⟩
      · exact .inr ⟨m + 1, k, .step here hfront, hback, by omega⟩

/-- Where threads stand, whatever they have noted. -/
def addresses (ws : List (Spot × Thread)) : List (Spot × Nat) := ws.map fun w => (w.1, w.2.pc)

theorem addresses_cons (spot : Spot) (t : Thread) (ws : List (Spot × Thread)) :
    addresses ((spot, t) :: ws) = (spot, t.pc) :: addresses ws := rfl

theorem addresses_append (ws ws' : List (Spot × Thread)) :
    addresses (ws ++ ws') = addresses ws ++ addresses ws' :=
  List.map_append

theorem addresses_ways {t' : Thread} (h : t.pc = t'.pc) :
    addresses (p.ways spot t) = addresses (p.ways spot t') := by
  unfold ways
  rw [h]
  split
  · rfl
  · rfl
  · split
    · rfl
    · split <;> simp [addresses]
  · split <;> simp [addresses]
  · simp [addresses]
  · simp [addresses]
  · simp [addresses]

/-- How long it takes, and whether it leads anywhere, does not depend on what is noted. -/
theorem Tries.unique (h : p.Tries m ws r) (h' : p.Tries n ws' r')
    (heq : addresses ws = addresses ws') : m = n ∧ r.isSome = r'.isSome := by
  induction h generalizing n ws' with
  | nil =>
    obtain rfl : ws' = [] := by simpa [addresses] using heq.symm
    cases h'
    exact ⟨rfl, rfl⟩
  | @accept spot t ws here =>
    cases ws' with
    | nil => simp [addresses] at heq
    | cons w' ws' =>
      obtain ⟨spot', t'⟩ := w'
      simp only [addresses_cons, List.cons.injEq, Prod.mk.injEq] at heq
      obtain ⟨⟨rfl, hpc⟩, -⟩ := heq
      cases h' with
      | accept => exact ⟨rfl, rfl⟩
      | step here' => exact absurd (hpc ▸ here) here'
  | @step m spot t ws r here _ ih =>
    cases ws' with
    | nil => simp [addresses] at heq
    | cons w' ws' =>
      obtain ⟨spot', t'⟩ := w'
      simp only [addresses_cons, List.cons.injEq, Prod.mk.injEq] at heq
      obtain ⟨⟨rfl, hpc⟩, htail⟩ := heq
      cases h' with
      | accept here' => exact absurd (hpc ▸ here') here
      | step _ next' =>
        have hways : addresses (p.ways spot t ++ ws) = addresses (p.ways spot t' ++ ws') := by
          rw [addresses_append, addresses_append, addresses_ways hpc, htail]
        obtain ⟨rfl, hsome⟩ := ih next' hways
        exact ⟨rfl, hsome⟩

/-! ### Frontiers -/

/-- Only threads that take a character or accept are kept. -/
def Waits (p : Program) (t : Thread) : Prop :=
  p.code[t.pc]? = some .accept ∨ ∃ s, p.code[t.pc]? = some (.take s)

/-- What is added to a frontier comes behind what is there. -/
structure Grows (p : Program) (f f' : Frontier) : Prop where
  threads : ∃ more, f'.threads = more ++ f.threads ∧ ∀ t ∈ more, p.Waits t
  reached : f.reached ⊆ f'.reached

variable {f f' f'' : Frontier} {place : Place} {fuel : Nat}

theorem Grows.refl (p : Program) (f : Frontier) : p.Grows f f :=
  ⟨⟨[], rfl, by simp⟩, fun _ h => h⟩

theorem Grows.trans (h : p.Grows f f') (h' : p.Grows f' f'') : p.Grows f f'' := by
  obtain ⟨more, hmore, hwaits⟩ := h.threads
  obtain ⟨more', hmore', hwaits'⟩ := h'.threads
  refine ⟨⟨more' ++ more, by rw [hmore', hmore, List.append_assoc], ?_⟩,
    fun q hq => h'.reached (h.reached hq)⟩
  intro t ht
  rcases List.mem_append.mp ht with ht | ht
  · exact hwaits' t ht
  · exact hwaits t ht

theorem grows_reach (p : Program) (f : Frontier) (q : Nat) :
    p.Grows f ⟨f.threads, q :: f.reached⟩ :=
  ⟨⟨[], rfl, by simp⟩, fun _ h => List.mem_cons_of_mem _ h⟩

theorem grows_keep (h : p.Waits t) (f : Frontier) :
    p.Grows f ⟨t :: f.threads, t.pc :: f.reached⟩ :=
  ⟨⟨[t], rfl, by simpa using h⟩, fun _ h => List.mem_cons_of_mem _ h⟩

theorem follow_grows (p : Program) (place : Place) (fuel : Nat) (t : Thread) (f : Frontier) :
    p.Grows f (p.follow place fuel t f) := by
  fun_induction follow p place fuel t f with
  | case1 => exact .refl p _
  | case2 => exact .refl p _
  | case3 => exact grows_reach p _ _
  | case4 _ _ _ _ _ s hcode => exact grows_keep (.inr ⟨s, hcode⟩) _
  | case5 _ _ _ _ _ hcode => exact grows_keep (.inl hcode) _
  | case6 _ _ _ _ _ _ _ _ ih => exact (grows_reach p _ _).trans ih
  | case7 => exact grows_reach p _ _
  | case8 _ _ _ _ _ _ _ ih => exact (grows_reach p _ _).trans ih
  | case9 _ _ _ _ _ _ _ ih => exact (grows_reach p _ _).trans ih
  | case10 _ _ _ _ _ _ _ _ ih ih' => exact ((grows_reach p _ _).trans ih).trans ih'

/-- The instructions that were not reached yet; every step of `follow` reaches one of them. -/
def spare (p : Program) (f : Frontier) : Nat :=
  (Finset.range p.code.size \ f.reached.toFinset).card

theorem spare_le (h : p.Grows f f') : p.spare f' ≤ p.spare f := by
  refine Finset.card_le_card (Finset.sdiff_subset_sdiff (Finset.Subset.refl _) ?_)
  intro q hq
  exact List.mem_toFinset.mpr (h.reached (List.mem_toFinset.mp hq))

theorem spare_reach {q : Nat} (hq : q < p.code.size) (hnew : q ∉ f.reached) :
    p.spare ⟨f.threads, q :: f.reached⟩ < p.spare f := by
  refine Finset.card_lt_card (Finset.ssubset_iff_of_subset ?_ |>.mpr ⟨q, ?_, ?_⟩)
  · intro k hk
    simp only [Finset.mem_sdiff, List.mem_toFinset, List.mem_cons, not_or] at hk ⊢
    exact ⟨hk.1, hk.2.2⟩
  · simp [hq, hnew]
  · simp

/-! ### All ways at once -/

/-- Going on at an instruction leads nowhere. -/
def Fails (p : Program) (spot : Spot) (q : Nat) : Prop :=
  ∃ n slots, p.Tries n [(spot, ⟨q, slots⟩)] none

/-- Going on at an instruction takes more than `n` steps. -/
def Exceeds (p : Program) (n : Nat) (spot : Spot) (q : Nat) : Prop :=
  ∃ m slots r, n < m ∧ p.Tries m [(spot, ⟨q, slots⟩)] r

/-- So far no thread leads anywhere, and every instruction that was reached leads nowhere or is
still being followed, which takes more than the `n` steps that are left. -/
structure Barren (p : Program) (n : Nat) (spot : Spot) (f : Frontier) : Prop where
  threads : ∃ m, p.Tries m (spot.all f.threads.reverse) none
  reached : ∀ q ∈ f.reached, p.Fails spot q ∨ p.Exceeds n spot q

/-- The threads of `f'` lead to `r`; if that is nowhere, so do the instructions that were reached
on the way from `f`. -/
structure Settles (p : Program) (spot : Spot) (f f' : Frontier) (r : Option Slots) : Prop where
  threads : ∃ m, p.Tries m (spot.all f'.threads.reverse) r
  reached : r = none → ∀ q ∈ f'.reached, q ∈ f.reached ∨ p.Fails spot q

/-- An instruction that was reached before is passed over for good reason. -/
theorem Barren.settles_refl (hf : p.Barren n spot f) (h : p.Tries n [(spot, t)] r)
    (hpc : t.pc ∈ f.reached) : p.Settles spot f f r := by
  rcases hf.reached t.pc hpc with ⟨m, slots, hfails⟩ | ⟨m, slots, r', hlt, hexceeds⟩
  · obtain ⟨-, hnone⟩ := h.unique hfails rfl
    obtain rfl : r = none := by simpa using hnone
    exact ⟨hf.threads, fun _ q hq => .inl hq⟩
  · -- the thread would be on its way to itself
    obtain ⟨rfl, -⟩ := h.unique hexceeds rfl
    exact absurd hlt (Nat.lt_irrefl _)

theorem Barren.reach (hf : p.Barren n spot f) (h : p.Tries n [(spot, t)] r) (hlt : m < n) :
    p.Barren m spot ⟨f.threads, t.pc :: f.reached⟩ := by
  refine ⟨hf.threads, ?_⟩
  intro q hq
  rcases List.mem_cons.mp hq with rfl | hq
  · exact .inr ⟨n, t.slots, r, hlt, h⟩
  · rcases hf.reached q hq with hfails | ⟨k, slots, r', hk, hexceeds⟩
    · exact .inl hfails
    · exact .inr ⟨k, slots, r', Nat.lt_trans hlt hk, hexceeds⟩

/-- What follows an instruction settles it. -/
theorem Settles.of_reach (h : p.Tries n [(spot, t)] r)
    (hs : p.Settles spot ⟨f.threads, t.pc :: f.reached⟩ f' r) : p.Settles spot f f' r := by
  refine ⟨hs.threads, ?_⟩
  rintro rfl q hq
  rcases hs.reached rfl q hq with hq | hfails
  · rcases List.mem_cons.mp hq with rfl | hq
    · exact .inr ⟨n, t.slots, h⟩
    · exact .inl hq
  · exact .inr hfails

/-- A thread that waits comes behind all others. -/
theorem Barren.settles_keep (hf : p.Barren n spot f) (h : p.Tries n [(spot, t)] r) :
    p.Settles spot f ⟨t :: f.threads, t.pc :: f.reached⟩ r := by
  obtain ⟨m, hthreads⟩ := hf.threads
  refine .of_reach h ⟨⟨m + n, ?_⟩, fun _ q hq => .inl hq⟩
  rw [List.reverse_cons, Spot.all, List.map_append]
  exact hthreads.append_none h

/-- Threads behind one that leads somewhere do not matter. -/
theorem Settles.grow {slots : Slots} (hs : p.Settles spot f f' (some slots))
    (h : p.Grows f' f'') : p.Settles spot f f'' (some slots) := by
  obtain ⟨m, hthreads⟩ := hs.threads
  obtain ⟨more, hmore, -⟩ := h.threads
  refine ⟨⟨m, ?_⟩, by simp⟩
  rw [hmore, List.reverse_append, Spot.all, List.map_append]
  exact hthreads.append_some _

theorem Settles.barren (hs : p.Settles spot f f' none) (hf : p.Barren n spot f) :
    p.Barren n spot f' := by
  refine ⟨hs.threads, ?_⟩
  intro q hq
  rcases hs.reached rfl q hq with hq | hfails
  · exact hf.reached q hq
  · exact .inl hfails

theorem Settles.trans (hs : p.Settles spot f f' none) (hs' : p.Settles spot f' f'' r) :
    p.Settles spot f f'' r := by
  refine ⟨hs'.threads, ?_⟩
  rintro rfl q hq
  rcases hs'.reached rfl q hq with hq | hfails
  · exact hs.reached rfl q hq
  · exact .inr hfails

theorem Tries.ways (h : p.Tries n [(spot, t)] r) (here : p.code[t.pc]? ≠ some .accept) :
    ∃ m, n = m + 1 ∧ p.Tries m (p.ways spot t) r := by
  cases h with
  | accept here' => exact absurd here' here
  | step _ next => exact ⟨_, rfl, by simpa using next⟩

/-- Following a thread adds the threads that lead where it leads. -/
theorem follow_settles (h : p.Tries n [(spot, t)] r) (hfuel : p.spare f < fuel)
    (hf : p.Barren n spot f) : p.Settles spot f (p.follow spot.place fuel t f) r := by
  induction fuel generalizing n t f r with
  | zero => exact absurd hfuel (Nat.not_lt_zero _)
  | succ fuel ih =>
    unfold follow
    split
    case isTrue hpc => exact hf.settles_refl h (by simpa using hpc)
    case isFalse hpc =>
      have hnew : t.pc ∉ f.reached := by simpa using hpc
      have hspare : t.pc < p.code.size →
          p.spare ⟨f.threads, t.pc :: f.reached⟩ < fuel := fun hlt =>
        Nat.lt_of_lt_of_le (spare_reach hlt hnew) (Nat.le_of_lt_succ hfuel)
      have hdead : p.code[t.pc]? ≠ some .accept → p.ways spot t = [] →
          p.Settles spot f ⟨f.threads, t.pc :: f.reached⟩ r := by
        intro here hways
        obtain ⟨m, rfl, hnext⟩ := h.ways here
        rw [hways] at hnext
        cases hnext
        exact .of_reach h ⟨hf.threads, fun _ q hq => .inl hq⟩
      -- a single way on: what it settles is settled for the thread
      have hsingle : ∀ t', p.code[t.pc]? ≠ some .accept → t.pc < p.code.size →
          p.ways spot t = [(spot, t')] →
          p.Settles spot f
            (p.follow spot.place fuel t' ⟨f.threads, t.pc :: f.reached⟩) r := by
        intro t' here hlt hways
        obtain ⟨m, rfl, hnext⟩ := h.ways here
        rw [hways] at hnext
        exact .of_reach h (ih hnext (hspare hlt) (hf.reach h (Nat.lt_succ_self m)))
      cases hcode : p.code[t.pc]? with
      | none => exact hdead (by simp [hcode]) (by simp [ways, hcode])
      | some inst =>
        have hlt : t.pc < p.code.size := (Array.getElem?_eq_some_iff.mp hcode).1
        cases inst with
        | take s => exact hf.settles_keep h
        | accept => exact hf.settles_keep h
        | look l =>
          dsimp only
          split
          case isTrue hl => exact hsingle _ (by simp [hcode]) hlt (by simp [ways, hcode, hl])
          case isFalse hl => exact hdead (by simp [hcode]) (by simp [ways, hcode, hl])
        | save slot => exact hsingle _ (by simp [hcode]) hlt (by simp [ways, hcode, Spot.place])
        | jump target => exact hsingle _ (by simp [hcode]) hlt (by simp [ways, hcode])
        | split preferred other =>
          obtain ⟨m, rfl, hnext⟩ := h.ways (by simp [hcode])
          have hways : p.ways spot t =
              [(spot, ⟨preferred, t.slots⟩)] ++ [(spot, ⟨other, t.slots⟩)] := by
            simp [ways, hcode]
          rw [hways] at hnext
          refine .of_reach h ?_
          rcases hnext.of_append with ⟨hfirst, hsome⟩ | ⟨k, l, hfirst, hsecond, rfl⟩
          · -- nothing is known of the other way, but its threads come too late to matter
            obtain ⟨slots, rfl⟩ := Option.isSome_iff_exists.mp hsome
            have hs := ih hfirst (hspare hlt) (hf.reach h (Nat.lt_succ_self m))
            exact hs.grow (follow_grows ..)
          · have hs := ih hfirst (hspare hlt) (hf.reach h (by omega))
            have hgrows := follow_grows p spot.place fuel ⟨preferred, t.slots⟩
              ⟨f.threads, t.pc :: f.reached⟩
            have hs' := ih hsecond (Nat.lt_of_le_of_lt (spare_le hgrows) (hspare hlt))
              (hs.barren (hf.reach h (by omega)))
            exact hs.trans hs'

/-! ### From place to place -/

variable {c : Char} {rest : List Char} {ts : List Thread}

/-- All threads take a character next. -/
def Takes (p : Program) (ts : List Thread) : Prop :=
  ∀ t ∈ ts, ∃ s, p.code[t.pc]? = some (.take s)

theorem spare_lt (p : Program) (f : Frontier) : p.spare f < p.code.size + 1 := by
  have hle := Finset.card_le_card
    (Finset.sdiff_subset : Finset.range p.code.size \ f.reached.toFinset ⊆ _)
  rw [Finset.card_range] at hle
  exact Nat.lt_succ_of_le hle

theorem barren_empty (p : Program) (n : Nat) (spot : Spot) : p.Barren n spot ⟨[], []⟩ :=
  ⟨⟨0, .nil⟩, by simp⟩

theorem move_grows (p : Program) (c : Char) (place : Place) (f : Frontier) (t : Thread) :
    p.Grows f (p.move c place f t) := by
  unfold move
  split
  · split
    · exact follow_grows ..
    · exact .refl p f
  · exact .refl p f

theorem moves_grow (p : Program) (c : Char) (place : Place) (f : Frontier) (ts : List Thread) :
    p.Grows f (ts.foldl (p.move c place) f) := by
  induction ts generalizing f with
  | nil => exact .refl p f
  | cons t ts ih => exact (move_grows p c place f t).trans (ih _)

/-- Moving a thread over a character leads where the thread leads. -/
theorem move_settles {s : CharSet} (hrest : spot.rest = c :: rest)
    (hcode : p.code[t.pc]? = some (.take s)) (h : p.Tries n [(spot, t)] r)
    (hf : p.Settles (spot.next c rest) ⟨[], []⟩ f none) :
    p.Settles (spot.next c rest) ⟨[], []⟩ (p.move c (spot.next c rest).place f t) r := by
  obtain ⟨m, rfl, hnext⟩ := h.ways (by simp [hcode])
  simp only [ways, hcode, hrest] at hnext
  simp only [move, hcode]
  split
  case isTrue hc =>
    rw [if_pos hc] at hnext
    exact hf.trans (follow_settles hnext (spare_lt p f) (hf.barren (barren_empty ..)))
  case isFalse hc =>
    rw [if_neg hc] at hnext
    cases hnext
    exact hf

theorem moves_settle (hrest : spot.rest = c :: rest) (hts : p.Takes ts)
    (h : p.Tries n (spot.all ts) r) (hf : p.Settles (spot.next c rest) ⟨[], []⟩ f none) :
    p.Settles (spot.next c rest) ⟨[], []⟩ (ts.foldl (p.move c (spot.next c rest).place) f) r := by
  induction ts generalizing f n with
  | nil =>
    cases h
    exact hf
  | cons t ts ih =>
    obtain ⟨s, hcode⟩ := hts t List.mem_cons_self
    have hothers : p.Takes ts := fun u hu => hts u (List.mem_cons_of_mem _ hu)
    have hsplit : spot.all (t :: ts) = [(spot, t)] ++ spot.all ts := rfl
    rw [hsplit] at h
    rcases h.of_append with ⟨hfirst, hsome⟩ | ⟨m, k, hfirst, hrun, -⟩
    · obtain ⟨slots, rfl⟩ := Option.isSome_iff_exists.mp hsome
      exact (move_settles hrest hcode hfirst hf).grow (moves_grow ..)
    · exact ih hothers hrun (move_settles hrest hcode hfirst hf)

theorem takes_accepted (h : ∀ t ∈ ts, p.Waits t) : p.Takes (p.accepted ts).1 := by
  induction ts with
  | nil => simp [accepted, Takes]
  | cons t ts ih =>
    unfold accepted
    split
    · simp [Takes]
    · rename_i hne
      intro u hu
      rcases List.mem_cons.mp hu with rfl | hu
      · exact (h u List.mem_cons_self).resolve_left hne
      · exact ih (fun v hv => h v (List.mem_cons_of_mem _ hv)) u hu

/-- The first thread that accepts is the outcome unless one in front of it leads somewhere. -/
theorem accepted_tries (h : p.Tries n (spot.all ts) r) :
    ∃ m r', p.Tries m (spot.all (p.accepted ts).1) r' ∧ r = r'.or (p.accepted ts).2 := by
  induction ts generalizing n with
  | nil =>
    cases h
    exact ⟨0, none, .nil, rfl⟩
  | cons t ts ih =>
    have hsplit : spot.all (t :: ts) = [(spot, t)] ++ spot.all ts := rfl
    unfold accepted
    split
    case isTrue hcode =>
      cases h with
      | accept => exact ⟨0, none, .nil, rfl⟩
      | step here => exact absurd hcode here
    case isFalse =>
      rw [hsplit] at h
      rcases h.of_append with ⟨hfirst, hsome⟩ | ⟨m, k, hfirst, hothers, -⟩
      · obtain ⟨slots, rfl⟩ := Option.isSome_iff_exists.mp hsome
        exact ⟨n, some slots, hfirst.append_some _, rfl⟩
      · obtain ⟨k', r', hr', rfl⟩ := ih hothers
        exact ⟨m + k', r', hfirst.append_none hr', rfl⟩

/-- At the end of a text nothing can be taken. -/
theorem tries_end (hrest : spot.rest = []) (hts : p.Takes ts) (h : p.Tries n (spot.all ts) r) :
    r = none := by
  induction ts generalizing n with
  | nil =>
    cases h
    rfl
  | cons t ts ih =>
    obtain ⟨s, hcode⟩ := hts t List.mem_cons_self
    cases h with
    | accept here =>
      rw [hcode] at here
      cases here
    | step _ next =>
      simp only [ways, hcode, hrest, List.nil_append] at next
      exact ih (fun u hu => hts u (List.mem_cons_of_mem _ hu)) next

/-- Running threads to the end of a text gives their outcome. -/
theorem runFrom_eq_or (ha : p.anchored = true) (hts : ∀ t ∈ ts, p.Waits t)
    (h : p.Tries n (spot.all ts) r) (found : Option Slots) :
    p.runFrom found spot.index ts spot.rest = r.or found := by
  obtain ⟨index, before, rest⟩ := spot
  induction rest generalizing index before ts n r found with
  | nil =>
    obtain ⟨m, r', hr', rfl⟩ := accepted_tries h
    obtain rfl := tries_end rfl (takes_accepted hts) hr'
    rfl
  | cons c rest ih =>
    obtain ⟨m, r', hr', rfl⟩ := accepted_tries h
    have hs : p.Settles (Spot.next ⟨index, before, c :: rest⟩ c rest) ⟨[], []⟩
        (p.step c ⟨index + 1, some c, rest.head?⟩ (p.accepted ts).1) r' :=
      moves_settle rfl (takes_accepted hts) hr' ⟨⟨0, .nil⟩, by simp⟩
    obtain ⟨k, hmoved⟩ := hs.threads
    obtain ⟨more, hmore, hwaits⟩ :=
      (moves_grow p c ⟨index + 1, some c, rest.head?⟩ ⟨[], []⟩ (p.accepted ts).1).threads
    rw [List.append_nil] at hmore
    rw [runFrom]
    simp only [ha, Bool.or_true, Bool.and_true, if_true]
    split
    case isTrue hempty =>
      rw [List.isEmpty_iff.mp hempty] at hmoved
      cases hmoved
      rfl
    case isFalse =>
      have hlive : ∀ t ∈ (p.step c ⟨index + 1, some c, rest.head?⟩
          (p.accepted ts).1).threads.reverse, p.Waits t := by
        intro t ht
        rw [step, hmore] at ht
        exact hwaits t (List.mem_reverse.mp ht)
      have hrun := ih hlive ((p.accepted ts).2.or found) (index + 1) (some c) hmoved
      exact hrun.trans (Option.or_assoc).symm

/-- The machine finds what trying one way after the other finds, provided that this comes to an
end. -/
theorem search?_eq {text : List Char} (ha : p.anchored = true)
    (h : p.Tries n [(.origin text, ⟨0, p.blank⟩)] r) : p.search? text = r := by
  have hs : p.Settles (.origin text) ⟨[], []⟩ (p.start ⟨0, none, text.head?⟩ ⟨[], []⟩) r :=
    follow_settles h (spare_lt p _) (barren_empty ..)
  obtain ⟨k, hthreads⟩ := hs.threads
  obtain ⟨more, hmore, hwaits⟩ :=
    (follow_grows p ⟨0, none, text.head?⟩ (p.code.size + 1) ⟨0, p.blank⟩ ⟨[], []⟩).threads
  rw [List.append_nil] at hmore
  have hlive : ∀ t ∈ (p.start ⟨0, none, text.head?⟩ ⟨[], []⟩).threads.reverse, p.Waits t := by
    intro t ht
    rw [start, hmore] at ht
    exact hwaits t (List.mem_reverse.mp ht)
  have hrun := runFrom_eq_or ha hlive hthreads none
  rwa [Option.or_none] at hrun

end Program

end DollarScript.Regex
