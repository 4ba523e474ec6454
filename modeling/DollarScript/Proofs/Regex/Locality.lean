import DollarScript.Regex.Reader
import Mathlib.Data.List.TakeWhile

/-! What a reader of some part of a pattern takes, it also takes with the end of a group behind the
text, if that is seen at all: a comment at the end of the text may hide it. -/
namespace DollarScript.Regex.Reader

open DollarScript.Text

/-- What closes a group, with nothing behind it that could end a comment or a name. -/
structure Closing (tail : List Char) : Prop where
  head : ∃ more, tail = ')' :: more
  line : '\n' ∉ tail
  colon : ':' ∉ tail

/-- What is left of a text by itself, and with `tail` behind it. -/
def Behind (tail rest rest' : List Char) : Prop := rest' = rest ++ tail ∨ rest = [] ∧ rest' = []

variable {tail cs cs' rest : List Char} {c : Char}

theorem behind_append (tail rest : List Char) : Behind tail rest (rest ++ tail) := .inl rfl

theorem Behind.cons (h : Behind tail (c :: rest) cs') : cs' = c :: (rest ++ tail) := by
  rcases h with h | ⟨h, -⟩
  · exact h
  · cases h

/-- What stands first and does not end the group stands in the text itself. -/
theorem Behind.of_head {a : Char} (ht : Closing tail) (h : Behind tail cs (a :: rest))
    (ha : a ≠ ')') : ∃ more, cs = a :: more ∧ rest = more ++ tail := by
  obtain ⟨back, rfl⟩ := ht.head
  cases cs with
  | nil =>
    rcases h with h | ⟨-, h⟩
    · cases h
      exact absurd rfl ha
    · cases h
  | cons c cs =>
    cases h.cons
    exact ⟨cs, rfl, rfl⟩

theorem Behind.of_pair {a b : Char} (ht : Closing tail) (h : Behind tail cs (a :: b :: rest))
    (ha : a ≠ ')') (hb : b ≠ ')') : ∃ more, cs = a :: b :: more := by
  obtain ⟨more, rfl, hmore⟩ := h.of_head ht ha
  obtain ⟨more, rfl, -⟩ := Behind.of_head ht (.inl hmore) hb
  exact ⟨more, rfl⟩

theorem Behind.length_le (h : Behind tail cs cs') : cs.length ≤ cs'.length := by
  rcases h with rfl | ⟨rfl, rfl⟩
  · rw [List.length_append]
    omega
  · exact Nat.le_refl _

theorem Closing.dropIgnored_true (ht : Closing tail) : dropIgnored true tail = [] := by
  have hline := ht.line
  clear ht
  induction tail with
  | nil => rfl
  | cons c tail ih =>
    rw [List.mem_cons, not_or] at hline
    have hc : (c != '\n') = true := bne_iff_ne.mpr (Ne.symm hline.1)
    rw [dropIgnored, hc]
    exact ih hline.2

theorem Closing.dropIgnored_false (ht : Closing tail) : dropIgnored false tail = tail := by
  obtain ⟨more, rfl⟩ := ht.head
  have hwhite : isWhite ')' = false := by decide
  simp [dropIgnored, hwhite]

/-- A comment that is still open at the end of the text takes what closes the group. -/
theorem behind_dropIgnored (ht : Closing tail) (comment : Bool) (cs : List Char) :
    Behind tail (dropIgnored comment cs) (dropIgnored comment (cs ++ tail)) := by
  induction cs generalizing comment with
  | nil =>
    cases comment with
    | false => exact .inl ht.dropIgnored_false
    | true => exact .inr ⟨rfl, ht.dropIgnored_true⟩
  | cons c cs ih =>
    cases comment with
    | true => exact ih _
    | false =>
      rw [List.cons_append]
      unfold dropIgnored
      split
      · exact ih _
      · split
        · exact ih _
        · exact behind_append tail (c :: cs)

theorem Behind.skip (ht : Closing tail) (blanks : Bool) (h : Behind tail cs cs') :
    Behind tail (skip blanks cs) (Reader.skip blanks cs') := by
  rcases h with rfl | ⟨rfl, rfl⟩
  · cases blanks with
    | false => exact behind_append tail cs
    | true => exact behind_dropIgnored ht false cs
  · cases blanks with
    | false => exact .inr ⟨rfl, rfl⟩
    | true => exact .inr ⟨rfl, rfl⟩

/-- If the first outcome is one, then so is the second, and they differ in what is left only. -/
def Agrees {α : Type} (tail : List Char) (r r' : Option (α × List Char)) : Prop :=
  ∀ a rest, r = some (a, rest) → ∃ rest', r' = some (a, rest') ∧ Behind tail rest rest'

/-- What a reader takes from a text, it also takes with the end of a group behind the text. -/
def Local {α : Type} (reader : List Char → Option (α × List Char)) : Prop :=
  ∀ {tail cs cs' : List Char}, Closing tail → Behind tail cs cs' →
    Agrees tail (reader cs) (reader cs')

section Agrees

variable {α β : Type} {r r' u u' : Option (α × List Char)} {rest' : List Char}

theorem agrees_none : Agrees tail none r' := by
  intro a rest h
  cases h

theorem agrees_some (a : α) (h : Behind tail rest rest') :
    Agrees tail (some (a, rest)) (some (a, rest')) := by
  intro b rest₁ hb
  cases hb
  exact ⟨rest', rfl, h⟩

theorem agrees_ite {p : Prop} [Decidable p] (h : p → Agrees tail r r')
    (h' : ¬ p → Agrees tail u u') : Agrees tail (if p then r else u) (if p then r' else u') := by
  by_cases hp : p
  · rw [if_pos hp, if_pos hp]
    exact h hp
  · rw [if_neg hp, if_neg hp]
    exact h' hp

theorem agrees_of_option {o : Option β} {f f' : β → Option (α × List Char)}
    (h : ∀ b, Agrees tail (f b) (f' b)) : Agrees tail (o.bind f) (o.bind f') := by
  cases o with
  | none => exact agrees_none
  | some b => exact h b

theorem Agrees.bind {f f' : α × List Char → Option (β × List Char)} (h : Agrees tail r r')
    (hf : ∀ a rest rest', Behind tail rest rest' → Agrees tail (f (a, rest)) (f' (a, rest'))) :
    Agrees tail (r.bind f) (r'.bind f') := by
  cases hr : r with
  | none => exact agrees_none
  | some p =>
    obtain ⟨a, rest⟩ := p
    obtain ⟨rest', hr', hrest⟩ := h a rest hr
    rw [hr']
    exact hf a rest rest' hrest

end Agrees

/-! ### Escapes -/

theorem local_readHexDigits (blanks : Bool) (count value : Nat) :
    Local (readHexDigits blanks count value) := by
  intro tail cs cs' ht hcs
  induction count generalizing value cs cs' with
  | zero => exact agrees_some value hcs
  | succ count ih =>
    cases cs with
    | nil => exact agrees_none
    | cons c cs =>
      obtain rfl := hcs.cons
      exact agrees_of_option fun d => ih _ ((behind_append tail cs).skip ht blanks)

theorem local_readHexBraced (blanks comment : Bool) (digits : List Nat) :
    Local (readHexBraced blanks comment digits) := by
  intro tail cs cs' ht hcs
  induction cs generalizing comment digits cs' with
  | nil => exact agrees_none
  | cons c cs ih =>
    obtain rfl := hcs.cons
    have hnext := fun comment digits => ih comment digits (behind_append tail cs)
    unfold readHexBraced
    refine agrees_ite (fun _ => hnext _ _) fun _ => ?_
    refine agrees_ite (fun _ => hnext _ _) fun _ => ?_
    refine agrees_ite (fun _ => hnext _ _) fun _ => ?_
    refine agrees_ite (fun _ => ?_) fun _ => agrees_of_option fun d => hnext _ _
    exact agrees_ite (fun _ => agrees_none) fun _ =>
      agrees_some _ ((behind_append tail cs).skip ht blanks)

theorem readHex_eq (blanks : Bool) (count : Nat) (cs : List Char) :
    readHex blanks count cs =
      (match skip blanks cs with
        | '\x7b' :: more => readHexBraced blanks false [] more
        | more => readHexDigits blanks count 0 more).bind fun p =>
          (charOfCode? p.1).bind fun c => some (.char c, p.2) := by
  unfold readHex
  extract_lets done
  have hdone : done = fun p => (charOfCode? p.1).bind fun c => some (.char c, p.2) := rfl
  rw [← hdone]
  generalize skip blanks cs = l
  split
  · rfl
  · simp

theorem local_readHex (blanks : Bool) (count : Nat) : Local (readHex blanks count) := by
  intro tail cs cs' ht hcs
  rw [readHex_eq, readHex_eq]
  refine Agrees.bind ?_ fun n rest rest' hrest => agrees_of_option fun c => agrees_some _ hrest
  have hskip := hcs.skip ht blanks
  generalize skip blanks cs = l, skip blanks cs' = l' at hskip
  have hdigits := local_readHexDigits blanks count 0 ht hskip
  cases l with
  | nil =>
    obtain ⟨more, rfl⟩ := ht.head
    rcases hskip with rfl | ⟨-, rfl⟩
    · exact hdigits
    · exact hdigits
  | cons c l =>
    obtain rfl := hskip.cons
    by_cases hc : c = '\x7b'
    · subst hc
      exact local_readHexBraced blanks false [] ht (behind_append tail l)
    · simpa [hc] using hdigits

theorem local_readBraced (blanks comment : Bool) (name : List Char) :
    Local (readBraced blanks comment name) := by
  intro tail cs cs' ht hcs
  induction cs generalizing comment name cs' with
  | nil => exact agrees_none
  | cons c cs ih =>
    obtain rfl := hcs.cons
    have hnext := fun comment name => ih comment name (behind_append tail cs)
    unfold readBraced
    refine agrees_ite (fun _ => hnext _ _) fun _ => ?_
    refine agrees_ite (fun _ => hnext _ _) fun _ => ?_
    refine agrees_ite (fun _ => hnext _ _) fun _ => ?_
    exact agrees_ite (fun _ => agrees_some _ (behind_append tail cs)) fun _ => hnext _ _

/-- The set that a name of categories stands for. -/
def categoriesOfName? (flags : Flags) (negated : Bool) (name : List Char) : Option CharSet := do
  let (different, value) ←
    match splitProperty [] name with
    | none => some (false, name)
    | some (property, different, value) =>
      if isCategoryProperty property then some (different, value) else none
  let categories ← Category.ofName? value
  let set := CharSet.foldedIf flags.insensitive (.categories categories)
  return .complementIf (negated != different) set

theorem readCategories_eq (flags : Flags) (negated : Bool) (cs : List Char) :
    readCategories flags negated cs =
      (match skip flags.ignoreBlanks cs with
        | [] => none
        | '\x7b' :: more => readBraced flags.ignoreBlanks false [] more
        | '\\' :: _ => none
        | c :: more => some ([c], skip flags.ignoreBlanks more)).bind fun p =>
          (categoriesOfName? flags negated p.1).bind fun set => some (.set set, p.2) := by
  unfold readCategories
  generalize skip flags.ignoreBlanks cs = l
  extract_lets done
  have hdone : done = fun p => (categoriesOfName? flags negated p.1).bind fun set =>
      some (.set set, p.2) := by
    funext p
    obtain ⟨name, rest⟩ := p
    simp only [done, categoriesOfName?]
    cases splitProperty [] name with
    | none => simp [Option.bind_assoc]
    | some value =>
      obtain ⟨property, different, value⟩ := value
      by_cases hproperty : isCategoryProperty property
      · simp [hproperty, Option.bind_assoc]
      · simp [hproperty]
  rw [← hdone]
  split
  · rfl
  · rfl
  · rfl
  · simp

theorem local_readCategories (flags : Flags) (negated : Bool) :
    Local (readCategories flags negated) := by
  intro tail cs cs' ht hcs
  rw [readCategories_eq, readCategories_eq]
  refine Agrees.bind ?_ fun name rest rest' hrest => agrees_of_option fun set => agrees_some _ hrest
  have hskip := hcs.skip ht flags.ignoreBlanks
  generalize skip flags.ignoreBlanks cs = l, skip flags.ignoreBlanks cs' = l' at hskip
  cases l with
  | nil => exact agrees_none
  | cons c l =>
    obtain rfl := hskip.cons
    have hl := behind_append tail l
    by_cases hc : c = '\x7b'
    · subst hc
      exact local_readBraced flags.ignoreBlanks false [] ht hl
    · by_cases hslash : c = '\\'
      · subst hslash
        exact agrees_none
      · simpa [hc, hslash] using agrees_some [c] (hl.skip ht flags.ignoreBlanks)

theorem local_readBoundary (blanks : Bool) : Local (readBoundary blanks) := by
  intro tail cs cs' ht hcs
  have hplain := agrees_some (Primitive.look .wordBoundary) hcs
  cases cs with
  | nil =>
    obtain ⟨more, rfl⟩ := ht.head
    rcases hcs with rfl | ⟨-, rfl⟩
    · exact hplain
    · exact hplain
  | cons c cs =>
    obtain rfl := hcs.cons
    by_cases hc : c = '\x7b'
    · subst hc
      simp only [readBoundary]
      have hskip := (behind_append tail cs).skip ht blanks
      generalize skip blanks cs = l, skip blanks (cs ++ tail) = l' at hskip
      cases l with
      | nil => exact agrees_none
      | cons d l =>
        obtain rfl := hskip.cons
        refine agrees_ite (fun _ => ?_) fun _ => hplain
        refine (local_readBraced blanks false [] ht (behind_append tail (d :: l))).bind ?_
        intro name rest rest' hrest
        exact agrees_of_option fun look => agrees_some _ hrest
    · simpa [readBoundary, hc] using hplain

theorem local_readEscape (flags : Flags) : Local (readEscape flags) := by
  intro tail cs cs' ht hcs
  cases cs with
  | nil => exact agrees_none
  | cons c cs =>
    obtain rfl := hcs.cons
    have hl := behind_append tail cs
    unfold readEscape
    dsimp only
    split
    case h_1 | h_2 | h_3 => exact local_readHex _ _ ht hl
    case h_4 | h_5 => exact local_readCategories _ _ ht hl
    case h_20 => exact local_readBoundary _ ht hl
    case h_24 => exact agrees_ite (fun _ => agrees_some _ hl) fun _ => agrees_none
    all_goals exact agrees_some _ hl

/-! ### Sets between brackets -/

theorem local_readSetFront (blanks : Bool) {fuel fuel' : Nat} (hfuel : fuel ≤ fuel')
    (members : Members) (ht : Closing tail) (hcs : Behind tail cs cs') :
    Agrees tail (readSetFront blanks fuel members cs) (readSetFront blanks fuel' members cs') := by
  induction fuel generalizing fuel' members cs cs' with
  | zero => exact agrees_none
  | succ fuel ih =>
    obtain ⟨fuel', rfl⟩ := Nat.exists_eq_add_one.mpr (Nat.lt_of_lt_of_le (Nat.succ_pos fuel) hfuel)
    have hless := Nat.le_of_succ_le_succ hfuel
    cases cs with
    | nil => exact agrees_none
    | cons c cs =>
      have hstop := agrees_some members hcs
      obtain rfl := hcs.cons
      have hskip := (behind_append tail cs).skip ht blanks
      by_cases hyphen : c = '-'
      · subst hyphen
        exact ih hless _ hskip
      · by_cases hbracket : c = ']'
        · subst hbracket
          refine agrees_ite (fun _ => ?_) fun _ => hstop
          generalize skip blanks cs = l, skip blanks (cs ++ tail) = l' at hskip
          cases l with
          | nil => exact agrees_none
          | cons d l =>
            obtain rfl := hskip.cons
            exact agrees_some _ (behind_append tail (d :: l))
        · simpa [readSetFront, hyphen, hbracket] using hstop

theorem readSetOpen_behind {blanks negated : Bool} {members : Members} (ht : Closing tail)
    (hcs : Behind tail cs cs') (h : readSetOpen blanks cs = some (negated, members, rest)) :
    ∃ rest', readSetOpen blanks cs' = some (negated, members, rest') ∧ Behind tail rest rest' := by
  have hskip := hcs.skip ht blanks
  unfold readSetOpen at h ⊢
  generalize skip blanks cs = l, skip blanks cs' = l' at h hskip ⊢
  have hfront : ∀ {l l' : List Char} {flag : Bool}, Behind tail l l' →
      ((readSetFront blanks (l.length + 1) [] l).map fun p => (flag, p.1, p.2)) =
        some (negated, members, rest) →
      ∃ rest', ((readSetFront blanks (l'.length + 1) [] l').map fun p => (flag, p.1, p.2)) =
        some (negated, members, rest') ∧ Behind tail rest rest' := by
    intro l l' flag hl h
    obtain ⟨⟨found, rest₁⟩, hfound, heq⟩ := Option.map_eq_some_iff.mp h
    cases heq
    obtain ⟨rest', hfound', hrest⟩ :=
      local_readSetFront blanks (Nat.succ_le_succ hl.length_le) [] ht hl _ _ hfound
    exact ⟨rest', by rw [hfound']; rfl, hrest⟩
  cases l with
  | nil => cases h
  | cons c l =>
    obtain rfl := hskip.cons
    by_cases hc : c = '^'
    · subst hc
      exact hfront ((behind_append tail l).skip ht blanks) h
    · have hplain := behind_append tail (c :: l)
      simp only [hc, List.cons.injEq, false_and, imp_self, implies_true] at h ⊢
      exact hfront hplain h

/-- A name up to a colon, and what follows if that is the end of a class. -/
def namedClass? (negated : Bool) (more : List Char) : Option (CharSet × Bool × List Char) :=
  match more.dropWhile (· != ':') with
  | ':' :: ']' :: rest =>
    (CharSet.ofAsciiName? (String.ofList (more.takeWhile (· != ':')))).map fun set =>
      (set, negated, rest)
  | _ => none

theorem namedClass?_append (ht : Closing tail) (negated : Bool) (more : List Char) :
    namedClass? negated (more ++ tail) =
      (namedClass? negated more).map fun p => (p.1, p.2.1, p.2.2 ++ tail) := by
  have hcolon : tail.dropWhile (· != ':') = [] := by
    rw [List.dropWhile_eq_nil_iff]
    intro c hc
    rw [bne_iff_ne]
    rintro rfl
    exact ht.colon hc
  obtain ⟨back', rfl⟩ := ht.head
  unfold namedClass?
  rw [List.dropWhile_append, List.takeWhile_append]
  cases hdrop : more.dropWhile (· != ':') with
  | nil => simp [hcolon]
  | cons d back =>
    have hshort : (more.takeWhile (· != ':')).length ≠ more.length := by
      have hlength := congrArg List.length (List.takeWhile_append_dropWhile (p := (· != ':')) (l := more))
      rw [List.length_append, hdrop, List.length_cons] at hlength
      omega
    rw [if_neg hshort, List.isEmpty_cons, if_neg (by decide), List.cons_append]
    by_cases hd : d = ':'
    · cases back with
      | nil => simp [hd]
      | cons e back =>
        by_cases he : e = ']'
        · subst hd he
          simp only [List.cons_append, Option.map_map]
          rfl
        · simp [hd, he]
    · simp [hd]

theorem readNamedClass?_of_ne {d : Char} (hd : d ≠ '^') (cs : List Char) :
    readNamedClass? (':' :: d :: cs) = namedClass? false (d :: cs) := by
  simp only [readNamedClass?, hd, List.cons.injEq, false_and, imp_self, implies_true]
  rfl

theorem readNamedClass?_append (ht : Closing tail) (cs : List Char) :
    readNamedClass? (cs ++ tail) =
      (readNamedClass? cs).map fun p => (p.1, p.2.1, p.2.2 ++ tail) := by
  cases cs with
  | nil =>
    obtain ⟨more, rfl⟩ := ht.head
    rfl
  | cons c cs =>
    by_cases hc : c = ':'
    · subst hc
      cases cs with
      | nil =>
        have h := namedClass?_append ht false []
        obtain ⟨more, rfl⟩ := ht.head
        exact h
      | cons d cs =>
        by_cases hd : d = '^'
        · subst hd
          exact namedClass?_append ht true cs
        · rw [List.cons_append, List.cons_append, readNamedClass?_of_ne hd, readNamedClass?_of_ne hd]
          exact namedClass?_append ht false (d :: cs)
    · simp [readNamedClass?, hc]

theorem local_readSetPrimitive (flags : Flags) : Local (readSetPrimitive flags) := by
  intro tail cs cs' ht hcs
  cases cs with
  | nil => exact agrees_none
  | cons c cs =>
    obtain rfl := hcs.cons
    have hl := behind_append tail cs
    by_cases hc : c = '\\'
    · subst hc
      exact local_readEscape flags ht hl
    · simpa [readSetPrimitive, hc] using agrees_some (Primitive.char c) hl

theorem local_readSetMember (flags : Flags) : Local (readSetMember flags) := by
  intro tail cs cs' ht hcs
  unfold readSetMember
  refine (local_readSetPrimitive flags ht hcs).bind fun first rest rest' hrest => ?_
  dsimp only
  have hskip := hrest.skip ht flags.ignoreBlanks
  generalize skip flags.ignoreBlanks rest = l, skip flags.ignoreBlanks rest' = l' at hskip
  have hsingle : Agrees tail (first.asSet?.bind fun set => some (set, l))
      (first.asSet?.bind fun set => some (set, l')) :=
    agrees_of_option fun set => agrees_some set hskip
  cases l with
  | nil => exact agrees_none
  | cons c l =>
    obtain rfl := hskip.cons
    by_cases hc : c = '-'
    · subst hc
      have hmore := (behind_append tail l).skip ht flags.ignoreBlanks
      simp only
      generalize skip flags.ignoreBlanks l = m, skip flags.ignoreBlanks (l ++ tail) = m' at hmore
      cases m with
      | nil => exact agrees_none
      | cons d m =>
        have hlast := local_readSetPrimitive flags ht hmore
        obtain rfl := hmore.cons
        by_cases hbracket : d = ']'
        · subst hbracket
          exact hsingle
        · by_cases hyphen : d = '-'
          · subst hyphen
            exact hsingle
          · simp only [hbracket, hyphen, List.cons.injEq, false_and, imp_self, implies_true]
            refine hlast.bind fun last rest rest' hrest => ?_
            dsimp only
            split
            · exact agrees_ite (fun _ => agrees_some _ hrest) fun _ => agrees_none
            · exact agrees_none
    · simpa [hc] using hsingle

theorem local_readSetBody (flags : Flags) {fuel fuel' : Nat} (hfuel : fuel ≤ fuel')
    (frame : SetFrame) (outer : List SetFrame) (members : Members) (ht : Closing tail)
    (hcs : Behind tail cs cs') :
    Agrees tail (readSetBody flags fuel frame outer members cs)
      (readSetBody flags fuel' frame outer members cs') := by
  induction fuel generalizing fuel' frame outer members cs cs' with
  | zero => exact agrees_none
  | succ fuel ih =>
    obtain ⟨fuel', rfl⟩ := Nat.exists_eq_add_one.mpr (Nat.lt_of_lt_of_le (Nat.succ_pos fuel) hfuel)
    have hless := Nat.le_of_succ_le_succ hfuel
    have hskip := hcs.skip ht flags.ignoreBlanks
    unfold readSetBody
    dsimp only
    generalize skip flags.ignoreBlanks cs = l, skip flags.ignoreBlanks cs' = l' at hskip
    have hl : ∀ rest, Behind tail rest (rest ++ tail) := behind_append tail
    split
    · exact agrees_none
    · rename_i rest
      obtain rfl := hskip.cons
      simp only
      rw [readNamedClass?_append ht]
      cases readNamedClass? rest with
      | some p => exact ih hless _ _ _ (hl _)
      | none =>
        dsimp only [Option.map_none]
        cases hopen : readSetOpen flags.ignoreBlanks rest with
        | none => exact agrees_none
        | some p =>
          obtain ⟨negated, front, inside⟩ := p
          obtain ⟨inside', hopen', hinside⟩ := readSetOpen_behind ht (hl rest) hopen
          rw [hopen']
          exact ih hless _ _ _ hinside
    · obtain rfl := hskip.cons
      cases outer with
      | nil => exact agrees_some _ (hl _)
      | cons parent outer => exact ih hless _ _ _ (hl _)
    · obtain rfl := hskip.cons
      exact ih hless _ _ _ (hl _)
    · obtain rfl := hskip.cons
      exact ih hless _ _ _ (hl _)
    · obtain rfl := hskip.cons
      exact ih hless _ _ _ (hl _)
    · rename_i hopen hclose hinter hminus hsymmetric
      cases hread : readSetMember flags l with
      | none => exact agrees_none
      | some p =>
        obtain ⟨set, rest⟩ := p
        obtain ⟨rest', hread', hrest⟩ := local_readSetMember flags ht hskip _ _ hread
        dsimp only
        split
        · cases hread'
        · obtain ⟨more, hmore, -⟩ := hskip.of_head ht (by decide)
          exact absurd hmore (hopen more)
        · obtain ⟨more, hmore, -⟩ := hskip.of_head ht (by decide)
          exact absurd hmore (hclose more)
        · obtain ⟨more, hmore⟩ := hskip.of_pair ht (by decide) (by decide)
          exact absurd hmore (hinter more)
        · obtain ⟨more, hmore⟩ := hskip.of_pair ht (by decide) (by decide)
          exact absurd hmore (hminus more)
        · obtain ⟨more, hmore⟩ := hskip.of_pair ht (by decide) (by decide)
          exact absurd hmore (hsymmetric more)
        · rw [hread']
          exact ih hless _ _ _ hrest

theorem local_readSet (flags : Flags) : Local (readSet flags) := by
  intro tail cs cs' ht hcs
  unfold readSet
  cases hopen : readSetOpen flags.ignoreBlanks cs with
  | none => exact agrees_none
  | some p =>
    obtain ⟨negated, front, inside⟩ := p
    obtain ⟨inside', hopen', hinside⟩ := readSetOpen_behind ht hcs hopen
    rw [hopen']
    exact local_readSetBody flags (Nat.succ_le_succ hinside.length_le) _ _ _ ht hinside

/-! ### Repetitions -/

theorem readEager_behind (ht : Closing tail) (hcs : Behind tail cs cs') :
    (readEager cs').1 = (readEager cs).1 ∧ Behind tail (readEager cs).2 (readEager cs').2 := by
  cases cs with
  | nil =>
    obtain ⟨more, rfl⟩ := ht.head
    rcases hcs with rfl | ⟨-, rfl⟩
    · exact ⟨rfl, behind_append _ []⟩
    · exact ⟨rfl, .inr ⟨rfl, rfl⟩⟩
  | cons c cs =>
    have hplain := hcs
    obtain rfl := hcs.cons
    by_cases hc : c = '?'
    · subst hc
      exact ⟨rfl, behind_append tail cs⟩
    · simpa [readEager, hc] using hplain

theorem Behind.dropWhile_white (ht : Closing tail) (hcs : Behind tail cs cs') :
    Behind tail (cs.dropWhile isWhite) (cs'.dropWhile isWhite) := by
  rcases hcs with rfl | ⟨rfl, rfl⟩
  · obtain ⟨more, rfl⟩ := ht.head
    left
    rw [List.dropWhile_append]
    split
    · rename_i hempty
      rw [List.isEmpty_iff.mp hempty, List.dropWhile_cons_of_neg (by decide)]
      rfl
    · rfl
  · exact .inr ⟨rfl, rfl⟩

theorem readCount_finish_behind {blanks : Bool} {digits : List Char} (ht : Closing tail)
    (hcs : Behind tail cs cs') {v : Nat}
    (h : readCount.finish blanks cs digits = (some v, rest)) :
    ∃ rest', readCount.finish blanks cs' digits = (some v, rest') ∧ Behind tail rest rest' := by
  unfold readCount.finish at h ⊢
  obtain ⟨hvalue, rfl⟩ := Prod.mk.injEq .. ▸ h
  exact ⟨_, Prod.ext hvalue rfl, (hcs.dropWhile_white ht).skip ht blanks⟩

theorem readCount_go_behind {blanks : Bool} {digits : List Char} {fuel fuel' : Nat}
    (hfuel : fuel ≤ fuel') (ht : Closing tail) (hcs : Behind tail cs cs') {v : Nat}
    (h : readCount.go blanks cs digits fuel = (some v, rest)) :
    ∃ rest', readCount.go blanks cs' digits fuel' = (some v, rest') ∧ Behind tail rest rest' := by
  induction fuel generalizing fuel' digits cs cs' with
  | zero => cases h
  | succ fuel ih =>
    obtain ⟨fuel', rfl⟩ := Nat.exists_eq_add_one.mpr (Nat.lt_of_lt_of_le (Nat.succ_pos fuel) hfuel)
    have hless := Nat.le_of_succ_le_succ hfuel
    cases cs with
    | nil =>
      have hfinish := readCount_finish_behind ht hcs h
      obtain ⟨more, rfl⟩ := ht.head
      rcases hcs with rfl | ⟨-, rfl⟩
      · exact hfinish
      · exact hfinish
    | cons c cs =>
      have hplain := hcs
      obtain rfl := hcs.cons
      unfold readCount.go at h ⊢
      dsimp only at h ⊢
      split at h
      · rename_i hdigit
        rw [if_pos hdigit]
        exact ih hless ((behind_append tail cs).skip ht blanks) h
      · rename_i hdigit
        rw [if_neg hdigit]
        exact readCount_finish_behind ht hplain h

theorem readCount_behind {blanks : Bool} (ht : Closing tail) (hcs : Behind tail cs cs') {v : Nat}
    (h : readCount blanks cs = (some v, rest)) :
    ∃ rest', readCount blanks cs' = (some v, rest') ∧ Behind tail rest rest' :=
  readCount_go_behind (Nat.succ_le_succ hcs.length_le) ht (hcs.dropWhile_white ht) h

/-- The second count of a repetition, behind the comma. -/
def readMost? (blanks : Bool) (least : Nat) (cs : List Char) :
    Option (Nat × Option Nat × List Char) :=
  match cs with
  | '\x7d' :: rest => some (least, none, rest)
  | more =>
    match readCount blanks more with
    | (some most, '\x7d' :: rest) => if least ≤ most then some (least, some most, rest) else none
    | _ => none

theorem readMost?_behind {blanks : Bool} {n least : Nat} {most : Option Nat} (ht : Closing tail)
    (hcs : Behind tail cs cs') (h : readMost? blanks n cs = some (least, most, rest)) :
    readMost? blanks n cs' = some (least, most, rest ++ tail) := by
  cases cs with
  | nil => cases h
  | cons c cs =>
    have hplain := hcs
    obtain rfl := hcs.cons
    by_cases hc : c = '\x7d'
    · subst hc
      cases h
      rfl
    · simp only [readMost?, hc, List.cons.injEq, false_and, imp_self, implies_true] at h ⊢
      cases hcount : readCount blanks (c :: cs) with
      | mk value l =>
        rw [hcount] at h
        split at h
        · rename_i v back heq
          cases heq
          obtain ⟨l', hcount', hl⟩ := readCount_behind ht hplain hcount
          obtain rfl := hl.cons
          rw [hcount']
          simp only
          split at h
          · rename_i hle
            cases h
            rw [if_pos hle]
          · cases h
        · cases h

theorem readCounts_behind {blanks : Bool} (ht : Closing tail) (hcs : Behind tail cs cs')
    {least : Nat} {most : Option Nat} (h : readCounts blanks cs = some (least, most, rest)) :
    readCounts blanks cs' = some (least, most, rest ++ tail) := by
  unfold readCounts at h ⊢
  cases hfirst : readCount blanks (skip blanks cs) with
  | mk first l =>
    cases first with
    | none =>
      rw [hfirst] at h
      cases h
    | some n =>
      obtain ⟨l', hfirst', hl⟩ := readCount_behind ht (hcs.skip ht blanks) hfirst
      rw [hfirst] at h
      rw [hfirst']
      cases l with
      | nil => cases h
      | cons c l =>
        obtain rfl := hl.cons
        by_cases hcomma : c = ','
        · subst hcomma
          exact readMost?_behind ht ((behind_append tail l).skip ht blanks) h
        · by_cases hbrace : c = '\x7d'
          · subst hbrace
            cases h
            rfl
          · simp [hcomma, hbrace] at h

/-! ### Names and settings -/

theorem local_readName (name : List Char) : Local (readName name) := by
  intro tail cs cs' ht hcs
  induction cs generalizing name cs' with
  | nil => exact agrees_none
  | cons c cs ih =>
    obtain rfl := hcs.cons
    unfold readName
    refine agrees_ite (fun _ => ?_) fun _ => ?_
    · exact agrees_ite (fun _ => agrees_none) fun _ => agrees_some _ (behind_append tail cs)
    · exact agrees_ite (fun _ => ih _ (behind_append tail cs)) fun _ => agrees_none

theorem readFlags_append {flags flags' : Flags} {seen : List Char} {changed : Bool} {close : Char}
    (h : readFlags flags seen cs = some (flags', changed, close, rest)) (tail : List Char) :
    readFlags flags seen (cs ++ tail) = some (flags', changed, close, rest ++ tail) := by
  induction cs generalizing flags seen with
  | nil => cases h
  | cons c cs ih =>
    rw [List.cons_append]
    unfold readFlags at h ⊢
    split at h
    · rename_i hclose
      rw [if_pos hclose]
      split at h
      · cases h
      · rename_i hminus
        cases h
        rw [if_neg hminus]
    · rename_i hclose
      rw [if_neg hclose]
      split at h
      · cases h
      · rename_i hseen
        rw [if_neg hseen]
        split at h
        · rename_i hminus
          rw [if_pos hminus]
          exact ih h
        · rename_i hminus
          rw [if_neg hminus]
          obtain ⟨flags₁, hset, h⟩ := Option.bind_eq_some_iff.mp h
          rw [hset]
          exact ih h

end DollarScript.Regex.Reader
