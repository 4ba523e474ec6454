import DollarScript.Json
import DollarScript.Proofs.Number.Reading

/-! A value can be told from its text, on one line or on many, unless it has numbers in it that
have no text of their own. -/
namespace DollarScript.Json

open Text

variable {c d : Char} {s t : String} {n : Nat} {rest rest' : List Char} {v w : Json}
  {items : List Json} {members : List (String × Json)}

/-! ### Strings -/

/-- Characters that do not stand for themselves. -/
def escapes : List Char := '"' :: '\\' :: (List.range 32).map Char.ofNat

theorem mem_escapes_of_lt (h : c.toNat < 32) : c ∈ escapes := by
  have hc : c ∈ (List.range 32).map Char.ofNat :=
    List.mem_map.mpr ⟨c.toNat, List.mem_range.mpr h, Char.ofNat_toNat c⟩
  exact List.mem_cons_of_mem _ (List.mem_cons_of_mem _ hc)

theorem escapedChar_of_not_mem (h : c ∉ escapes) : escapedChar c = [c] := by
  have hcontrol : ¬ c.toNat < 32 := fun hlt => h (mem_escapes_of_lt hlt)
  unfold escapedChar
  split
  all_goals first
    | exact absurd (by decide) h
    | exact if_neg hcontrol

theorem escapedChar_of_mem (h : c ∈ escapes) : ∃ d rest, escapedChar c = '\\' :: d :: rest := by
  have hall : (escapes.all fun c =>
      (escapedChar c).take 1 == ['\\'] && 2 ≤ (escapedChar c).length) = true := by decide
  have hc := List.all_eq_true.mp hall c h
  simp only [Bool.and_eq_true, beq_iff_eq, decide_eq_true_eq] at hc
  match hescape : escapedChar c with
  | [] => simp [hescape] at hc
  | [_] => simp [hescape] at hc
  | a :: d :: rest =>
    obtain rfl : a = '\\' := by simpa [hescape] using hc
    exact ⟨d, rest, rfl⟩

/-- No escape goes on where another one ends. -/
theorem eq_of_prefix_escapedChar (h : escapedChar c <+: escapedChar d) : c = d := by
  have hall : (escapes.all fun c => escapes.all fun d =>
      !(escapedChar c).isPrefixOf (escapedChar d) || c == d) = true := by decide +kernel
  by_cases hc : c ∈ escapes
  · by_cases hd : d ∈ escapes
    · have hcd := List.all_eq_true.mp (List.all_eq_true.mp hall c hc) d hd
      simpa [List.isPrefixOf_iff_prefix.mpr h] using hcd
    · obtain ⟨a, rest, ha⟩ := escapedChar_of_mem hc
      rw [ha, escapedChar_of_not_mem hd] at h
      simpa using h.length_le
  · rw [escapedChar_of_not_mem hc] at h
    by_cases hd : d ∈ escapes
    · obtain ⟨a, rest, ha⟩ := escapedChar_of_mem hd
      rw [ha] at h
      obtain ⟨rfl, -⟩ := List.cons_prefix_cons.mp h
      exact absurd (by decide) hc
    · rw [escapedChar_of_not_mem hd] at h
      exact (List.cons_prefix_cons.mp h).1

theorem escapedChar_unique (h : escapedChar c ++ rest = escapedChar d ++ rest') :
    c = d ∧ rest = rest' := by
  have hcd : c = d := by
    have hc : escapedChar c <+: escapedChar d ++ rest' := h ▸ List.prefix_append _ _
    rcases List.prefix_or_prefix_of_prefix hc (List.prefix_append _ _) with hle | hle
    · exact eq_of_prefix_escapedChar hle
    · exact (eq_of_prefix_escapedChar hle).symm
  subst hcd
  exact ⟨rfl, List.append_cancel_left h⟩

theorem escapedChar_ne_quote : escapedChar c ++ rest ≠ '"' :: rest' := by
  intro h
  by_cases hc : c ∈ escapes
  · obtain ⟨a, more, ha⟩ := escapedChar_of_mem hc
    rw [ha] at h
    cases h
  · rw [escapedChar_of_not_mem hc] at h
    cases h
    exact hc (by decide)

/-- The first quote that is not escaped ends a string. -/
theorem escaped_unique {cs ds : List Char}
    (h : cs.flatMap escapedChar ++ '"' :: rest = ds.flatMap escapedChar ++ '"' :: rest') :
    cs = ds ∧ rest = rest' :=
  flatMap_unique (fun _ _ _ _ => escapedChar_unique) (fun _ _ _ => escapedChar_ne_quote) h

theorem stringText_append (s : String) (rest : List Char) :
    (stringText s).toList ++ rest = '"' :: (s.toList.flatMap escapedChar ++ '"' :: rest) := by
  simp [stringText]

theorem string_unique (h : (stringText s).toList ++ rest = (stringText t).toList ++ rest') :
    s = t ∧ rest = rest' := by
  rw [stringText_append, stringText_append, List.cons.injEq] at h
  obtain ⟨hchars, hrest⟩ := escaped_unique h.2
  exact ⟨String.toList_inj.mp hchars, hrest⟩

/-! ### Numbers -/

/-- Every number in the value is finite. -/
inductive Finite : Json → Prop
  | null : Finite .null
  | bool (b : Bool) : Finite (.bool b)
  | natural (n : Nat) : Finite (.natural n)
  | real (negative : Bool) (rank : Fin Binary64.ranks) : Finite (.real (.finite negative rank))
  | str (s : String) : Finite (.str s)
  | arr {items : List Json} : (∀ v ∈ items, v.Finite) → Finite (.arr items)
  | obj {members : List (String × Json)} : (∀ m ∈ members, m.2.Finite) → Finite (.obj members)

@[simp] theorem finite_bool (b : Bool) : (Json.bool b).Finite := .bool b

@[simp] theorem finite_natural (n : Nat) : (Json.natural n).Finite := .natural n

@[simp] theorem finite_str (s : String) : (Json.str s).Finite := .str s

@[simp] theorem finite_arr : (Json.arr items).Finite ↔ ∀ v ∈ items, v.Finite := by
  constructor
  · intro h
    cases h with
    | arr hitems => exact hitems
  · exact .arr

@[simp] theorem finite_obj : (Json.obj members).Finite ↔ ∀ m ∈ members, m.2.Finite := by
  constructor
  · intro h
    cases h with
    | obj hmembers => exact hmembers
  · exact .obj

/-- A natural number, or a finite real one. -/
inductive IsNumber : Json → Prop
  | natural (n : Nat) : IsNumber (.natural n)
  | real (negative : Bool) (rank : Fin Binary64.ranks) : IsNumber (.real (.finite negative rank))

theorem naturalText_toList (n : Nat) : (naturalText n).toList = Nat.toDigits 10 n := by
  simp [naturalText]

theorem IsNumber.numeric (h : v.IsNumber) : Binary64.Numeric v.compact.toList := by
  cases h with
  | natural n =>
    rw [compact, naturalText_toList]
    exact (Binary64.allDigits_toDigits n).numeric
  | real negative rank => exact Binary64.numeric_text realLayout negative rank

/-- A real number always shows a point or an exponent, which no natural number does. -/
theorem text_real_ne_natural (negative : Bool) (rank : Fin Binary64.ranks) (n : Nat) :
    (Json.real (.finite negative rank)).compact.toList ≠ (Json.natural n).compact.toList := by
  intro h
  have hlayout : realLayout.fraction = true := rfl
  obtain ⟨c, hc, hmark⟩ := Binary64.mark_mem_text hlayout negative rank
  rw [compact, compact, naturalText_toList] at h
  rw [h] at hc
  have hdigit := Binary64.allDigits_toDigits n c hc
  rcases hmark with rfl | rfl
  · cases hdigit
  · cases hdigit

theorem IsNumber.eq_of_text (hv : v.IsNumber) (hw : w.IsNumber)
    (h : v.compact.toList = w.compact.toList) : v = w := by
  cases hv with
  | natural n =>
    cases hw with
    | natural m =>
      have hvalue := congrArg Binary64.digitsValue h
      rw [compact, compact, naturalText_toList, naturalText_toList, Binary64.digitsValue_toDigits,
        Binary64.digitsValue_toDigits] at hvalue
      rw [hvalue]
    | real negative rank => exact absurd h.symm (text_real_ne_natural negative rank n)
  | real negative rank =>
    cases hw with
    | natural m => exact absurd h (text_real_ne_natural negative rank m)
    | real negative' rank' =>
      have hread := Binary64.read?_text realLayout negative rank
      rw [show Binary64.text realLayout (.finite negative rank) =
        Binary64.text realLayout (.finite negative' rank') from String.toList_inj.mp h,
        Binary64.read?_text] at hread
      rw [Option.some.inj hread]

/-! ### Both forms of a text at once -/

/-- What is put between the parts of a text, so that it is easier to read. -/
structure Spacing where
  /-- Before each item at a depth. -/
  gap : Nat → List Char
  /-- Behind a colon. -/
  colon : List Char
  blank : ∀ depth, ∀ c ∈ gap depth, c = '\n' ∨ c = ' '

namespace Spacing

def oneLine : Spacing where
  gap := fun _ => []
  colon := []
  blank := by simp

def lines : Spacing where
  gap := fun depth => '\n' :: List.replicate (2 * depth) ' '
  colon := [' ']
  blank := by
    intro depth c hc
    rcases List.mem_cons.mp hc with rfl | hc
    · exact .inl rfl
    · exact .inr (List.eq_of_mem_replicate hc)

variable (σ : Spacing)

/-- Each text with a comma in front. -/
def further (depth : Nat) (texts : List (List Char)) : List Char :=
  texts.flatMap fun text => ',' :: (σ.gap depth ++ text)

def joined (depth : Nat) : List (List Char) → List Char
  | [] => []
  | text :: texts => text ++ σ.further depth texts

@[simp] theorem joined_single (depth : Nat) (text : List Char) :
    σ.joined depth [text] = text := by
  simp [joined, further]

@[simp] theorem joined_cons (depth : Nat) (text text' : List Char) (texts : List (List Char)) :
    σ.joined depth (text :: text' :: texts) =
      text ++ ',' :: (σ.gap depth ++ σ.joined depth (text' :: texts)) := by
  simp [joined, further]

@[simp] theorem oneLine_gap (depth : Nat) : oneLine.gap depth = [] := rfl

@[simp] theorem oneLine_colon : oneLine.colon = [] := rfl

@[simp] theorem lines_colon : lines.colon = [' '] := rfl

def enclosed (depth : Nat) (opening closing : Char) : List (List Char) → List Char
  | [] => [opening, closing]
  | text :: texts =>
    opening :: (σ.gap (depth + 1) ++ (σ.joined (depth + 1) (text :: texts) ++
      (σ.gap depth ++ [closing])))

end Spacing

mutual

def written (σ : Spacing) (depth : Nat) : Json → List Char
  | .null => "null".toList
  | .bool b => (if b then "true" else "false").toList
  | .natural n => (naturalText n).toList
  | .real x => (x.text realLayout).toList
  | .str s => (stringText s).toList
  | .arr items => σ.enclosed depth '[' ']' (writtenItems σ (depth + 1) items)
  | .obj members => σ.enclosed depth '\x7b' '\x7d' (writtenMembers σ (depth + 1) members)

def writtenItems (σ : Spacing) (depth : Nat) : List Json → List (List Char)
  | [] => []
  | v :: rest => v.written σ depth :: writtenItems σ depth rest

def writtenMembers (σ : Spacing) (depth : Nat) : List (String × Json) → List (List Char)
  | [] => []
  | (k, v) :: rest =>
    ((stringText k).toList ++ ':' :: (σ.colon ++ v.written σ depth)) ::
      writtenMembers σ depth rest

end

mutual

theorem compact_toList (v : Json) (depth : Nat) :
    v.compact.toList = v.written .oneLine depth := by
  cases v with
  | null | bool | natural | real | str => simp [compact, written]
  | arr items =>
    have hitems := compactItems_toList items (depth + 1)
    cases items with
    | nil => simp [compact, compactItems, written, writtenItems, Spacing.enclosed]
    | cons v rest => simp_all [compact, written, writtenItems, Spacing.enclosed]
  | obj members =>
    have hmembers := compactMembers_toList members (depth + 1)
    cases members with
    | nil => simp [compact, compactMembers, written, writtenMembers, Spacing.enclosed]
    | cons m rest => simp_all [compact, written, writtenMembers, Spacing.enclosed]

theorem compactItems_toList (items : List Json) (depth : Nat) :
    (compactItems items).toList =
      Spacing.joined .oneLine depth (writtenItems .oneLine depth items) := by
  match items with
  | [] => rfl
  | [v] => simp [compactItems, writtenItems, compact_toList v depth]
  | v :: w :: rest =>
    have hrest := compactItems_toList (w :: rest) depth
    simp [compactItems, writtenItems, compact_toList v depth, hrest]

theorem compactMembers_toList (members : List (String × Json)) (depth : Nat) :
    (compactMembers members).toList =
      Spacing.joined .oneLine depth (writtenMembers .oneLine depth members) := by
  match members with
  | [] => rfl
  | [(k, v)] => simp [compactMembers, writtenMembers, compact_toList v depth]
  | (k, v) :: m :: rest =>
    have hrest := compactMembers_toList (m :: rest) depth
    simp [compactMembers, writtenMembers, compact_toList v depth, hrest]

end

theorem newline_toList (depth : Nat) : (newline depth).toList = Spacing.lines.gap depth := by
  simp [newline, Spacing.lines]

mutual

theorem pretty_toList (v : Json) (depth : Nat) :
    (v.pretty depth).toList = v.written .lines depth := by
  cases v with
  | null | bool | natural | real | str => simp [pretty, written]
  | arr items =>
    have hitems := prettyItems_toList items (depth + 1)
    cases items with
    | nil => simp [pretty, written, writtenItems, Spacing.enclosed]
    | cons v rest => simp_all [pretty, newline_toList, written, writtenItems, Spacing.enclosed]
  | obj members =>
    have hmembers := prettyMembers_toList members (depth + 1)
    cases members with
    | nil => simp [pretty, written, writtenMembers, Spacing.enclosed]
    | cons m rest => simp_all [pretty, newline_toList, written, writtenMembers, Spacing.enclosed]

theorem prettyItems_toList (items : List Json) (depth : Nat) :
    (prettyItems depth items).toList =
      Spacing.joined .lines depth (writtenItems .lines depth items) := by
  match items with
  | [] => rfl
  | [v] => simp [prettyItems, writtenItems, pretty_toList v depth]
  | v :: w :: rest =>
    have hrest := prettyItems_toList (w :: rest) depth
    simp [prettyItems, writtenItems, newline_toList, pretty_toList v depth, hrest]

theorem prettyMembers_toList (members : List (String × Json)) (depth : Nat) :
    (prettyMembers depth members).toList =
      Spacing.joined .lines depth (writtenMembers .lines depth members) := by
  match members with
  | [] => rfl
  | [(k, v)] => simp [prettyMembers, writtenMembers, pretty_toList v depth]
  | (k, v) :: m :: rest =>
    have hrest := prettyMembers_toList (m :: rest) depth
    simp [prettyMembers, writtenMembers, newline_toList, pretty_toList v depth, hrest]

end

/-! ### What can be told from it -/

section Enclosed

variable {α : Type} {σ : Spacing} {write : α → List Char} {xs ys : List α} {closing : Char}
  {depth : Nat}

/-- Values of the one list can be told from values of the other by their texts. -/
def Told (write : α → List Char) (xs ys : List α) : Prop :=
  ∀ x ∈ xs, ∀ y ∈ ys, ∀ rest rest', Stops Binary64.isNumeric rest →
    Stops Binary64.isNumeric rest' → write x ++ rest = write y ++ rest' → x = y ∧ rest = rest'

/-- The end of a list. -/
def isClosing (c : Char) : Bool := c == ']' || c == '\x7d'

/-- No text of these values looks like the end of a list. -/
def Opens (write : α → List Char) (xs : List α) : Prop :=
  ∀ x ∈ xs, ∃ c rest, write x = c :: rest ∧ isClosing c = false

theorem ne_of_isClosing (h : isClosing closing = true) :
    closing ≠ ',' ∧ closing ≠ '\n' ∧ closing ≠ ' ' ∧ Binary64.isNumeric closing = false := by
  simp only [isClosing, Bool.or_eq_true, beq_iff_eq] at h
  rcases h with rfl | rfl <;> decide

/-- A gap is blank, or there is none. -/
theorem Spacing.gap_cases (σ : Spacing) (depth : Nat) (rest : List Char) :
    σ.gap depth ++ rest = rest ∨
      ∃ c more, σ.gap depth ++ rest = c :: more ∧ (c = '\n' ∨ c = ' ') := by
  cases hgap : σ.gap depth with
  | nil => exact .inl rfl
  | cons c more => exact .inr ⟨c, more ++ rest, rfl, σ.blank depth c (hgap ▸ List.mem_cons_self)⟩

theorem gap_closing_ne_comma (h : isClosing closing = true) (depth : Nat) :
    σ.gap depth ++ closing :: rest ≠ ',' :: rest' := by
  intro heq
  rcases σ.gap_cases depth (closing :: rest) with hgap | ⟨c, more, hgap, hc⟩
  · rw [hgap, List.cons.injEq] at heq
    exact (ne_of_isClosing h).1 heq.1
  · rw [hgap, List.cons.injEq] at heq
    rw [heq.1] at hc
    simp at hc

theorem stops_gap_closing (h : isClosing closing = true) (depth : Nat) :
    Stops Binary64.isNumeric (σ.gap depth ++ closing :: rest) := by
  rcases σ.gap_cases depth (closing :: rest) with hgap | ⟨c, more, hgap, hc⟩
  · rw [hgap, stops_cons]
    exact (ne_of_isClosing h).2.2.2
  · rw [hgap, stops_cons]
    rcases hc with rfl | rfl <;> rfl

theorem stops_further (h : Stops Binary64.isNumeric rest) (depth : Nat)
    (texts : List (List Char)) : Stops Binary64.isNumeric (σ.further depth texts ++ rest) := by
  cases texts with
  | nil => exact h
  | cons text texts => exact stops_cons.mpr rfl

theorem further_unique (hclosing : isClosing closing = true) (depth outer : Nat)
    (htold : Told write xs ys)
    (heq : σ.further depth (xs.map write) ++ (σ.gap outer ++ closing :: rest) =
      σ.further depth (ys.map write) ++ (σ.gap outer ++ closing :: rest')) :
    xs = ys ∧ rest = rest' := by
  induction xs generalizing ys with
  | nil =>
    cases ys with
    | nil =>
      have hrest := List.append_cancel_left (List.append_cancel_left heq)
      exact ⟨rfl, (List.cons.inj hrest).2⟩
    | cons y ys => exact absurd heq (gap_closing_ne_comma hclosing outer)
  | cons x xs ih =>
    cases ys with
    | nil => exact absurd heq.symm (gap_closing_ne_comma hclosing outer)
    | cons y ys =>
      simp only [Spacing.further, List.map_cons, List.flatMap_cons, List.cons_append,
        List.append_assoc, List.cons.injEq, List.append_cancel_left_eq, true_and] at heq
      obtain ⟨rfl, hmore⟩ := htold x List.mem_cons_self y List.mem_cons_self _ _
        (stops_further (stops_gap_closing hclosing outer) depth (xs.map write))
        (stops_further (stops_gap_closing hclosing outer) depth (ys.map write)) heq
      obtain ⟨rfl, hrest⟩ := ih (fun x hx y hy => htold x (List.mem_cons_of_mem _ hx) y
        (List.mem_cons_of_mem _ hy)) hmore
      exact ⟨rfl, hrest⟩

theorem closing_ne_opens (hclosing : isClosing closing = true) {x : α} (depth : Nat)
    (hopens : Opens write (x :: xs)) :
    closing :: rest ≠ σ.gap depth ++ (write x ++ rest') := by
  intro heq
  obtain ⟨c, more, hc, hopen⟩ := hopens x List.mem_cons_self
  rcases σ.gap_cases depth (write x ++ rest') with hgap | ⟨d, more', hgap, hd⟩
  · rw [hgap, hc, List.cons_append, List.cons.injEq] at heq
    rw [heq.1, hopen] at hclosing
    cases hclosing
  · rw [hgap, List.cons.injEq] at heq
    rw [heq.1] at hclosing
    rcases hd with rfl | rfl <;> cases hclosing

/-- Values in brackets can be told from each other if each of them can. -/
theorem enclosed_unique (hclosing : isClosing closing = true) (depth : Nat) (opening : Char)
    (htold : Told write xs ys) (hxs : Opens write xs) (hys : Opens write ys)
    (heq : σ.enclosed depth opening closing (xs.map write) ++ rest =
      σ.enclosed depth opening closing (ys.map write) ++ rest') : xs = ys ∧ rest = rest' := by
  cases xs with
  | nil =>
    cases ys with
    | nil => exact ⟨rfl, by simpa [Spacing.enclosed] using heq⟩
    | cons y ys =>
      simp only [Spacing.enclosed, Spacing.joined, List.map_nil, List.map_cons, List.cons_append,
        List.append_assoc, List.nil_append, List.cons.injEq, true_and] at heq
      exact absurd heq (closing_ne_opens hclosing (depth + 1) hys)
  | cons x xs =>
    cases ys with
    | nil =>
      simp only [Spacing.enclosed, Spacing.joined, List.map_nil, List.map_cons, List.cons_append,
        List.append_assoc, List.nil_append, List.cons.injEq, true_and] at heq
      exact absurd heq.symm (closing_ne_opens hclosing (depth + 1) hxs)
    | cons y ys =>
      -- Behind the bracket stands what would stand behind a comma.
      have hfurther : σ.further (depth + 1) ((x :: xs).map write) ++
          (σ.gap depth ++ closing :: rest) =
          σ.further (depth + 1) ((y :: ys).map write) ++ (σ.gap depth ++ closing :: rest') := by
        simpa [Spacing.enclosed, Spacing.joined, Spacing.further] using heq
      exact further_unique hclosing (depth + 1) depth htold hfurther

end Enclosed

/-- The character that a value starts with; all numbers start alike, and both truth values. -/
def mark : Json → Char
  | .null => 'n'
  | .bool _ => 't'
  | .natural _ | .real _ => '0'
  | .str _ => '"'
  | .arr _ => '['
  | .obj _ => '\x7b'

def markOf (c : Char) : Char :=
  if Binary64.isNumeric c then '0' else if c = 'f' then 't' else c

/-- A member, with its key in front. -/
def writtenMember (σ : Spacing) (depth : Nat) (m : String × Json) : List Char :=
  (stringText m.1).toList ++ ':' :: (σ.colon ++ m.2.written σ depth)

variable {σ : Spacing} {depth : Nat}

theorem markOf_digit (h : c.isDigit = true) : markOf c = '0' := by
  simp [markOf, Binary64.isNumeric, h]

theorem enclosed_head (σ : Spacing) (depth : Nat) (opening closing : Char)
    (texts : List (List Char)) :
    ∃ rest, σ.enclosed depth opening closing texts = opening :: rest := by
  cases texts with
  | nil => exact ⟨_, rfl⟩
  | cons text texts => exact ⟨_, rfl⟩

theorem Finite.written_head (h : v.Finite) (σ : Spacing) (depth : Nat) :
    ∃ c rest, v.written σ depth = c :: rest ∧ markOf c = v.mark := by
  cases h with
  | null => exact ⟨'n', _, rfl, rfl⟩
  | bool b => cases b <;> exact ⟨_, _, rfl, rfl⟩
  | natural n =>
    have hne : Nat.toDigits 10 n ≠ [] := Nat.toDigits_ne_nil
    obtain ⟨c, rest, hcs⟩ := List.exists_cons_of_ne_nil hne
    have hc : c.isDigit = true := Binary64.allDigits_toDigits n c (hcs ▸ List.mem_cons_self)
    refine ⟨c, rest, ?_, markOf_digit hc⟩
    rw [written, naturalText_toList, hcs]
  | real negative rank =>
    obtain ⟨c, rest, hc, -, htext⟩ := Binary64.text_finite realLayout negative rank
    cases negative with
    | true => exact ⟨'-', c :: rest, by rw [written, htext]; rfl, rfl⟩
    | false => exact ⟨c, rest, by rw [written, htext]; rfl, markOf_digit hc⟩
  | str s =>
    have htext := stringText_append s []
    rw [List.append_nil] at htext
    exact ⟨'"', _, htext, rfl⟩
  | arr _ =>
    obtain ⟨rest, hrest⟩ := enclosed_head σ depth '[' ']' (writtenItems σ (depth + 1) _)
    exact ⟨_, _, hrest, rfl⟩
  | obj _ =>
    obtain ⟨rest, hrest⟩ := enclosed_head σ depth '\x7b' '\x7d' (writtenMembers σ (depth + 1) _)
    exact ⟨_, _, hrest, rfl⟩

theorem Finite.mark_eq (hv : v.Finite) (hw : w.Finite)
    (heq : v.written σ depth ++ rest = w.written σ depth ++ rest') : v.mark = w.mark := by
  obtain ⟨c, more, hc, hmark⟩ := hv.written_head σ depth
  obtain ⟨d, more', hd, hmark'⟩ := hw.written_head σ depth
  rw [hc, hd, List.cons_append, List.cons_append, List.cons.injEq] at heq
  rw [← hmark, ← hmark', heq.1]

theorem Finite.isNumber (h : v.Finite) (hmark : v.mark = '0') : v.IsNumber := by
  cases h with
  | natural n => exact .natural n
  | real negative rank => exact .real negative rank
  | _ => cases hmark

theorem IsNumber.written_eq (h : v.IsNumber) (σ : Spacing) (depth : Nat) :
    v.written σ depth = v.compact.toList := by
  cases h with
  | natural n => rw [written, compact]
  | real negative rank => rw [written, compact]

theorem IsNumber.unique (hv : v.IsNumber) (hw : w.IsNumber)
    (hrest : Stops Binary64.isNumeric rest) (hrest' : Stops Binary64.isNumeric rest')
    (heq : v.written σ depth ++ rest = w.written σ depth ++ rest') : v = w ∧ rest = rest' := by
  rw [hv.written_eq, hw.written_eq] at heq
  obtain ⟨htext, hmore⟩ := run_unique hv.numeric hrest hw.numeric hrest' heq
  exact ⟨hv.eq_of_text hw htext, hmore⟩

theorem opens_written {items : List Json} (h : ∀ v ∈ items, v.Finite) :
    Opens (written σ depth) items := by
  intro v hv
  obtain ⟨c, rest, hc, hmark⟩ := (h v hv).written_head σ depth
  refine ⟨c, rest, hc, ?_⟩
  by_contra hclosing
  rw [Bool.not_eq_false] at hclosing
  simp only [isClosing, Bool.or_eq_true, beq_iff_eq] at hclosing
  rcases hclosing with rfl | rfl <;> cases v <;> cases hmark

theorem opens_writtenMember (members : List (String × Json)) :
    Opens (writtenMember σ depth) members := by
  intro m _
  exact ⟨'"', _, stringText_append m.1 _, rfl⟩

theorem writtenItems_eq (σ : Spacing) (depth : Nat) (items : List Json) :
    writtenItems σ depth items = items.map (written σ depth) := by
  induction items with
  | nil => rfl
  | cons v rest ih => rw [writtenItems, ih, List.map_cons]

theorem writtenMembers_eq (σ : Spacing) (depth : Nat) (members : List (String × Json)) :
    writtenMembers σ depth members = members.map (writtenMember σ depth) := by
  induction members with
  | nil => rfl
  | cons m rest ih => rw [writtenMembers, ih, List.map_cons, writtenMember]

/-- A value at the front of a text can be told from what stands behind it. -/
theorem Finite.unique (hv : v.Finite) (hw : w.Finite) (σ : Spacing) (depth : Nat)
    (hrest : Stops Binary64.isNumeric rest) (hrest' : Stops Binary64.isNumeric rest')
    (heq : v.written σ depth ++ rest = w.written σ depth ++ rest') : v = w ∧ rest = rest' := by
  induction hv generalizing w depth rest rest' with
  | null =>
    have hmark := Finite.null.mark_eq hw heq
    cases hw with
    | null => exact ⟨rfl, List.append_cancel_left heq⟩
    | _ => cases hmark
  | bool b =>
    have hmark := (Finite.bool b).mark_eq hw heq
    cases hw with
    | bool b' => cases b <;> cases b' <;> simp_all [written]
    | _ => cases hmark
  | natural n =>
    have hnumber := hw.isNumber ((Finite.natural n).mark_eq hw heq).symm
    exact (IsNumber.natural n).unique hnumber hrest hrest' heq
  | real negative rank =>
    have hnumber := hw.isNumber ((Finite.real negative rank).mark_eq hw heq).symm
    exact (IsNumber.real negative rank).unique hnumber hrest hrest' heq
  | str s =>
    have hmark := (Finite.str s).mark_eq hw heq
    cases hw with
    | str t =>
      obtain ⟨rfl, hmore⟩ := string_unique heq
      exact ⟨rfl, hmore⟩
    | _ => cases hmark
  | @arr items hitems ih =>
    have hmark := (Finite.arr hitems).mark_eq hw heq
    cases hw with
    | @arr items' hitems' =>
      simp only [written, writtenItems_eq] at heq
      have htold : Told (written σ (depth + 1)) items items' :=
        fun v hv w hw rest rest' hrest hrest' heq =>
          ih v hv (hitems' w hw) (depth + 1) hrest hrest' heq
      obtain ⟨rfl, hmore⟩ := enclosed_unique rfl depth '[' htold (opens_written hitems)
        (opens_written hitems') heq
      exact ⟨rfl, hmore⟩
    | _ => cases hmark
  | @obj members hmembers ih =>
    have hmark := (Finite.obj hmembers).mark_eq hw heq
    cases hw with
    | @obj members' hmembers' =>
      simp only [written, writtenMembers_eq] at heq
      have htold : Told (writtenMember σ (depth + 1)) members members' := by
        intro m hm m' hm' rest rest' hrest hrest' heq
        simp only [writtenMember, List.append_assoc, List.cons_append] at heq
        obtain ⟨hkey, hvalue⟩ := string_unique heq
        simp only [List.cons.injEq, List.append_cancel_left_eq, true_and] at hvalue
        obtain ⟨hsame, hmore⟩ := ih m hm (hmembers' m' hm') (depth + 1) hrest hrest' hvalue
        exact ⟨Prod.ext hkey hsame, hmore⟩
      obtain ⟨rfl, hmore⟩ := enclosed_unique rfl depth '\x7b' htold (opens_writtenMember _)
        (opens_writtenMember _) heq
      exact ⟨rfl, hmore⟩
    | _ => cases hmark

theorem Finite.eq_of_written (hv : v.Finite) (hw : w.Finite) (σ : Spacing) (depth : Nat)
    (h : v.written σ depth = w.written σ depth) : v = w := by
  have heq : v.written σ depth ++ [] = w.written σ depth ++ [] := by rw [h]
  exact (hv.unique hw σ depth stops_nil stops_nil heq).1

theorem Finite.eq_of_compact (hv : v.Finite) (hw : w.Finite) (h : v.compact = w.compact) :
    v = w := by
  refine hv.eq_of_written hw .oneLine 0 ?_
  rw [← compact_toList, h, compact_toList]

theorem Finite.eq_of_pretty (hv : v.Finite) (hw : w.Finite) (depth : Nat)
    (h : v.pretty depth = w.pretty depth) : v = w := by
  refine hv.eq_of_written hw .lines depth ?_
  rw [← pretty_toList, h, pretty_toList]

end DollarScript.Json
