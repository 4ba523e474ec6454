import DollarScript.Proofs.Regex.Shapes
import DollarScript.Proofs.Scanner.FirstMatch

/-! What the built-in kinds take from the front of a text: their patterns as plain rules. -/
namespace DollarScript.Scanner

open Text Regex

/-- Characters at the front of a text, and what the groups of a pattern took of them. -/
structure Taken where
  chars : List Char
  captures : List (Option String)
  deriving DecidableEq, Repr

abbrev Rule := List Char → Option Taken

/-- The pattern takes what the rule says. -/
def Rule.Describes (rule : Rule) (p : Pattern) : Prop :=
  ∀ text, p.matchFront text = (rule text).map fun taken => ⟨byteLength taken.chars, taken.captures⟩

/-- What a rule takes is there to be taken, and it is not nothing. -/
def Rule.Cuts (rule : Rule) : Prop :=
  ∀ text taken, rule text = some taken → taken.chars ≠ [] ∧ taken.chars <+: text

/-- What the groups of a pattern took, from their slots. -/
def capturesOf (text : List Char) (slots : Slots) : List (Option String) :=
  (pairs slots).map fun g => g.map fun (start, stop) => String.ofList (between text start stop)

/-- The outcome of the tree on a text is that of the rule. -/
def Rule.Fits (rule : Rule) (body : Tree) (text : List Char) : Prop :=
  (rule text = none ∧ body.front? text = none) ∨
    ∃ taken slots, rule text = some taken ∧
      body.front? text = some (some 0 :: some taken.chars.length :: slots) ∧
      taken.captures = capturesOf text slots

variable {source : String} {text : List Char} {rule : Rule} {body : Tree}

theorem Rule.describes_ofTree (hs : body.steady = true) (hcuts : rule.Cuts)
    (h : ∀ text, rule.Fits body text) : rule.Describes (.ofTree source body) := by
  intro text
  rcases h text with ⟨hrule, hbody⟩ | ⟨taken, slots, hrule, hbody, hcaptures⟩
  · rw [hrule, Pattern.matchFront_of_none hs hbody]
    rfl
  · have htake : text.take taken.chars.length = taken.chars :=
      (List.prefix_iff_eq_take.mp (hcuts text taken hrule).2).symm
    rw [hrule, Pattern.matchFront_of_some hs hbody, htake, Option.map_some, hcaptures]
    rfl

/-! ### Words -/

/-- A fixed text. -/
def takeWord (w : String) : Rule := fun text =>
  if w.toList.isPrefixOf text then some ⟨w.toList, []⟩ else none

theorem steady_word (w : List Char) : (Tree.word w).steady = true := by
  have hall : ∀ cs : List Char,
      Tree.allSteady (cs.map fun c => Tree.set (.single c)) = true := by
    intro cs
    induction cs with
    | nil => simp [Tree.allSteady]
    | cons c cs ih => simp [Tree.allSteady, Tree.steady, ih]
  unfold Tree.word
  split
  · simp [Tree.steady]
  · simp [Tree.steady, hall]

theorem groups_word (w : List Char) : (Tree.word w).groups = 0 := by
  have hall : ∀ cs : List Char, Tree.allGroups (cs.map fun c => Tree.set (.single c)) = 0 := by
    intro cs
    induction cs with
    | nil => simp [Tree.allGroups]
    | cons c cs ih => simp [Tree.allGroups, Tree.groups, ih]
  unfold Tree.word
  split
  · simp [Tree.groups]
  · simp [Tree.groups, hall]

theorem cuts_word {w : String} (hw : w ≠ "") : (takeWord w).Cuts := by
  intro text taken h
  unfold takeWord at h
  split at h
  · rename_i hstarts
    cases h
    exact ⟨by simpa using hw, List.isPrefixOf_iff_prefix.mp hstarts⟩
  · cases h

theorem describes_word {w : String} (hw : w ≠ "") :
    (takeWord w).Describes (.ofTree source (.word w.toList)) := by
  refine Rule.describes_ofTree (steady_word _) (cuts_word hw) fun text => ?_
  rw [Rule.Fits, Tree.front?, Tree.first?_word, groups_word, takeWord]
  by_cases h : w.toList.isPrefixOf text
  · refine .inr ⟨⟨w.toList, []⟩, [], if_pos h, ?_, rfl⟩
    rw [Spot.origin, if_pos h]
    simp [Spot.past]
  · refine .inl ⟨if_neg h, ?_⟩
    rw [Spot.origin, if_neg h]

/-! ### Strings -/

/-- The characters of a string up to the quote that closes it, which is included. A backslash takes
the next character along, unless that is the end of a line. -/
def stringBody? : List Char → Option (List Char)
  | [] => none
  | c :: rest =>
    if c = '"' then some ['"']
    else if c = '\\' then
      match rest with
      | [] => none
      | d :: rest => if d = '\n' then none else (stringBody? rest).map (c :: d :: ·)
    else (stringBody? rest).map (c :: ·)

/-- A string between double quotes. -/
def takeString : Rule
  | '"' :: rest => (stringBody? rest).map fun body => ⟨'"' :: body, []⟩
  | _ => none

/-- One character of a string, with the backslash in front of it if there is one. -/
def stringRound : Tree :=
  .alternate [.concat [.set (.single '\\'), .set (.complement (.single '\n'))],
    .set (.complement (.union (.single '"') (.single '\\')))]

def stringTree : Tree :=
  .concat [.set (.single '"'), .repetition stringRound 0 none true, .set (.single '"')]

theorem first?_stringRound_nil (k : Continuation) (slots : Slots) (index : Nat)
    (before : Option Char) : stringRound.first? k ⟨index, before, []⟩ slots = none := by
  simp [stringRound]

theorem first?_stringRound_cons (k : Continuation) (slots : Slots) (index : Nat)
    (before : Option Char) (c : Char) (rest : List Char) :
    stringRound.first? k ⟨index, before, c :: rest⟩ slots =
      if c = '"' then none
      else if c = '\\' then
        match rest with
        | [] => none
        | d :: rest => if d = '\n' then none else k ⟨index + 1 + 1, some d, rest⟩ slots
      else k ⟨index + 1, some c, rest⟩ slots := by
  by_cases hquote : c = '"'
  · simp [stringRound, CharSet.contains, hquote]
  · by_cases hslash : c = '\\'
    · cases rest <;> simp [stringRound, CharSet.contains, hslash]
    · simp [stringRound, CharSet.contains, hquote, hslash]

/-- At no place in a string is there more than one way to go on. -/
theorem rounds_string (k : Continuation) (slots : Slots) (index : Nat) (before : Option Char)
    (rest : List Char) :
    rounds stringRound.first? true ((Tree.set (.single '"')).first? k) ⟨index, before, rest⟩ slots =
      (stringBody? rest).bind fun body => k (Spot.past ⟨index, before, rest⟩ body) slots := by
  fun_induction stringBody? rest generalizing index before with
  | case1 =>
    rw [rounds]
    simp [prefer, first?_stringRound_nil]
  | case2 rest =>
    rw [rounds]
    simp [prefer, first?_stringRound_cons]
  | case3 =>
    rw [rounds]
    simp [prefer, first?_stringRound_cons]
  | case4 =>
    rw [rounds]
    simp [prefer, first?_stringRound_cons]
  | case5 d rest hline hquote ih =>
    have hshorter : rest.length < rest.length + 1 + 1 := by omega
    rw [rounds]
    simp only [prefer, if_true, List.length_cons, dite_eq_ite, first?_stringRound_cons,
      Char.reduceEq, if_false, hline, hshorter, ih, Tree.first?_set_cons, CharSet.contains_single,
      Char.reduceBEq, Bool.false_eq_true, Option.or_none, Option.bind_map, Function.comp_apply,
      Spot.past_cons]
  | case6 c rest hquote hslash ih =>
    rw [rounds]
    simp [prefer, first?_stringRound_cons, hquote, hslash, ih, Option.bind_map]

theorem stringBody?_front {rest body : List Char} (h : stringBody? rest = some body) :
    body <+: rest := by
  fun_induction stringBody? rest generalizing body with
  | case1 => cases h
  | case2 rest =>
    cases h
    exact ⟨rest, rfl⟩
  | case3 => cases h
  | case4 => cases h
  | case5 d rest hline hquote ih =>
    obtain ⟨inner, hinner, rfl⟩ := Option.map_eq_some_iff.mp h
    exact List.cons_prefix_cons.mpr ⟨rfl, List.cons_prefix_cons.mpr ⟨rfl, ih hinner⟩⟩
  | case6 c rest hquote hslash ih =>
    obtain ⟨inner, hinner, rfl⟩ := Option.map_eq_some_iff.mp h
    exact List.cons_prefix_cons.mpr ⟨rfl, ih hinner⟩

theorem cuts_string : takeString.Cuts := by
  intro text taken h
  unfold takeString at h
  split at h
  · obtain ⟨body, hbody, rfl⟩ := Option.map_eq_some_iff.mp h
    exact ⟨by simp, List.cons_prefix_cons.mpr ⟨rfl, stringBody?_front hbody⟩⟩
  · cases h

theorem describes_string : takeString.Describes (.ofTree source stringTree) := by
  refine Rule.describes_ofTree (by decide) cuts_string fun text => ?_
  have hgroups : stringTree.groups = 0 := by decide
  rw [Rule.Fits, Tree.front?, hgroups]
  cases text with
  | nil => exact .inl ⟨rfl, by simp [stringTree, Spot.origin]⟩
  | cons c rest =>
    by_cases hc : c = '"'
    · subst hc
      cases hbody : stringBody? rest with
      | none =>
        refine .inl ⟨by simp [takeString, hbody], ?_⟩
        simp [stringTree, Spot.origin, Tree.first?_repetition_none, times, rounds_string, hbody]
      | some body =>
        refine .inr ⟨⟨'"' :: body, []⟩, [], by simp [takeString, hbody], ?_, rfl⟩
        simp [stringTree, Spot.origin, Tree.first?_repetition_none, times, rounds_string, hbody,
          Spot.past, Nat.add_comm]
    · exact .inl ⟨by simp [takeString, hc], by simp [stringTree, Spot.origin, hc]⟩

/-! ### Variables -/

def isNameChar (c : Char) : Bool := c.isAlphanum || c == '_' || c == '-'

/-- A dollar sign and a name. -/
def takeVariable : Rule
  | '$' :: rest =>
    let name := rest.takeWhile isNameChar
    if name.isEmpty then none else some ⟨'$' :: name, []⟩
  | _ => none

def nameSet : CharSet :=
  .ofList [.range 'a' 'z', .range 'A' 'Z', .range '0' '9', .single '_', .single '-']

def variableTree : Tree := .concat [.set (.single '$'), .repetition (.set nameSet) 1 none true]

theorem contains_nameSet : nameSet.contains = isNameChar := by
  funext c
  have hlower : (decide ('a' ≤ c) && decide (c ≤ 'z')) = c.isLower := rfl
  have hupper : (decide ('A' ≤ c) && decide (c ≤ 'Z')) = c.isUpper := (Bool.decide_and _ _).symm
  have hdigit : (decide ('0' ≤ c) && decide (c ≤ '9')) = c.isDigit := rfl
  have halphanum : c.isAlphanum = (c.isUpper || c.isLower || c.isDigit) := rfl
  simp only [nameSet, CharSet.ofList, CharSet.contains, CharSet.contains_single, hlower, hupper,
    hdigit, isNameChar, halphanum]
  grind

theorem cuts_variable : takeVariable.Cuts := by
  intro text taken h
  unfold takeVariable at h
  split at h
  · dsimp only at h
    split at h
    · cases h
    · cases h
      exact ⟨by simp, List.cons_prefix_cons.mpr ⟨rfl, List.takeWhile_prefix _⟩⟩
  · cases h

theorem describes_variable : takeVariable.Describes (.ofTree source variableTree) := by
  refine Rule.describes_ofTree (by decide) cuts_variable fun text => ?_
  have hgroups : variableTree.groups = 0 := by decide
  rw [Rule.Fits, Tree.front?, hgroups]
  cases text with
  | nil => exact .inl ⟨rfl, by simp [variableTree, Spot.origin]⟩
  | cons c rest =>
    by_cases hc : c = '$'
    · subst hc
      have hstop := (eager_some fun stop slots => slots.set 1 (some stop.index)).exhausts nameSet
      by_cases hname : (rest.takeWhile isNameChar).isEmpty
      · refine .inl ⟨by simp [takeVariable, hname], ?_⟩
        simp [variableTree, Spot.origin, Tree.first?_run _ hstop, contains_nameSet, hname]
      · refine .inr ⟨⟨'$' :: rest.takeWhile isNameChar, []⟩, [],
          by simp [takeVariable, hname], ?_, rfl⟩
        simp [variableTree, Spot.origin, Tree.first?_run _ hstop, contains_nameSet, hname, Spot.past,
          Nat.add_comm]
    · exact .inl ⟨by simp [takeVariable, hc], by simp [variableTree, Spot.origin, hc]⟩

/-! ### Keywords -/

/-- One of the words with a colon behind it. -/
def takeOpening (words : List String) : Rule := fun text =>
  (words.find? fun w => (w.toList ++ [':']).isPrefixOf text).map fun w =>
    ⟨w.toList ++ [':'], [some w]⟩

/-- One of the words, unless a longer word starts with it. -/
def takeKeyword (words : List String) : Rule := fun text =>
  (words.find? fun w =>
    w.toList.isPrefixOf text && !(text.drop w.toList.length).head?.any isWord).map fun w =>
      ⟨w.toList, [some w]⟩

def keywordTree (words : List String) (behind : List Tree) : Tree :=
  .concat (.look .wordBoundary :: .group 1 (.oneOf words) :: .look .wordBoundary :: behind)

/-- Words that start and end with a letter or the like. -/
def Lettered (words : List String) : Prop :=
  ∀ w ∈ words, w.toList.head?.any isWord = true ∧ w.toList.getLast?.any isWord = true

instance (words : List String) : Decidable (Lettered words) :=
  inferInstanceAs (Decidable (∀ _ ∈ words, _))

theorem findSome?_congr {α β : Type} {f g : α → Option β} {l : List α}
    (h : ∀ a ∈ l, f a = g a) : l.findSome? f = l.findSome? g := by
  induction l with
  | nil => rfl
  | cons a l ih =>
    rw [List.findSome?_cons, List.findSome?_cons, h a List.mem_cons_self,
      ih fun b hb => h b (List.mem_cons_of_mem _ hb)]

theorem findSome?_ite {α β : Type} (p : α → Bool) (f : α → β) (l : List α) :
    (l.findSome? fun a => if p a then some (f a) else none) = (l.find? p).map f := by
  rw [List.find?_eq_findSome?_guard, List.map_findSome?]
  refine findSome?_congr fun a _ => ?_
  by_cases h : p a <;> simp [h, Option.guard]

variable {words : List String}

theorem Lettered.head (hw : Lettered words) {w : String} (hmem : w ∈ words)
    (h : w.toList.isPrefixOf text = true) : text.head?.any isWord = true := by
  have hhead := (hw w hmem).1
  obtain ⟨back, rfl⟩ := List.isPrefixOf_iff_prefix.mp h
  cases hchars : w.toList with
  | nil =>
    rw [hchars] at hhead
    cases hhead
  | cons c cs =>
    rw [hchars] at hhead
    exact hhead

/-- The boundary in front of a word is always there, the one behind it if the word ends there. -/
theorem first?_keyword (hw : Lettered words) (behind : List Tree) (k : Continuation)
    (slots : Slots) :
    (keywordTree words behind).first? k (.origin text) slots = words.findSome? fun w =>
      if w.toList.isPrefixOf text && !(text.drop w.toList.length).head?.any isWord then
        (Tree.concat behind).first? k ((Spot.origin text).past w.toList)
          ((slots.set 2 (some 0)).set 3 (some w.toList.length))
      else none := by
  rw [keywordTree, Tree.first?_concat_cons, Tree.first?_look, Tree.first?_concat_cons,
    Tree.first?_group, Tree.first?_oneOf]
  by_cases hhead : text.head?.any isWord
  · rw [if_pos (by simp [Spot.origin, Look.holds, hhead])]
    refine findSome?_congr fun w hmem => ?_
    have hlast := (hw w hmem).2
    by_cases hstarts : w.toList.isPrefixOf text
    · rw [Tree.first?_concat_cons, Tree.first?_look]
      simp [Spot.origin, Spot.past, hstarts, Look.holds, hlast]
    · simp [Spot.origin, hstarts]
  · rw [if_neg (by simp [Spot.origin, Look.holds, hhead])]
    symm
    rw [List.findSome?_eq_none_iff]
    intro w hmem
    have hstarts : ¬ w.toList.isPrefixOf text = true := fun h => hhead (hw.head hmem h)
    simp [hstarts]

theorem steady_keyword (words : List String) {behind : List Tree}
    (h : Tree.allSteady behind = true) : (keywordTree words behind).steady = true := by
  have hall : ∀ words : List String,
      Tree.allSteady (words.map fun w => Tree.word w.toList) = true := by
    intro words
    induction words with
    | nil => simp [Tree.allSteady]
    | cons w words ih => simp [Tree.allSteady, steady_word, ih]
  simp [keywordTree, Tree.oneOf, Tree.steady, Tree.allSteady, hall, h]

theorem groups_keyword (words : List String) {behind : List Tree}
    (h : Tree.allGroups behind = 0) : (keywordTree words behind).groups = 1 := by
  have hall : ∀ words : List String,
      Tree.allGroups (words.map fun w => Tree.word w.toList) = 0 := by
    intro words
    induction words with
    | nil => simp [Tree.allGroups]
    | cons w words ih => simp [Tree.allGroups, groups_word, ih]
  simp [keywordTree, Tree.oneOf, Tree.groups, Tree.allGroups, hall, h]

/-- The group of a keyword holds the word. -/
theorem capturesOf_word {w : String} (h : w.toList.isPrefixOf text = true) :
    [some w] = capturesOf text [some 0, some w.toList.length] := by
  have htake : text.take w.toList.length = w.toList :=
    (List.prefix_iff_eq_take.mp (List.isPrefixOf_iff_prefix.mp h)).symm
  simp only [capturesOf, pairs, between, Option.bind_some, Option.map_some, List.map_cons,
    List.map_nil, htake, List.drop_zero, String.ofList_toList]

theorem Lettered.ne_nil (hw : Lettered words) {w : String} (hmem : w ∈ words) :
    w.toList ≠ [] := by
  intro hnil
  have hhead := (hw w hmem).1
  rw [hnil] at hhead
  cases hhead

theorem cuts_keyword (hw : Lettered words) : (takeKeyword words).Cuts := by
  intro text taken h
  obtain ⟨w, hfind, rfl⟩ := Option.map_eq_some_iff.mp h
  have hstarts := List.find?_some hfind
  rw [Bool.and_eq_true] at hstarts
  exact ⟨hw.ne_nil (List.mem_of_find?_eq_some hfind), List.isPrefixOf_iff_prefix.mp hstarts.1⟩

theorem describes_keyword (hw : Lettered words) :
    (takeKeyword words).Describes (.ofTree source (keywordTree words [])) := by
  refine Rule.describes_ofTree (steady_keyword words (by decide)) (cuts_keyword hw) fun text => ?_
  have hfront : (keywordTree words []).front? text = (words.find? fun w =>
      w.toList.isPrefixOf text && !(text.drop w.toList.length).head?.any isWord).map fun w =>
        [some 0, some w.toList.length, some 0, some w.toList.length] := by
    rw [← findSome?_ite, Tree.front?, first?_keyword hw, groups_keyword words (by decide)]
    simp
  rw [Rule.Fits, hfront, takeKeyword]
  cases hfind : words.find? fun w =>
      w.toList.isPrefixOf text && !(text.drop w.toList.length).head?.any isWord with
  | none => exact .inl ⟨rfl, rfl⟩
  | some w =>
    have hstarts := List.find?_some hfind
    rw [Bool.and_eq_true] at hstarts
    exact .inr ⟨_, _, rfl, rfl, capturesOf_word hstarts.1⟩

theorem cuts_opening (words : List String) : (takeOpening words).Cuts := by
  intro text taken h
  obtain ⟨w, hfind, rfl⟩ := Option.map_eq_some_iff.mp h
  have hstarts := List.find?_some hfind
  exact ⟨by simp, List.isPrefixOf_iff_prefix.mp hstarts⟩

/-- A colon behind a word ends the word. -/
theorem isPrefixOf_colon (w text : List Char) :
    (w ++ [':']).isPrefixOf text =
      (w.isPrefixOf text && (text.drop w.length).head? == some ':') := by
  induction w generalizing text with
  | nil =>
    cases text with
    | nil => rfl
    | cons c text => simp [List.isPrefixOf, Bool.beq_comm]
  | cons a w ih =>
    cases text with
    | nil => simp
    | cons c text => simp [List.isPrefixOf, ih, Bool.and_assoc]

theorem describes_opening (hw : Lettered words) :
    (takeOpening words).Describes
      (.ofTree source (keywordTree words [.set (.single ':')])) := by
  refine Rule.describes_ofTree (steady_keyword words (by decide)) (cuts_opening words)
    fun text => ?_
  have hcolon : isWord ':' = false := by decide
  have hfront : (keywordTree words [.set (.single ':')]).front? text =
      (words.find? fun w => (w.toList ++ [':']).isPrefixOf text).map fun w =>
        [some 0, some (w.toList ++ [':']).length, some 0, some w.toList.length] := by
    rw [← findSome?_ite, Tree.front?, first?_keyword hw, groups_keyword words (by decide)]
    refine findSome?_congr fun w _ => ?_
    rw [isPrefixOf_colon]
    by_cases hstarts : w.toList.isPrefixOf text
    · cases hrest : text.drop w.toList.length with
      | nil => simp [Spot.origin, Spot.past, hstarts, hrest]
      | cons c rest =>
        by_cases hc : c = ':'
        · simp [Spot.origin, Spot.past, hstarts, hrest, hc, hcolon]
        · simp [Spot.origin, Spot.past, hstarts, hrest, hc]
    · simp [hstarts]
  rw [Rule.Fits, hfront, takeOpening]
  cases hfind : words.find? fun w => (w.toList ++ [':']).isPrefixOf text with
  | none => exact .inl ⟨rfl, rfl⟩
  | some w =>
    have hstarts := List.find?_some hfind
    rw [isPrefixOf_colon, Bool.and_eq_true] at hstarts
    exact .inr ⟨_, _, rfl, rfl, capturesOf_word hstarts.1⟩

/-! ### Numbers -/

/-- A point and digits behind it. -/
def fraction? : List Char → Option (List Char)
  | '.' :: rest =>
    let decimals := rest.takeWhile isDecimalDigit
    if decimals.isEmpty then none else some ('.' :: decimals)
  | _ => none

/-- Digits, and a fraction if there is one. -/
def takeNumber : Rule := fun text =>
  let digits := text.takeWhile isDecimalDigit
  if digits.isEmpty then none
  else
    match fraction? (text.dropWhile isDecimalDigit) with
    | some fraction => some ⟨digits ++ fraction, [some (String.ofList fraction)]⟩
    | none => some ⟨digits, [none]⟩

def digitsTree : Tree := .repetition (.set .digit) 1 none true

def fractionTree : Tree := .group 1 (.concat [.set (.single '.'), digitsTree])

def numberTree : Tree := .concat [digitsTree, .repetition fractionTree 0 (some 1) true]

theorem contains_digit : CharSet.digit.contains = isDecimalDigit := rfl

theorem fraction?_front {rest fraction : List Char} (h : fraction? rest = some fraction) :
    fraction <+: rest := by
  unfold fraction? at h
  split at h
  · dsimp only at h
    split at h
    · cases h
    · cases h
      exact List.cons_prefix_cons.mpr ⟨rfl, List.takeWhile_prefix _⟩
  · cases h

theorem cuts_number : takeNumber.Cuts := by
  intro text taken h
  unfold takeNumber at h
  dsimp only at h
  split at h
  · cases h
  · rename_i hdigits
    have hne : text.takeWhile isDecimalDigit ≠ [] := by simpa using hdigits
    split at h
    · rename_i fraction hfraction
      cases h
      refine ⟨by simp [hne], ?_⟩
      obtain ⟨back, hback⟩ := fraction?_front hfraction
      exact ⟨back, by rw [List.append_assoc, hback, List.takeWhile_append_dropWhile]⟩
    · cases h
      exact ⟨hne, List.takeWhile_prefix _⟩

theorem first?_fraction {k : Continuation} (hk : Eager k) (spot : Spot) (slots : Slots) :
    fractionTree.first? k spot slots = (fraction? spot.rest).bind fun fraction =>
      k (spot.past fraction)
        ((slots.set 2 (some spot.index)).set 3 (some (spot.index + fraction.length))) := by
  obtain ⟨index, before, rest⟩ := spot
  have hdigits := (hk.noting fun stop slots => slots.set 3 (some stop.index)).exhausts .digit
  cases rest with
  | nil => simp [fractionTree, fraction?]
  | cons c rest =>
    by_cases hc : c = '.'
    · subst hc
      by_cases hdecimals : (rest.takeWhile isDecimalDigit).isEmpty
      · simp [fractionTree, digitsTree, Tree.first?_run _ hdigits, contains_digit, fraction?,
          hdecimals]
      · have hlength : index + ((rest.takeWhile isDecimalDigit).length + 1) =
            index + 1 + (rest.takeWhile isDecimalDigit).length := by omega
        simp [fractionTree, digitsTree, Tree.first?_run _ hdigits, contains_digit, fraction?,
          hdecimals, hlength]
    · simp [fractionTree, fraction?, hc]

theorem drop_takeWhile {α : Type} (p : α → Bool) (l : List α) :
    l.drop (l.takeWhile p).length = l.dropWhile p := by
  conv_lhs =>
    enter [2]
    rw [← List.takeWhile_append_dropWhile (p := p) (l := l)]
  rw [List.drop_left]

/-- A fraction is left out only where there is none. -/
theorem first?_optional_fraction {k : Continuation} (hk : Eager k) (spot : Spot) (slots : Slots) :
    (Tree.concat [.repetition fractionTree 0 (some 1) true]).first? k spot slots =
      match fraction? spot.rest with
      | some fraction => k (spot.past fraction)
          ((slots.set 2 (some spot.index)).set 3 (some (spot.index + fraction.length)))
      | none => k spot slots := by
  rw [Tree.first?_concat_cons, Tree.first?_concat_nil, Tree.first?_optional, first?_fraction hk]
  cases hfraction : fraction? spot.rest with
  | none => rfl
  | some fraction =>
    cases hfound : k (spot.past fraction)
        ((slots.set 2 (some spot.index)).set 3 (some (spot.index + fraction.length))) with
    | none =>
      have hnone := hk spot slots fraction _ (fraction?_front hfraction) hfound
      simp only [Option.bind_some, hfound, hnone, Option.or_none]
    | some found => simp only [Option.bind_some, hfound, Option.some_or]

/-- In front of a digit there is no fraction, so nothing is gained by taking fewer digits. -/
theorem exhausts_digits {k : Continuation} (hk : Eager k) :
    Exhausts ((Tree.concat [.repetition fractionTree 0 (some 1) true]).first? k) .digit := by
  intro spot slots hnone
  rw [contains_digit] at hnone
  by_cases hdigits : spot.rest.takeWhile isDecimalDigit = []
  · rwa [hdigits, Spot.past_nil] at hnone
  · have hpoint : fraction? spot.rest = none := by
      unfold fraction?
      split
      · rename_i rest hrest
        rw [hrest, List.takeWhile_cons_of_neg (by decide +kernel)] at hdigits
        exact absurd rfl hdigits
      · rfl
    rw [first?_optional_fraction hk] at hnone ⊢
    rw [hpoint]
    refine hk spot slots _ slots (List.takeWhile_prefix isDecimalDigit) ?_
    cases hfraction : fraction? (spot.past (spot.rest.takeWhile isDecimalDigit)).rest with
    | none =>
      rw [hfraction] at hnone
      exact hnone
    | some fraction =>
      rw [hfraction] at hnone
      exact hk _ _ fraction _ (fraction?_front hfraction) hnone

theorem first?_number {k : Continuation} (hk : Eager k) (slots : Slots) :
    numberTree.first? k (.origin text) slots =
      let digits := text.takeWhile isDecimalDigit
      let stop := (Spot.origin text).past digits
      if digits.isEmpty then none
      else
        match fraction? (text.dropWhile isDecimalDigit) with
        | some fraction => k (stop.past fraction)
            ((slots.set 2 (some digits.length)).set 3 (some (digits.length + fraction.length)))
        | none => k stop slots := by
  have hrest : ((Spot.origin text).past (text.takeWhile isDecimalDigit)).rest =
      text.dropWhile isDecimalDigit := drop_takeWhile ..
  have hindex : ((Spot.origin text).past (text.takeWhile isDecimalDigit)).index =
      (text.takeWhile isDecimalDigit).length := Nat.zero_add _
  have horigin : (Spot.origin text).rest = text := rfl
  rw [numberTree, Tree.first?_concat_cons, digitsTree, Tree.first?_run _ (exhausts_digits hk),
    contains_digit, first?_optional_fraction hk, horigin, hrest, hindex]

theorem between_append (front middle back : List Char) :
    between (front ++ (middle ++ back)) front.length (front.length + middle.length) = middle := by
  rw [between, ← List.append_assoc, ← List.length_append, List.take_left, List.drop_left]

/-- The group of a number holds the fraction. -/
theorem capturesOf_fraction {fraction : List Char}
    (h : fraction? (text.dropWhile isDecimalDigit) = some fraction) :
    [some (String.ofList fraction)] = capturesOf text
      [some (text.takeWhile isDecimalDigit).length,
        some ((text.takeWhile isDecimalDigit).length + fraction.length)] := by
  obtain ⟨back, hback⟩ := fraction?_front h
  have htext : text = text.takeWhile isDecimalDigit ++ (fraction ++ back) := by
    rw [hback, List.takeWhile_append_dropWhile]
  have hbetween := between_append (text.takeWhile isDecimalDigit) fraction back
  rw [← htext] at hbetween
  simp [capturesOf, pairs, hbetween]

theorem describes_number : takeNumber.Describes (.ofTree source numberTree) := by
  refine Rule.describes_ofTree (by decide) cuts_number fun text => ?_
  have hgroups : numberTree.groups = 1 := by decide
  rw [Rule.Fits, Tree.front?, hgroups, first?_number (eager_some _)]
  by_cases hdigits : (text.takeWhile isDecimalDigit).isEmpty
  · exact .inl ⟨by simp [takeNumber, hdigits], if_pos hdigits⟩
  · right
    dsimp only
    rw [if_neg hdigits]
    cases hfraction : fraction? (text.dropWhile isDecimalDigit) with
    | none =>
      refine ⟨⟨text.takeWhile isDecimalDigit, [none]⟩, [none, none], ?_, ?_, rfl⟩
      · simp [takeNumber, hdigits, hfraction]
      · simp
    | some fraction =>
      refine ⟨⟨text.takeWhile isDecimalDigit ++ fraction, [some (String.ofList fraction)]⟩, _, ?_, ?_,
        capturesOf_fraction hfraction⟩
      · simp [takeNumber, hdigits, hfraction]
      · simp

end DollarScript.Scanner
