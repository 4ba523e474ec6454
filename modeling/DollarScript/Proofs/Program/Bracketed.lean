import DollarScript.Program.Compact
import DollarScript.Proofs.Number.Reading
import DollarScript.Proofs.Parser.Operands

/-! A program can be read off its text in parentheses: no two programs have the same text. -/
namespace DollarScript

/-- A word by itself, or a head and what belongs to it in parentheses. -/
inductive Bracketed where
  | word (chars : List Char)
  | group (head : List Char) (items : List Bracketed)

namespace Bracketed

/-- Words go on with anything but a blank or a parenthesis. -/
def goesOn (c : Char) : Bool := c != ' ' && c != '(' && c != ')'

structure IsWord (chars : List Char) : Prop where
  nonempty : chars ≠ []
  goesOn : ∀ c ∈ chars, goesOn c = true

-- The characters of the word are tried, not all characters that there are.
instance (chars : List Char) : Decidable (IsWord chars) :=
  decidable_of_iff (chars ≠ [] ∧ chars.all goesOn = true)
    ⟨fun h => ⟨h.1, List.all_eq_true.mp h.2⟩, fun h => ⟨h.nonempty, List.all_eq_true.mpr h.goesOn⟩⟩

mutual

def chars : Bracketed → List Char
  | .word chars => chars
  | .group head items => '(' :: (head ++ (charsAll items ++ [')']))

/-- Each item with a blank in front. -/
def charsAll : List Bracketed → List Char
  | [] => []
  | b :: rest => ' ' :: (b.chars ++ charsAll rest)

end

mutual

/-- All words and heads are words. -/
def Clean : Bracketed → Prop
  | .word chars => IsWord chars
  | .group head items => IsWord head ∧ CleanAll items

def CleanAll : List Bracketed → Prop
  | [] => True
  | b :: rest => b.Clean ∧ CleanAll rest

end

variable {w w' rest rest' : List Char}

theorem stops_charsAll (items : List Bracketed) :
    Text.Stops goesOn (charsAll items ++ ')' :: rest) := by
  cases items with
  | nil => exact Text.stops_cons.mpr rfl
  | cons b items => exact Text.stops_cons.mpr rfl

/-- Where a word starts, no group does. -/
theorem IsWord.ne_group (h : IsWord w) : w ++ rest ≠ '(' :: rest' := by
  obtain ⟨c, more, rfl⟩ := List.exists_cons_of_ne_nil h.nonempty
  intro heq
  cases heq
  exact absurd (h.goesOn '(' List.mem_cons_self) (by decide)

theorem chars_group (head : List Char) (items : List Bracketed) (rest : List Char) :
    (group head items).chars ++ rest = '(' :: (head ++ (charsAll items ++ ')' :: rest)) := by
  simp [chars]

mutual

/-- What stands at the front of a text can be told from what stands behind it. -/
theorem unique (b b' : Bracketed) (rest rest' : List Char) (h : b.Clean) (h' : b'.Clean)
    (hrest : Text.Stops goesOn rest) (hrest' : Text.Stops goesOn rest')
    (heq : b.chars ++ rest = b'.chars ++ rest') : b = b' ∧ rest = rest' := by
  cases b with
  | word w =>
    cases b' with
    | word w' =>
      obtain ⟨rfl, rfl⟩ := Text.run_unique h.goesOn hrest h'.goesOn hrest' heq
      exact ⟨rfl, rfl⟩
    | group head' items' =>
      rw [chars_group] at heq
      exact absurd heq (IsWord.ne_group h)
  | group head items =>
    cases b' with
    | word w' =>
      rw [chars_group] at heq
      exact absurd heq.symm (IsWord.ne_group h')
    | group head' items' =>
      rw [chars_group, chars_group, List.cons.injEq] at heq
      obtain ⟨rfl, hitems⟩ := Text.run_unique h.1.goesOn (stops_charsAll items) h'.1.goesOn
        (stops_charsAll items') heq.2
      obtain ⟨rfl, rfl⟩ := uniqueAll items items' rest rest' h.2 h'.2 hitems
      exact ⟨rfl, rfl⟩

theorem uniqueAll (items items' : List Bracketed) (rest rest' : List Char) (h : CleanAll items)
    (h' : CleanAll items') (heq : charsAll items ++ ')' :: rest = charsAll items' ++ ')' :: rest') :
    items = items' ∧ rest = rest' := by
  cases items with
  | nil =>
    cases items' with
    | nil => exact ⟨rfl, (List.cons.inj heq).2⟩
    | cons b' items' => simp [charsAll] at heq
  | cons b items =>
    cases items' with
    | nil => simp [charsAll] at heq
    | cons b' items' =>
      simp only [charsAll, List.cons_append, List.append_assoc, List.cons.injEq, true_and] at heq
      obtain ⟨rfl, hitems⟩ := unique b b' _ _ h.1 h'.1 (stops_charsAll items)
        (stops_charsAll items') heq
      obtain ⟨rfl, rfl⟩ := uniqueAll items items' rest rest' h.2 h'.2 hitems
      exact ⟨rfl, rfl⟩

end

end Bracketed

open Bracketed

/-! ### Operands -/

namespace Operand

/-- How an operand is written. -/
def word : Operand → List Char
  | .number value => (value.text Expr.numberLayout).toList
  | .var name => name.toList

/-- Numbers are not `nan`; variables have their `$`, and nothing in them that ends a word. -/
def Plain : Operand → Prop
  | .number value => value ≠ .nan
  | .var name => name.toList.head? = some '$' ∧ ∀ c ∈ name.toList, c ≠ ' ' ∧ c ≠ '(' ∧ c ≠ ')'

instance : DecidablePred Plain
  | .number value => inferInstanceAs (Decidable (value ≠ .nan))
  | .var name => @instDecidableAnd (name.toList.head? = some '$') _ inferInstance
      (List.decidableBAll (fun c => c ≠ ' ' ∧ c ≠ '(' ∧ c ≠ ')') name.toList)

variable {x y : Operand} {value : Binary64} {name : String}

theorem goesOn_of_isNumeric {c : Char} (h : Binary64.isNumeric c = true) : goesOn c = true := by
  simp only [goesOn, Bool.and_eq_true, bne_iff_ne]
  refine ⟨⟨?_, ?_⟩, ?_⟩
  all_goals
    rintro rfl
    cases h

theorem number_word (h : value ≠ .nan) :
    IsWord (word (.number value)) ∧ (word (.number value)).head? ≠ some '$' := by
  cases value with
  | nan => exact absurd rfl h
  | infinite negative =>
    cases negative with
    | false => exact ⟨by decide, by decide⟩
    | true => exact ⟨by decide, by decide⟩
  | finite negative rank =>
    have hnumeric := Binary64.numeric_text Expr.numberLayout negative rank
    obtain ⟨c, rest, hc, -, htext⟩ := Binary64.text_finite Expr.numberLayout negative rank
    refine ⟨⟨?_, fun c hc => goesOn_of_isNumeric (hnumeric c hc)⟩, ?_⟩
    · simp [word, htext]
    · rw [word, htext]
      cases negative with
      | true => simp [Binary64.signText]
      | false =>
        intro hdollar
        cases hdollar
        cases hc

theorem Plain.isWord (h : x.Plain) : IsWord x.word := by
  cases x with
  | number value => exact (number_word h).1
  | var name =>
    refine ⟨?_, fun c hc => by simpa [goesOn, and_assoc] using h.2 c hc⟩
    intro hnil
    have hdollar := h.1
    rw [show name.toList = [] from hnil] at hdollar
    cases hdollar

theorem read?_number (h : value ≠ .nan) :
    Binary64.read? (value.text Expr.numberLayout) = some value := by
  cases value with
  | nan => exact absurd rfl h
  | infinite negative => cases negative <;> decide
  | finite negative rank => exact Binary64.read?_text _ negative rank

/-- An operand can be told from its word. -/
theorem Plain.eq_of_word_eq (hx : x.Plain) (hy : y.Plain) (h : x.word = y.word) : x = y := by
  cases x with
  | number value =>
    cases y with
    | number value' =>
      have hread := read?_number hx
      rw [String.toList_inj.mp h, read?_number hy] at hread
      rw [Option.some.inj hread]
    | var name => exact absurd (congrArg List.head? h ▸ hy.1) (number_word hx).2
  | var name =>
    cases y with
    | number value => exact absurd (congrArg List.head? h.symm ▸ hx.1) (number_word hy).2
    | var name' => rw [String.toList_inj.mp h]

end Operand

/-! ### Programs -/

def Expr.bracketed : Expr → Bracketed
  | .number value => .word (Operand.number value).word
  | .var name => .word (Operand.var name).word
  | .binary op left right => .group op.symbol.toList [left.bracketed, right.bracketed]

namespace Statement

mutual

def bracketed : Statement → Bracketed
  | .conditional test consequent alternate => .group "if".toList
    (test.bracketed :: .group "block".toList (bracketedAll consequent) ::
      bracketedAlternate alternate)
  | .assignment target value => .group "=".toList
    [.word (Operand.var target).word, value.bracketed]
  | .block body => .group "block".toList (bracketedAll body)
  | .invalid => .group "invalid".toList []
  | .skipped => .group "skipped".toList []

def bracketedAll : List Statement → List Bracketed
  | [] => []
  | s :: rest => s.bracketed :: bracketedAll rest

def bracketedAlternate : Option (List Statement) → List Bracketed
  | none => []
  | some body => [.group "block".toList (bracketedAll body)]

end

end Statement

def Program.bracketed (p : Program) : Bracketed :=
  .group "program".toList (Statement.bracketedAll p.statements)

/-! ### The text -/

theorem Expr.compact_toList (e : Expr) : e.compact.toList = e.bracketed.chars := by
  induction e with
  | number value => rfl
  | var name => rfl
  | binary op left right hleft hright =>
    simp [Expr.compact, Expr.bracketed, chars, charsAll, hleft, hright]

namespace Statement

mutual

theorem compact_toList (s : Statement) : s.compact.toList = s.bracketed.chars := by
  cases s with
  | conditional test consequent alternate =>
    simp [compact, bracketed, chars, charsAll, test.compact_toList, compactAll_toList consequent,
      compactAlternate_toList alternate]
  | assignment target value =>
    simp [compact, bracketed, chars, charsAll, Operand.word, value.compact_toList]
  | block body => simp [compact, bracketed, chars, compactAll_toList body]
  | invalid => rfl
  | skipped => rfl

theorem compactAll_toList (body : List Statement) :
    (compactAll body).toList = charsAll (bracketedAll body) := by
  cases body with
  | nil => rfl
  | cons s rest =>
    simp [compactAll, bracketedAll, charsAll, compact_toList s, compactAll_toList rest]

theorem compactAlternate_toList (alternate : Option (List Statement)) :
    (compactAlternate alternate).toList = charsAll (bracketedAlternate alternate) := by
  cases alternate with
  | none => rfl
  | some body =>
    simp [compactAlternate, bracketedAlternate, chars, charsAll, compactAll_toList body]

end

end Statement

theorem Program.compact_toList (p : Program) : p.compact.toList = p.bracketed.chars := by
  simp [Program.compact, Program.bracketed, chars, Statement.compactAll_toList]

/-! ### What is read off it -/

theorem BinaryOp.symbol_isWord (op : BinaryOp) : IsWord op.symbol.toList := by
  cases op <;> decide

theorem BinaryOp.symbol_injective : Function.Injective BinaryOp.symbol := by
  intro op op' h
  cases op <;> cases op' <;> simp [BinaryOp.symbol] at h ⊢

theorem Expr.clean_bracketed {e : Expr} (h : ∀ x ∈ e.operands, x.Plain) : e.bracketed.Clean := by
  induction e with
  | number value => exact (h _ List.mem_cons_self).isWord
  | var name => exact (h _ List.mem_cons_self).isWord
  | binary op left right hleft hright =>
    obtain ⟨hl, hr⟩ := List.forall_mem_append.mp h
    exact ⟨op.symbol_isWord, hleft hl, hright hr, trivial⟩

theorem Expr.eq_of_bracketed_eq {e e' : Expr} (h : ∀ x ∈ e.operands, x.Plain)
    (h' : ∀ x ∈ e'.operands, x.Plain) (heq : e.bracketed = e'.bracketed) : e = e' := by
  have leaf {x y : Operand} (hx : x.Plain) (hy : y.Plain)
      (heq : Bracketed.word x.word = .word y.word) : x = y :=
    hx.eq_of_word_eq hy (Bracketed.word.inj heq)
  induction e generalizing e' with
  | number value =>
    have hx := h _ List.mem_cons_self
    cases e' with
    | number value' => cases leaf hx (h' _ List.mem_cons_self) heq; rfl
    | var name => cases leaf hx (h' _ List.mem_cons_self) heq
    | binary op left right => cases heq
  | var name =>
    have hx := h _ List.mem_cons_self
    cases e' with
    | number value => cases leaf hx (h' _ List.mem_cons_self) heq
    | var name' => cases leaf hx (h' _ List.mem_cons_self) heq; rfl
    | binary op left right => cases heq
  | binary op left right hleft hright =>
    cases e' with
    | number value => cases heq
    | var name => cases heq
    | binary op' left' right' =>
      obtain ⟨hl, hr⟩ := List.forall_mem_append.mp h
      obtain ⟨hl', hr'⟩ := List.forall_mem_append.mp h'
      simp only [Expr.bracketed, Bracketed.group.injEq, String.toList_inj, List.cons.injEq,
        and_true] at heq
      rw [BinaryOp.symbol_injective heq.1, hleft hl hl' heq.2.1, hright hr hr' heq.2.2]

namespace Statement

theorem block_isWord : IsWord "block".toList := by decide

mutual

theorem clean_bracketed (s : Statement) (h : ∀ x ∈ s.operands, x.Plain) : s.bracketed.Clean := by
  cases s with
  | conditional test consequent alternate =>
    simp only [operands, List.forall_mem_append] at h
    exact ⟨by decide, Expr.clean_bracketed h.1,
      ⟨block_isWord, clean_bracketedAll consequent h.2.1⟩,
      clean_bracketedAlternate alternate h.2.2⟩
  | assignment target value =>
    obtain ⟨htarget, hvalue⟩ := List.forall_mem_cons.mp h
    exact ⟨by decide, htarget.isWord, Expr.clean_bracketed hvalue, trivial⟩
  | block body => exact ⟨block_isWord, clean_bracketedAll body h⟩
  | invalid => exact ⟨by decide, trivial⟩
  | skipped => exact ⟨by decide, trivial⟩

theorem clean_bracketedAll (body : List Statement) (h : ∀ x ∈ operandsAll body, x.Plain) :
    CleanAll (bracketedAll body) := by
  cases body with
  | nil => trivial
  | cons s rest =>
    obtain ⟨hs, hrest⟩ := List.forall_mem_append.mp h
    exact ⟨clean_bracketed s hs, clean_bracketedAll rest hrest⟩

theorem clean_bracketedAlternate (alternate : Option (List Statement))
    (h : ∀ x ∈ operandsAlternate alternate, x.Plain) :
    CleanAll (bracketedAlternate alternate) := by
  cases alternate with
  | none => trivial
  | some body => exact ⟨⟨block_isWord, clean_bracketedAll body h⟩, trivial⟩

end

mutual

theorem eq_of_bracketed_eq (s s' : Statement) (h : ∀ x ∈ s.operands, x.Plain)
    (h' : ∀ x ∈ s'.operands, x.Plain) (heq : s.bracketed = s'.bracketed) : s = s' := by
  cases s with
  | conditional test consequent alternate =>
    cases s' with
    | conditional test' consequent' alternate' =>
      simp only [operands, List.forall_mem_append] at h h'
      simp only [bracketed, Bracketed.group.injEq, List.cons.injEq, true_and] at heq
      obtain ⟨htest, hconsequent, halternate⟩ := heq
      rw [Expr.eq_of_bracketed_eq h.1 h'.1 htest,
        all_eq_of_bracketed_eq consequent consequent' h.2.1 h'.2.1 hconsequent,
        alternate_eq_of_bracketed_eq alternate alternate' h.2.2 h'.2.2 halternate]
    | _ => simp [bracketed] at heq
  | assignment target value =>
    cases s' with
    | assignment target' value' =>
      obtain ⟨htarget, hvalue⟩ := List.forall_mem_cons.mp h
      obtain ⟨htarget', hvalue'⟩ := List.forall_mem_cons.mp h'
      simp only [bracketed, Bracketed.group.injEq, List.cons.injEq, Bracketed.word.injEq, true_and,
        and_true] at heq
      cases htarget.eq_of_word_eq htarget' heq.1
      rw [Expr.eq_of_bracketed_eq hvalue hvalue' heq.2]
    | _ => simp [bracketed] at heq
  | block body =>
    cases s' with
    | block body' =>
      simp only [bracketed, Bracketed.group.injEq, true_and] at heq
      rw [all_eq_of_bracketed_eq body body' h h' heq]
    | _ => simp [bracketed] at heq
  | invalid =>
    cases s' with
    | invalid => rfl
    | _ => simp [bracketed] at heq
  | skipped =>
    cases s' with
    | skipped => rfl
    | _ => simp [bracketed] at heq

theorem all_eq_of_bracketed_eq (body body' : List Statement)
    (h : ∀ x ∈ operandsAll body, x.Plain) (h' : ∀ x ∈ operandsAll body', x.Plain)
    (heq : bracketedAll body = bracketedAll body') : body = body' := by
  cases body with
  | nil =>
    cases body' with
    | nil => rfl
    | cons s' rest' => cases heq
  | cons s rest =>
    cases body' with
    | nil => cases heq
    | cons s' rest' =>
      obtain ⟨hs, hrest⟩ := List.forall_mem_append.mp h
      obtain ⟨hs', hrest'⟩ := List.forall_mem_append.mp h'
      obtain ⟨hfirst, hmore⟩ := List.cons.inj heq
      rw [eq_of_bracketed_eq s s' hs hs' hfirst,
        all_eq_of_bracketed_eq rest rest' hrest hrest' hmore]

theorem alternate_eq_of_bracketed_eq (alternate alternate' : Option (List Statement))
    (h : ∀ x ∈ operandsAlternate alternate, x.Plain)
    (h' : ∀ x ∈ operandsAlternate alternate', x.Plain)
    (heq : bracketedAlternate alternate = bracketedAlternate alternate') :
    alternate = alternate' := by
  cases alternate with
  | none =>
    cases alternate' with
    | none => rfl
    | some body' => cases heq
  | some body =>
    cases alternate' with
    | none => cases heq
    | some body' =>
      simp only [bracketedAlternate, List.cons.injEq, Bracketed.group.injEq, true_and,
        and_true] at heq
      rw [all_eq_of_bracketed_eq body body' h h' heq]

end

end Statement

namespace Program

/-- The operands can be told from all that stands between them. -/
def Plain (p : Program) : Prop := ∀ x ∈ Statement.operandsAll p.statements, x.Plain

instance : DecidablePred Plain := fun _ => List.decidableBAll _ _

theorem Plain.clean {p : Program} (h : p.Plain) : p.bracketed.Clean :=
  ⟨by decide, Statement.clean_bracketedAll p.statements h⟩

end Program

/-- Plain programs that have the same text are the same, down to the bits of their numbers. -/
theorem eq_of_compact_eq {p q : Program} (hp : p.Plain) (hq : q.Plain)
    (h : p.compact = q.compact) : p = q := by
  have hchars : p.bracketed.chars ++ [] = q.bracketed.chars ++ [] := by
    rw [List.append_nil, List.append_nil, ← p.compact_toList, h, q.compact_toList]
  obtain ⟨heq, -⟩ :=
    unique _ _ _ _ hp.clean hq.clean Text.stops_nil Text.stops_nil hchars
  have hbody := (Bracketed.group.inj heq).2
  exact congrArg Program.mk (Statement.all_eq_of_bracketed_eq _ _ hp hq hbody)

/-- Both branches of a condition on a number. -/
def compared (value : Binary64) : Program := ⟨[.conditional
  (.binary .eq (.var "$x") (.number value)) [.block []] (some [.assignment "$y" (.var "$x")])]⟩

theorem eq_of_compact_eq_five :
    (compared (.ofDecimal false ⟨50, -1⟩)).Plain ∧ (compared (.ofDecimal false ⟨5, 0⟩)).Plain ∧
      (compared (.ofDecimal false ⟨50, -1⟩)).compact =
        (compared (.ofDecimal false ⟨5, 0⟩)).compact ∧
      compared (.ofDecimal false ⟨50, -1⟩) = compared (.ofDecimal false ⟨5, 0⟩) := by
  have hp : (compared (.ofDecimal false ⟨50, -1⟩)).Plain := by decide +kernel
  have hq : (compared (.ofDecimal false ⟨5, 0⟩)).Plain := by decide +kernel
  have h : (compared (.ofDecimal false ⟨50, -1⟩)).compact =
      (compared (.ofDecimal false ⟨5, 0⟩)).compact := by decide +kernel
  exact ⟨hp, hq, h, eq_of_compact_eq hp hq h⟩

end DollarScript
