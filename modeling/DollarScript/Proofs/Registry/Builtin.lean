import DollarScript.Proofs.Registry.History
import DollarScript.Proofs.Scanner.Rules

/-! The built-in registry: its entries stand in the order of the table, and each takes what a plain
rule says. -/
namespace DollarScript

open Text Regex Scanner

/-- A built-in kind: its canonical name, the tree of its pattern, and the rule that says what the
pattern takes. -/
structure Kind.Shape where
  kind : String
  tree : Tree
  rule : Rule

namespace Kind

def openingWords : List String := ["if", "else", "while", "for", "then"]

def closingWords : List String := ["endif", "endwhile", "endfor"]

def otherWords : List String := ["return", "const"]

/-- Characters that are tokens by themselves. -/
def singles : List (Char × String) := [
  ('+', plus), ('-', minus), ('*', multiply), ('/', divide), ('%', "MODULO"), (':', colon),
  ('\x7b', openCurly), ('\x7d', closeCurly), ('[', openSquare), (']', closeSquare)]

def Shape.word (kind w : String) : Shape := ⟨kind, .word w.toList, takeWord w⟩

def Shape.single (entry : Char × String) : Shape := .word entry.2 (String.ofList [entry.1])

/-- The shapes of the kinds, in the order of the table. -/
def shapes : List Shape := [
  ⟨"STRING", stringTree, takeString⟩,
  .word equalStr "===",
  .word equal "==",
  ⟨var, variableTree, takeVariable⟩,
  ⟨keywordBegin, keywordTree openingWords [.set (.single ':')], takeOpening openingWords⟩,
  ⟨keywordEnd, keywordTree closingWords [], takeKeyword closingWords⟩,
  ⟨"OTHERKEYWORDS", keywordTree otherWords [], takeKeyword otherWords⟩,
  ⟨number, numberTree, takeNumber⟩,
  .word assign "="] ++ singles.map .single

/-- The kind has the name of the shape, and its pattern is read as the tree of the shape. -/
def HasShape (e : Kind.Entry) (s : Shape) : Prop :=
  canonical e.name = s.kind ∧ Pattern.regex? e.pattern = some (.ofTree e.pattern s.tree)

theorem table_shapes : List.Forall₂ HasShape table shapes := by
  repeat' first
    | exact .nil
    | refine .cons ⟨by decide +kernel, Pattern.regex?_eq_ofTree rfl rfl⟩ ?_

theorem Shape.describes_word {kind w source : String} (hw : w ≠ "") :
    (Shape.word kind w).rule.Describes (.ofTree source (Shape.word kind w).tree) ∧
      (Shape.word kind w).rule.Cuts :=
  ⟨Scanner.describes_word hw, cuts_word hw⟩

/-- The rule of a kind says what its pattern takes. -/
theorem shapes_describe : ∀ s ∈ shapes, ∀ source,
    s.rule.Describes (.ofTree source s.tree) ∧ s.rule.Cuts := by
  have hopening : Lettered openingWords := by decide +kernel
  have hclosing : Lettered closingWords := by decide +kernel
  have hother : Lettered otherWords := by decide +kernel
  intro s hs source
  simp only [shapes, List.mem_append, List.mem_cons, List.not_mem_nil, or_false,
    List.mem_map] at hs
  rcases hs with (rfl | rfl | rfl | rfl | rfl | rfl | rfl | rfl | rfl) | ⟨entry, -, rfl⟩
  · exact ⟨describes_string, cuts_string⟩
  · exact Shape.describes_word (by decide)
  · exact Shape.describes_word (by decide)
  · exact ⟨describes_variable, cuts_variable⟩
  · exact ⟨describes_opening hopening, cuts_opening _⟩
  · exact ⟨describes_keyword hclosing, cuts_keyword hclosing⟩
  · exact ⟨describes_keyword hother, cuts_keyword hother⟩
  · exact ⟨describes_number, cuts_number⟩
  · exact Shape.describes_word (by decide)
  · exact Shape.describes_word (by simp)

end Kind

namespace Registry

/-- The entry of a built-in kind. -/
def entryOf (e : Kind.Entry) (s : Kind.Shape) : Entry :=
  ⟨s.kind, e.priority, [.ofTree e.pattern s.tree]⟩

/-- A new kind of the least priority so far comes last. -/
theorem entries_register_last {r : Registry} {name : String} {p : Pattern} {priority : Int}
    (hnew : Kind.canonical name ∉ r.entries.map Entry.name)
    (hsorted : Sorted (r.entries ++ [⟨Kind.canonical name, priority, [p]⟩])) :
    (r.register name p (some priority)).entries =
      r.entries ++ [⟨Kind.canonical name, priority, [p]⟩] := by
  rcases addPattern_cases (Kind.canonical name) p (some priority) r.entries with
    ⟨-, heq⟩ | ⟨front, e, back, hentries, hname, -⟩
  · have hlast : addPattern (Kind.canonical name) p (some priority) r.entries =
        r.entries ++ [⟨Kind.canonical name, priority, [p]⟩] := heq
    simp only [register, hlast, Option.isSome_some, if_true]
    exact hsorted.sortByPriority_eq
  · exact absurd (by simp [hentries, hname]) hnew

/-- Kinds that come in the order of their priorities are registered in this order. -/
theorem entries_foldl {table : List Kind.Entry} {shapes : List Kind.Shape}
    (h : List.Forall₂ Kind.HasShape table shapes) (r : Registry)
    (hsorted : Sorted (r.entries ++ List.zipWith entryOf table shapes))
    (hdistinct : ((r.entries ++ List.zipWith entryOf table shapes).map Entry.name).Nodup) :
    (table.foldl (fun r entry =>
      match Pattern.regex? entry.pattern with
      | some p => r.register entry.name p (some entry.priority)
      | none => r) r).entries = r.entries ++ List.zipWith entryOf table shapes := by
  induction h generalizing r with
  | nil => simp
  | @cons e s table shapes hes h ih =>
    obtain ⟨hname, hread⟩ := hes
    rw [List.zipWith_cons_cons, List.append_cons] at hsorted hdistinct ⊢
    have hregister : (r.register e.name (.ofTree e.pattern s.tree) (some e.priority)).entries =
        r.entries ++ [entryOf e s] := by
      rw [entryOf, ← hname] at hsorted hdistinct ⊢
      refine entries_register_last ?_ (List.pairwise_append.mp hsorted).1
      intro hmem
      rw [List.map_append, List.map_append, List.nodup_append, List.nodup_append] at hdistinct
      exact hdistinct.1.2.2 _ hmem _ (by simp) rfl
    rw [List.foldl_cons, hread]
    dsimp only
    rw [← hregister] at hsorted hdistinct ⊢
    exact ih _ hsorted hdistinct

/-- The entries of the built-in registry, in the order of the table. -/
theorem builtin_entries : builtin.entries = List.zipWith entryOf Kind.table Kind.shapes := by
  refine entries_foldl Kind.table_shapes empty ?_ ?_
  · unfold Sorted
    decide
  · decide

theorem eq_mk {r : Registry} {entries : List Entry} (h : r.entries = entries) : r = ⟨entries⟩ := by
  subst h
  rfl

/-- The registry with its patterns read, fit for evaluation. -/
theorem builtin_eq : builtin = ⟨List.zipWith entryOf Kind.table Kind.shapes⟩ :=
  eq_mk builtin_entries

/-- An entry takes what the rule of its kind says. -/
structure Follows (e : Entry) (s : Kind.Shape) : Prop where
  name : e.name = s.kind
  taken : ∀ text, e.match? .front text =
    (s.rule text).map fun taken => ⟨byteLength taken.chars, taken.captures⟩
  cuts : s.rule.Cuts

theorem follows_of_describes {e : Entry} {s : Kind.Shape} {p : Pattern} (hname : e.name = s.kind)
    (hpatterns : e.patterns = [p]) (hdescribes : s.rule.Describes p) (hcuts : s.rule.Cuts) :
    Follows e s := by
  refine ⟨hname, fun text => ?_, hcuts⟩
  have hmatch : e.match? .front text = (p.matchFront text).filter (·.acceptable text) := by
    simp [Entry.match?, hpatterns, Pattern.match?]
  rw [hmatch, hdescribes text]
  cases hrule : s.rule text with
  | none => rfl
  | some taken =>
    obtain ⟨hne, back, rfl⟩ := hcuts text taken hrule
    have hpos : 0 < byteLength taken.chars :=
      Nat.pos_of_ne_zero fun hzero => hne (byteLength_eq_zero.mp hzero)
    simp [Match.acceptable, hpos, splitBytes?_append]

theorem builtin_follows : List.Forall₂ Follows builtin.entries Kind.shapes := by
  have hall : ∀ (table : List Kind.Entry) (shapes : List Kind.Shape),
      table.length = shapes.length → (∀ s ∈ shapes, s ∈ Kind.shapes) →
      List.Forall₂ Follows (List.zipWith entryOf table shapes) shapes := by
    intro table
    induction table with
    | nil =>
      intro shapes hlength _
      obtain rfl := List.length_eq_zero_iff.mp hlength.symm
      exact .nil
    | cons e table ih =>
      intro shapes hlength hmem
      cases shapes with
      | nil => cases hlength
      | cons s shapes =>
        obtain ⟨hdescribes, hcuts⟩ :=
          Kind.shapes_describe s (hmem s List.mem_cons_self) e.pattern
        exact .cons (follows_of_describes rfl rfl hdescribes hcuts)
          (ih shapes (Nat.succ.inj hlength) fun t ht => hmem t (List.mem_cons_of_mem _ ht))
  rw [builtin_entries]
  exact hall _ _ rfl fun s hs => hs

end Registry

end DollarScript
