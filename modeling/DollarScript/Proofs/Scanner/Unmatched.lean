import DollarScript.Grammar
import DollarScript.Proofs.Registry.History
import DollarScript.Proofs.Scanner.Lossless

/-! Text that no kind matches is of the unknown kind, and nothing else is, unless that name was
given to a kind of its own: it is not kept from being registered. -/
namespace DollarScript

namespace Registry

/-- How a registry comes about, and the names that were registered for it. -/
inductive Built : Registry → List String → Prop
  | calls (calls : List Call) :
      Built (ofCalls calls) ((calls.filterMap Call.registration?).map Registration.name)
  | grammar [Libraries] {g : Grammar} {r : Registry} : g.registry = .ok r →
      Built r (g.tokens.map TokenSpec.name)

variable {r r' : Registry} {names : List String} {history : List Registration}

/-- The entries of a grammar are registered one behind the other. -/
theorem Records.registerAll [Libraries] {index : Nat} {specs : List TokenSpec}
    (h : Records history r.entries) (hr : Grammar.registerAll r index specs = .ok r') :
    ∃ more, Records (history ++ more) r'.entries ∧
      more.map Registration.name = specs.map TokenSpec.name := by
  induction specs generalizing r index history with
  | nil =>
    cases hr
    exact ⟨[], by rwa [List.append_nil], rfl⟩
  | cons spec specs ih =>
    rw [Grammar.registerAll] at hr
    split at hr
    · rename_i pattern _
      obtain ⟨more, hrecords, hnames⟩ := ih (h.register ⟨spec.name, pattern, spec.priority⟩) hr
      rw [List.append_assoc, List.singleton_append] at hrecords
      exact ⟨_, hrecords, by rw [List.map_cons, List.map_cons, hnames]⟩
    · cases hr

theorem Built.records (h : r.Built names) :
    ∃ history, Records history r.entries ∧ history.map Registration.name = names := by
  cases h with
  | calls calls => exact ⟨_, ofCalls_records calls, rfl⟩
  | grammar hr => exact Records.empty.registerAll hr

theorem Built.named {e : Entry} (h : r.Built names) (he : e ∈ r.entries) :
    e.name ∈ names.map Kind.canonical := by
  obtain ⟨history, hrecords, rfl⟩ := h.records
  have hkind := (hrecords.named e.name).mp (List.mem_map_of_mem he)
  rwa [List.map_map]

end Registry

namespace Scanner

open Text Registry

/-- The tokens of a source, cut from the front or word by word. -/
def cutting : Extent → Registry → List Char → List Token
  | .front => tokens
  | .whole => words

/-- No kind matches where the token stands: no front of what starts there, or not all of a word. -/
def Unmatched (r : Registry) (source : List Char) (t : Token) : Extent → Prop
  | .front => ∃ before rest, source = before ++ rest ∧ byteLength before = t.span.start ∧
      ∀ e ∈ r.entries, e.Refuses rest
  | .whole => ∀ e ∈ r.entries, ∀ p ∈ e.patterns, p.matchWhole t.text.toList = none

/-- Either no kind matches and the token is of none, or it is of one that does. -/
def Classified (r : Registry) (source : List Char) (t : Token) (extent : Extent) : Prop :=
  (t.index = none ∧ t.kind = Kind.unknown ∧ Unmatched r source t extent) ∨
  (∃ i e, t.index = some i ∧ r.entries[i]? = some e ∧ t.kind = e.name ∧
    ¬ Unmatched r source t extent)

variable {r : Registry} {source text : List Char} {t : Token}
  {extent : Extent}

theorem not_refuses {e : Entry} {m : Match} (h : e.Offers text m) : ¬ e.Refuses text := by
  obtain ⟨before, p, after, hpatterns, hp, -⟩ := h
  intro hrefuses
  exact hrefuses p (by simp [hpatterns]) m hp

/-- Only one text starts where a token does. -/
theorem classified_of_tokens (ht : t ∈ tokens r source) : Classified r source t .front := by
  obtain ⟨before, body, after, hsource, hcut⟩ := (cutFrom_lossless r .origin 0 source).cut t ht
  have hstart : byteLength before = t.span.start := by
    rw [hcut.span, Nat.zero_add]
  rcases hcut.kind with ⟨i, e, m, hindex, he, hm, -, hkind, -⟩ | hunknown
  · refine .inr ⟨i, e, hindex, he, hkind, ?_⟩
    rintro ⟨before', rest, hsource', hstart', hrefuse⟩
    obtain ⟨-, rfl⟩ := append_inj_of_byteLength (hsource.symm.trans hsource')
      (hstart.trans hstart'.symm)
    exact not_refuses hm (hrefuse e (List.mem_of_getElem? he))
  · exact .inl ⟨hunknown.index, hunknown.kind, before, _, hsource, hstart, hunknown.refused⟩

theorem first?_whole_eq_none : r.first? .whole text = none ↔
    ∀ e ∈ r.entries, ∀ p ∈ e.patterns, p.matchWhole text = none := by
  simp only [first?, firstFrom_eq_none, Entry.match?, List.findSome?_eq_none_iff, Pattern.match?]

theorem classified_of_words (ht : t ∈ words r source) : Classified r source t .whole := by
  obtain ⟨rest, position, offset, rfl⟩ := mem_cutFrom ht
  cases hfirst : r.first? .whole (rest.takeWhile fun c => !isWhite c) with
  | none =>
    have hpiece : wordPiece r rest = .unknown (rest.takeWhile fun c => !isWhite c) := by
      simp only [wordPiece, hfirst]
    rw [hpiece]
    refine .inl ⟨rfl, rfl, ?_⟩
    simpa [Unmatched, Piece.toToken, Piece.unknown] using first?_whole_eq_none.mp hfirst
  | some hit =>
    have hpiece : wordPiece r rest = ⟨hit.entry.name, hit.found.captures, some hit.index,
        rest.takeWhile fun c => !isWhite c⟩ := by
      simp only [wordPiece, hfirst]
    obtain ⟨i, hi, he, -⟩ := firstFrom_eq_some.mp hfirst
    rw [Nat.zero_add] at hi
    rw [hpiece]
    refine .inr ⟨hit.index, hit.entry, rfl, hi ▸ he, rfl, ?_⟩
    intro hnone
    have hnone : r.first? .whole (rest.takeWhile fun c => !isWhite c) = none := by
      rw [first?_whole_eq_none]
      simpa [Unmatched, Piece.toToken] using hnone
    cases hfirst.symm.trans hnone

theorem classified (ht : t ∈ cutting extent r source) : Classified r source t extent := by
  cases extent with
  | front => exact classified_of_tokens ht
  | whole => exact classified_of_words ht

end Scanner

open DollarScript.Scanner

/-- A token has no index exactly if no kind matches where it stands. Then it is of the unknown kind;
and if nothing was registered under this name, no other token is. -/
theorem unknown_iff_unmatched {names : List String} {r : Registry} (h : r.Built names)
    (source : List Char) (extent : Extent) {t : Token} (ht : t ∈ cutting extent r source) :
    (t.index = none ↔ Unmatched r source t extent) ∧
    (t.index = none → t.isUnknown = true) ∧
    (Kind.unknown ∉ names.map Kind.canonical → (t.isUnknown = true ↔ t.index = none)) := by
  have hkind : t.isUnknown = true ↔ t.kind = Kind.unknown := by
    simp [Token.isUnknown, Token.is]
  rw [hkind]
  rcases classified ht with ⟨hindex, hunknown, hnone⟩ | ⟨i, e, hindex, he, hname, hsome⟩
  · exact ⟨iff_of_true hindex hnone, fun _ => hunknown, fun _ => iff_of_true hunknown hindex⟩
  · have hne : t.index ≠ none := by simp [hindex]
    refine ⟨iff_of_false hne hsome, fun hnone => absurd hnone hne, ?_⟩
    intro hfree
    refine iff_of_false ?_ hne
    intro hunknown
    have hmem := h.named (List.mem_of_getElem? he)
    rw [← hname, hunknown] at hmem
    exact hfree hmem

/-- A grammar with one kind, which stands for the text itself. -/
def oneKind (name text : String) : Grammar := ⟨.default, [⟨name, text, none, true⟩]⟩

/-- The registry of that grammar. -/
def oneKindRegistry (name text : String) : Registry :=
  Registry.empty.register name (.literal text) none

theorem built_oneKind_sign : (oneKindRegistry "sign" "+").Built ["sign"] :=
  .grammar (g := oneKind "sign" "+") rfl

/-- In `+a` both cuts find text that nothing matches. -/
theorem unknown_in_signed :
    (cutting .front (oneKindRegistry "sign" "+") "+a".toList).map Token.kind =
      ["SIGN", Kind.unknown] ∧
    (cutting .whole (oneKindRegistry "sign" "+") "+a".toList).map Token.kind = [Kind.unknown] ∧
    ∀ extent, ∀ t ∈ cutting extent (oneKindRegistry "sign" "+") "+a".toList,
      (t.isUnknown = true ↔ Unmatched (oneKindRegistry "sign" "+") "+a".toList t extent) := by
  refine ⟨by decide, by decide, ?_⟩
  intro extent t ht
  obtain ⟨hunmatched, -, hfree⟩ := unknown_iff_unmatched built_oneKind_sign "+a".toList extent ht
  exact (hfree (by decide)).trans hunmatched

/-- The name of the unknown kind can be registered; what is matched then passes for unknown. -/
theorem unknown_registered :
    ¬ ∀ (r : Registry) (names : List String), r.Built names →
      ∀ (source : List Char) (extent : Extent), ∀ t ∈ cutting extent r source,
        (t.isUnknown = true ↔ t.index = none) := by
  intro h
  have hbuilt : (oneKindRegistry "unknown" "a").Built ["unknown"] :=
    .grammar (g := oneKind "unknown" "a") rfl
  have ht : (⟨Kind.unknown, "a", [], some 0, .origin, ⟨0, 1⟩⟩ : Token) ∈
      cutting .front (oneKindRegistry "unknown" "a") ['a'] := by decide
  have hindex := (h _ _ hbuilt ['a'] .front _ ht).mp (by decide)
  cases hindex

end DollarScript
