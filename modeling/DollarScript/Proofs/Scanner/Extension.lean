import DollarScript.Parser
import DollarScript.Proofs.Scanner.Unmatched

/-! A kind that is added behind all others is only asked where none of them matches: up to the first
such place a source is cut as before. -/
namespace DollarScript

namespace Registry

variable {r : Registry} {extent : Extent} {text : List Char} {index : Nat}
  {entries more : List Entry} {hit : Hit} {name : String}

/-- The first kind that matches is not moved or hidden by kinds behind it. -/
theorem firstFrom_append (h : firstFrom extent text index entries = some hit) :
    firstFrom extent text index (entries ++ more) = some hit := by
  obtain ⟨i, hindex, hentry, hfound, hbefore⟩ := firstFrom_eq_some.mp h
  have hi : i < entries.length := (List.getElem?_eq_some_iff.mp hentry).1
  refine firstFrom_eq_some.mpr ⟨i, hindex, ?_, hfound, ?_⟩
  · rwa [List.getElem?_append_left hi]
  · intro k hk
    rw [List.getElem?_append_left (by omega)]
    exact hbefore k hk

/-- The entry of a new name comes behind all others, which stay as they are. -/
theorem register_new (pattern : Pattern) (hnew : Kind.canonical name ∉ r.entries.map Entry.name) :
    r.register name pattern none = ⟨r.entries ++ [⟨Kind.canonical name, 0, [pattern]⟩]⟩ := by
  rcases addPattern_cases (Kind.canonical name) pattern none r.entries with
    ⟨-, heq⟩ | ⟨front, e, back, hentries, hname, -⟩
  · simp [register, heq, Entry.extend]
  · refine absurd ?_ hnew
    rw [hentries, ← hname]
    exact List.mem_map_of_mem (by simp)

end Registry

namespace Scanner

open Text Registry

/-- The piece in front of a text, or the word there. -/
def cutter : Extent → Registry → List Char → Piece
  | .front => frontPiece
  | .whole => wordPiece

theorem cutting_eq (extent : Extent) (r : Registry) (source : List Char) :
    cutting extent r source = cutFrom (cutter extent r) 0 .origin 0 source := by
  cases extent <;> rfl

/-- The second cut agrees with the first wherever that one finds a kind. -/
def Refines (cut' cut : List Char → Piece) : Prop :=
  ∀ text, (cut text).index ≠ none → cut' text = cut text

/-- Both lists go on alike until the first has a token that no kind matched. -/
inductive InStep : List Token → List Token → Prop
  | done : InStep [] []
  | both {t ts us} : InStep ts us → InStep (t :: ts) (t :: us)
  | apart {t ts us} : t.index = none → InStep (t :: ts) us

variable {entries : List Entry} {cut cut' : List Char → Piece} {ts us : List Token}

theorem frontPiece_refines (more : List Entry) :
    Refines (frontPiece ⟨entries ++ more⟩) (frontPiece ⟨entries⟩) := by
  intro text hknown
  cases hfirst : first? ⟨entries⟩ .front text with
  | none => simp [frontPiece, hfirst, Piece.unknown] at hknown
  | some hit =>
    have hfirst' : first? ⟨entries ++ more⟩ .front text = some hit := firstFrom_append hfirst
    simp only [frontPiece, hfirst, hfirst']

theorem wordPiece_refines (more : List Entry) :
    Refines (wordPiece ⟨entries ++ more⟩) (wordPiece ⟨entries⟩) := by
  intro text hknown
  cases hfirst : first? ⟨entries⟩ .whole (text.takeWhile fun c => !isWhite c) with
  | none => simp [wordPiece, hfirst, Piece.unknown] at hknown
  | some hit =>
    have hfirst' : first? ⟨entries ++ more⟩ .whole (text.takeWhile fun c => !isWhite c) =
      some hit := firstFrom_append hfirst
    simp only [wordPiece, hfirst, hfirst']

theorem cutter_refines (extent : Extent) (more : List Entry) :
    Refines (cutter extent ⟨entries ++ more⟩) (cutter extent ⟨entries⟩) := by
  cases extent with
  | front => exact frontPiece_refines more
  | whole => exact wordPiece_refines more

theorem InStep.takeWhile_known (h : InStep ts us) :
    ts.takeWhile (·.index.isSome) <+: us := by
  induction h with
  | done => exact List.prefix_rfl
  | @both t ts us _ ih =>
    cases ht : t.index with
    | none => simp [ht]
    | some i => simpa [ht] using ih
  | apart ht => simp [ht]

theorem InStep.eq_of_known (h : InStep ts us) (hknown : ∀ t ∈ ts, t.index ≠ none) : us = ts := by
  induction h with
  | done => rfl
  | both _ ih => rw [ih fun t ht => hknown t (List.mem_cons_of_mem _ ht)]
  | apart ht => exact absurd ht (hknown _ List.mem_cons_self)

/-- As long as both cuts find the same, both have the same left to pass over and stand at the same
place. -/
theorem Refines.inStep (h : Refines cut' cut) (skip : Nat) (position : Position) (offset : Nat)
    (text : List Char) :
    InStep (cutFrom cut skip position offset text) (cutFrom cut' skip position offset text) := by
  induction text generalizing skip position offset with
  | nil => exact .done
  | cons c text ih =>
    cases skip with
    | succ skip => exact ih skip _ _
    | zero =>
      simp only [cutFrom]
      split
      · exact ih 0 _ _
      · cases hindex : (cut (c :: text)).index with
        | none => exact .apart hindex
        | some i =>
          rw [h (c :: text) (by simp [hindex])]
          exact .both (ih _ _ _)

theorem cutting_inStep (r : Registry) (more : List Entry) (extent : Extent) (source : List Char) :
    InStep (cutting extent r source) (cutting extent ⟨r.entries ++ more⟩ source) := by
  rw [cutting_eq, cutting_eq]
  exact (cutter_refines extent more).inStep 0 .origin 0 source

end Scanner

open DollarScript.Scanner

/-- A pattern added under a new name changes nothing up to the first token that no kind matched.
If there is no such token, nothing is changed at all, and a parse gives the same. -/
theorem addPattern_conservative (r : Registry) (name : String) (pattern : Pattern)
    (source : List Char) (hnew : Kind.canonical name ∉ r.entries.map Entry.name) :
    let r' := (Call.addPattern name pattern).run r
    (∀ extent, (cutting extent r source).takeWhile (·.index.isSome) <+: cutting extent r' source) ∧
    (∀ extent, (∀ t ∈ cutting extent r source, t.index ≠ none) →
      cutting extent r' source = cutting extent r source) ∧
    ((∀ t ∈ (scan r source).tokens, t.index ≠ none) → scan r' source = scan r source ∧
      ∀ options, parse r' options source = parse r options source) := by
  intro r'
  have hr' : r' = ⟨r.entries ++ [⟨Kind.canonical name, 0, [pattern]⟩]⟩ :=
    Registry.register_new pattern hnew
  have hstep : ∀ extent, InStep (cutting extent r source) (cutting extent r' source) := by
    intro extent
    rw [hr']
    exact cutting_inStep r _ extent source
  refine ⟨fun extent => (hstep extent).takeWhile_known,
    fun extent => (hstep extent).eq_of_known, ?_⟩
  intro hknown
  have htokens : tokens r' source = tokens r source := (hstep .front).eq_of_known hknown
  have hscan : scan r' source = scan r source := by
    rw [scan, scan, htokens]
  refine ⟨hscan, fun options => ?_⟩
  rw [parse, parse, hscan]

/-- In `++a+` a kind for letters is asked at the letter; in `++` it makes no difference. -/
theorem addPattern_letter :
    let r := oneKindRegistry "sign" "+"
    let r' := (Call.addPattern "letter" (.literal "a")).run r
    (tokens r' "++a+".toList).map Token.kind = ["SIGN", "SIGN", "LETTER", "SIGN"] ∧
    (tokens r "++a+".toList).takeWhile (·.index.isSome) <+: tokens r' "++a+".toList ∧
    (parse r' .default "++".toList).errors = (parse r .default "++".toList).errors := by
  have hnew : Kind.canonical "letter" ∉ (oneKindRegistry "sign" "+").entries.map Entry.name := by
    decide
  have hmixed := addPattern_conservative _ "letter" (.literal "a") "++a+".toList hnew
  have hsigns := addPattern_conservative _ "letter" (.literal "a") "++".toList hnew
  refine ⟨by decide, hmixed.1 .front, ?_⟩
  rw [(hsigns.2.2 (by decide)).2]

end DollarScript
