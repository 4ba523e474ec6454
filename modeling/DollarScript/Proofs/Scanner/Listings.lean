import DollarScript.Command.Run
import DollarScript.Proofs.Registry.Builtin
import DollarScript.Proofs.Scanner.Unmatched
import DollarScript.Proofs.Text.Quotation

/-! A listing has one line for each token, and what it tells of the tokens can be read back: the
texts may hold any characters, only the kinds have to be words. -/
namespace DollarScript

open Text

namespace Token

/-- The kind has no blanks in it. -/
def WordKind (t : Token) : Prop := ∀ c ∈ t.kind.toList, isWhite c = false

/-- The tokens agree in all that a listing tells of them. -/
structure ListedAlike (t u : Token) : Prop where
  line : t.position.line = u.position.line
  column : t.position.column = u.position.column
  kind : t.kind = u.kind
  text : t.text = u.text

variable {t u : Token} {ts us : List Token} {m n : Nat} {rest rest' : List Char}

/-- Evaluation goes through the characters of the name, not through all there are. -/
theorem wordKind_iff (t : Token) : t.WordKind ↔ t.kind.toList.all (!isWhite ·) = true := by
  simp [WordKind]

instance (t : Token) : Decidable t.WordKind := decidable_of_iff _ t.wordKind_iff.symm

theorem digits_naturalText (n : Nat) : ∀ c ∈ (Json.naturalText n).toList, c.isDigit = true := by
  intro c hc
  rw [Json.naturalText, String.toList_ofList] at hc
  exact Nat.isDigit_of_mem_toDigits (by decide) (by decide) hc

theorem naturalText_unique (hrest : Stops Char.isDigit rest) (hrest' : Stops Char.isDigit rest')
    (h : (Json.naturalText m).toList ++ rest = (Json.naturalText n).toList ++ rest') :
    m = n ∧ rest = rest' := by
  obtain ⟨hdigits, hmore⟩ :=
    run_unique (digits_naturalText m) hrest (digits_naturalText n) hrest' h
  rw [Json.naturalText, Json.naturalText, String.toList_ofList, String.toList_ofList] at hdigits
  have hvalue := congrArg (Nat.ofDigitChars 10 · 0) hdigits
  simp only [Nat.ofDigitChars_ten_toDigits] at hvalue
  exact ⟨hvalue, hmore⟩

theorem listing_toList (t : Token) :
    t.listing.toList = (Json.naturalText t.position.line).toList ++ ':' ::
      ((Json.naturalText t.position.column).toList ++ ' ' ::
        (t.kind.toList ++ ' ' :: (quoted t.text).toList)) := by
  simp [listing]

/-- The first colon ends the line number, the first blank the column, and the next one the kind. -/
theorem listedAlike_of_listing (ht : t.WordKind) (hu : u.WordKind) (h : t.listing = u.listing) :
    t.ListedAlike u := by
  have hchars := congrArg String.toList h
  rw [listing_toList, listing_toList] at hchars
  have hcolon : ∀ rest, Stops Char.isDigit (':' :: rest) := fun _ => stops_cons.mpr rfl
  have hblank : ∀ rest, Stops Char.isDigit (' ' :: rest) := fun _ => stops_cons.mpr rfl
  have hend : ∀ rest, Stops (fun c => !isWhite c) (' ' :: rest) :=
    fun _ => stops_cons.mpr (by decide)
  obtain ⟨hline, hchars⟩ := naturalText_unique (hcolon _) (hcolon _) hchars
  obtain ⟨hcolumn, hchars⟩ := naturalText_unique (hblank _) (hblank _) (List.cons.inj hchars).2
  obtain ⟨hkind, hchars⟩ := run_unique (by simpa [WordKind] using ht) (hend _)
    (by simpa [WordKind] using hu) (hend _) (List.cons.inj hchars).2
  exact ⟨hline, hcolumn, String.toList_inj.mp hkind,
    quoted_injective (String.toList_inj.mp (List.cons.inj hchars).2)⟩

theorem newline_not_mem_listing (ht : t.WordKind) : '\n' ∉ t.listing.toList := by
  have hdigits : ∀ n, '\n' ∉ (Json.naturalText n).toList := by
    intro n hmem
    cases digits_naturalText n _ hmem
  have hkind : '\n' ∉ t.kind.toList := by
    intro hmem
    cases ht _ hmem
  simp [listing_toList, hdigits, hkind, newline_not_mem_quoted]

/-- Cut at the line ends, a listing gives the lines of the tokens and nothing behind the last. -/
theorem splitOn_listings (hts : ∀ t ∈ ts, t.WordKind) :
    (listings ts).toList.splitOn '\n' = ts.map (·.listing.toList) ++ [[]] := by
  induction ts with
  | nil => rfl
  | cons t ts ih =>
    have hcons : (listings (t :: ts)).toList = t.listing.toList ++ '\n' :: (listings ts).toList := by
      simp [listings]
    rw [hcons, List.splitOn_append_cons_self_of_not_mem
      (newline_not_mem_listing (hts t List.mem_cons_self)),
      ih fun u hu => hts u (List.mem_cons_of_mem _ hu)]
    rfl

theorem listedAlike_of_listings (hts : ∀ t ∈ ts, t.WordKind) (hus : ∀ t ∈ us, t.WordKind)
    (h : listings ts = listings us) : List.Forall₂ ListedAlike ts us := by
  have hlines : ts.map (·.listing.toList) = us.map (·.listing.toList) := by
    have hsplit := congrArg (fun s => s.toList.splitOn '\n') h
    simp only [splitOn_listings hts, splitOn_listings hus] at hsplit
    exact List.append_cancel_right hsplit
  rw [← List.forall₂_eq_eq_eq, List.forall₂_map_left_iff, List.forall₂_map_right_iff] at hlines
  clear h
  induction hlines with
  | nil => exact .nil
  | cons hline _ ih =>
    refine .cons (listedAlike_of_listing (hts _ List.mem_cons_self) (hus _ List.mem_cons_self)
      (String.toList_inj.mp hline)) ?_
    exact ih (fun t ht => hts t (List.mem_cons_of_mem _ ht))
      fun u hu => hus u (List.mem_cons_of_mem _ hu)

end Token

namespace Scanner

open Registry

variable {r : Registry} {t : Token} {source : List Char} {extent : Extent}

/-- Tokens are of the kinds of the registry, or of none. -/
theorem wordKind_of_cutting (hr : ∀ e ∈ r.entries, e.name.toList.all (!isWhite ·) = true)
    (ht : t ∈ cutting extent r source) : t.WordKind := by
  rw [Token.wordKind_iff]
  rcases classified ht with ⟨-, hkind, -⟩ | ⟨i, e, -, he, hkind, -⟩
  · rw [hkind]
    decide
  · rw [hkind]
    exact hr e (List.mem_of_getElem? he)

theorem wordKind_builtin (ht : t ∈ cutting extent builtin source) : t.WordKind := by
  refine wordKind_of_cutting ?_ ht
  rw [builtin_entries]
  decide

end Scanner

open DollarScript.Scanner

/-- A listing of tokens whose kinds are words has a line for each token, whatever is in the texts,
and nothing else; tokens with the same listing agree, one by one, in line, column, kind and text.
All kinds of the built-in registry are words. -/
theorem listings_readable {request : LexRequest} (hplain : request.json = false)
    {ts us : List Token} (hts : ∀ t ∈ ts, t.WordKind) (hus : ∀ t ∈ us, t.WordKind) :
    (request.listing ts).toList.splitOn '\n' = ts.map (·.listing.toList) ++ [[]] ∧
    (request.listing ts = request.listing us → List.Forall₂ Token.ListedAlike ts us) ∧
    ∀ extent source, ∀ t ∈ cutting extent Registry.builtin source, t.WordKind := by
  have hlisting : ∀ ts, request.listing ts = Token.listings ts := by
    simp [LexRequest.listing, hplain]
  rw [hlisting, hlisting]
  exact ⟨Token.splitOn_listings hts, Token.listedAlike_of_listings hts hus,
    fun _ _ _ => wordKind_builtin⟩

/-- A string with a line end and quotes in it, and an accent that nothing stands under. -/
def awkwardTokens : List Token := [
  ⟨"STRING", "\"a\nb\"", [], some 0, ⟨1, 1⟩, ⟨0, 5⟩⟩,
  ⟨Kind.unknown, "\u0301", [], none, ⟨2, 3⟩, ⟨5, 7⟩⟩]

/-- Both tokens are listed on one line, and no other tokens are listed like this. -/
theorem listings_readable_awkward :
    (∀ t ∈ awkwardTokens, t.WordKind) ∧
    awkwardTokens.map Token.listing =
      ["1:1 STRING \"\\\"a\\nb\\\"\"", "2:3 UNKNOWN \"\\u\x7b301\x7d\""] ∧
    (LexRequest.listing ⟨"a.sg", false, false, none⟩ awkwardTokens).toList.splitOn '\n' =
      awkwardTokens.map (·.listing.toList) ++ [[]] ∧
    ∀ us : List Token, (∀ u ∈ us, u.WordKind) →
      LexRequest.listing ⟨"a.sg", false, false, none⟩ awkwardTokens =
        LexRequest.listing ⟨"a.sg", false, false, none⟩ us →
      List.Forall₂ Token.ListedAlike awkwardTokens us := by
  have hwords : ∀ t ∈ awkwardTokens, t.WordKind := by decide
  refine ⟨hwords, by decide +kernel, (listings_readable rfl hwords hwords).1, ?_⟩
  intro us hus
  exact (listings_readable rfl hwords hus).2.1

end DollarScript
