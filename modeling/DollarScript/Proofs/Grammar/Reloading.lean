import DollarScript.Grammar.File
import DollarScript.Proofs.Toml.Lines
import DollarScript.Proofs.Toml.Scalars
import DollarScript.Proofs.Toml.Strings

/-! Grammar files: what is read back from the file that was written for a grammar. -/
namespace DollarScript

open Toml

/-- Priorities have 32 bits with a sign. -/
def TokenSpec.Fits (t : TokenSpec) : Prop := ∀ n ∈ t.priority, -2 ^ 31 ≤ n ∧ n < 2 ^ 31

/-- The nesting limit has 64 bits, and the priorities of all kinds have 32 with a sign. -/
structure Grammar.Fits (g : Grammar) : Prop where
  limit : g.parser.maxNesting < 2 ^ 64
  priorities : ∀ t ∈ g.tokens, t.Fits

/-- A file without a delimiter has the usual one. -/
def ParserSection.reloaded (p : ParserSection) : ParserSection :=
  { p with conditionDelimiter := some (p.conditionDelimiter.getD Kind.colon) }

def Grammar.reloaded (g : Grammar) : Grammar := { g with parser := g.parser.reloaded }

/-! ### Lines -/

namespace Grammar

variable {key : String}

theorem pairLine_of {value : Value} {written : List Char} (h : Bare key.toList)
    (hfirst : ∃ c more, written = c :: more ∧ isBlank c = false)
    (hread : ∀ rest, readValue? depthLimit (written ++ '\n' :: rest) =
      some (value, '\n' :: rest)) :
    PairLine key value (key.toList ++ " = ".toList ++ written ++ "\n".toList) := by
  obtain ⟨c, more, rfl, hc⟩ := hfirst
  have hline := PairLine.intro h hc hread
  rw [String.ofList_toList] at hline
  simpa using hline

theorem pairLine_string (h : Bare key.toList) (s : String) :
    PairLine key (.str s) (stringLine key s).toList := by
  simp only [stringLine, String.toList_append, String.toList_ofList]
  refine pairLine_of h ?_ fun rest => ?_
  · obtain ⟨quote, more, heq, hquote⟩ := written_head s.toList
    refine ⟨quote, more, heq, ?_⟩
    rcases hquote with rfl | rfl <;> rfl
  · have hread := readValue?_string (readString?_written s.toList rest) depthLimit
    rwa [String.ofList_toList] at hread

theorem pairLine_boolean (h : Bare key.toList) (b : Bool) :
    PairLine key (.boolean b)
      (key.toList ++ " = ".toList ++ (if b then "true" else "false").toList ++ "\n".toList) := by
  refine pairLine_of h ?_ (readValue?_boolean b depthLimit)
  cases b
  · exact ⟨_, _, rfl, rfl⟩
  · exact ⟨_, _, rfl, rfl⟩

theorem pairLine_natural (h : Bare key.toList) {n : Nat} (hn : n < 2 ^ 64) :
    PairLine key (.integer n)
      (key.toList ++ " = ".toList ++ (Json.naturalText n).toList ++ "\n".toList) := by
  simp only [Json.naturalText, String.toList_ofList]
  refine pairLine_of h ?_ (readValue?_toDigits hn depthLimit)
  have hdigits := isDigit_toDigits n
  cases hcs : Nat.toDigits 10 n with
  | nil => exact absurd hcs (List.ne_nil_of_length_pos Nat.length_toDigits_pos)
  | cons c more =>
    refine ⟨c, more, rfl, ?_⟩
    have hdigit := hdigits c (by simp [hcs])
    cases hc : isBlank c with
    | false => rfl
    | true =>
      simp only [isBlank, Bool.or_eq_true, beq_iff_eq] at hc
      rcases hc with rfl | rfl <;> exact absurd hdigit (by decide)

theorem pairLine_int (h : Bare key.toList) {n : Int} (hn : -2 ^ 31 ≤ n ∧ n < 2 ^ 31) :
    PairLine key (.integer n)
      (key.toList ++ " = ".toList ++ (intText n).toList ++ "\n".toList) := by
  by_cases hneg : n < 0
  · have hvalue : n = -(n.natAbs : Int) := by omega
    have hread := readValue?_signed (show n.natAbs ≤ 2 ^ 64 by omega) depthLimit
    have htext : (intText n).toList = '-' :: Nat.toDigits 10 n.natAbs := by
      simp [intText, hneg, Json.naturalText]
    rw [← hvalue] at hread
    rw [htext]
    exact pairLine_of h ⟨_, _, rfl, rfl⟩ hread
  · have hvalue : n = (n.toNat : Int) := by omega
    have hline := pairLine_natural h (show n.toNat < 2 ^ 64 by omega)
    rw [← hvalue] at hline
    rwa [intText, if_neg hneg]

/-! ### Sections -/

/-- The entries under the header of the parser. -/
def parserEntries (p : ParserSection) : Entries :=
  (p.conditionDelimiter.map fun kind => ("condition_delimiter", Value.str kind)).toList ++
    [("require_delimiter", .boolean p.requireDelimiter), ("max_nesting", .integer p.maxNesting)]

/-- The entries under the header of a kind. -/
def tokenEntries (t : TokenSpec) : Entries :=
  [("name", .str t.name), ("pattern", .str t.pattern)] ++
    ((t.priority.map fun n => ("priority", Value.integer n)).toList ++
      if t.literal then [("literal", .boolean true)] else [])

def tokenTable (t : TokenSpec) : Value := .table .header (tokenEntries t)

theorem parserEntries_distinct (p : ParserSection) : ((parserEntries p).map Prod.fst).Nodup := by
  cases hd : p.conditionDelimiter <;> simp [parserEntries, hd]

theorem tokenEntries_distinct (t : TokenSpec) : ((tokenEntries t).map Prod.fst).Nodup := by
  cases hp : t.priority <;> cases hl : t.literal <;> simp [tokenEntries, hp, hl]

theorem parserText_lines {p : ParserSection} (hn : p.maxNesting < 2 ^ 64) :
    ∃ lines, (parserText p).toList = "[parser]\n".toList ++ lines ∧
      PairLines (parserEntries p) lines := by
  have hrequired := pairLine_boolean (show Bare "require_delimiter".toList by decide)
    p.requireDelimiter
  have hnesting := pairLine_natural (show Bare "max_nesting".toList by decide) hn
  have hsettings := PairLines.cons hrequired hnesting.single
  cases hd : p.conditionDelimiter with
  | none =>
    refine ⟨_, ?_, by rw [parserEntries, hd]; exact hsettings⟩
    delta parserText
    simp [hd]
  | some kind =>
    have hdelimiter := pairLine_string (show Bare "condition_delimiter".toList by decide) kind
    refine ⟨_, ?_, by rw [parserEntries, hd]; exact hdelimiter.single.append hsettings⟩
    delta parserText
    simp [hd]

theorem tokenText_lines {t : TokenSpec} (h : t.Fits) :
    ∃ lines, (tokenText t).toList = "\n[[token]]\n".toList ++ lines ∧
      PairLines (tokenEntries t) lines := by
  have hname := pairLine_string (show Bare "name".toList by decide) t.name
  have hpattern := pairLine_string (show Bare "pattern".toList by decide) t.pattern
  have hpriority : ∃ line : String,
      PairLines (t.priority.map fun n => ("priority", Value.integer n)).toList line.toList ∧
      tokenText t = "\n[[token]]\n" ++ stringLine "name" t.name ++ stringLine "pattern" t.pattern
        ++ line ++ (if t.literal then "literal = true\n" else "") := by
    cases hp : t.priority with
    | none => exact ⟨"", .nil, by rw [tokenText, hp]⟩
    | some n =>
      have hline := pairLine_int (show Bare "priority".toList by decide) (h n hp)
      exact ⟨"priority = " ++ intText n ++ "\n", by simpa using hline.single, by rw [tokenText, hp]⟩
  obtain ⟨line, hline, htext⟩ := hpriority
  have hliteral : PairLines (if t.literal then [("literal", Value.boolean true)] else [])
      (if t.literal then "literal = true\n" else "").toList := by
    cases t.literal with
    | false => exact .nil
    | true => exact (pairLine_boolean (show Bare "literal".toList by decide) true).single
  refine ⟨_, ?_, .cons hname (.cons hpattern (hline.append hliteral))⟩
  rw [htext, String.toList_append, String.toList_append, String.toList_append,
    String.toList_append, List.append_assoc, List.append_assoc, List.append_assoc]

/-! ### The document -/

/-- The parser section `v`, and behind it the tables of the kinds, once there is one. -/
def document (v : Value) (tables : List Value) : Entries :=
  ("parser", v) :: if tables.isEmpty then [] else [("token", .array true tables)]

theorem receives_settings {preamble : Entries} (h : preamble.lookup "parser" = none) :
    Receives ["parser"] fun inner => preamble ++ [("parser", .table .header inner)] := by
  intro key value inner hnew
  have hlookup : List.lookup "parser" (preamble ++ [("parser", Value.table .header inner)]) =
      some (.table .header inner) := by
    simp [List.lookup_append, h]
  rw [Entries.insertAt, Entries.descend, hlookup]
  simp only [Entries.descend, Entries.insert_new value hnew, Entries.replace_append,
    Entries.replace_of_new _ h]
  simp [Entries.replace]

theorem receives_token (v : Value) (tables : List Value) :
    Receives ["token"] fun inner => document v (tables ++ [.table .header inner]) := by
  intro key value inner hnew
  have hlookup : List.lookup "token" (document v (tables ++ [.table .header inner])) =
      some (.array true (tables ++ [.table .header inner])) := by
    simp [document, List.lookup_cons]
  rw [Entries.insertAt, Entries.descend, hlookup]
  simp [Entries.descend, Entries.insert_new value hnew, document, Entries.replace]

theorem openItem_document (v : Value) (tables : List Value) :
    Entries.openItem ["token"] (document v tables) =
      some (document v (tables ++ [.table .header []])) := by
  by_cases h : tables = []
  · simp [Entries.openItem, Entries.splitLast, Entries.descend, document, h, List.lookup_cons]
  · simp [Entries.openItem, Entries.splitLast, Entries.descend, document, h, List.lookup_cons,
      Entries.replace]

theorem reads_parserText {p : ParserSection} (hn : p.maxNesting < 2 ^ 64) {preamble : Entries}
    (h : preamble.lookup "parser" = none) (current : List String) :
    Reads (parserText p).toList ⟨preamble, current⟩
      ⟨preamble ++ [("parser", .table .header (parserEntries p))], ["parser"]⟩ := by
  obtain ⟨lines, htext, hlines⟩ := parserText_lines hn
  have hopen : Entries.openTable ["parser"] preamble =
      some (preamble ++ [("parser", .table .header [])]) := by
    simp [Entries.openTable, Entries.splitLast, Entries.descend, h]
  have hheader : Reads "[parser]\n".toList ⟨preamble, current⟩
      ⟨preamble ++ [("parser", .table .header [])], ["parser"]⟩ :=
    reads_header (show Bare "parser".toList by decide) hopen
  rw [htext]
  exact hheader.append (hlines.reads (receives_settings h) (parserEntries_distinct p))

theorem reads_tokenText {t : TokenSpec} (h : t.Fits) (v : Value) (tables : List Value)
    (current : List String) :
    Reads (tokenText t).toList ⟨document v tables, current⟩
      ⟨document v (tables ++ [tokenTable t]), ["token"]⟩ := by
  obtain ⟨lines, htext, hlines⟩ := tokenText_lines h
  have hheader : Reads "[[token]]\n".toList ⟨document v tables, current⟩
      ⟨document v (tables ++ [.table .header []]), ["token"]⟩ :=
    reads_itemHeader (show Bare "token".toList by decide) (openItem_document v tables)
  rw [htext]
  exact ((reads_blankLine _).append hheader).append
    (hlines.reads (receives_token v tables) (tokenEntries_distinct t))

theorem reads_tokenTexts {ts : List TokenSpec} (h : ∀ t ∈ ts, t.Fits) (v : Value)
    (tables : List Value) (current : List String) :
    ∃ current', Reads (String.join (ts.map tokenText)).toList ⟨document v tables, current⟩
      ⟨document v (tables ++ ts.map tokenTable), current'⟩ := by
  induction ts generalizing tables current with
  | nil => exact ⟨current, by simpa using .nil _⟩
  | cons t ts ih =>
    have hfirst := reads_tokenText (h t List.mem_cons_self) v tables current
    obtain ⟨current', hothers⟩ :=
      ih (fun t ht => h t (List.mem_cons_of_mem _ ht)) (tables ++ [tokenTable t]) ["token"]
    refine ⟨current', ?_⟩
    rw [List.map_cons, List.map_cons, String.join_cons, String.toList_append, List.append_cons]
    exact hfirst.append hothers

theorem reads_noTokens : Reads "token = []\n\n".toList ⟨[], []⟩
    ⟨[("token", .array false [])], []⟩ := by
  have hread : ∀ rest, readValue? depthLimit (['[', ']'] ++ '\n' :: rest) =
      some (.array false [], '\n' :: rest) := fun rest => rfl
  have hline : PairLine "token" (.array false []) "token = []\n".toList :=
    pairLine_of (by decide) ⟨_, _, rfl, rfl⟩ hread
  exact (hline.reads rfl).append (reads_blankLine _)

/-! ### Records -/

theorem ofValue?_parserEntries {p : ParserSection} (hn : p.maxNesting < 2 ^ 64) :
    ParserSection.ofValue? (.table .header (parserEntries p)) = some p.reloaded := by
  have hsize : Value.asSize? (.integer p.maxNesting) = some p.maxNesting := by
    have hlimit : Int.pow 2 64 = 18446744073709551616 := by decide
    rw [Value.asSize?, hlimit, if_pos (by omega), Int.toNat_natCast]
  cases hd : p.conditionDelimiter <;>
    simp [ParserSection.ofValue?, Value.fieldOr, Value.field?, parserEntries, hd, hsize,
      List.lookup_cons, Value.asString?, Value.asBool?, ParserSection.reloaded]

theorem ofValue?_tokenTable {t : TokenSpec} (h : t.Fits) :
    TokenSpec.ofValue? (tokenTable t) = some t := by
  obtain ⟨name, pattern, priority, literal⟩ := t
  have hpriority : ∀ n ∈ priority, Value.asPriority? (.integer n) = some n := by
    intro n hn
    exact if_pos (h n hn)
  cases priority <;> cases literal <;>
    simp_all [TokenSpec.ofValue?, Value.fieldOr, Value.field?, tokenTable, tokenEntries,
      List.lookup_cons, Value.asString?, Value.asBool?]

theorem ofValues?_tokenTables {ts : List TokenSpec} (h : ∀ t ∈ ts, t.Fits) :
    TokenSpec.ofValues? (ts.map tokenTable) = some ts := by
  induction ts with
  | nil => rfl
  | cons t ts ih =>
    have hfirst := ofValue?_tokenTable (h t List.mem_cons_self)
    have hothers := ih fun t ht => h t (List.mem_cons_of_mem _ ht)
    rw [List.map_cons, TokenSpec.ofValues?, hfirst, hothers]
    rfl

/-! ### Whole files -/

theorem ofText?_eq_bind (text : String) :
    ofText? text = (Toml.read? text.toList).bind ofEntries? := rfl

theorem ofText?_noTokens {p : ParserSection} (hn : p.maxNesting < 2 ^ 64) :
    ofText? ("token = []\n\n" ++ parserText p) = some ⟨p.reloaded, []⟩ := by
  have hreads := reads_noTokens.append (reads_parserText hn (by rfl) [])
  have hread := hreads.read? fun more heq => by cases heq
  rw [ofText?_eq_bind, String.toList_append, hread]
  simp [ofEntries?, List.lookup_cons, ofValue?_parserEntries hn, TokenSpec.ofArray?,
    TokenSpec.ofValues?]

theorem ofText?_tokens {p : ParserSection} {ts : List TokenSpec} (hn : p.maxNesting < 2 ^ 64)
    (hfits : ∀ t ∈ ts, t.Fits) (hne : ts ≠ []) :
    ofText? (parserText p ++ String.join (ts.map tokenText)) = some ⟨p.reloaded, ts⟩ := by
  obtain ⟨lines, htext, -⟩ := parserText_lines hn
  have hparser : Reads (parserText p).toList ⟨[], []⟩
      ⟨document (.table .header (parserEntries p)) [], ["parser"]⟩ :=
    reads_parserText hn (by rfl) []
  obtain ⟨current, htokens⟩ :=
    reads_tokenTexts hfits (.table .header (parserEntries p)) [] ["parser"]
  have hread := (hparser.append htokens).read? fun more heq => by rw [htext] at heq; cases heq
  rw [ofText?_eq_bind, String.toList_append, hread]
  simp [ofEntries?, document, hne, List.lookup_cons, ofValue?_parserEntries hn, TokenSpec.ofArray?,
    ofValues?_tokenTables hfits]

/-- A written file reads as the grammar it was written for, with the usual delimiter where the
grammar has none. -/
theorem ofText?_toText {g : Grammar} (hfits : g.Fits) : ofText? g.toText = some g.reloaded := by
  obtain ⟨p, tokens⟩ := g
  by_cases hempty : tokens = []
  · subst hempty
    simpa [toText, reloaded] using ofText?_noTokens hfits.limit
  · simpa [toText, reloaded, hempty] using ofText?_tokens hfits.limit hfits.priorities hempty

/-! ### What a file gives -/

/-- What holds of everything that `read` gives, and of the default, holds of a field. -/
theorem fieldOr_of {α : Type} (P : α → Prop) {v : Value} {names : List String} {name : String}
    {read : Value → Option α} {default : Option α} {a : α} (hread : ∀ f a, read f = some a → P a)
    (hdefault : ∀ a ∈ default, P a) (h : v.fieldOr names name read default = some a) : P a := by
  unfold Value.fieldOr at h
  split at h
  · exact hread _ a h
  · exact hdefault a h
  · cases h

/-- The same of a section, which may be left out of the file. -/
theorem elim_of {α : Type} (P : α → Prop) {v? : Option Value} {read : Value → Option α}
    {default a : α} (hdefault : P default) (hread : ∀ v a, read v = some a → P a)
    (h : v?.elim (some default) read = some a) : P a := by
  cases v? with
  | none =>
    obtain rfl := Option.some.inj h
    exact hdefault
  | some v => exact hread v a h

theorem lt_of_asSize? {f : Value} {n : Nat} (h : f.asSize? = some n) : n < 2 ^ 64 := by
  unfold Value.asSize? at h
  split at h
  · split at h
    · rename_i hrange
      have hlimit : Int.pow 2 64 = 18446744073709551616 := by decide
      rw [hlimit] at hrange
      obtain rfl := Option.some.inj h
      omega
    · cases h
  · cases h

/-- A section that comes from a file has a delimiter, and a limit of 64 bits. -/
theorem section_of_ofValue? {v : Value} {p : ParserSection}
    (h : ParserSection.ofValue? v = some p) :
    p.conditionDelimiter.isSome ∧ p.maxNesting < 2 ^ 64 := by
  simp only [ParserSection.ofValue?, Option.bind_eq_bind, Option.bind_eq_some_iff,
    Option.pure_def, Option.some.injEq] at h
  obtain ⟨delimiter, hdelimiter, _, -, nesting, hnesting, rfl⟩ := h
  constructor
  · refine fieldOr_of (Option.isSome ·) (fun f a hf => ?_) (fun a ha => ?_) hdelimiter
    · obtain ⟨kind, -, rfl⟩ := Option.map_eq_some_iff.mp hf
      rfl
    · obtain rfl := Option.some.inj ha
      rfl
  · refine fieldOr_of (· < 2 ^ 64) (fun f a hf => lt_of_asSize? hf) (fun a ha => ?_) hnesting
    obtain rfl := Option.some.inj ha
    decide

theorem fits_of_ofValue? {v : Value} {t : TokenSpec} (h : TokenSpec.ofValue? v = some t) :
    t.Fits := by
  simp only [TokenSpec.ofValue?, Option.bind_eq_bind, Option.bind_eq_some_iff,
    Option.pure_def, Option.some.injEq] at h
  obtain ⟨_, -, _, -, priority, hpriority, _, -, rfl⟩ := h
  refine fieldOr_of (fun priority => ∀ n ∈ priority, -2 ^ 31 ≤ n ∧ n < 2 ^ 31)
    (fun f a hf => ?_) (fun a ha => ?_) hpriority
  · obtain ⟨n, hn, rfl⟩ := Option.map_eq_some_iff.mp hf
    intro m hm
    obtain rfl := Option.some.inj hm
    unfold Value.asPriority? at hn
    split at hn
    · split at hn
      · rename_i hrange
        obtain rfl := Option.some.inj hn
        exact hrange
      · cases hn
    · cases hn
  · obtain rfl := Option.some.inj ha
    simp

theorem fits_of_ofValues? {vs : List Value} {ts : List TokenSpec}
    (h : TokenSpec.ofValues? vs = some ts) : ∀ t ∈ ts, t.Fits := by
  induction vs generalizing ts with
  | nil =>
    obtain rfl := Option.some.inj h
    simp
  | cons v vs ih =>
    simp only [TokenSpec.ofValues?, Option.bind_eq_some_iff, Option.map_eq_some_iff] at h
    obtain ⟨t, ht, ts, hts, rfl⟩ := h
    exact List.forall_mem_cons.mpr ⟨fits_of_ofValue? ht, ih hts⟩

theorem fits_builtinTokens : ∀ t ∈ builtinTokens, t.Fits := by
  have hrange : ∀ entry ∈ Kind.table, -2 ^ 31 ≤ entry.priority ∧ entry.priority < 2 ^ 31 := by
    decide
  intro t ht n hn
  obtain ⟨entry, hentry, rfl⟩ := List.mem_map.mp ht
  obtain rfl := Option.some.inj hn
  exact hrange entry hentry

theorem fits_of_ofArray? {v : Value} {ts : List TokenSpec}
    (h : TokenSpec.ofArray? v = some ts) : ∀ t ∈ ts, t.Fits := by
  unfold TokenSpec.ofArray? at h
  split at h
  · exact fits_of_ofValues? h
  · cases h

theorem ofEntries?_eq_bind (entries : Entries) :
    ofEntries? entries =
      ((entries.lookup "parser").elim (some .default) ParserSection.ofValue?).bind fun p =>
        ((entries.lookup "token").elim (some builtinTokens) TokenSpec.ofArray?).map (mk p) := by
  have hmap : ∀ p (ts? : Option (List TokenSpec)),
      ts?.map (mk p) = ts?.bind fun ts => some ⟨p, ts⟩ := fun p ts? => Option.map_eq_bind
  unfold ofEntries?
  simp only [hmap]
  cases entries.lookup "parser" <;> cases entries.lookup "token" <;> rfl

/-- A grammar that comes from a file has a delimiter, and its numbers have their sizes. -/
theorem of_ofText? {file : String} {g : Grammar} (h : ofText? file = some g) :
    g.parser.conditionDelimiter.isSome ∧ g.Fits := by
  obtain ⟨entries, -, h⟩ := Option.bind_eq_some_iff.mp h
  rw [ofEntries?_eq_bind, Option.bind_eq_some_iff] at h
  obtain ⟨p, hp, h⟩ := h
  obtain ⟨ts, hts, rfl⟩ := Option.map_eq_some_iff.mp h
  have hsection := elim_of (fun p => p.conditionDelimiter.isSome ∧ p.maxNesting < 2 ^ 64)
    (by decide) (fun _ _ => section_of_ofValue?) hp
  have htokens := elim_of (fun ts => ∀ t ∈ ts, t.Fits) fits_builtinTokens
    (fun _ _ => fits_of_ofArray?) hts
  exact ⟨hsection.1, hsection.2, htokens⟩

/-! ### Reloading -/

theorem reloaded_of_isSome {g : Grammar} (h : g.parser.conditionDelimiter.isSome) :
    g.reloaded = g := by
  obtain ⟨⟨delimiter, required, nesting⟩, tokens⟩ := g
  obtain ⟨kind, rfl⟩ := Option.isSome_iff_exists.mp h
  rfl

theorem ofText?_toText_of_isSome {g : Grammar} (hfits : g.Fits)
    (hdelimiter : g.parser.conditionDelimiter.isSome) : ofText? g.toText = some g := by
  rw [ofText?_toText hfits, reloaded_of_isSome hdelimiter]

/-- Grammar files keep every grammar that has a delimiter, and so every grammar that comes from a
file. -/
theorem reload_written :
    (∀ g : Grammar, g.Fits → g.parser.conditionDelimiter.isSome →
      ∃ text, g.toText? = some text ∧ ofText? text = some g) ∧
    ∀ (file : String) (g : Grammar), ofText? file = some g →
      ∃ text, g.toText? = some text ∧ ofText? text = some g := by
  constructor
  · intro g hfits hdelimiter
    exact ⟨g.toText, rfl, ofText?_toText_of_isSome hfits hdelimiter⟩
  · intro file g hfile
    obtain ⟨hdelimiter, hfits⟩ := of_ofText? hfile
    exact ⟨g.toText, rfl, ofText?_toText_of_isSome hfits hdelimiter⟩

/-- Quotes, line ends and control characters in the texts, and the extremes of the numbers. -/
def awkward : Grammar :=
  ⟨⟨some "a\"'\n\\\t\x00é", false, 18446744073709551615⟩,
    [⟨"", "'''\r\n\"\"\"", some (-2147483648), true⟩, ⟨" ", "\x7f", none, false⟩]⟩

theorem reload_written_awkward :
    (∃ text, awkward.toText? = some text ∧ ofText? text = some awkward) ∧
      ∃ text, toText? ⟨.default, []⟩ = some text ∧ ofText? text = some ⟨.default, []⟩ := by
  refine ⟨reload_written.1 _ ⟨by decide, ?_⟩ rfl, reload_written.2 "token = []" _ ?_⟩
  · simp [awkward, TokenSpec.Fits]
  · decide +kernel

/-- A file keeps how its grammar parses, except that a required delimiter which is missing comes
back as the usual one. -/
theorem options_reloaded {g : Grammar} {text : String} (hfits : g.Fits)
    (h : g.toText? = some text) :
    ∃ g', ofText? text = some g' ∧
      (g'.options = g.options ↔
        ¬(g.parser.conditionDelimiter = none ∧ g.parser.requireDelimiter = true)) := by
  obtain rfl := Option.some.inj h
  refine ⟨g.reloaded, ofText?_toText hfits, ?_⟩
  obtain ⟨⟨delimiter, required, nesting⟩, tokens⟩ := g
  cases delimiter <;> cases required <;>
    simp [reloaded, ParserSection.reloaded, options]

theorem options_reloaded_unused :
    ∃ text g', toText? ⟨⟨none, false, 7⟩, [⟨"A", "a", some (-1), true⟩]⟩ = some text ∧
      ofText? text = some g' ∧
      g'.options = options ⟨⟨none, false, 7⟩, [⟨"A", "a", some (-1), true⟩]⟩ := by
  obtain ⟨g', hg', hiff⟩ :=
    options_reloaded (g := ⟨⟨none, false, 7⟩, [⟨"A", "a", some (-1), true⟩]⟩)
      ⟨by decide, by simp [TokenSpec.Fits]⟩ rfl
  exact ⟨_, g', rfl, hg', hiff.mpr (by simp)⟩

/-- Without a delimiter the built-in grammar takes bare conditions; what is read back from its file
does not. -/
theorem options_reloaded_missing :
    ∃ text g', toText? ⟨⟨none, true, 256⟩, builtinTokens⟩ = some text ∧
      ofText? text = some g' ∧
      (options ⟨⟨none, true, 256⟩, builtinTokens⟩).conditionDelimiter = none ∧
      g'.options.conditionDelimiter = some Kind.colon := by
  refine ⟨_, reloaded ⟨⟨none, true, 256⟩, builtinTokens⟩, rfl, ?_, rfl, by decide⟩
  exact ofText?_toText ⟨by decide, fits_builtinTokens⟩

end Grammar

end DollarScript
