import DollarScript.Proofs.Text.Runs
import DollarScript.Toml.Reader

/-! Reading a document line by line: what one line adds, and how lines add up. -/
namespace DollarScript.Toml

variable {c : Char} {key rest text more : List Char} {d d' d'' : Document} {entries : Entries}

/-! ### Lines after lines -/

/-- Reading the text, whatever follows it, leads from one document to the other. -/
def Reads (text : List Char) (d d' : Document) : Prop :=
  ∀ rest fuel, (text ++ rest).length < fuel →
    ∃ fuel', rest.length < fuel' ∧ readLines? fuel d (text ++ rest) = readLines? fuel' d' rest

theorem Reads.nil (d : Document) : Reads [] d d :=
  fun _ fuel h => ⟨fuel, h, rfl⟩

theorem Reads.append (h : Reads text d d') (h' : Reads more d' d'') :
    Reads (text ++ more) d d'' := by
  intro rest fuel hfuel
  rw [List.append_assoc] at hfuel ⊢
  obtain ⟨fuel', hfuel', heq⟩ := h (more ++ rest) fuel hfuel
  obtain ⟨fuel'', hfuel'', heq'⟩ := h' rest fuel' hfuel'
  exact ⟨fuel'', hfuel'', heq.trans heq'⟩

theorem Reads.line (hne : text ≠ [])
    (h : ∀ rest, readLine? d (text ++ rest) = some (d', rest)) : Reads text d d' := by
  intro rest fuel hfuel
  have hpos : 0 < text.length := List.length_pos_iff.mpr hne
  rw [List.length_append] at hfuel
  obtain ⟨fuel, rfl⟩ : ∃ k, fuel = k + 1 := ⟨fuel - 1, by omega⟩
  refine ⟨fuel, by omega, ?_⟩
  have hempty : (text ++ rest).isEmpty = false := by simp [hne]
  rw [readLines?, hempty, h rest]
  rfl

/-- A whole document: nothing follows it. -/
theorem Reads.read? (h : Reads text ⟨[], []⟩ d) (hmark : ∀ more, text ≠ '\ufeff' :: more) :
    read? text = some d.entries := by
  obtain ⟨fuel, hfuel, heq⟩ := h [] (text.length + 1) (by simp)
  rw [List.append_nil] at heq
  have hread : Toml.read? text = readLines? (text.length + 1) ⟨[], []⟩ text := by
    unfold Toml.read?
    split
    · exact absurd rfl (hmark _)
    · rfl
  obtain ⟨fuel, rfl⟩ : ∃ k, fuel = k + 1 := ⟨fuel - 1, by simp at hfuel; omega⟩
  rw [hread, heq]
  rfl

/-! ### Single lines -/

/-- A key that is written without quotes. -/
def Bare (key : List Char) : Prop := key ≠ [] ∧ ∀ c ∈ key, isBareKey c = true

instance (key : List Char) : Decidable (Bare key) :=
  decidable_of_iff ((!key.isEmpty && key.all isBareKey) = true) (by simp [Bare])

theorem endLine?_newline (rest : List Char) : endLine? ('\n' :: rest) = some rest := rfl

theorem dropBlanks_cons (h : isBlank c = false) : dropBlanks (c :: rest) = c :: rest := by
  simp [dropBlanks, h]

/-- A bare key starts with none of the marks that have a meaning in front of a line. -/
theorem Bare.ne_cons (h : Bare key) (hmark : isBareKey c = false) (rest more : List Char) :
    key ++ rest ≠ c :: more := by
  intro heq
  obtain ⟨a, as, rfl⟩ := List.exists_cons_of_ne_nil h.1
  obtain ⟨rfl, -⟩ := List.cons.inj heq
  rw [h.2 a List.mem_cons_self] at hmark
  cases hmark

theorem dropBlanks_bare (h : Bare key) (rest : List Char) :
    dropBlanks (key ++ rest) = key ++ rest := by
  cases hkey : key ++ rest with
  | nil => rfl
  | cons c more =>
    apply dropBlanks_cons
    cases hc : isBlank c with
    | false => rfl
    | true =>
      simp only [isBlank, Bool.or_eq_true, beq_iff_eq] at hc
      rcases hc with rfl | rfl <;> exact absurd hkey (h.ne_cons (by decide) rest more)

theorem readKey?_bare (h : Bare key) (hstop : isBareKey c = false) :
    readKey? (key ++ c :: rest) = some (String.ofList key, c :: rest) := by
  have hstops : Text.Stops isBareKey (c :: rest) := Text.stops_cons.mpr hstop
  have htake := Text.takeWhile_run h.2 hstops
  have hdrop := Text.dropWhile_run h.2 hstops
  unfold readKey?
  split
  · rename_i heq
    exact absurd heq (h.ne_cons (by decide) _ _)
  · rename_i heq
    exact absurd heq (h.ne_cons (by decide) _ _)
  · simp only [htake, hdrop, List.isEmpty_eq_false_iff.mpr h.1]
    rfl

/-- A lone key, and what follows it past the blanks. -/
theorem readPath?_bare (h : Bare key) (hstop : isBareKey c = false)
    (hpoint : ∀ more, dropBlanks (c :: rest) ≠ '.' :: more) :
    readPath? (key ++ c :: rest) = some ([String.ofList key], dropBlanks (c :: rest)) := by
  rw [readPath?, readPathFrom?, dropBlanks_bare h, readKey?_bare h hstop]
  simp only [Option.bind_eq_bind, Option.bind_some, Option.pure_def]

theorem reads_blankLine (d : Document) : Reads ['\n'] d d :=
  .line (by simp) fun _ => rfl

/-- A key up to the bracket that closes a header. -/
theorem readPath?_header (h : Bare key) (rest : List Char) :
    readPath? (key ++ ']' :: rest) = some ([String.ofList key], ']' :: rest) :=
  readPath?_bare h (by decide) (by simp [dropBlanks_cons (show isBlank ']' = false from rfl)])

/-- The header of a table. -/
theorem reads_header (h : Bare key)
    (hopen : d.entries.openTable [String.ofList key] = some entries) :
    Reads ('[' :: key ++ [']', '\n']) d ⟨entries, [String.ofList key]⟩ := by
  refine .line (by simp) fun rest => ?_
  have hline : '[' :: key ++ [']', '\n'] ++ rest = '[' :: (key ++ ']' :: '\n' :: rest) := by simp
  rw [hline, readLine?, dropBlanks_cons (by decide)]
  split
  · rename_i heq
    exact absurd (List.cons.inj heq).2 (h.ne_cons (by decide) _ _)
  · rename_i heq
    cases heq
    simp [readPath?_header h, hopen, endLine?_newline]
  · rename_i hheader
    exact absurd rfl (hheader _)

/-- The header of one more table in an array. -/
theorem reads_itemHeader (h : Bare key)
    (hopen : d.entries.openItem [String.ofList key] = some entries) :
    Reads ('[' :: '[' :: key ++ [']', ']', '\n']) d ⟨entries, [String.ofList key]⟩ := by
  refine .line (by simp) fun rest => ?_
  have hline : '[' :: '[' :: key ++ [']', ']', '\n'] ++ rest =
      '[' :: '[' :: (key ++ ']' :: ']' :: '\n' :: rest) := by simp
  rw [hline, readLine?, dropBlanks_cons (by decide)]
  simp [readPath?_header h, hopen, endLine?_newline]

theorem endLine?_bare (h : Bare key) (rest : List Char) : endLine? (key ++ rest) = none := by
  have hnewline : dropNewline? (key ++ rest) = none := by
    unfold dropNewline?
    split
    · rename_i heq
      exact absurd heq (h.ne_cons (by decide) _ _)
    · rename_i heq
      exact absurd heq (h.ne_cons (by decide) _ _)
    · rfl
  rw [endLine?, dropBlanks_bare h]
  split
  · rename_i heq
    exact absurd heq (h.ne_cons (by decide) _ _)
  · simp [hnewline, h.1]

/-- A key, an equals sign with blanks around it, and a value. -/
theorem readPair?_bare {value : Value} {written : List Char} (h : Bare key)
    (hfirst : isBlank c = false) (item : List Char → Option (Value × List Char))
    (hvalue : item (c :: written) = some (value, rest)) :
    readPair? item (key ++ ' ' :: '=' :: ' ' :: c :: written) =
      some ([String.ofList key], value, rest) := by
  have hblanks : ∀ more, dropBlanks (' ' :: '=' :: more) = '=' :: more := fun _ => rfl
  have hpath : readPath? (key ++ ' ' :: '=' :: ' ' :: c :: written) =
      some ([String.ofList key], '=' :: ' ' :: c :: written) :=
    readPath?_bare h (by decide) (by simp [hblanks])
  have hdrop : dropBlanks (' ' :: c :: written) = c :: written := dropBlanks_cons hfirst
  simp [readPair?, hpath, hdrop, hvalue]

/-- The text is a line that gives a value to a key. -/
inductive PairLine : String → Value → List Char → Prop
  | intro {key written : List Char} {c : Char} {value : Value} (bare : Bare key)
      (first : isBlank c = false)
      (read : ∀ rest, readValue? depthLimit (c :: written ++ '\n' :: rest) =
        some (value, '\n' :: rest)) :
    PairLine (String.ofList key) value (key ++ ' ' :: '=' :: ' ' :: c :: written ++ ['\n'])

theorem PairLine.reads {key : String} {value : Value} (h : PairLine key value text)
    (hinsert : Entries.insertAt d.current [key] value d.entries = some entries) :
    Reads text d ⟨entries, d.current⟩ := by
  obtain @⟨key, written, c, value, bare, first, read⟩ := h
  refine .line (by simp) fun rest => ?_
  have hline : key ++ ' ' :: '=' :: ' ' :: c :: written ++ ['\n'] ++ rest =
      key ++ ' ' :: '=' :: ' ' :: c :: (written ++ '\n' :: rest) := by simp
  have hpair : readPair? (readValue? depthLimit)
      (key ++ ' ' :: '=' :: ' ' :: c :: (written ++ '\n' :: rest)) =
        some ([String.ofList key], value, '\n' :: rest) :=
    readPair?_bare bare first _ (read rest)
  rw [hline, readLine?, dropBlanks_bare bare]
  split
  · rename_i heq
    exact absurd heq (bare.ne_cons (by decide) _ _)
  · rename_i heq
    exact absurd heq (bare.ne_cons (by decide) _ _)
  · rw [endLine?_bare bare]
    simp [hpair, hinsert, endLine?_newline]

/-! ### Sections -/

/-- The lines of a section, one for each entry. -/
inductive PairLines : Entries → List Char → Prop
  | nil : PairLines [] []
  | cons {key : String} {value : Value} {entries : Entries} {line text : List Char}
      (first : PairLine key value line) (others : PairLines entries text) :
    PairLines ((key, value) :: entries) (line ++ text)

theorem PairLine.single {key : String} {value : Value} (h : PairLine key value text) :
    PairLines [(key, value)] text := by
  simpa using PairLines.cons h .nil

theorem PairLines.append {entries' : Entries} (h : PairLines entries text)
    (h' : PairLines entries' more) : PairLines (entries ++ entries') (text ++ more) := by
  induction h with
  | nil => exact h'
  | cons first _ ih =>
    rw [List.cons_append, List.append_assoc]
    exact .cons first ih

/-- A table with a header takes a key that it does not have. -/
theorem Entries.insert_new {key : String} {inner : Entries} (value : Value)
    (h : inner.lookup key = none) :
    Entries.insert [key] value .header inner = some (inner ++ [(key, value)]) := by
  simp [Entries.insert, Entries.splitLast, Entries.descend, h]

theorem Entries.replace_append (key : String) (value : Value) (entries entries' : Entries) :
    Entries.replace key value (entries ++ entries') =
      Entries.replace key value entries ++ Entries.replace key value entries' :=
  List.map_append

theorem Entries.replace_of_new {key : String} (value : Value) (h : entries.lookup key = none) :
    Entries.replace key value entries = entries := by
  induction entries with
  | nil => rfl
  | cons e entries ih =>
    obtain ⟨k, v⟩ := e
    by_cases hk : key = k
    · simp [hk] at h
    · simp only [List.lookup_cons, show (key == k) = false by simpa using hk] at h
      have hhead : Entries.replace key value ((k, v) :: entries) =
          (k, v) :: Entries.replace key value entries := by
        simp [Entries.replace, Ne.symm hk]
      rw [hhead, ih h]

/-- Pairs go to the table with the entries `inner`, which stands in the document `put inner`. -/
def Receives (current : List String) (put : Entries → Entries) : Prop :=
  ∀ (key : String) (value : Value) (inner : Entries), inner.lookup key = none →
    Entries.insertAt current [key] value (put inner) = some (put (inner ++ [(key, value)]))

/-- A section adds its entries to the table, provided that no key comes twice. -/
theorem PairLines.reads {current : List String} {put : Entries → Entries} {inner : Entries}
    (h : PairLines entries text) (hput : Receives current put)
    (hdistinct : ((inner ++ entries).map Prod.fst).Nodup) :
    Reads text ⟨put inner, current⟩ ⟨put (inner ++ entries), current⟩ := by
  induction h generalizing inner with
  | nil =>
    rw [List.append_nil]
    exact .nil _
  | @cons key value entries line text first _ ih =>
    have hnew : inner.lookup key = none := by
      rw [List.lookup_eq_none_iff]
      intro p hp
      rw [List.map_append, List.nodup_append] at hdistinct
      rw [bne_iff_ne]
      exact (hdistinct.2.2 p.1 (List.mem_map_of_mem hp) key (by simp)).symm
    have hline : Reads line ⟨put inner, current⟩ ⟨put (inner ++ [(key, value)]), current⟩ :=
      first.reads (hput key value inner hnew)
    rw [List.append_cons] at hdistinct ⊢
    exact hline.append (ih hdistinct)

end DollarScript.Toml
