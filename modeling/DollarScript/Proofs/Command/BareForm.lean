import DollarScript.Command.Run

/-! Words without a command are read as the words of `parse` are: the two forms differ only in how
they turn words down. -/
namespace DollarScript

/-- The forms take the same options, and a file if one of them does. -/
structure Form.SameSlots (f g : Form) : Prop where
  options : f.options = g.options
  takesFile : f.takesFile = g.takesFile

/-- Steps one behind the other give a result if both of them do. -/
theorem exists_of_bind_eq_ok {ε α β : Type} {x : Except ε α} {k : α → Except ε β} {b : β}
    (h : x >>= k = .ok b) : ∃ a, x = .ok a ∧ k a = .ok b := by
  cases x with
  | error e => cases h
  | ok a => exact ⟨a, rfl, h⟩

namespace Reading

variable {f g : Form} {r r' : Reading} {word name : String} {value : Option String} {letter : Char}
  {words : List String}

/-- A short option is never more than a question. -/
theorem readShort_ne_ok : readShort f r letter ≠ .ok r' := by
  unfold readShort
  split
  · nofun
  · intro h
    obtain ⟨_, -, hanswer⟩ := exists_of_bind_eq_ok h
    cases hanswer

theorem readLong_eq_ok (h : readLong f r name value = .ok r') :
    ∃ slot, f.option? name = some slot ∧ r.readOption slot value = .ok r' := by
  unfold readLong at h
  split at h
  · exact ⟨_, ‹_›, h⟩
  · split at h
    · cases h
    · split at h
      · cases h
      · obtain ⟨_, -, hanswer⟩ := exists_of_bind_eq_ok h
        cases hanswer

/-- A word that is understood under one form is understood in the same way under the other. -/
theorem read_sameSlots (h : f.SameSlots g) (hread : read f r word = .ok r') :
    read g r word = .ok r' := by
  have hplain : r.readPlain f word = .ok r' → r.readPlain g word = .ok r' := by
    intro hok
    unfold readPlain at hok ⊢
    rw [← h.takesFile]
    split at hok
    · rwa [if_pos ‹_›]
    · cases hok
  unfold read at hread ⊢
  split
  · exact hplain (by simpa [*] using hread)
  · rw [if_neg ‹_›] at hread
    split at hread
    · exact hread
    · obtain ⟨slot, hslot, hok⟩ := readLong_eq_ok hread
      rw [Form.option?, h.options, ← Form.option?] at hslot
      simpa only [readLong, hslot] using hok
    · exact absurd hread readShort_ne_ok
    · split at hread
      · exact hread
      · exact hplain hread

theorem foldlM_sameSlots (h : f.SameSlots g) (hread : words.foldlM (read f) r = .ok r') :
    words.foldlM (read g) r = .ok r' := by
  induction words generalizing r with
  | nil => exact hread
  | cons word words ih =>
    rw [List.foldlM_cons] at hread ⊢
    obtain ⟨next, hword, hwords⟩ := exists_of_bind_eq_ok hread
    rw [read_sameSlots h hword]
    exact ih hwords

end Reading

/-- Words that one form accepts set the same under the other. -/
theorem Form.read_sameSlots {f g : Form} {words : List String} {given : Given}
    (h : f.SameSlots g) (hread : f.read words = .ok given) : g.read words = .ok given := by
  unfold Form.read at hread ⊢
  obtain ⟨r, hwords, hsettle⟩ := exists_of_bind_eq_ok hread
  rw [Reading.foldlM_sameSlots h hwords]
  exact hsettle

namespace Command

variable {words : List String} {command : Command}

theorem sameSlots_bareForm : parseForm.SameSlots bareForm := ⟨rfl, rfl⟩

theorem ofWords_parse_eq_ok (h : ofWords ("parse" :: words) = .ok command) :
    ∃ given file, parseForm.read words = .ok given ∧ given.value? .file = some file ∧
      command = .parse (given.parseRequest file) := by
  obtain ⟨given, hread, h⟩ := exists_of_bind_eq_ok h
  obtain ⟨file, hfile, h⟩ := exists_of_bind_eq_ok h
  cases h
  refine ⟨given, file, hread, ?_, rfl⟩
  unfold Given.file at hfile
  split at hfile
  · rw [‹given.value? .file = _›]
    exact congrArg some (Except.ok.inj hfile)
  · cases hfile

/-- Words that start with no name of a command are all of the bare form. -/
theorem ofWords_bare {given : Given} {file : String} (hnames : ∀ w ∈ words, w ∉ names)
    (hread : bareForm.read words = .ok given) (hfile : given.value? .file = some file) :
    ofWords words = .ok (.parse (given.parseRequest file)) := by
  have hhead : ∀ name ∈ names, ∀ rest, words ≠ name :: rest := by
    rintro name hname rest rfl
    exact hnames name List.mem_cons_self hname
  unfold ofWords
  split
  · exact absurd rfl (hhead "lex" (by decide) _)
  · exact absurd rfl (hhead "parse" (by decide) _)
  · exact absurd rfl (hhead "grammar" (by decide) _)
  · exact absurd rfl (hhead "help" (by decide) _)
  · simp only [hread, hfile, bind, Except.bind]
    rfl

theorem ofWords_eq_parse (hnames : ∀ w ∈ words, w ∉ names)
    (h : ofWords ("parse" :: words) = .ok command) : ofWords words = .ok command := by
  obtain ⟨given, file, hread, hfile, rfl⟩ := ofWords_parse_eq_ok h
  exact ofWords_bare hnames (Form.read_sameSlots sameSlots_bareForm hread) hfile

end Command

/-- Words that `parse` accepts, none of them the name of a command, ask for the same without it, and
so come to the same exit code and the same output. -/
theorem bareForm_parses [Libraries] (p : Place) {words : List String} {outcome : Outcome}
    (hnames : ∀ w ∈ words, w ∉ Command.names)
    (h : Command.answer p.target ("parse" :: words) = .ok outcome) :
    Command.ofWords words = Command.ofWords ("parse" :: words) ∧
    Command.answer p.target words = .ok outcome := by
  cases hparse : Command.ofWords ("parse" :: words) with
  | error usage =>
    rw [Command.answer, hparse] at h
    cases h
  | ok command =>
    have hbare := Command.ofWords_eq_parse hnames hparse
    rw [Command.answer, hparse] at h
    rw [Command.answer, hbare]
    exact ⟨rfl, h⟩

/-- Options in both spellings, and behind the separator a file whose name starts with a dash. -/
def mixedWords : List String :=
  ["--grammar", "g.toml", "--format=debug", "--no-delimiter", "--", "-x.sg"]

/-- A directory with that file, but without the grammar. -/
def dashedFile : Place := ⟨.directory [("-x.sg", .file 0 (some ""))], []⟩

theorem bareForm_parses_mixedWords :
    Command.ofWords mixedWords = .ok (.parse ⟨"-x.sg", .outline, some "g.toml", true, false⟩) ∧
    Command.answer dashedFile.target mixedWords = .ok ⟨2, "",
      .text "Error: cannot read grammar file 'g.toml': No such file or directory (os error 2)\n"⟩ := by
  have hparse : Command.ofWords ("parse" :: mixedWords) =
      .ok (.parse ⟨"-x.sg", .outline, some "g.toml", true, false⟩) := rfl
  have hanswer : Command.answer dashedFile.target ("parse" :: mixedWords) = .ok ⟨2, "",
      .text "Error: cannot read grammar file 'g.toml': No such file or directory (os error 2)\n"⟩ := by
    rw [Command.answer, hparse]
    rfl
  obtain ⟨hwords, hbare⟩ := bareForm_parses dashedFile (by decide) hanswer
  exact ⟨hwords.trans hparse, hbare⟩

end DollarScript
