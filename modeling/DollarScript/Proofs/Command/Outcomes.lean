import DollarScript.Command.Run
import DollarScript.Proofs.Grammar.Entries

/-! What a run comes to: a source that cannot be had ends it first, then a grammar that is of no
use, and only then is anything printed. -/
namespace DollarScript

/-! ### Files of a tree -/

namespace Place

/-- The file or directory that a path leads to. -/
def node (p : Place) (path : String) : Except FileError Node :=
  (if path.toList.head? = some '/' then p.top else p).follow (components path.toList)

/-- The path leads to a file of text that is not too large for a source. -/
def HasSource (p : Place) (path source : String) : Prop :=
  ∃ size ≤ 104857600, p.node path = .ok (.file size (some source))

/-- Why no source can be had from a path: there is nothing, a directory, too large a file, or one
whose bytes are no text. -/
inductive SourceFault (p : Place) (path : String) : Failure → Prop
  | missing {why : FileError} : p.node path = .error why →
      SourceFault p path (.sourceUnreachable path why)
  | directory {entries : List (String × Node)} : p.node path = .ok (.directory entries) →
      SourceFault p path (.sourceUnreadable path .isDirectory)
  | tooLarge {size : Nat} {text : Option String} : p.node path = .ok (.file size text) →
      104857600 < size → SourceFault p path (.sourceTooLarge path size)
  | notText {size : Nat} : p.node path = .ok (.file size none) → size ≤ 104857600 →
      SourceFault p path (.sourceUnreadable path .notText)

variable {p : Place} {path : String}

theorem target_of_error {why : FileError} (h : p.node path = .error why) :
    p.target path = .unreachable why := by
  rw [Place.node] at h
  simp only [target, h]

theorem target_of_ok {node : Node} (h : p.node path = .ok node) :
    p.target path = node.target := by
  rw [Place.node] at h
  simp only [target, h]

theorem source_or_fault (p : Place) (path : String) :
    (∃ source, p.HasSource path source) ∨ ∃ f, p.SourceFault path f := by
  cases hnode : p.node path with
  | error why => exact .inr ⟨_, .missing hnode⟩
  | ok node =>
    cases node with
    | directory entries => exact .inr ⟨_, .directory hnode⟩
    | file size text =>
      rcases Nat.lt_or_ge 104857600 size with hlarge | hsize
      · exact .inr ⟨_, .tooLarge hnode hlarge⟩
      · cases text with
        | none => exact .inr ⟨_, .notText hnode hsize⟩
        | some source => exact .inl ⟨source, size, hsize, hnode⟩

variable [Libraries]

/-- The grammar to use: the one in the file, if a file is named. -/
inductive HasGrammar (p : Place) : Option String → Grammar → Prop
  | builtin : HasGrammar p none .builtin
  | file {path text : String} {size : Nat} {g : Grammar} :
      p.node path = .ok (.file size (some text)) → Grammar.ofText? text = some g →
      HasGrammar p (some path) g

/-- Why a grammar file is of no use: it cannot be read, it is no grammar, or it has wrong entries,
of which the first one counts. -/
inductive GrammarFault (p : Place) : Option String → Failure → Prop
  | missing {path : String} {why : FileError} : p.node path = .error why →
      GrammarFault p (some path) (.grammarUnreadable path why)
  | directory {path : String} {entries : List (String × Node)} :
      p.node path = .ok (.directory entries) →
      GrammarFault p (some path) (.grammarUnreadable path .isDirectory)
  | notText {path : String} {size : Nat} : p.node path = .ok (.file size none) →
      GrammarFault p (some path) (.grammarUnreadable path .notText)
  | malformed {path text : String} {size : Nat} : p.node path = .ok (.file size (some text)) →
      Grammar.ofText? text = none → GrammarFault p (some path) (.grammarMalformed text)
  | entry {path : String} {g : Grammar} {e : GrammarError} : p.HasGrammar (some path) g →
      Grammar.FirstWrong g.tokens e → GrammarFault p (some path) (.grammarInvalid e)

theorem grammar_or_fault (p : Place) (grammar : Option String) (hbuiltin : Libraries.TakeBuiltin) :
    (∃ g r, p.HasGrammar grammar g ∧ g.registry = .ok r) ∨ ∃ f, p.GrammarFault grammar f := by
  cases grammar with
  | none =>
    obtain ⟨r, hr⟩ :=
      Grammar.registerAll_of_sound .empty 0 (Grammar.sound_builtinTokens hbuiltin)
    exact .inl ⟨.builtin, r, .builtin, hr⟩
  | some path =>
    cases hnode : p.node path with
    | error why => exact .inr ⟨_, .missing hnode⟩
    | ok node =>
      match node with
      | .directory entries => exact .inr ⟨_, .directory hnode⟩
      | .file size none => exact .inr ⟨_, .notText hnode⟩
      | .file size (some text) =>
        cases htext : Grammar.ofText? text with
        | none => exact .inr ⟨_, .malformed hnode htext⟩
        | some g =>
          rcases Grammar.sound_or_firstWrong g.tokens with hsound | ⟨e, he⟩
          · obtain ⟨r, hr⟩ := Grammar.registerAll_of_sound .empty 0 hsound
            exact .inl ⟨g, r, .file hnode htext, hr⟩
          · exact .inr ⟨_, .entry (.file hnode htext) he⟩

end Place

/-! ### Runs -/

namespace Command

open Place

variable {p : Place} {command : Command} {path file source : String} {grammar : Option String}
  {g : Grammar} {r : Registry} {f : Failure}

theorem readSource_of_fault (h : p.SourceFault path f) : readSource p.target path = .error f := by
  cases h with
  | missing hnode => rw [readSource, target_of_error hnode]
  | directory hnode => rw [readSource, target_of_ok hnode]; rfl
  | tooLarge hnode hlarge =>
    rename_i size text
    have hlarge : maxSourceSize < size := hlarge
    cases text <;> simp [readSource, target_of_ok hnode, Node.target, hlarge]
  | notText hnode hsize =>
    have hsize : ¬ maxSourceSize < _ := Nat.not_lt.mpr hsize
    simp [readSource, target_of_ok hnode, Node.target, hsize]

theorem readSource_of_hasSource (h : p.HasSource path source) :
    readSource p.target path = .ok source := by
  obtain ⟨size, hsize, hnode⟩ := h
  have hsize : ¬ maxSourceSize < size := Nat.not_lt.mpr hsize
  simp [readSource, target_of_ok hnode, Node.target, hsize]

theorem no_fault_of_hasSource (h : p.HasSource path source) (f : Failure) :
    ¬ p.SourceFault path f := by
  intro hf
  have hread := readSource_of_hasSource h
  rw [readSource_of_fault hf] at hread
  cases hread

/-- The command reads a source, and a grammar if a file of one is named. -/
inductive Reads : Command → String → Option String → Prop
  | lex (request : LexRequest) : Reads (.lex request) request.file request.grammar
  | parse (request : ParseRequest) : Reads (.parse request) request.file request.grammar

/-- What comes of a source under a registry. Listing tokens always goes well; the exit code of
parsing tells whether the source is a program. With `pretty`, diagnostics are drawn in some way that
is left open. -/
def Prints (g : Grammar) (r : Registry) (source : String) (outcome : Outcome) : Command → Prop
  | .lex request =>
    let scan := if request.words then Scanner.words else Scanner.tokens
    outcome = ⟨0, request.listing (scan r source.toList), .text ""⟩
  | .parse request =>
    let result := DollarScript.parse r (request.options g) source.toList
    outcome.stdout = request.format.render result ++ "\n" ∧
    outcome.exitCode = (if result.success then 0 else 1) ∧
    (request.format = .json → outcome.stderr = .text "") ∧
    (request.format ≠ .json → request.pretty = false →
      outcome.stderr = .text (String.join (result.errors.map fun d => d.text ++ "\n")))
  | .printGrammar | .noInput => False

theorem errorOutput_of_json {request : ParseRequest} (errors : List Diagnostic)
    (h : request.format = .json) : request.errorOutput errors = .text "" := by
  rw [ParseRequest.errorOutput, if_pos (.inl h)]

/-- Without diagnostics nothing is told, which is the report of no diagnostics. -/
theorem errorOutput_of_plain {request : ParseRequest} (errors : List Diagnostic)
    (hformat : request.format ≠ .json) (hpretty : request.pretty = false) :
    request.errorOutput errors = .text (Diagnostic.report errors) := by
  cases errors with
  | nil => rw [ParseRequest.errorOutput, if_pos (.inr rfl)]; rfl
  | cons d errors => simp [ParseRequest.errorOutput, hformat, hpretty]

section

variable [Libraries]

theorem loadGrammar_of_hasGrammar (h : p.HasGrammar grammar g) :
    loadGrammar p.target grammar = .ok g := by
  cases h with
  | builtin => rfl
  | file hnode htext => simp [loadGrammar, target_of_ok hnode, Node.target, htext]

/-- Either no grammar can be read, or the one that is read gives no registry. -/
theorem grammar_of_fault (h : p.GrammarFault grammar f) :
    loadGrammar p.target grammar = .error f ∨
    ∃ g, loadGrammar p.target grammar = .ok g ∧ buildRegistry g = .error f := by
  cases h with
  | missing hnode => exact .inl (by simp only [loadGrammar, target_of_error hnode])
  | directory hnode => exact .inl (by simp only [loadGrammar, target_of_ok hnode, Node.target])
  | notText hnode => exact .inl (by simp only [loadGrammar, target_of_ok hnode, Node.target])
  | malformed hnode htext =>
    exact .inl (by simp only [loadGrammar, target_of_ok hnode, Node.target, htext])
  | @entry path g e hgrammar hwrong =>
    refine .inr ⟨g, loadGrammar_of_hasGrammar hgrammar, ?_⟩
    rw [buildRegistry, Grammar.registry_of_firstWrong hwrong]

/-- Both commands look at the source before anything else. -/
theorem run_of_sourceFault (hreads : command.Reads file grammar) (h : p.SourceFault file f) :
    command.run p.target = f.outcome := by
  cases hreads with
  | lex request => simp only [run, lexFile, readSource_of_fault h]; rfl
  | parse request => simp only [run, parseFile, readSource_of_fault h]; rfl

theorem run_of_grammarFault (hreads : command.Reads file grammar) (hsource : p.HasSource file source)
    (h : p.GrammarFault grammar f) : command.run p.target = f.outcome := by
  have hread := readSource_of_hasSource hsource
  cases hreads with
  | lex request =>
    rcases grammar_of_fault h with hload | ⟨g, hload, hbuild⟩
    · simp only [run, lexFile, hread, hload]; rfl
    · simp only [run, lexFile, hread, hload, bind, Except.bind, hbuild]
  | parse request =>
    rcases grammar_of_fault h with hload | ⟨g, hload, hbuild⟩
    · simp only [run, parseFile, hread, hload]; rfl
    · simp only [run, parseFile, hread, hload, bind, Except.bind, hbuild]

theorem run_of_registry (hreads : command.Reads file grammar) (hsource : p.HasSource file source)
    (hgrammar : p.HasGrammar grammar g) (hr : g.registry = .ok r) :
    command.Prints g r source (command.run p.target) := by
  have hread := readSource_of_hasSource hsource
  have hload := loadGrammar_of_hasGrammar hgrammar
  have hbuild : buildRegistry g = .ok r := by rw [buildRegistry, hr]
  cases hreads with
  | lex request =>
    simp only [run, lexFile, hread, hload, bind, Except.bind, hbuild]
    rfl
  | parse request =>
    simp only [run, parseFile, hread, hload, bind, Except.bind, hbuild]
    exact ⟨rfl, rfl, errorOutput_of_json _, errorOutput_of_plain _⟩

end

end Command

/-- A run that reads a source: if there is none to be had it ends with 1 and one message, whatever
the grammar is; if there is, but the grammar file is of no use, it ends with 2 and one message, which
is about the first entry that is wrong; and otherwise it prints what the command is for. This is so
with any libraries, if only their engine takes the built-in patterns. -/
theorem outcome_classified [Libraries] (p : Place) {words : List String} {command : Command}
    {file : String} {grammar : Option String} (hbuiltin : Libraries.TakeBuiltin)
    (hwords : Command.ofWords words = .ok command) (hreads : command.Reads file grammar) :
    ∃ outcome, Command.answer p.target words = .ok outcome ∧
      (∀ f, p.SourceFault file f → outcome = ⟨1, "", .text f.report⟩) ∧
      ((∀ f, ¬ p.SourceFault file f) → ∀ f, p.GrammarFault grammar f →
        outcome = ⟨2, "", .text f.report⟩) ∧
      ((∀ f, ¬ p.SourceFault file f) → (∀ f, ¬ p.GrammarFault grammar f) →
        ∃ source g r, p.HasSource file source ∧ p.HasGrammar grammar g ∧ g.registry = .ok r ∧
          command.Prints g r source outcome) := by
  refine ⟨command.run p.target, by rw [Command.answer, hwords]; rfl, ?_, ?_, ?_⟩
  · intro f hf
    rw [Command.run_of_sourceFault hreads hf]
    cases hf <;> rfl
  · intro hno f hf
    obtain ⟨source, hsource⟩ := (p.source_or_fault file).resolve_right (not_exists.mpr hno)
    rw [Command.run_of_grammarFault hreads hsource hf]
    cases hf <;> rfl
  · intro hsource hgrammar
    obtain ⟨source, hsource⟩ := (p.source_or_fault file).resolve_right (not_exists.mpr hsource)
    obtain ⟨g, r, hgrammar, hr⟩ :=
      (p.grammar_or_fault grammar hbuiltin).resolve_right (not_exists.mpr hgrammar)
    exact ⟨source, g, r, hsource, hgrammar, hr, Command.run_of_registry hreads hsource hgrammar hr⟩

/-- A grammar file with two entries; the second one has a blank for a name. -/
def namelessGrammar : String :=
  "[[token]]\nname = \"a\"\npattern = \"a\"\nliteral = true\n\n[[token]]\nname = \" \"\npattern = \"b\"\n"

/-- A directory with an empty file and with that grammar file. -/
def twoFiles : Place :=
  ⟨.directory [("a.sg", .file 0 (some "")), ("g.toml", .file 86 (some namelessGrammar))], []⟩

/-- An empty source is a program under the built-in grammar; under the other one it is not even
scanned. -/
theorem outcome_classified_twoFiles :
    Command.answer twoFiles.target ["a.sg"] = .ok ⟨0, "(program)\n", .text ""⟩ ∧
    Command.answer twoFiles.target ["lex", "a.sg", "--grammar", "g.toml"] =
      .ok ⟨2, "", .text "Error: token #1 has an empty name\n"⟩ := by
  have hempty : twoFiles.HasSource "a.sg" "" := ⟨0, by decide, rfl⟩
  constructor
  · have hwords : Command.ofWords ["a.sg"] =
        .ok (.parse ⟨"a.sg", .compact, none, false, false⟩) := rfl
    obtain ⟨⟨exitCode, stdout, stderr⟩, hanswer, -, -, hprints⟩ :=
      outcome_classified twoFiles Libraries.own_takeBuiltin hwords (.parse _)
    obtain ⟨source, g, r, ⟨_, -, hsource⟩, -, -, rfl, rfl, -, hstderr⟩ :=
      hprints (Command.no_fault_of_hasSource hempty) nofun
    cases hsource
    obtain rfl := hstderr nofun rfl
    exact hanswer
  · have hfault : twoFiles.GrammarFault (some "g.toml") (.grammarInvalid (.emptyName 1)) := by
      have hgrammar : Grammar.ofText? namelessGrammar =
          some ⟨.default, [⟨"a", "a", none, true⟩, ⟨" ", "b", none, false⟩]⟩ := by decide +kernel
      refine .entry (.file rfl hgrammar) ⟨[⟨"a", "a", none, true⟩], _, [], rfl, ?_, ?_⟩
      · simp only [List.forall_mem_singleton]
        exact ⟨⟨'a', by decide, by decide⟩, by decide, nofun⟩
      · exact .blankName (List.all_eq_true.mp (by decide))
    have hwords : Command.ofWords ["lex", "a.sg", "--grammar", "g.toml"] =
        .ok (.lex ⟨"a.sg", false, false, some "g.toml"⟩) := rfl
    obtain ⟨outcome, hanswer, -, hgrammar, -⟩ :=
      outcome_classified twoFiles Libraries.own_takeBuiltin hwords (.lex _)
    obtain rfl := hgrammar (Command.no_fault_of_hasSource hempty) _ hfault
    exact hanswer

end DollarScript
