import DollarScript.Command

/-! Reading the words of a command line. -/
namespace DollarScript

/-- Why the words of a command line name no command to run. -/
inductive Usage where
  | help
  | version
  | missingFile
  | unknownArgument
  | invalidValue
  | conflict
  | tooManyValues
  | unknownCommand
  deriving DecidableEq, Repr

/-- To ask for help or for the version is no mistake. -/
def Usage.exitCode : Usage → Nat
  | .help | .version => 0
  | _ => 2

/-- What a word can set. -/
inductive Slot where
  | file
  | format
  | grammar
  | noDelimiter
  | pretty
  | words
  | json
  deriving DecidableEq, Repr

namespace Slot

/-- The name of the option; a file is given by its place. -/
def name : Slot → String
  | .file => "FILE"
  | .format => "format"
  | .grammar => "grammar"
  | .noDelimiter => "no-delimiter"
  | .pretty => "pretty"
  | .words => "words"
  | .json => "json"

def takesValue : Slot → Bool
  | .file | .format | .grammar => true
  | _ => false

def accepts (value : String) : Slot → Bool
  | .format => (Format.ofName? value).isSome
  | .file | .grammar => value != ""
  | _ => true

end Slot

/-- How a word reads where options are allowed. -/
inductive Word where
  | separator
  | long (name : String) (value : Option String)
  | short (letter : Char)
  | plain
  deriving DecidableEq, Repr

def Word.ofText (text : String) : Word :=
  match text.toList with
  | ['-', '-'] => .separator
  | '-' :: '-' :: rest =>
    let name := String.ofList (rest.takeWhile (· != '='))
    match rest.dropWhile (· != '=') with
    | [] => .long name none
    | _ :: value => .long name (some (String.ofList value))
  | '-' :: letter :: _ => .short letter
  | _ => .plain

/-- The words that a command takes. `surplus` is what a word too many is told. -/
structure Form where
  options : List Slot
  takesFile : Bool
  hasVersion : Bool
  surplus : Usage

namespace Form

def option? (f : Form) (name : String) : Option Slot := f.options.find? (·.name == name)

/-- Options that end the reading with an answer of their own. -/
def question? (f : Form) (name : String) : Option Usage :=
  if name = "help" then some .help
  else if name = "version" ∧ f.hasVersion then some .version
  else none

/-- The one-letter names of the same options. -/
def letter? (f : Form) (letter : Char) : Option Usage :=
  if letter = 'h' then some .help
  else if letter = 'V' ∧ f.hasVersion then some .version
  else none

end Form

/-- What has been read. A value waits in `pending` until the next word that is understood, and
only then is it looked at; an option whose value is still to come waits there, too. Behind the
separator every word is plain. -/
structure Reading where
  given : List (Slot × String)
  pending : Option (Slot × Option String)
  onlyPlain : Bool

namespace Reading

def initial : Reading := ⟨[], none, false⟩

def has (r : Reading) (slot : Slot) : Bool :=
  r.given.any (·.1 == slot) || r.pending.any (·.1 == slot)

/-- Nothing can be set twice. -/
def put (r : Reading) (slot : Slot) (value : String) : Except Usage Reading :=
  if r.given.any (·.1 == slot) then .error .conflict
  else if slot.accepts value then .ok { r with given := r.given ++ [(slot, value)] }
  else .error .invalidValue

def settle (r : Reading) : Except Usage Reading :=
  match r.pending with
  | none => .ok r
  | some (_, none) => .error .invalidValue
  | some (slot, some value) => put { r with pending := none } slot value

def await (r : Reading) (slot : Slot) (value : Option String) : Reading :=
  { r with pending := some (slot, value) }

def readOption (r : Reading) (slot : Slot) : Option String → Except Usage Reading
  | some value =>
    if slot.takesValue then do (← r.settle).put slot value else .error .tooManyValues
  | none => do
    let r ← r.settle
    if slot.takesValue then return r.await slot none else r.put slot ""

def readLong (f : Form) (r : Reading) (name : String) (value : Option String) :
    Except Usage Reading :=
  match f.option? name with
  | some slot => r.readOption slot value
  | none =>
    match f.question? name with
    | none => .error .unknownArgument
    | some answer =>
      if value.isSome then .error .tooManyValues
      else do
        let _ ← r.settle
        throw answer

def readShort (f : Form) (r : Reading) (letter : Char) : Except Usage Reading :=
  match f.letter? letter with
  | none => .error .unknownArgument
  | some answer => do
    let _ ← r.settle
    throw answer

def readPlain (f : Form) (r : Reading) (word : String) : Except Usage Reading :=
  if f.takesFile && !r.has .file then do
    let r ← r.settle
    return r.await .file (some word)
  else .error f.surplus

def read (f : Form) (r : Reading) (word : String) : Except Usage Reading :=
  if r.onlyPlain then r.readPlain f word
  else
    match Word.ofText word with
    | .separator => .ok { r with onlyPlain := true }
    | .long name value => r.readLong f name value
    | .short letter => r.readShort f letter
    | .plain =>
      match r.pending with
      | some (slot, none) => .ok (r.await slot (some word))
      | _ => r.readPlain f word

end Reading

/-- What the words of a command have set. -/
structure Given where
  values : List (Slot × String)

namespace Given

def value? (g : Given) (slot : Slot) : Option String := g.values.lookup slot

def has (g : Given) (slot : Slot) : Bool := (g.value? slot).isSome

def file (g : Given) : Except Usage String :=
  match g.value? .file with
  | some file => .ok file
  | none => .error .missingFile

def lexRequest (g : Given) (file : String) : LexRequest where
  file := file
  words := g.has .words
  json := g.has .json
  grammar := g.value? .grammar

def parseRequest (g : Given) (file : String) : ParseRequest where
  file := file
  format := ((g.value? .format).bind Format.ofName?).getD .compact
  grammar := g.value? .grammar
  noDelimiter := g.has .noDelimiter
  pretty := g.has .pretty

end Given

def Form.read (f : Form) (words : List String) : Except Usage Given := do
  let r ← words.foldlM (Reading.read f) .initial
  return ⟨(← r.settle).given⟩

namespace Command

def lexForm : Form := ⟨[.words, .json, .grammar], true, false, .unknownArgument⟩

def parseForm : Form :=
  ⟨[.format, .grammar, .noDelimiter, .pretty], true, false, .unknownArgument⟩

def grammarForm : Form := ⟨[], false, false, .unknownArgument⟩

/-- The form without a command takes what parsing takes. A word too many could only have been a
command, which does not go with what stands before it. -/
def bareForm : Form := { parseForm with hasVersion := true, surplus := .conflict }

def names : List String := ["lex", "parse", "grammar", "help"]

/-- Help is there for a command, but not for what is below it. -/
def helpOn : List String → Usage
  | [] => .help
  | [name] => if name ∈ names then .help else .unknownCommand
  | _ => .unknownCommand

/-- The command that the words ask for. Only the first word can name one. -/
def ofWords : List String → Except Usage Command
  | "lex" :: words => do
    let g ← lexForm.read words
    return .lex (g.lexRequest (← g.file))
  | "parse" :: words => do
    let g ← parseForm.read words
    return .parse (g.parseRequest (← g.file))
  | "grammar" :: words => do
    let _ ← grammarForm.read words
    return .printGrammar
  | "help" :: words => .error (helpOn words)
  | words => do
    let g ← bareForm.read words
    match g.value? .file with
    | some file => return .parse (g.parseRequest file)
    | none => return .noInput

end Command

end DollarScript
