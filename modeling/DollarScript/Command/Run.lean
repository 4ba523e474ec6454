import DollarScript.Command.Args
import DollarScript.Files
import DollarScript.Grammar.File

/-! What a command prints, and the code that it ends with. -/
namespace DollarScript

/-- What ends a run before it prints anything. -/
inductive Failure where
  | sourceUnreachable (path : String) (why : FileError)
  | sourceTooLarge (path : String) (size : Nat)
  | sourceUnreadable (path : String) (why : FileError)
  | grammarUnreadable (path : String) (why : FileError)
  | grammarMalformed (text : String)
  | grammarInvalid (why : GrammarError)
  | noInput
  deriving DecidableEq, Repr

/-- In bytes. -/
def maxSourceSize : Nat := 104857600

namespace Failure

section

variable [Libraries]

/-- What goes to the error stream. Libraries tell what is wrong inside a grammar file or a regular
expression, and end the line. -/
def report : Failure → String
  | .sourceUnreachable path why => "Cannot access file '" ++ path ++ "': " ++ why.message ++ "\n"
  | .sourceTooLarge path size =>
    "Source file '" ++ path ++ "' is too large (" ++ Json.naturalText size ++ " bytes, max "
      ++ Json.naturalText maxSourceSize ++ " bytes)\n"
  | .sourceUnreadable path why => "Error reading file '" ++ path ++ "': " ++ why.message ++ "\n"
  | .grammarUnreadable path why =>
    "Error: cannot read grammar file '" ++ path ++ "': " ++ why.message ++ "\n"
  | .grammarMalformed text => "Error: invalid grammar file: " ++ Libraries.documentComplaint text
  | .grammarInvalid (.invalidPattern name source) =>
    "Error: " ++ (GrammarError.invalidPattern name source).message
      ++ Libraries.regexComplaint source
  | .grammarInvalid why => "Error: " ++ why.message ++ "\n"
  | .noInput => "Error: no input file (try `sigil --help`)\n"

end

/-- A grammar that is of no use has a code of its own. -/
def exitCode : Failure → Nat
  | .grammarUnreadable _ _ | .grammarMalformed _ | .grammarInvalid _ => 2
  | _ => 1

end Failure

/-- What goes to the error stream: text, or diagnostics drawn into their source. -/
inductive ErrorOutput where
  | text (s : String)
  | drawn (errors : List Diagnostic)

structure Outcome where
  exitCode : Nat
  stdout : String
  stderr : ErrorOutput

def Failure.outcome [Libraries] (f : Failure) : Outcome := ⟨f.exitCode, "", .text f.report⟩

/-- The tokens, one a line or as JSON. -/
def LexRequest.listing (request : LexRequest) (tokens : List Token) : String :=
  if request.json then (Json.arr (tokens.map Token.toJson)).pretty 0 ++ "\n"
  else Token.listings tokens

/-- JSON has the diagnostics in it, so they are not told again. -/
def ParseRequest.errorOutput (request : ParseRequest) (errors : List Diagnostic) : ErrorOutput :=
  if request.format = .json ∨ errors = [] then .text ""
  else if request.pretty then .drawn errors
  else .text (Diagnostic.report errors)

def ParseRequest.options (request : ParseRequest) (g : Grammar) : ParserOptions :=
  if request.noDelimiter then g.options.withoutConditionDelimiter else g.options

namespace Command

variable [Libraries] (files : String → Target)

def readSource (path : String) : Except Failure String :=
  match files path with
  | .unreachable why => .error (.sourceUnreachable path why)
  | .present size text =>
    if maxSourceSize < size then .error (.sourceTooLarge path size)
    else
      match text with
      | .ok source => .ok source
      | .error why => .error (.sourceUnreadable path why)

/-- The grammar in a file, or the built-in one if no file is named. -/
def loadGrammar : Option String → Except Failure Grammar
  | none => .ok .builtin
  | some path =>
    match files path with
    | .unreachable why | .present _ (.error why) => .error (.grammarUnreadable path why)
    | .present _ (.ok text) =>
      match Grammar.ofText? text with
      | some g => .ok g
      | none => .error (.grammarMalformed text)

def buildRegistry (g : Grammar) : Except Failure Registry :=
  match g.registry with
  | .ok r => .ok r
  | .error why => .error (.grammarInvalid why)

def lexFile (request : LexRequest) : Except Failure Outcome := do
  let source ← readSource files request.file
  let registry ← buildRegistry (← loadGrammar files request.grammar)
  let scan := if request.words then Scanner.words else Scanner.tokens
  return ⟨0, request.listing (scan registry source.toList), .text ""⟩

def parseFile (request : ParseRequest) : Except Failure Outcome := do
  let source ← readSource files request.file
  let g ← loadGrammar files request.grammar
  let registry ← buildRegistry g
  let result := DollarScript.parse registry (request.options g) source.toList
  return ⟨if result.success then 0 else 1, request.format.render result ++ "\n",
    request.errorOutput result.errors⟩

/-- The built-in grammar as a grammar file. -/
def grammarOutcome : Outcome := ⟨0, Grammar.builtin.toText, .text ""⟩

def run (command : Command) : Outcome :=
  let result := match command with
    | .lex request => lexFile files request
    | .parse request => parseFile files request
    | .printGrammar => .ok grammarOutcome
    | .noInput => .error .noInput
  match result with
  | .ok outcome => outcome
  | .error failure => failure.outcome

/-- What the words of a command line come to. -/
def answer (words : List String) : Except Usage Outcome := (ofWords words).map (run files)

end Command

end DollarScript
