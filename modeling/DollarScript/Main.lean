import DollarScript.Command.Run

/-! The command line. -/
namespace DollarScript

/-- An error by its number, which some calls give as a negative one. The usual errors have their
usual words. -/
def FileError.ofCode (code : UInt32) (description : String) : FileError :=
  match min code.toNat (0 - code).toNat with
  | 2 => .notFound
  | 20 => .notDirectory
  | 21 => .isDirectory
  | number => .system description number

def FileError.ofError : IO.Error → FileError
  | .noFileOrDirectory _ code details | .inappropriateType _ code details
  | .permissionDenied _ code details | .otherError code details => .ofCode code details
  | e => .system e.toString 5

/-- Reads a file, whatever comes of it. What cannot be read as a file may still be there. -/
def Target.ofPath (path : String) : IO Target := do
  try
    let bytes ← IO.FS.readBinFile path
    match String.fromUTF8? bytes with
    | some text => return .present bytes.size (.ok text)
    | none => return .present bytes.size (.error .notText)
  catch e =>
    let why := FileError.ofError e
    return if why = .isDirectory then .present 0 (.error why) else .unreachable why

/-- The files that a command reads. -/
def Command.paths : Command → List String
  | .lex request => request.file :: request.grammar.toList
  | .parse request => request.file :: request.grammar.toList
  | .printGrammar | .noInput => []

def usageText : String :=
  "Usage: sigil [OPTIONS] [FILE]\n"
    ++ "       sigil lex [--words] [--json] [--grammar <GRAMMAR>] <FILE>\n"
    ++ "       sigil parse [OPTIONS] <FILE>\n"
    ++ "       sigil grammar\n\n"
    ++ "Options: [--format sexpr|json|debug] [--grammar <GRAMMAR>] [--no-delimiter] [--pretty]\n"

def Usage.describe : Usage → String
  | .help => usageText
  | .version => "sigil 0.1.0\n"
  | .missingFile => "error: a file is missing\n\n" ++ usageText
  | .unknownArgument => "error: unknown argument\n\n" ++ usageText
  | .invalidValue => "error: a value is missing or not allowed\n\n" ++ usageText
  | .conflict => "error: arguments that exclude each other\n\n" ++ usageText
  | .tooManyValues => "error: a value that nothing takes\n\n" ++ usageText
  | .unknownCommand => "error: unknown command\n\n" ++ usageText

/-- A diagnostic with its code above and its label below. -/
def Diagnostic.draw (d : Diagnostic) : String :=
  d.cause.code ++ "\n  " ++ d.text ++ "\n  " ++ d.cause.label ++ "\n"

/-- A complaint that is cut short ends its line all the same. -/
def ErrorOutput.describe : ErrorOutput → String
  | .text s => if s.isEmpty || s.endsWith "\n" then s else s ++ "\n"
  | .drawn errors => String.join (errors.map Diagnostic.draw)

end DollarScript

open DollarScript in
def main (words : List String) : IO UInt32 := do
  let paths := match Command.ofWords words with
    | .ok command => command.paths
    | .error _ => []
  let found ← paths.mapM fun path => return (path, ← Target.ofPath path)
  let files := fun path => (found.lookup path).getD (.unreachable .notFound)
  match Command.answer files words with
  | .error usage =>
    if usage.exitCode = 0 then IO.print usage.describe else IO.eprint usage.describe
    return usage.exitCode.toUInt32
  | .ok outcome =>
    IO.print outcome.stdout
    IO.eprint outcome.stderr.describe
    return outcome.exitCode.toUInt32
