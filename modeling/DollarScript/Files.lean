import DollarScript.Json

/-! Files as a run of the command sees them: what a path leads to. -/
namespace DollarScript

/-- Why a file cannot be reached or read: what the system says, or bytes that are no text. -/
inductive FileError where
  | system (description : String) (code : Nat)
  | notText
  deriving DecidableEq, Repr

namespace FileError

def notFound : FileError := .system "No such file or directory" 2

def notDirectory : FileError := .system "Not a directory" 20

def isDirectory : FileError := .system "Is a directory" 21

def message : FileError → String
  | .system description code =>
    description ++ " (os error " ++ Json.naturalText code ++ ")"
  | .notText => "stream did not contain valid UTF-8"

end FileError

/-- What a path leads to. The size is in bytes; reading the text may still go wrong. -/
inductive Target where
  | unreachable (why : FileError)
  | present (size : Nat) (text : Except FileError String)

/-- A file, whose text is missing if its bytes are not UTF-8, or a directory. -/
inductive Node where
  | file (size : Nat) (text : Option String)
  | directory (entries : List (String × Node))

def Node.target : Node → Target
  | .file size (some text) => .present size (.ok text)
  | .file size none => .present size (.error .notText)
  | .directory _ => .present 0 (.error .isDirectory)

/-- A place in a tree of directories, and the directories above it, the nearest first. -/
structure Place where
  here : Node
  above : List Node

namespace Place

/-- Cuts a path at every slash. -/
def components : List Char → List (List Char)
  | [] => [[]]
  | c :: rest =>
    if c = '/' then [] :: components rest
    else
      match components rest with
      | [] => [[c]]
      | first :: others => (c :: first) :: others

/-- Goes down one name after another. An empty name and a dot stay, two dots go up; the highest
directory is above itself. -/
def follow (p : Place) : List (List Char) → Except FileError Node
  | [] => .ok p.here
  | name :: rest =>
    match p.here with
    | .file _ _ => .error .notDirectory
    | .directory entries =>
      if name = [] ∨ name = ['.'] then p.follow rest
      else if name = ['.', '.'] then
        match p.above with
        | [] => p.follow rest
        | parent :: others => follow ⟨parent, others⟩ rest
      else
        match entries.lookup (String.ofList name) with
        | some node => follow ⟨node, p.here :: p.above⟩ rest
        | none => .error .notFound

/-- The place at the top of the tree. -/
def top (p : Place) : Place := ⟨p.above.getLastD p.here, []⟩

/-- What a path leads to from here; a path that starts with a slash is followed from the top. -/
def target (p : Place) (path : String) : Target :=
  let start := if path.toList.head? = some '/' then p.top else p
  match start.follow (components path.toList) with
  | .ok node => node.target
  | .error why => .unreachable why

end Place

end DollarScript
