import DollarScript.Pattern
import DollarScript.Toml.Reader

/-! What grammars leave to libraries: reading a file into tables, regular expressions, and the words
for what is wrong with either. -/
namespace DollarScript

/-- The libraries in use. -/
class Libraries where
  /-- The tables of a text, if it is well formed. -/
  document? : String → Option Toml.Entries
  /-- What is printed about a text that is no grammar file, the end of the last line included. -/
  documentComplaint : String → String
  /-- The pattern of a regular expression, if the engine takes it. -/
  regex? : String → Option Pattern
  /-- What is printed about a regular expression that the engine refuses, likewise. -/
  regexComplaint : String → String

/-- The reader and the engine of this project. The engine takes no more than `Regex.Reader.read?`
knows of, so other engines take more. Of a complaint only the beginning is told, and nothing of
one about a file. -/
instance Libraries.own : Libraries where
  document? text := Toml.read? text.toList
  documentComplaint _ := ""
  regex? := Pattern.regex?
  regexComplaint source :=
    if Pattern.isTooLarge source then "Compiled regex exceeds size limit of 10485760 bytes.\n"
    else "regex parse error:"

end DollarScript
