import LoadTest.Config.Reader
import LoadTest.Format.Json
import LoadTest.Format.Yaml

/-!
# LoadTest.Config.File

Configurations from files. **The ending of the name tells the format:** JSON for `json` in any case,
YAML for everything else.
-/

namespace LoadTest.Config

/-- Why a file gives no configuration. -/
inductive LoadError where
  /-- There is no such file, or it is not text. -/
  | unreadable
  /-- The text is not in the format, or does not describe a configuration. -/
  | malformed
  deriving DecidableEq

/-- The error in words, about a file. -/
def LoadError.message (path : String) : LoadError → String
  | .unreadable => "failed to read config file '" ++ path ++ "': No such file or directory (os error 2)"
  | .malformed => "failed to parse config: not a configuration"

/-- The configuration in a JSON text. -/
def ofJsonText? (text : String) : Option Config := do read? (← Json.ofText? text)

/-- The configuration in a YAML text. -/
def ofYamlText? (text : String) : Option Config := do read? (← Yaml.Value.ofText? text)

/-- The last part of a path. -/
def fileName (path : String) : List Char :=
  let trimmed := Text.dropEndWhile (· = '/') path.toList
  (trimmed.reverse.takeWhile (· ≠ '/')).reverse

/-- The ending of a name, behind its last point; a name that begins with its only point has none. -/
def extension? (path : String) : Option (List Char) :=
  let name := fileName path
  let ending := (name.reverse.takeWhile (· ≠ '.')).reverse
  if ending.length + 1 < name.length ∧ name ≠ ['.', '.'] then some ending else none

/-- Whether a file is to be read as JSON. -/
def isJsonFile (path : String) : Bool :=
  (extension? path).any fun ending => ending.map Numeral.lowerAscii == "json".toList

/-- The configuration in a file with the given content, if there is one. -/
def load (path : String) (content : Option (List UInt8)) : Except LoadError Config :=
  match content.bind fun bytes => String.fromUTF8? ⟨bytes.toArray⟩ with
  | none => .error .unreadable
  | some text =>
      match if isJsonFile path then ofJsonText? text else ofYamlText? text with
      | some config => .ok config
      | none => .error .malformed

end LoadTest.Config
