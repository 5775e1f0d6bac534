import LoadTest.CommandLine.Grammar
import LoadTest.Config.Basic

/-!
# LoadTest.CommandLine.Basic

What the program can be asked to do. **The first argument names a subcommand,** and the rest is read by
its grammar; before it only help and the version can be asked for.
-/

namespace LoadTest.CommandLine

/-- What a run is to be done with. -/
structure RunOptions where
  config : String
  overrides : Config.Overrides
  /-- Whether the summary is printed as JSON. -/
  json : Bool
  exportJson : Option String
  exportCsv : Option String
  /-- Whether commands are read while the run goes on. -/
  interactive : Bool
  /-- The log in which the run is recorded. -/
  history : Option String

/-- What the program is asked to do. -/
inductive Invocation where
  | run (options : RunOptions)
  | validate (config : String) (overrides : Config.Overrides)
  | schema (output : Option String)
  | history (id : Option Int) (database : String) (limit : UInt64)
  | completion (shell : String)

/-- The log that is used if nothing else is said. -/
def defaultHistory : String := "barrage_history.db"

/-- How many runs are listed if nothing else is said. -/
def defaultLimit : Nat := 20

/-! ### Grammars -/

/-- The option that asks for help. -/
def helpFlag : Flag := { name := "help", letter := some 'h', arity := .inform .help }

/-- The option that asks for the version. -/
def versionFlag : Flag := { name := "version", letter := some 'V', arity := .inform .version }

/-- The options that name the configuration and replace some of its values. -/
def configFlags : List Flag := [
  { name := "config", letter := some 'c', arity := .value .path, required := true },
  { name := "base-url", arity := .value .text, environment := some "BASE_URL" },
  { name := "coupon-id", arity := .value .word, environment := some "COUPON_ID" }]

/-- The grammar of each subcommand. -/
def grammars : List (String × Grammar) := [
  ("run", { options := configFlags ++ [
    { name := "json", arity := .switch },
    { name := "export-json", arity := .value .path },
    { name := "export-csv", arity := .value .path },
    { name := "interactive", letter := some 'i', arity := .switch },
    { name := "history", arity := .optionalValue .path defaultHistory }, helpFlag] }),
  ("validate", { options := configFlags ++ [helpFlag] }),
  ("schema", { options := [{ name := "output", letter := some 'o', arity := .value .path }, helpFlag] }),
  ("history", {
    options := [{ name := "db", arity := .value .path },
      { name := "limit", letter := some 'n', arity := .value .word }, helpFlag]
    positional := some { name := "id", arity := .value .signed } }),
  ("completion", {
    options := [helpFlag]
    positional := some {
      name := "shell"
      arity := .value (.choice ["bash", "elvish", "fish", "powershell", "zsh"])
      required := true } })]

/-- Whether a word names a subcommand. -/
def isSubcommand (word : String) : Bool := word == "help" || (grammars.lookup word).isSome

/-! ### Invocations -/

/-- A natural number that has been read. -/
def word? (reading : Reading) (name : String) : Option UInt64 := do
  let n ← natBelow? UInt64.size (← reading.value? name).toList
  pure (UInt64.ofNat n)

/-- The values that replace some of the configuration's. -/
def overridesOf (reading : Reading) : Config.Overrides :=
  ⟨reading.value? "base-url", word? reading "coupon-id"⟩

/-- What a subcommand and its values ask for. -/
def invocationOf (subcommand : String) (reading : Reading) : Invocation :=
  let config := (reading.value? "config").getD ""
  match subcommand with
  | "run" => .run {
      config
      overrides := overridesOf reading
      json := (reading.value? "json").isSome
      exportJson := reading.value? "export-json"
      exportCsv := reading.value? "export-csv"
      interactive := (reading.value? "interactive").isSome
      history := reading.value? "history" }
  | "validate" => .validate config (overridesOf reading)
  | "schema" => .schema (reading.value? "output")
  | "history" => .history
      ((reading.value? "id").bind fun id => intWithin? signedLimit id.toList)
      ((reading.value? "db").getD defaultHistory)
      ((word? reading "limit").getD (UInt64.ofNat defaultLimit))
  | _ => .completion ((reading.value? "shell").getD "")

/-- Help on a subcommand, of which there are no further ones. -/
def helpOn : List String → Refusal
  | [] => .help
  | [word] => if isSubcommand word then .help else .unknownSubcommand
  | _ => .unknownSubcommand

/-- What a command line asks for, if two dashes alone have or have not been read. -/
def parseFrom (environment : List (String × String)) (trailing : Bool) :
    List String → Except Refusal Invocation
  | [] => .error .nothingAsked
  | argument :: rest =>
      if trailing then
        .error (if isSubcommand argument then .unknownArgument else .unknownSubcommand)
      else if argument = "help" then .error (helpOn rest)
      else
        match grammars.lookup argument, argument.toList with
        | some grammar, _ => do
            let reading ← grammar.read environment rest
            pure (invocationOf argument reading)
        | none, ['-', '-'] => parseFrom environment true rest
        | none, '-' :: _ :: _ => do
            let _ ← Reading.read { options := [helpFlag, versionFlag] } {} argument
            parseFrom environment false rest
        | none, _ => .error .unknownSubcommand

/-- What a command line asks for. -/
def parse (environment : List (String × String)) (arguments : List String) :
    Except Refusal Invocation :=
  parseFrom environment false arguments

end LoadTest.CommandLine
