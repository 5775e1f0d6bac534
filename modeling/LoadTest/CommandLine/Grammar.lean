import LoadTest.Number.Numeral

/-!
# LoadTest.CommandLine.Grammar

Reading command lines by a grammar of options. An option is written with two dashes and its name or with
one dash and its letter, and its value follows behind `=`, directly behind the letter, or as the next
argument. **A value that is an argument of its own does not begin with a dash,** unless two dashes alone
came before; an option whose value is still open is settled as soon as another one begins.
-/

namespace LoadTest.CommandLine

/-- Why a command line is not followed. -/
inductive Refusal where
  /-- Help was asked for. -/
  | help
  /-- The version was asked for. -/
  | version
  /-- Nothing was asked for. -/
  | nothingAsked
  | unknownArgument
  /-- An option is given twice. -/
  | argumentConflict
  | missingArgument
  /-- A value is absent, or none of those that are possible. -/
  | invalidValue
  /-- A value is not of the form that is needed. -/
  | malformedValue
  /-- An option without a value is given one. -/
  | tooManyValues
  | unknownSubcommand
  deriving DecidableEq

/-- The form of a value. -/
inductive ValueForm where
  /-- Any text. -/
  | text
  /-- A text that is not empty. -/
  | path
  /-- A natural number of 64 bits. -/
  | word
  /-- An integer of 64 bits. -/
  | signed
  /-- One of some words. -/
  | choice (words : List String)
  deriving DecidableEq

/-- Refuses values of the wrong form. -/
def ValueForm.check (value : String) : ValueForm → Except Refusal Unit
  | .text => .ok ()
  | .path => if value = "" then .error .invalidValue else .ok ()
  | .word => if (natBelow? UInt64.size value.toList).isSome then .ok () else .error .malformedValue
  | .signed => if (intWithin? signedLimit value.toList).isSome then .ok () else .error .malformedValue
  | .choice words => if words.contains value then .ok () else .error .invalidValue

/-- Whether an option takes a value. -/
inductive Arity where
  | switch
  | value (form : ValueForm)
  /-- A value may follow; if none does, a default takes its place. -/
  | optionalValue (form : ValueForm) (default : String)
  /-- Asks for information and ends the reading. -/
  | inform (refusal : Refusal)
  deriving DecidableEq

/-- An option, or an argument that stands without one. -/
structure Flag where
  name : String
  letter : Option Char := none
  arity : Arity
  /-- The environment variable that gives the value if the command line does not. -/
  environment : Option String := none
  required : Bool := false
  deriving DecidableEq

/-- What may stand on a command line. -/
structure Grammar where
  options : List Flag
  /-- The argument that stands without an option. -/
  positional : Option Flag := none

/-- What has been read of a command line. -/
structure Reading where
  /-- The values of options and arguments, by name. -/
  values : List (String × String) := []
  /-- An option or argument that is not settled, and the value it has so far. -/
  pending : Option (Flag × Option String) := none
  /-- Whether the next argument may be the value of the pending option. -/
  awaiting : Bool := false
  /-- Whether two dashes alone have been read. -/
  trailing : Bool := false
  /-- Whether the argument without an option has been read. -/
  positionalTaken : Bool := false

namespace Reading

/-- The value of a name. -/
def value? (reading : Reading) (name : String) : Option String := reading.values.lookup name

/-- Keeps the value of an option that has none yet. -/
def store (reading : Reading) (flag : Flag) (form : ValueForm) (value : String) :
    Except Refusal Reading := do
  if (reading.value? flag.name).isSome then throw .argumentConflict
  form.check value
  pure { reading with values := reading.values ++ [(flag.name, value)] }

/-- Keeps what is given for an option. -/
def take (reading : Reading) (flag : Flag) (value : Option String) : Except Refusal Reading :=
  match flag.arity, value with
  | .switch, _ => reading.store flag .text "true"
  | .value _, none => .error .invalidValue
  | .value form, some value => reading.store flag form value
  | .optionalValue form default, value => reading.store flag form (value.getD default)
  | .inform refusal, _ => .error refusal

/-- Settles the pending option. -/
def settle (reading : Reading) : Except Refusal Reading :=
  match reading.pending with
  | none => .ok { reading with awaiting := false }
  | some (flag, value) => ({ reading with pending := none, awaiting := false }).take flag value

/-- An option begins, whose value is given with it or not. -/
def begin (reading : Reading) (flag : Flag) (attached : Option String) : Except Refusal Reading := do
  let reading ← reading.settle
  match flag.arity, attached with
  | .value _, none | .optionalValue _ _, none =>
      pure { reading with pending := some (flag, none), awaiting := true }
  | _, value => reading.take flag value

/-- An argument that names an option in full. -/
def readLong (grammar : Grammar) (reading : Reading) (text : List Char) : Except Refusal Reading :=
  let name := String.ofList (text.takeWhile (· ≠ '='))
  let attached := match text.dropWhile (· ≠ '=') with
    | '=' :: value => some (String.ofList value)
    | _ => none
  match grammar.options.find? (·.name == name) with
  | none => .error .unknownArgument
  | some flag =>
      match flag.arity, attached with
      | .switch, some _ | .inform _, some _ => .error .tooManyValues
      | _, attached => reading.begin flag attached

/-- An argument that names options by their letters; what follows the letter of an option with a value
is its value. -/
def readShort (grammar : Grammar) (reading : Reading) : List Char → Except Refusal Reading
  | [] => .ok reading
  | letter :: rest =>
      match grammar.options.find? (·.letter == some letter) with
      | none => .error .unknownArgument
      | some flag =>
          match flag.arity with
          | .switch | .inform _ => do readShort grammar (← reading.begin flag none) rest
          | .value _ | .optionalValue _ _ =>
              match rest with
              | [] => reading.begin flag none
              | '=' :: value => reading.begin flag (some (String.ofList value))
              | value => reading.begin flag (some (String.ofList value))

/-- An argument without an option. -/
def readPositional (grammar : Grammar) (reading : Reading) (value : String) : Except Refusal Reading := do
  match grammar.positional with
  | some flag =>
      if reading.positionalTaken then throw .unknownArgument
      let reading ← reading.settle
      pure { reading with pending := some (flag, some value), positionalTaken := true }
  | none => throw .unknownArgument

/-- The next argument. -/
def read (grammar : Grammar) (reading : Reading) (argument : String) : Except Refusal Reading :=
  if reading.trailing then reading.readPositional grammar argument
  else
    match argument.toList, reading.awaiting, reading.pending with
    | ['-', '-'], _, _ => .ok { reading with trailing := true }
    | '-' :: '-' :: text, _, _ => reading.readLong grammar text
    | '-' :: letter :: rest, _, _ => reading.readShort grammar (letter :: rest)
    | _, true, some (flag, _) =>
        .ok { reading with pending := some (flag, some argument), awaiting := false }
    | _, _, _ => reading.readPositional grammar argument

/-- Takes the value of an option from the environment if the command line does not give it. -/
def readEnvironment (environment : List (String × String)) (reading : Reading) (flag : Flag) :
    Except Refusal Reading :=
  match flag.environment.bind fun name => List.lookup name environment with
  | some value => if (reading.value? flag.name).isSome then .ok reading else reading.take flag (some value)
  | none => .ok reading

/-- Whether an option that has to be given is absent. -/
def lacks (reading : Reading) (flag : Flag) : Bool :=
  flag.required && (reading.value? flag.name).isNone

end Reading

/-- The values on a command line. -/
def Grammar.read (grammar : Grammar) (environment : List (String × String)) (arguments : List String) :
    Except Refusal Reading := do
  let reading ← arguments.foldlM (Reading.read grammar) {}
  let reading ← reading.settle
  let flags := grammar.options ++ grammar.positional.toList
  let reading ← flags.foldlM (Reading.readEnvironment environment) reading
  if flags.any reading.lacks then throw .missingArgument
  pure reading

end LoadTest.CommandLine
