import ConfigLowering.CommandLine.Parameter

/-!
# Invocations

The arguments are read from left to right, level by level. Within a level no
parameter is given twice. The value of an inner level wins over that of an
outer one, and a value of either over the environment. Values are checked as
late as possible: when the next parameter comes, or after the inner levels.
-/

namespace ConfigLowering.CommandLine

structure Options where
  settingsFile : Option String
  verbose : Bool
  quiet : Bool
  baseModule : Option String
  collision : Option CollisionPolicy

inductive ImportsFormat where
  | table
  | json
  | statements
  deriving DecidableEq, Repr

inductive Command where
  | generate (input : String) (output : Option String) (compact : Bool)
  | imports (input : String) (format : ImportsFormat)
  | showSettings (json : Bool)
  | showPaths (json : Bool)
  | initSettings (inHome : Bool)
  deriving DecidableEq, Repr

structure Invocation where
  options : Options
  command : Command

/-- Why no command is run. -/
inductive Interruption where
  | misuse
  | help
  | version (title : String)
  deriving DecidableEq, Repr

abbrev Environment := String → Option String

/-! ## One level -/

/-- What has been read of a level. -/
structure Reading where
  flags : List Parameter
  values : List (Parameter × String)
  /-- The latest value as long as it is not checked. -/
  unchecked : Option (Parameter × String)
  /-- The parameter whose value comes next. -/
  awaiting : Option Parameter
  /-- Whether no more options and commands follow. -/
  inputsOnly : Bool

namespace Reading

def start : Reading := ⟨[], [], none, none, false⟩

def has (reading : Reading) (parameter : Parameter) : Bool :=
  reading.flags.contains parameter

def value? (reading : Reading) (parameter : Parameter) : Option String :=
  reading.values.lookup parameter

/-- Checks the latest value. -/
def settle (reading : Reading) : Except Interruption Reading :=
  if reading.awaiting.isSome then .error .misuse
  else
    match reading.unchecked with
    | none => .ok reading
    | some (parameter, value) =>
        if (reading.value? parameter).isSome || !parameter.accepts value then .error .misuse
        else .ok { reading with values := (parameter, value) :: reading.values, unchecked := none }

def takeFlag (level : Level) (parameter : Parameter) (reading : Reading) :
    Except Interruption Reading := do
  let reading ← reading.settle
  match parameter with
  | .help => throw .help
  | .version => throw (.version level.title)
  | _ =>
      if reading.has parameter then throw .misuse
      return { reading with flags := parameter :: reading.flags }

def takeValue (parameter : Parameter) (value : String) (reading : Reading) :
    Except Interruption Reading := do
  return { ← reading.settle with unchecked := some (parameter, value) }

def takeAttached (parameter : Parameter) (value : String) (reading : Reading) :
    Except Interruption Reading := do
  (← reading.takeValue parameter value).settle

def awaitValue (parameter : Parameter) (reading : Reading) : Except Interruption Reading := do
  return { ← reading.settle with awaiting := some parameter }

def takeInput (level : Level) (argument : String) (reading : Reading) :
    Except Interruption Reading :=
  if level.parameters.contains .input then reading.takeValue .input argument
  else .error .misuse

def takeLong (level : Level) (name : String) (value? : Option String) (reading : Reading) :
    Except Interruption Reading :=
  match level.long? name with
  | none => .error .misuse
  | some parameter =>
      match parameter.takesValue, value? with
      | true, some value => reading.takeAttached parameter value
      | true, none => reading.awaitValue parameter
      | false, some _ => .error .misuse
      | false, none => reading.takeFlag level parameter

/-- Takes letters after one dash. All that follows the letter of a parameter
with a value is the value. -/
def takeLetters (level : Level) : List Char → Reading → Except Interruption Reading
  | [], reading => .ok reading
  | letter :: rest, reading =>
      match level.short? letter with
      | none => .error .misuse
      | some parameter =>
          match parameter.takesValue, rest with
          | true, [] => reading.awaitValue parameter
          | true, '=' :: value => reading.takeAttached parameter (String.ofList value)
          | true, value => reading.takeAttached parameter (String.ofList value)
          | false, rest => do takeLetters level rest (← reading.takeFlag level parameter)

/-- A name and what follows the first equals sign behind it. -/
def splitValue (text : List Char) : String × Option String :=
  let name := String.ofList (text.takeWhile (· ≠ '='))
  match text.dropWhile (· ≠ '=') with
  | [] => (name, none)
  | _ :: value => (name, some (String.ofList value))

def takeArgument (level : Level) (argument : String) (reading : Reading) :
    Except Interruption Reading :=
  if reading.inputsOnly then reading.takeInput level argument
  else
    match argument.toList with
    | ['-', '-'] => .ok { reading with inputsOnly := true }
    | '-' :: '-' :: text =>
        let (name, value?) := splitValue text
        reading.takeLong level name value?
    | '-' :: letter :: letters => takeLetters level (letter :: letters) reading
    | _ =>
        match reading.awaiting with
        | some parameter =>
            .ok { reading with awaiting := none, unchecked := some (parameter, argument) }
        | none => reading.takeInput level argument

/-- The end of a level: what the environment says instead is checked as well. -/
def close (environment : Environment) (reading : Reading) : Except Interruption Reading := do
  let reading ← reading.settle
  let fits := Parameter.shared.all fun parameter =>
    (reading.value? parameter).isSome ||
      ((parameter.environmentName?.bind environment).map parameter.accepts).getD true
  if fits then return reading else throw .misuse

/-- Whether an argument can be a command. -/
def expectsCommand (reading : Reading) : Bool :=
  !reading.inputsOnly && reading.awaiting.isNone

end Reading

/-! ## All levels -/

def helpOn (level : Level) (words : List String) : Interruption :=
  if (level.follow? words).isSome then .help else .misuse

/-- The innermost level, and what was read of it and the levels around it,
innermost last. -/
def readLevels (environment : Environment) :
    Level → Reading → List String → Except Interruption (Level × List Reading)
  | level, reading, [] => do return (level, [← reading.close environment])
  | level, reading, argument :: rest =>
      if reading.expectsCommand && !level.subcommands.isEmpty && argument = "help" then
        .error (helpOn level rest)
      else
        match if reading.expectsCommand then level.subcommands.lookup argument else none with
        | some inner => do
            let (innermost, readings) ← readLevels environment inner .start rest
            return (innermost, (← reading.close environment) :: readings)
        | none => do
            readLevels environment level (← reading.takeArgument level argument) rest

/-! ## Results -/

def importsFormat? (reading : Reading) : Option ImportsFormat :=
  match reading.has .json, reading.has .statements with
  | true, true => none
  | true, false => some .json
  | false, true => some .statements
  | false, false => some .table

/-- The command of a level, unless it lacks something. -/
def commandOf? (reading : Reading) : Level → Option Command
  | .generate => do
      return .generate (← reading.value? .input) (reading.value? .output) (reading.has .compact)
  | .imports => do return .imports (← reading.value? .input) (← importsFormat? reading)
  | .showSettings => some (.showSettings (reading.has .json))
  | .showPaths => some (.showPaths (reading.has .json))
  | .initSettings => some (.initSettings (reading.has .inHome))
  | .top | .settings => none

def optionsOf (environment : Environment) (readings : List Reading) : Options :=
  let has := fun (parameter : Parameter) => readings.any (·.has parameter)
  let value? := fun (parameter : Parameter) =>
    (readings.reverse.findSome? (·.value? parameter)).or
      (parameter.environmentName?.bind environment)
  { settingsFile := value? .settingsFile
    verbose := has .verbose
    quiet := has .quiet
    baseModule := value? .baseModule
    collision := (value? .collision).bind fun name => (CollisionPolicy.parse name).toOption }

/-- The invocation that the arguments ask for. -/
def Invocation.read (environment : Environment) (arguments : List String) :
    Except Interruption Invocation := do
  let (level, readings) ← readLevels environment .top .start arguments
  match readings.getLast?.bind (commandOf? · level) with
  | some command => return { options := optionsOf environment readings, command }
  | none => throw .misuse

end ConfigLowering.CommandLine
