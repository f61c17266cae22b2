import SqlGate.Report
import SqlGate.Settings.Environment

/-! The command line: arguments and an environment make up a gate and a request; the evaluation is
the answer. -/

namespace SqlGate.CommandLine

/-- What the arguments ask for. -/
structure Options where
  /-- The statement, unless it is to be read from the input. -/
  sql : Option String := none
  confirmed : Bool := false
  maxRows : Option Nat := none
  offset : Option Nat := none
  mode : Option Mode := none
  database : Option Database := none
  deriving DecidableEq, Repr

namespace Options

/-- Takes in a value that is given for the first time. -/
def once {α β : Type} (given : Option α) (value : Option β) : Option β :=
  if given.isNone then value else none

def withStatement (options : Options) (sql : String) : Option Options :=
  (once options.sql (some sql)).map fun sql => { options with sql := some sql }

/-- Takes in an option and its value. -/
def withValue (options : Options) (optionName value : String) : Option Options :=
  let count := (readCount value.toList).toOption
  if optionName = "--max-rows" then
    (once options.maxRows count).map fun count => { options with maxRows := some count }
  else if optionName = "--offset" then
    (once options.offset count).map fun count => { options with offset := some count }
  else if optionName = "--mode" then
    (once options.mode (Mode.parse value).toOption).map fun mode => { options with mode := some mode }
  else if optionName = "--database-type" then
    (once options.database (Database.parse value).toOption).map fun database =>
      { options with database := some database }
  else
    none

def withConfirmation (options : Options) : Option Options :=
  if options.confirmed then none else some { options with confirmed := true }

/-- Whether an argument is an option and no value. A dash alone is a value. -/
def isOption (argument : String) : Bool :=
  argument.toList.head? = some '-' && argument ≠ "-"

/-- The name of an option and the value after its equals sign. -/
def splitValue (argument : String) : String × Option String :=
  match argument.toList.dropWhile (· != '=') with
  | [] => (argument, none)
  | _ :: value => (String.ofList (argument.toList.takeWhile (· != '=')), some (String.ofList value))

/-- Takes in arguments from the left; after two dashes none is an option. Fails on an argument of no
meaning, a value that is missing or wrong, and on anything given twice. -/
def readFrom (options : Options) : List String → Option Options
  | [] => some options
  | "--" :: values => values.foldlM withStatement options
  | argument :: rest =>
    if !isOption argument then (options.withStatement argument).bind (readFrom · rest)
    else if argument = "--confirm-unsafe" then options.withConfirmation.bind (readFrom · rest)
    else
      match splitValue argument, rest with
      | (optionName, some value), rest => (options.withValue optionName value).bind (readFrom · rest)
      | (_, none), [] => none
      | (optionName, none), value :: rest =>
        if isOption value then none else (options.withValue optionName value).bind (readFrom · rest)

def parse (arguments : List String) : Option Options :=
  readFrom {} arguments

def request (options : Options) (sql : String) : Request :=
  ⟨sql, options.confirmed, options.maxRows, options.offset, options.mode⟩

end Options

/-- What a run of the program comes to. -/
structure Response where
  exitCode : Nat
  output : String := ""
  errors : String := ""
  deriving DecidableEq, Repr

namespace Response

/-- One message of a chain of causes; further lines of it are set in like the first one. -/
def causeLine (number : Option Nat) (message : String) : String :=
  let (start, indent) := match number with
    | some number => (s!"    {number}: ", "       ")
    | none => ("    ", "    ")
  "\n" ++ start ++ String.ofList (message.toList.flatMap fun c =>
    if c = '\n' then '\n' :: indent.toList else [c])

/-- The messages of a chain of causes; they are numbered if there are several. -/
def causeLines (causes : List String) : List String :=
  match causes with
  | [cause] => [causeLine none cause]
  | _ => causes.zipIdx.map fun (cause, number) => causeLine (some number) cause

def ofCauses (causes : List String) : Response :=
  { exitCode := 1
    errors := "Error: Invalid SQL guard configuration\n\nCaused by:" ++
      String.join (causeLines causes) ++ "\n" }

def usage : Response :=
  { exitCode := 2
    errors := "usage: [SQL] [--confirm-unsafe] [--max-rows N] [--offset N] [--mode M] " ++
      "[--database-type D]\n" }

def ofEvaluation (evaluation : Evaluation) : Response :=
  { exitCode := if evaluation.isAllowed then 0 else 2
    output := (Document.record evaluation.fields).render 0 ++ "\n" }

end Response

/-- The options and the gate that arguments and environment ask for, or the response that says what
is wrong with them. An option for the engine overrides the environment, which is checked all the
same. -/
def start (arguments : List String) (environment : String → Option String) :
    Except Response (Options × Gate) :=
  match Options.parse arguments with
  | none => .error .usage
  | some options =>
    match Settings.ofEnvironment environment with
    | .error cause => .error (.ofCauses cause.chain)
    | .ok settings =>
      match Gate.ofSettings { settings with database := options.database.getD settings.database } with
      | .error refusal => .error (.ofCauses [refusal.message])
      | .ok gate => .ok (options, gate)

/-- A whole run of the program; `input` is read where the arguments hold no statement. -/
def run (arguments : List String) (environment : String → Option String) (input : String)
    (timing : Timing := .atOnce) : Response :=
  match start arguments environment with
  | .error response => response
  | .ok (options, gate) =>
    .ofEvaluation (gate.evaluate (options.request (options.sql.getD input)) timing)

end SqlGate.CommandLine
