import SqlPipeline.Config

/-!
# Command line arguments

Options come first, each at most once except the files. From the first argument that is no option,
or after `--`, every argument is a query.
-/

namespace SqlPipeline.Command

structure Invocation where
  /-- The file that describes the tables. -/
  catalog : Option String
  /-- The schema of the catalog to use; `main` if none is named. -/
  schema : Option String
  channelBuffer : Option Nat
  disableRecover : Bool
  logLevel : Option String
  logJson : Bool
  /-- Files with statements, which come before the queries. -/
  files : List String
  queries : List String
deriving DecidableEq, Repr, Inhabited

namespace Invocation

def empty : Invocation := ⟨none, none, none, false, none, false, [], []⟩

end Invocation

/-- The levels of log output, by their names or numbers. -/
def logLevels : List String :=
  ["error", "warn", "info", "debug", "trace"]

def isLogLevel (text : String) : Bool :=
  logLevels.any (Text.sameAsciiCase text) ||
    match Config.readWord? text.toList with
    | some n => 1 ≤ n && n ≤ 5
    | none => false

/-- Sets an option that may be given once. -/
def setOnce {α : Type} (old : Option α) (new : α) : Option (Option α) :=
  if old.isNone then some (some new) else none

def setValue (invocation : Invocation) (name value : String) : Option Invocation :=
  if name = "--catalog" then do
    if value.isEmpty then none
    else return { invocation with catalog := ← setOnce invocation.catalog value }
  else if name = "--schema" then do
    return { invocation with schema := ← setOnce invocation.schema value }
  else if name = "--channel-buffer" then do
    let n ← Config.readWord? value.toList
    return { invocation with channelBuffer := ← setOnce invocation.channelBuffer n }
  else if name = "--log-level" then do
    if isLogLevel value then
      return { invocation with logLevel := ← setOnce invocation.logLevel value }
    else none
  else if name = "--files" then
    if value.isEmpty then none
    else some { invocation with files := invocation.files ++ [value] }
  else none

def setFlag (invocation : Invocation) (name : String) : Option Invocation :=
  if name = "--disable-recover" then
    if invocation.disableRecover then none else some { invocation with disableRecover := true }
  else if name = "--log-json" then
    if invocation.logJson then none else some { invocation with logJson := true }
  else none

def valueOptions : List String :=
  ["--catalog", "--schema", "--channel-buffer", "--log-level", "--files"]

/-- A long option, split at its first `=`. -/
def splitOption (arg : List Char) : String × Option String :=
  (String.ofList (arg.takeWhile (· ≠ '=')),
    match arg.dropWhile (· ≠ '=') with
    | '=' :: value => some (String.ofList value)
    | _ => none)

/-- Whether an argument can be the value of the option before it. -/
def isValue (arg : String) : Bool :=
  match arg.toList with
  | '-' :: _ :: _ => false
  | _ => true

/-- The value after the name of a short option, without an equals sign. -/
def shortValue : List Char → String
  | '=' :: value => String.ofList value
  | value => String.ofList value

/-- Reads arguments. Gives nothing if one of them is not understood. -/
def read (invocation : Invocation) : List String → Option Invocation
  | [] => some invocation
  | arg :: rest =>
    match arg.toList with
    | ['-', '-'] => some { invocation with queries := rest }
    | '-' :: '-' :: _ =>
      match splitOption arg.toList, rest with
      | (name, some value), rest => do read (← setValue invocation name value) rest
      | (name, none), value :: others =>
        if valueOptions.contains name then
          if isValue value then do read (← setValue invocation name value) others else none
        else do read (← setFlag invocation name) (value :: others)
      | (name, none), [] => setFlag invocation name
    | ['-', 'f'] =>
      match rest with
      | value :: others =>
        if isValue value then do read (← setValue invocation "--files" value) others else none
      | [] => none
    | '-' :: 'f' :: value => do read (← setValue invocation "--files" (shortValue value)) rest
    | '-' :: _ :: _ => none
    | _ => some { invocation with queries := arg :: rest }

/-- What a command line asks for, if all of it is understood. -/
def parse? (args : List String) : Option Invocation :=
  read .empty args

end SqlPipeline.Command
