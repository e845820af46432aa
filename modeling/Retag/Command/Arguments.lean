import Retag.Text.Basic

/-! The arguments of the command line. -/
namespace Retag

/-- What to do with the files that need it. -/
inductive Action where
  | migrate (dryRun : Bool)
  /-- Only tell which files need it. -/
  | check
deriving DecidableEq

structure Command where
  action : Action
  /-- The directory to walk and to look for the configuration in. -/
  dir : Text
  config : Option Text
  verbose : Bool
  /-- Files to take instead of those in the directory. -/
  files : List Text
deriving DecidableEq

inductive Invocation where
  | help
  | version
  | run (command : Command)
deriving DecidableEq

namespace Command

/-- Options and files read so far. -/
structure Draft where
  dryRun : Bool := false
  dir : Option Text := none
  config : Option Text := none
  verbose : Bool := false
  files : List Text := []

/-- What an argument asks for. -/
inductive Argument where
  | help
  | verbose
  | dryRun
  | dir (value : Option Text)
  | config (value : Option Text)
  | endOfOptions
  | file (path : Text)

/-- Reads one argument. An option may hold its value after an equals sign. -/
def readArgument? (text : Text) : Option Argument :=
  match text with
  | ['-', '-'] => some .endOfOptions
  | '-' :: '-' :: option =>
    let name := option.takeWhile (· != '=')
    let value : Option Text := match option.dropWhile (· != '=') with
      | [] => none
      | _ :: value => some value
    if name = "dir".toList then some (.dir value)
    else if name = "config".toList then some (.config value)
    else if option = "verbose".toList then some .verbose
    else if option = "dry-run".toList then some .dryRun
    else if option = "help".toList then some .help
    else none
  | ['-', 'v'] => some .verbose
  | '-' :: 'h' :: _ => some .help
  | ['-'] => some (.file text)
  | '-' :: _ => none
  | _ => some (.file text)

/-- A value that stands in an argument of its own. -/
def readValue? : List Text → Option (Text × List Text)
  | [] => none
  | value :: rest =>
    if value.head? = some '-' && value.length != 1 then none else some (value, rest)

/-- Fills an option that was not given before. Its value is not empty. -/
def fill? (old : Option Text) (value : Text) : Option (Option Text) :=
  if old.isSome || value.isEmpty then none else some (some value)

/-- Adds files, whose names are not empty. -/
def addFiles? (draft : Draft) (files : List Text) : Option Draft :=
  if files.any (·.isEmpty) then none else some { draft with files := draft.files ++ files }

/-- Reads the arguments after the subcommand. There is no result if they are not valid; the flag
asks for help, which is given as soon as it is asked for. -/
def readOptions? (allowDryRun : Bool) : (fuel : Nat) → Draft → List Text → Option (Draft × Bool)
  | 0, _, _ => none
  | _, draft, [] => some (draft, false)
  | fuel + 1, draft, argument :: rest => do
    match ← readArgument? argument with
    | .help => return (draft, true)
    | .verbose =>
      if draft.verbose then none
      else readOptions? allowDryRun fuel { draft with verbose := true } rest
    | .dryRun =>
      if draft.dryRun || !allowDryRun then none
      else readOptions? allowDryRun fuel { draft with dryRun := true } rest
    | .dir (some value) =>
      readOptions? allowDryRun fuel { draft with dir := ← fill? draft.dir value } rest
    | .dir none =>
      let (value, rest) ← readValue? rest
      readOptions? allowDryRun fuel { draft with dir := ← fill? draft.dir value } rest
    | .config (some value) =>
      readOptions? allowDryRun fuel { draft with config := ← fill? draft.config value } rest
    | .config none =>
      let (value, rest) ← readValue? rest
      readOptions? allowDryRun fuel { draft with config := ← fill? draft.config value } rest
    | .endOfOptions => return (← addFiles? draft rest, false)
    | .file path => readOptions? allowDryRun fuel (← addFiles? draft [path]) rest

def finish (action : Bool → Action) (draft : Draft) : Command where
  action := action draft.dryRun
  dir := draft.dir.getD ['.']
  config := draft.config
  verbose := draft.verbose
  files := draft.files

/-- Reads the arguments of a subcommand. -/
def readCommand? (allowDryRun : Bool) (action : Bool → Action) (arguments : List Text) :
    Option Invocation := do
  let (draft, help) ← readOptions? allowDryRun (arguments.length + 1) {} arguments
  return if help then .help else .run (finish action draft)

/-- Reads what help is asked for: the whole command or one of its subcommands. -/
def readHelp? : List Text → Option Invocation
  | [] => some .help
  | [topic] =>
    if ["migrate", "check", "help"].any (·.toList = topic) then some .help else none
  | _ => none

/-- Reads all arguments. There is no result if they are not valid. -/
def ofArguments? : List Text → Option Invocation
  | [] => none
  | first :: rest =>
    if first = "migrate".toList then readCommand? true .migrate rest
    else if first = "check".toList then readCommand? false (fun _ => .check) rest
    else if first = "--version".toList || first.take 2 = "-V".toList then some .version
    else if first = "help".toList then readHelp? rest
    else if first = "--help".toList || first.take 2 = "-h".toList then some .help
    else none

end Command
end Retag
