import Retag.Command.Arguments
import Retag.Config.Reading
import Retag.Report
import Retag.Walk

/-! Running a command. All that a run does to files goes through `Files`, so that it runs on real
files as well as on a `FileSystem`. -/
namespace Retag

/-- Reading and writing files. -/
class Files (m : Type → Type) where
  read : (path : Text) → m (Except ReadError Text)
  /-- Replaces the text of a file, or says why that failed. -/
  write : (path text : Text) → m (Option Text)
  /-- The tree at a path. The contents of its files need not be there. -/
  tree? : (path : Text) → m (Option FileTree)

instance : Files (StateM FileSystem) where
  read path := return (← get).read path
  write path text := modifyGet fun system => (none, system.write path text)
  tree? path := return ((← get).at? path).toOption

structure RunResult where
  exitCode : Nat
  output : Text
deriving DecidableEq

namespace Command

def configName : Text := "propshift.toml".toList

variable {m : Type → Type} [Monad m] [Files m]

def readConfig (path : Text) : m (Option Config) := do
  return (← Files.read path).toOption.bind Config.read?

/-- The configuration of a run: the one named, or else the one in the directory, or else the
built-in one. -/
def loadConfig (command : Command) : m (Option Config) := do
  match command.config with
  | some path => readConfig path
  | none =>
    let path := Path.join command.dir configName
    match ← Files.tree? path with
    | some (.file _) => readConfig path
    | _ => return some Config.builtin

def writes (command : Command) : Bool := command.action = .migrate false

def previews (command : Command) : Bool := command.action = .migrate true

/-- The files that a run takes. -/
def selectFiles (command : Command) (rules : WalkRules) : m (List Text) := do
  if command.files.isEmpty then
    return ((← Files.tree? command.dir).map (rules.collect command.dir)).getD []
  else return command.files

/-- Migrates one file. It is written only if its text changed. There is no report if tags of a
component overlap. -/
def processFile (command : Command) (config : Config) (path : Text) : m (Option FileReport) := do
  let label := Path.label command.dir path
  match ← Files.read path with
  | .error error => return some ⟨label, .error (.read path error.message)⟩
  | .ok source =>
    match Migration.migrate? config label source with
    | none => return none
    | some outcome =>
      if outcome.changed && command.writes then
        match ← Files.write path outcome.text with
        | some message => return some ⟨label, .error (.write path message)⟩
        | none => return some ⟨label, .ok outcome⟩
      else return some ⟨label, .ok outcome⟩

/-- Migrates files one after the other, up to one without a report. -/
def processPart (command : Command) (config : Config) : List Text → m (Option (List FileReport))
  | [] => return some []
  | path :: paths => do
    match ← processFile command config path with
    | none => return none
    | some report => return (← processPart command config paths).map (report :: ·)

/-- How the files of a run are split among threads. The halves of a list are worked on at the same
time, and neither stops the other. -/
inductive Split where
  | part
  | halves (front back : Split)

/-- Splits `depth` times. -/
def Split.even : (depth : Nat) → Split
  | 0 => .part
  | depth + 1 => .halves (even depth) (even depth)

/-- Migrates files. A part that ends early takes all reports with it, but the other parts go on. -/
def processFiles (command : Command) (config : Config) :
    Split → List Text → m (Option (List FileReport))
  | .part, files => processPart command config files
  | .halves front back, files => do
    let half := files.length / 2
    let reports ← processFiles command config front (files.take half)
    let others ← processFiles command config back (files.drop half)
    return reports.bind fun reports => others.map (reports ++ ·)

/-- Whether a run counts as failed. -/
def fails (command : Command) (summary : Summary) : Bool :=
  0 < summary.failed || (command.action = .check && 0 < summary.changed)

/-- What a run with these reports returns and prints. Without reports it was ended from within. -/
def result (command : Command) : Option (List FileReport) → RunResult
  | none => ⟨101, []⟩
  | some reports =>
    ⟨if command.fails (Summary.ofReports reports) then 1 else 0,
      Report.render command.writes command.previews reports⟩

def run (command : Command) (split : Split) : m RunResult := do
  match ← command.loadConfig with
  | none => return ⟨1, []⟩
  | some config =>
    let files ← command.selectFiles config.walk
    return command.result (← command.processFiles config split files)

def helpText : Text :=
  ("Usage: propshift migrate [--dir DIR] [--config FILE] [--verbose] [--dry-run] [FILES]...\n" ++
    "       propshift check [--dir DIR] [--config FILE] [--verbose] [FILES]...\n").toList

/-- Runs the command that the arguments give. -/
def runArguments (split : Split) (arguments : List Text) : m RunResult :=
  match ofArguments? arguments with
  | none => return ⟨2, []⟩
  | some .help => return ⟨0, helpText⟩
  | some .version => return ⟨0, "propshift 0.1.0\n".toList⟩
  | some (.run command) => command.run split

end Command
end Retag
