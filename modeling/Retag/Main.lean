import Retag.Command.Run

/-! The command line, on real files. -/
namespace Retag.Disk

def readError : IO.Error → ReadError
  | .noFileOrDirectory .. => .missing
  | .inappropriateType _ 21 _ => .isDirectory
  | .inappropriateType .. => .notDirectory
  | error => .other (toString error).toList

def read (path : Text) : IO (Except ReadError Text) := do
  try
    match String.fromUTF8? (← IO.FS.readBinFile (String.ofList path)) with
    | some text => return .ok text.toList
    | none => return .error .notText
  catch error => return .error (readError error)

def write (path text : Text) : IO (Option Text) := do
  try
    IO.FS.writeFile (String.ofList path) (String.ofList text)
    return none
  catch error => return some (toString error).toList

/-- An entry of a directory with all that is below it. Links and other special files do not
count, and neither does what cannot be read. -/
partial def loadEntry (entry : IO.FS.DirEntry) : IO (Option (Text × FileTree)) := do
  try
    let kind := (← entry.path.symlinkMetadata).type
    if kind == .file then return some (entry.fileName.toList, .file none)
    else if kind == .dir then
      let entries ← (← entry.path.readDir).toList.filterMapM loadEntry
      return some (entry.fileName.toList, .directory entries)
    else return none
  catch _ => return none

def tree? (path : Text) : IO (Option FileTree) := do
  try
    let place ← IO.FS.realPath (String.ofList path)
    let kind := (← place.metadata).type
    if kind == .file then return some (.file none)
    else if kind == .dir then
      return some (.directory (← (← place.readDir).toList.filterMapM loadEntry))
    else return none
  catch _ => return none

instance : Files IO where
  read := read
  write := write
  tree? := tree?

/-- A pool of 32 threads splits its work this often. -/
def splitDepth : Nat := 6

end Retag.Disk

def main (args : List String) : IO UInt32 := do
  let result ← (Retag.Command.runArguments (.even Retag.Disk.splitDepth) (args.map String.toList) :
    IO Retag.RunResult)
  IO.print (String.ofList result.output)
  return result.exitCode.toUInt32
