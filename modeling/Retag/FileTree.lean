import Retag.Path

/-! Files and directories, and what paths lead to. -/
namespace Retag

inductive FileTree where
  /-- A file holds text, or else bytes that are none. -/
  | file (content : Option Text)
  | directory (entries : List (Text × FileTree))

/-- Why a file could not be read. -/
inductive ReadError where
  | missing
  | notDirectory
  | isDirectory
  | notText
  | other (message : Text)
deriving DecidableEq

def ReadError.message : ReadError → Text
  | .missing => "No such file or directory (os error 2)".toList
  | .notDirectory => "Not a directory (os error 20)".toList
  | .isDirectory => "Is a directory (os error 21)".toList
  | .notText => "stream did not contain valid UTF-8".toList
  | .other message => message

namespace FileTree

def empty : FileTree := .directory []

/-- The tree at the end of a list of names. -/
def find? : (names : List Text) → FileTree → Option FileTree
  | [], tree => some tree
  | name :: names, .directory entries => (entries.lookup name).bind (find? names)
  | _ :: _, .file _ => none

/-- Puts a tree at the end of a list of names, and makes the directories on the way. -/
def insert (tree : FileTree) : (names : List Text) → FileTree → FileTree
  | [], _ => tree
  | name :: names, .directory entries =>
    if (entries.lookup name).isSome then
      .directory <| entries.map fun (other, child) =>
        if other = name then (other, insert tree names child) else (other, child)
    else .directory (entries ++ [(name, insert tree names empty)])
  | name :: names, .file _ => .directory [(name, insert tree names empty)]

/-- Makes the directory at the end of a list of names, if nothing is there. -/
def makeDirectory (names : List Text) (root : FileTree) : FileTree :=
  match root.find? names with
  | some _ => root
  | none => insert empty names root

/-- Follows the pieces of a path from the place `names`, and returns the names it leads to. Only a
directory can be followed further. -/
def follow (root : FileTree) (names : List Text) : List Text → Except ReadError (List Text)
  | [] => .ok names
  | piece :: pieces =>
    match root.find? names with
    | some (.directory entries) =>
      match Path.innerComponent? piece with
      | none => follow root names pieces
      | some (.name name) =>
        if (entries.lookup name).isSome then follow root (names ++ [name]) pieces
        else .error .missing
      -- The root is its own parent.
      | some _ => follow root names.dropLast pieces
    | some (.file _) => .error .notDirectory
    | none => .error .missing

end FileTree

/-- All files, and the directory in which a command runs. -/
structure FileSystem where
  root : FileTree
  workDir : List Text

namespace FileSystem

/-- The names that a path leads to. A path that starts with a slash starts at the root. -/
def resolve (system : FileSystem) (path : Text) : Except ReadError (List Text) :=
  match Text.splitOn '/' path with
  | [] :: piece :: pieces => system.root.follow [] (piece :: pieces)
  | pieces => system.root.follow system.workDir pieces

/-- The tree that a path leads to. -/
def at? (system : FileSystem) (path : Text) : Except ReadError FileTree :=
  match system.resolve path with
  | .ok names => (system.root.find? names).elim (.error .missing) .ok
  | .error error => .error error

def read (system : FileSystem) (path : Text) : Except ReadError Text :=
  match system.at? path with
  | .ok (.file (some text)) => .ok text
  | .ok (.file none) => .error .notText
  | .ok (.directory _) => .error .isDirectory
  | .error error => .error error

/-- Replaces the text of a file. -/
def write (system : FileSystem) (path text : Text) : FileSystem :=
  match system.resolve path with
  | .ok names => { system with root := .insert (.file (some text)) names system.root }
  | .error _ => system

end FileSystem
end Retag
