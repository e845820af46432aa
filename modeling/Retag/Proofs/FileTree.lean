import Retag.FileTree

/-! Files as what is at their places. Reading goes through this view, a write to a file changes it at
one place, and where a path leads depends only on which places are directories. -/
namespace Retag
namespace FileTree

inductive Node where
  | file (content : Option Text)
  | directory
deriving DecidableEq

def node : FileTree → Node
  | .file content => .file content
  | .directory _ => .directory

def Node.isDirectory : Node → Bool
  | .file _ => false
  | .directory => true

/-- What is at the end of a list of names, if anything is. -/
def node? (root : FileTree) (names : List Text) : Option Node := (root.find? names).map node

/-- Both trees have directories, files and nothing at the same places. -/
def SameShape (a b : FileTree) : Prop :=
  ∀ names, (a.node? names).map Node.isDirectory = (b.node? names).map Node.isDirectory

theorem find?_append (root : FileTree) (names more : List Text) :
    root.find? (names ++ more) = (root.find? names).bind (find? more) := by
  induction names generalizing root with
  | nil => rfl
  | cons name names ih =>
    cases root with
    | file content => rfl
    | directory entries =>
      rw [List.cons_append, find?, find?]
      cases entries.lookup name with
      | none => rfl
      | some child => exact ih child

theorem find?_child {root : FileTree} {names : List Text} {entries : List (Text × FileTree)}
    (found : root.find? names = some (.directory entries)) (name : Text) :
    root.find? (names ++ [name]) = entries.lookup name := by
  rw [find?_append, found, Option.bind_some, find?]
  cases entries.lookup name <;> rfl

theorem lookup_map (entries : List (Text × FileTree)) (change : FileTree → FileTree)
    (name other : Text) :
    (entries.map fun (key, child) => if key = name then (key, change child) else (key, child)).lookup
        other =
      if other = name then (entries.lookup other).map change else entries.lookup other := by
  induction entries with
  | nil => simp
  | cons pair entries ih =>
    obtain ⟨key, child⟩ := pair
    have first : (if key = name then (key, change child) else (key, child)) =
        (key, if key = name then change child else child) := by split <;> rfl
    rw [List.map_cons]
    dsimp only
    rw [first, List.lookup_cons, List.lookup_cons]
    cases same : other == key with
    | true =>
      obtain rfl := beq_iff_eq.1 same
      by_cases here : other = name <;> simp [here]
    | false => exact ih

/-- Replacing a file changes what is at its place and nothing else. -/
theorem node?_insert {root : FileTree} {names : List Text} {content : Option Text}
    (found : root.node? names = some (.file content)) (new : Option Text) (other : List Text) :
    (insert (.file new) names root).node? other =
      if other = names then some (.file new) else root.node? other := by
  induction names generalizing root other with
  | nil =>
    cases root with
    | directory entries => cases found
    | file old => cases other <;> rfl
  | cons name names ih =>
    cases root with
    | file old => cases found
    | directory entries =>
      cases child : entries.lookup name with
      | none =>
        rw [node?, find?, child] at found
        cases found
      | some tree =>
        rw [node?, find?, child] at found
        rw [insert, child, if_pos Option.isSome_some]
        cases other with
        | nil => rfl
        | cons first rest =>
          rw [node?, node?, find?, find?, lookup_map]
          by_cases here : first = name
          · subst here
            rw [if_pos rfl, child]
            simpa [node?] using ih found rest
          · simp [here]

theorem SameShape.isSome {a b : FileTree} (same : SameShape a b) (names : List Text) :
    (a.find? names).isSome = (b.find? names).isSome := by
  have shape := congrArg Option.isSome (same names)
  simpa [node?] using shape

/-- Where a path leads is decided by the directories on the way. -/
theorem SameShape.follow {a b : FileTree} (same : SameShape a b) (names pieces : List Text) :
    follow a names pieces = follow b names pieces := by
  induction pieces generalizing names with
  | nil => rfl
  | cons piece pieces ih =>
    have here := same names
    rw [FileTree.follow, FileTree.follow]
    rw [node?, node?] at here
    cases found : a.find? names with
    | none =>
      cases found' : b.find? names with
      | none => rfl
      | some tree => simp [found, found'] at here
    | some tree =>
      cases found' : b.find? names with
      | none => simp [found, found'] at here
      | some tree' =>
        cases tree with
        | file content =>
          cases tree' with
          | file content' => rfl
          | directory entries' => simp [found, found', node, Node.isDirectory] at here
        | directory entries =>
          cases tree' with
          | file content' => simp [found, found', node, Node.isDirectory] at here
          | directory entries' =>
            have children (name : Text) :
                (entries.lookup name).isSome = (entries'.lookup name).isSome := by
              rw [← find?_child found, ← find?_child found']
              exact same.isSome _
            simp only [ih, children]

def Node.text : Node → Except ReadError Text
  | .file (some text) => .ok text
  | .file none => .error .notText
  | .directory => .error .isDirectory

end FileTree

namespace FileSystem
open FileTree (Node node)

def node? (system : FileSystem) (names : List Text) : Option Node := system.root.node? names

def place? (system : FileSystem) (path : Text) : Option (List Text) :=
  (system.resolve path).toOption

/-- Both have directories, files and nothing at the same places, and the same working directory. -/
structure SameShape (a b : FileSystem) : Prop where
  tree : a.root.SameShape b.root
  workDir : a.workDir = b.workDir

theorem SameShape.resolve {a b : FileSystem} (same : SameShape a b) (path : Text) :
    a.resolve path = b.resolve path := by
  unfold FileSystem.resolve
  split
  · exact same.tree.follow _ _
  · rw [same.workDir]
    exact same.tree.follow _ _

theorem read_eq (system : FileSystem) (path : Text) :
    system.read path = (system.resolve path).bind fun names =>
      (system.node? names).elim (.error .missing) Node.text := by
  unfold read at? node? FileTree.node?
  cases system.resolve path with
  | error error => rfl
  | ok names =>
    cases found : system.root.find? names with
    | none => simp [found, Except.bind]
    | some tree =>
      cases tree with
      | directory entries => simp [found, Except.bind, node, Node.text]
      | file content => cases content <;> simp [found, Except.bind, node, Node.text]

theorem read_eq_ok_iff {system : FileSystem} {path text : Text} :
    system.read path = .ok text ↔
      ∃ names, system.place? path = some names ∧ system.node? names = some (.file (some text)) := by
  rw [read_eq, place?]
  cases system.resolve path with
  | error error => simp [Except.bind, Except.toOption]
  | ok names =>
    have reads : ((system.node? names).elim (.error .missing) Node.text = .ok text) ↔
        system.node? names = some (.file (some text)) := by
      cases system.node? names with
      | none => simp
      | some node =>
        cases node with
        | directory => simp [Node.text]
        | file content => cases content <;> simp [Node.text]
    simpa [Except.bind, Except.toOption] using reads

@[simp] theorem workDir_write (system : FileSystem) (path text : Text) :
    (system.write path text).workDir = system.workDir := by
  unfold write
  split <;> rfl

/-- A write to a file that can be read changes its text and nothing else. -/
theorem node?_write {system : FileSystem} {path text : Text}
    (readable : system.read path = .ok text) (new : Text) (names : List Text) :
    (system.write path new).node? names =
      if system.place? path = some names then some (.file (some new)) else system.node? names := by
  obtain ⟨place, leads, found⟩ := read_eq_ok_iff.1 readable
  have resolved : system.resolve path = .ok place := by
    rw [place?] at leads
    cases resolved : system.resolve path with
    | error error => simp [resolved, Except.toOption] at leads
    | ok names => simpa [resolved, Except.toOption] using leads
  rw [write, resolved, leads]
  simp only [node?, FileTree.node?_insert found, Option.some.injEq, eq_comm]

end FileSystem
end Retag
