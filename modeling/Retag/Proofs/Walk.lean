import Retag.Proofs.FileTree
import Retag.Proofs.Path
import Retag.Proofs.Sorting
import Retag.Walk

/-! Which files of a directory take part in a migration. A walk visits the files that no skipped
directory leads to, and takes those with an extension of the rules. Main statement: what it returns is
exactly these files, each once, in the order of the names where their ways part. -/
namespace Retag

/-- A tree as it can be on a disk: the entries of each directory have different names, and these are
names of files. -/
inductive FileTree.Regular : FileTree → Prop
  | file (content : Option Text) : Regular (.file content)
  | directory {entries : List (Text × FileTree)} (distinct : (entries.map (·.1)).Nodup)
    (named : ∀ entry ∈ entries, Path.IsFileName entry.1)
    (children : ∀ entry ∈ entries, Regular entry.2) : Regular (.directory entries)

theorem FileTree.Regular.isFileName {tree found : FileTree} (regular : tree.Regular)
    {names : List Text} (leads : tree.find? names = some found) :
    ∀ name ∈ names, Path.IsFileName name := by
  induction regular generalizing names with
  | file content => cases names <;> simp_all [find?]
  | @directory entries distinct named children ih =>
    cases names with
    | nil => simp
    | cons first rest =>
      obtain ⟨child, entry, inner⟩ := Option.bind_eq_some_iff.1 leads
      obtain ⟨_, _, split, -⟩ := List.lookup_eq_some_iff.1 entry
      have member : (first, child) ∈ entries := by simp [split]
      intro name among
      rcases List.mem_cons.1 among with rfl | later
      · exact named _ member
      · exact ih _ member inner name later

theorem FileTree.lookup_eq_some_iff {entries : List (Text × FileTree)}
    (distinct : (entries.map (·.1)).Nodup) {name : Text} {child : FileTree} :
    entries.lookup name = some child ↔ (name, child) ∈ entries := by
  constructor
  · intro found
    obtain ⟨_, _, split, -⟩ := List.lookup_eq_some_iff.1 found
    simp [split]
  · intro member
    obtain ⟨before, after, rfl⟩ := List.append_of_mem member
    refine List.lookup_eq_some_iff.2 ⟨before, after, rfl, fun other among => ?_⟩
    rw [List.map_append, List.map_cons, List.nodup_append] at distinct
    have differs := distinct.2.2 other.1 (List.mem_map_of_mem among) name (by simp)
    simpa using Ne.symm differs

/-- Where the two ways part, the first goes on with the smaller name. -/
def Path.Precedes (a b : List Text) : Prop :=
  ∃ shared x y rest rest', a = shared ++ x :: rest ∧ b = shared ++ y :: rest' ∧ x < y

theorem Path.Precedes.cons {name : Text} {a b : List Text} (precedes : Precedes a b) :
    Precedes (name :: a) (name :: b) := by
  obtain ⟨shared, x, y, rest, rest', rfl, rfl, less⟩ := precedes
  exact ⟨name :: shared, x, y, rest, rest', rfl, rfl, less⟩

theorem Path.Precedes.ne {a b : List Text} (precedes : Precedes a b) : a ≠ b := by
  obtain ⟨shared, x, y, rest, rest', rfl, rfl, less⟩ := precedes
  intro same
  obtain ⟨rfl, -⟩ := List.cons.inj (List.append_cancel_left same)
  exact List.lt_irrefl _ less

namespace WalkRules
open Retag.Path (Precedes place)
variable {rules : WalkRules} {tree : FileTree} {entries : List (Text × FileTree)}

/-- The way leads to a file with an extension of the rules, through directories that are not hidden
and not listed. -/
structure Selects (rules : WalkRules) (tree : FileTree) (names : List Text) : Prop where
  file : ∃ content, tree.find? names = some (.file content)
  entered : ∀ dir ∈ names.dropLast, dir.head? ≠ some '.' ∧ dir ∉ rules.excludedDirs
  extension : ∃ stem ext, names.getLast? = some (stem ++ '.' :: ext) ∧ stem ≠ [] ∧ '.' ∉ ext ∧
    ext ∈ rules.extensions

def prunes (rules : WalkRules) (entry : Text × FileTree) : Bool :=
  entry.2.node.isDirectory && rules.skips entry.1

theorem collectEntries_eq (rules : WalkRules) (path : Text) (entries : List (Text × FileTree)) :
    collectEntries rules path entries = entries.map fun entry =>
      (entry.1, if rules.prunes entry then [] else collect rules (Path.join path entry.1) entry.2) := by
  induction entries with
  | nil => rfl
  | cons entry entries ih =>
    obtain ⟨name, child⟩ := entry
    cases child with
    | file content | directory children =>
      rw [collectEntries, ih]
      rfl

theorem collect_directory (rules : WalkRules) (path : Text) (entries : List (Text × FileTree)) :
    collect rules path (.directory entries) =
      (StableSort.sort (inOrder ·.1 ·.1) entries).flatMap fun entry =>
        if rules.prunes entry then [] else collect rules (Path.join path entry.1) entry.2 := by
  rw [collect, collectEntries_eq, StableSort.sort_map, List.flatMap_map]

theorem inOrder_iff {a b : Text} : inOrder a b = true ↔ ¬b < a := by
  rw [inOrder, Bool.not_eq_true', decide_eq_false_iff_not]

/-- The names of sorted entries increase. -/
theorem sorted_names (distinct : (entries.map (·.1)).Nodup) :
    (StableSort.sort (inOrder ·.1 ·.1) entries).Pairwise fun a b => a.1 < b.1 := by
  have sorted : (StableSort.sort (inOrder ·.1 ·.1) entries).Pairwise fun a b =>
      inOrder a.1 b.1 = true := by
    apply StableSort.sort_pairwise
    · intro a b
      rw [inOrder_iff, inOrder_iff]
      exact List.le_total a.1 b.1
    · intro a b c
      rw [inOrder_iff, inOrder_iff, inOrder_iff]
      exact List.le_trans
  have differ : (StableSort.sort (inOrder ·.1 ·.1) entries).Pairwise fun a b => a.1 ≠ b.1 :=
    List.pairwise_map.1 (((StableSort.sort_perm _ entries).map _).nodup_iff.2 distinct)
  refine (sorted.and differ).imp fun ⟨le, ne⟩ => ?_
  exact (List.le_iff_lt_or_eq.1 (inOrder_iff.1 le)).resolve_right ne

/-- What a walk visits: the ways to the files behind no skipped directory, in their order. What is
collected are those with an extension of the rules. -/
structure Visits (rules : WalkRules) (tree : FileTree) (places : List (List Text)) : Prop where
  collects : ∀ path,
    rules.collect path tree = (places.map (place path)).filter rules.matchesExtension
  mem : ∀ names, names ∈ places ↔ (∃ content, tree.find? names = some (.file content)) ∧
    ∀ dir ∈ names.dropLast, rules.skips dir = false
  ordered : places.Pairwise Precedes

theorem visits_file (rules : WalkRules) (content : Option Text) :
    Visits rules (.file content) [[]] where
  collects path := by
    have here : place path [] = path := rfl
    rw [collect, List.map_singleton, List.filter_singleton, here, cond_eq_ite]
  mem names := by cases names <;> simp [FileTree.find?]
  ordered := List.pairwise_singleton _ _

def through (rules : WalkRules) (visited : Text × FileTree → List (List Text))
    (entry : Text × FileTree) : List (List Text) :=
  if rules.prunes entry then [] else (visited entry).map (entry.1 :: ·)

/-- The directories on a way through an entry are entered if the entry and those behind it are. -/
theorem entered_cons {name : Text} {child : FileTree} {rest : List Text} {content : Option Text}
    (leads : child.find? rest = some (.file content)) :
    (∀ dir ∈ (name :: rest).dropLast, rules.skips dir = false) ↔
      rules.prunes (name, child) = false ∧ ∀ dir ∈ rest.dropLast, rules.skips dir = false := by
  cases child with
  | file other =>
    cases rest with
    | nil => simp [prunes, FileTree.node, FileTree.Node.isDirectory]
    | cons next rest => cases leads
  | directory children =>
    cases rest with
    | nil => cases leads
    | cons next rest =>
      rw [List.dropLast_cons_cons, List.forall_mem_cons]
      rfl

theorem mem_through {visited : Text × FileTree → List (List Text)} {name : Text} {child : FileTree}
    (visits : Visits rules child (visited (name, child))) {names : List Text} :
    names ∈ through rules visited (name, child) ↔ ∃ rest, names = name :: rest ∧
      (∃ content, child.find? rest = some (.file content)) ∧
        ∀ dir ∈ names.dropLast, rules.skips dir = false := by
  have member : names ∈ through rules visited (name, child) ↔
      rules.prunes (name, child) = false ∧ ∃ rest ∈ visited (name, child), name :: rest = names := by
    unfold through
    split <;> simp_all
  rw [member]
  constructor
  · rintro ⟨unpruned, rest, among, rfl⟩
    obtain ⟨⟨content, leads⟩, entered⟩ := (visits.mem rest).1 among
    exact ⟨rest, rfl, ⟨content, leads⟩, (entered_cons leads).2 ⟨unpruned, entered⟩⟩
  · rintro ⟨rest, rfl, ⟨content, leads⟩, entered⟩
    obtain ⟨unpruned, behind⟩ := (entered_cons leads).1 entered
    exact ⟨unpruned, rest, (visits.mem rest).2 ⟨⟨content, leads⟩, behind⟩, rfl⟩

theorem visits_directory (distinct : (entries.map (·.1)).Nodup)
    {visited : Text × FileTree → List (List Text)}
    (children : ∀ entry ∈ entries, Visits rules entry.2 (visited entry)) :
    Visits rules (.directory entries)
      ((StableSort.sort (inOrder ·.1 ·.1) entries).flatMap (through rules visited)) where
  collects path := by
    rw [collect_directory, List.map_flatMap, List.filter_flatMap]
    refine List.flatMap_congr fun entry member => ?_
    have here := children entry (StableSort.mem_sort.1 member)
    unfold through
    split
    · rfl
    · rw [here.collects, List.map_map]
      rfl
  mem names := by
    rw [List.mem_flatMap]
    constructor
    · rintro ⟨⟨name, child⟩, member, among⟩
      have member := StableSort.mem_sort.1 member
      obtain ⟨rest, rfl, ⟨content, leads⟩, entered⟩ := (mem_through (children _ member)).1 among
      refine ⟨⟨content, ?_⟩, entered⟩
      rw [FileTree.find?, (FileTree.lookup_eq_some_iff distinct).2 member]
      exact leads
    · rintro ⟨⟨content, leads⟩, entered⟩
      cases names with
      | nil => cases leads
      | cons name rest =>
        obtain ⟨child, found, leads⟩ := Option.bind_eq_some_iff.1 leads
        have member := (FileTree.lookup_eq_some_iff distinct).1 found
        exact ⟨_, StableSort.mem_sort.2 member,
          (mem_through (children _ member)).2 ⟨rest, rfl, ⟨content, leads⟩, entered⟩⟩
  ordered := by
    have starts {entry : Text × FileTree} {names : List Text}
        (among : names ∈ through rules visited entry) : ∃ rest, names = entry.1 :: rest := by
      unfold through at among
      split at among
      · cases among
      · obtain ⟨rest, -, rfl⟩ := List.mem_map.1 among
        exact ⟨rest, rfl⟩
    rw [List.pairwise_flatMap]
    constructor
    · intro entry member
      unfold through
      split
      · exact .nil
      · have inner := (children entry (StableSort.mem_sort.1 member)).ordered
        exact List.pairwise_map.2 (inner.imp Precedes.cons)
    · refine (sorted_names distinct).imp fun less a amongA b amongB => ?_
      obtain ⟨rest, rfl⟩ := starts amongA
      obtain ⟨rest', rfl⟩ := starts amongB
      exact ⟨[], _, _, rest, rest', rfl, rfl, less⟩

theorem exists_visits (rules : WalkRules) (regular : tree.Regular) :
    ∃ places, Visits rules tree places := by
  induction regular with
  | file content => exact ⟨_, visits_file rules content⟩
  | directory distinct named children ih =>
    choose! visited visits using ih
    exact ⟨_, visits_directory distinct visits⟩

theorem skips_eq_false_iff {dir : Text} :
    rules.skips dir = false ↔ dir.head? ≠ some '.' ∧ dir ∉ rules.excludedDirs := by
  simp [skips]

theorem matchesExtension_place (path : Text) {front : List Text} {name : Text}
    (named : Path.IsFileName name) :
    rules.matchesExtension (place path (front ++ [name])) = true ↔
      ∃ stem ext, name = stem ++ '.' :: ext ∧ stem ≠ [] ∧ '.' ∉ ext ∧ ext ∈ rules.extensions := by
  have ends := Path.fileName?_join (place path front) named
  rw [Path.place_concat, matchesExtension, Option.any_eq_true]
  constructor
  · rintro ⟨ext, found, listed⟩
    obtain ⟨stem, filled, split, noDot⟩ := (Path.extension?_eq_some_iff ends).1 found
    exact ⟨stem, ext, split, filled, noDot, by simpa using listed⟩
  · rintro ⟨stem, ext, split, filled, noDot, listed⟩
    exact ⟨ext, (Path.extension?_eq_some_iff ends).2 ⟨stem, filled, split, noDot⟩,
      by simpa using listed⟩

/-- A file is selected if the walk visits it and its path has an extension of the rules. -/
theorem selects_iff (regular : (FileTree.directory entries).Regular) (path : Text)
    (names : List Text) :
    rules.Selects (.directory entries) names ↔
      ((∃ content, (FileTree.directory entries).find? names = some (.file content)) ∧
        ∀ dir ∈ names.dropLast, rules.skips dir = false) ∧
        rules.matchesExtension (place path names) = true := by
  simp only [skips_eq_false_iff]
  rcases List.eq_nil_or_concat names with rfl | ⟨front, name, rfl⟩
  · -- The directory itself is no file.
    constructor
    · rintro ⟨⟨content, leads⟩, -, -⟩
      cases leads
    · rintro ⟨⟨⟨content, leads⟩, -⟩, -⟩
      cases leads
  rw [List.concat_eq_append]
  constructor
  · rintro ⟨⟨content, leads⟩, entered, stem, ext, last, rest⟩
    have named := regular.isFileName leads name (by simp)
    obtain rfl : name = stem ++ '.' :: ext := by simpa using last
    exact ⟨⟨⟨content, leads⟩, entered⟩, (matchesExtension_place path named).2 ⟨stem, ext, rfl, rest⟩⟩
  · rintro ⟨⟨⟨content, leads⟩, entered⟩, extension⟩
    have named := regular.isFileName leads name (by simp)
    obtain ⟨stem, ext, rfl, rest⟩ := (matchesExtension_place path named).1 extension
    exact ⟨⟨content, leads⟩, entered, stem, ext, by simp, rest⟩

/-- The collected paths are those of the selected files below the directory, each once, and where the
ways to two of them part the one with the smaller name comes first. The directory's own name is not
looked at. -/
theorem collect_selects {rules : WalkRules} {path : Text} {entries : List (Text × FileTree)}
    (regular : (FileTree.directory entries).Regular) :
    ∃ selected : List (List Text),
      rules.collect path (.directory entries) = selected.map (place path) ∧
      (∀ names, names ∈ selected ↔ rules.Selects (.directory entries) names) ∧
      selected.Pairwise Precedes ∧
      (rules.collect path (.directory entries)).Nodup := by
  obtain ⟨places, visits⟩ := exists_visits rules regular
  let selected := places.filter fun names => rules.matchesExtension (place path names)
  have collected : rules.collect path (.directory entries) = selected.map (place path) := by
    rw [visits.collects, List.filter_map]
    rfl
  have ordered : selected.Pairwise Precedes := visits.ordered.filter _
  have named : ∀ names ∈ selected, ∀ name ∈ names, Path.IsFileName name := by
    intro names among
    obtain ⟨⟨content, leads⟩, -⟩ := (visits.mem names).1 (List.mem_of_mem_filter among)
    exact regular.isFileName leads
  refine ⟨selected, collected, fun names => ?_, ordered, ?_⟩
  · rw [selects_iff regular path, ← visits.mem]
    exact List.mem_filter
  · rw [collected]
    refine List.Nodup.map_on ?_ (ordered.imp Precedes.ne)
    exact fun a amongA b amongB => Path.place_inj (named a amongA) (named b amongB)

/-- A hidden directory is walked if it is where the walk starts, hidden files are taken, and the files
in `src` come before `src.js`, although their paths would not. -/
theorem collect_selects_hidden :
    let source : List (Text × FileTree) :=
      [("b.tsx".toList, .file none), ("a.d.ts".toList, .file none), ("c.css".toList, .file none)]
    let entries : List (Text × FileTree) :=
      [("src.js".toList, .file none), ("src".toList, .directory source),
        (".git".toList, .directory [("x.js".toList, .file none)]),
        ("node_modules".toList, .directory [("y.js".toList, .file none)]),
        (".z.js".toList, .file none)]
    (FileTree.directory entries).Regular ∧
      builtin.collect ".work".toList (.directory entries) =
        [".work/.z.js".toList, ".work/src/a.d.ts".toList, ".work/src/b.tsx".toList,
          ".work/src.js".toList] ∧
      (builtin.collect ".work".toList (.directory entries)).Nodup := by
  intro source entries
  have named {files : List (Text × FileTree)}
      (all : (files.all fun file => decide (Path.IsFileName file.1)) = true) :
      ∀ file ∈ files, Path.IsFileName file.1 :=
    fun file member => of_decide_eq_true (List.all_eq_true.1 all file member)
  have leaf : (FileTree.file none).Regular := .file none
  have single {name : Text} (isName : Path.IsFileName name) :
      (FileTree.directory [(name, .file none)]).Regular :=
    .directory (by simp) (by simpa using isName) (by simpa using leaf)
  have inner : (FileTree.directory source).Regular :=
    .directory (by decide) (named (by decide)) (by simp [source, leaf])
  have regular : (FileTree.directory entries).Regular := by
    refine .directory (by decide) (named (by decide)) ?_
    simp only [entries, List.forall_mem_cons]
    exact ⟨leaf, inner, single (by decide), single (by decide), leaf, by simp⟩
  obtain ⟨-, -, -, -, distinct⟩ := @collect_selects builtin ".work".toList entries regular
  exact ⟨regular, by decide +kernel, distinct⟩

end WalkRules
end Retag
