import Retag.Path
import Retag.Proofs.Import.Names

/-! Paths that are put together from names. Such a path ends with its last name, whose extension is
the path's, and the names can be told from the path. -/
namespace Retag

namespace Text

theorem splitOn_concat {separator : Char} {last : Text} (absent : separator ∉ last)
    (front : Text) :
    splitOn separator (front ++ separator :: last) = splitOn separator front ++ [last] := by
  induction front with
  | nil => simp [splitOn, splitOn_of_not_mem absent]
  | cons c cs ih =>
    obtain ⟨piece, pieces, split⟩ := List.exists_cons_of_ne_nil (splitOn_ne_nil separator cs)
    rw [List.cons_append, splitOn, ih, splitOn, split]
    dsimp only [List.cons_append]
    split <;> rfl

end Text

namespace Path
variable {dir name : Text}

structure IsFileName (name : Text) : Prop where
  filled : name ≠ []
  noSlash : '/' ∉ name
  notSelf : name ≠ ['.']
  notParent : name ≠ ['.', '.']

instance (name : Text) : Decidable (IsFileName name) :=
  decidable_of_iff (name ≠ [] ∧ '/' ∉ name ∧ name ≠ ['.'] ∧ name ≠ ['.', '.'])
    ⟨fun ⟨filled, noSlash, notSelf, notParent⟩ => ⟨filled, noSlash, notSelf, notParent⟩,
      fun ⟨filled, noSlash, notSelf, notParent⟩ => ⟨filled, noSlash, notSelf, notParent⟩⟩

def place (dir : Text) (names : List Text) : Text := names.foldl join dir

theorem place_concat (dir : Text) (names : List Text) (name : Text) :
    place dir (names ++ [name]) = join (place dir names) name := by
  simp [place]

theorem components_eq {path first : Text} {rest : List Text}
    (split : Text.splitOn '/' path = first :: rest) :
    components path = (firstComponent? first rest).toList ++ rest.filterMap innerComponent? := by
  unfold components pieces
  rw [split]
  dsimp only
  rw [List.filterMap_cons, List.filterMap_map]
  cases firstComponent? first rest <;> rfl

theorem firstComponent?_congr (piece : Text) {a b : List Text} (same : a.isEmpty = b.isEmpty) :
    firstComponent? piece a = firstComponent? piece b := by
  unfold firstComponent?
  rw [same]

/-- A path with a slash goes on with what stands behind the slash. -/
theorem components_concat {last : Text} (noSlash : '/' ∉ last) (front : Text) :
    components (front ++ '/' :: last) =
      components (front ++ ['/']) ++ (innerComponent? last).toList := by
  obtain ⟨first, rest, split⟩ := List.exists_cons_of_ne_nil (Text.splitOn_ne_nil '/' front)
  have goesOn (piece : Text) (noSlash : '/' ∉ piece) :
      components (front ++ '/' :: piece) = (firstComponent? first [[]]).toList ++
        rest.filterMap innerComponent? ++ (innerComponent? piece).toList := by
    have pieces := Text.splitOn_concat noSlash front
    rw [split, List.cons_append] at pieces
    have opening : firstComponent? first (rest ++ [piece]) = firstComponent? first [[]] :=
      firstComponent?_congr first (by cases rest <;> rfl)
    rw [components_eq pieces, opening, List.filterMap_append, List.append_assoc]
    cases found : innerComponent? piece <;> simp [found]
  rw [goesOn last noSlash, goesOn [] List.not_mem_nil]
  simp [innerComponent?]

theorem components_slash {dir : Text} (filled : dir ≠ []) :
    components (dir ++ ['/']) = components dir := by
  obtain ⟨first, rest, split⟩ := List.exists_cons_of_ne_nil (Text.splitOn_ne_nil '/' dir)
  have pieces := Text.splitOn_concat (List.not_mem_nil : '/' ∉ []) dir
  rw [split, List.cons_append] at pieces
  have opening : firstComponent? first (rest ++ [[]]) = firstComponent? first rest := by
    rcases Text.splitOn_inv split with ⟨rfl, rfl⟩ | ⟨tail, -, rfl⟩
    · simp [firstComponent?, filled]
    · obtain ⟨next, others, more⟩ := List.exists_cons_of_ne_nil (Text.splitOn_ne_nil '/' tail)
      rw [more]
      exact firstComponent?_congr first rfl
  rw [components_eq pieces, components_eq split, opening, List.filterMap_append]
  simp [innerComponent?]

theorem innerComponent?_name (named : IsFileName name) :
    innerComponent? name = some (.name name) := by
  simp [innerComponent?, named.filled, named.notSelf, named.notParent]

/-- A name that is put into a directory is the one component that its path has more. -/
theorem components_join (dir : Text) (named : IsFileName name) :
    components (join dir name) = components dir ++ [.name name] := by
  have inner := innerComponent?_name named
  rcases List.eq_nil_or_concat dir with rfl | ⟨start, c, rfl⟩
  · have first : firstComponent? name [] = some (.name name) := by
      simp [firstComponent?, named.filled, named.notSelf, inner]
    have alone := components_eq (Text.splitOn_of_not_mem named.noSlash)
    rw [first] at alone
    exact alone
  · rw [List.concat_eq_append]
    by_cases slash : c = '/'
    · subst slash
      have joined : join (start ++ ['/']) name = start ++ '/' :: name := by simp [join]
      rw [joined, components_concat named.noSlash, inner]
      rfl
    · have joined : join (start ++ [c]) name = (start ++ [c]) ++ '/' :: name := by
        simp [join, slash]
      rw [joined, components_concat named.noSlash, components_slash (by simp), inner]
      rfl

theorem fileName?_join (dir : Text) (named : IsFileName name) :
    fileName? (join dir name) = some name := by
  simp [fileName?, components_join dir named]

theorem names_place (dir : Text) {places : List Text} (named : ∀ name ∈ places, IsFileName name) :
    names (place dir places) = names dir ++ places := by
  induction places generalizing dir with
  | nil => simp [place]
  | cons name rest ih =>
    have first : names (join dir name) = names dir ++ [name] := by
      simp [names, components_join dir (named name (by simp))]
    have later := ih (join dir name) fun other member => named other (by simp [member])
    rw [place, List.foldl_cons, ← place, later, first, List.append_assoc, List.singleton_append]

/-- The names on the way are told by the path. -/
theorem place_inj {dir : Text} {a b : List Text} (namedA : ∀ name ∈ a, IsFileName name)
    (namedB : ∀ name ∈ b, IsFileName name) (same : place dir a = place dir b) : a = b := by
  have names := congrArg names same
  rw [names_place dir namedA, names_place dir namedB] at names
  exact List.append_cancel_left names

/-- The extension follows the last dot, and something stands before the dot. -/
theorem extension?_eq_some_iff {path ext : Text} (ends : fileName? path = some name) :
    extension? path = some ext ↔ ∃ stem, stem ≠ [] ∧ name = stem ++ '.' :: ext ∧ '.' ∉ ext := by
  have unfolded : extension? path =
      if (name.reverse.takeWhile (· != '.')).reverse.length + 1 < name.length then
        some (name.reverse.takeWhile (· != '.')).reverse
      else none := by
    simp only [extension?, ends, bind, Option.bind_some]
  have whole : name =
      (name.reverse.dropWhile (· != '.')).reverse ++ (name.reverse.takeWhile (· != '.')).reverse := by
    rw [← List.reverse_append, List.takeWhile_append_dropWhile, List.reverse_reverse]
  have inside : '.' ∉ (name.reverse.takeWhile (· != '.')).reverse := by
    intro member
    have differs := List.all_eq_true.1 List.all_takeWhile '.' (List.mem_reverse.1 member)
    simp at differs
  rw [unfolded]
  constructor
  · intro found
    split at found
    · rename_i longer
      obtain rfl := Option.some.inj found
      cases rest : name.reverse.dropWhile (· != '.') with
      | nil =>
        have same := congrArg List.length whole
        rw [rest] at same
        simp at same longer
        omega
      | cons c stem =>
        have stops := List.head?_dropWhile_not (· != '.') name.reverse
        rw [rest] at stops
        obtain rfl : c = '.' := by simpa using stops
        rw [rest] at whole
        refine ⟨stem.reverse, ?_, by simpa using whole, inside⟩
        rintro empty
        have same := congrArg List.length whole
        simp [List.reverse_eq_nil_iff.1 empty] at same longer
        omega
    · cases found
  · rintro ⟨stem, filled, rfl, absent⟩
    have clear : Text.Clear (· != '.') ('.' :: stem.reverse) := by simp [Text.Clear]
    have plain : ∀ c ∈ ext.reverse, (c != '.') = true := by
      intro c member
      rw [bne_iff_ne]
      rintro rfl
      exact absent (List.mem_reverse.1 member)
    have taken : ((stem ++ '.' :: ext).reverse.takeWhile (· != '.')).reverse = ext := by
      rw [List.reverse_append, List.reverse_cons, List.append_assoc, List.singleton_append,
        Text.takeWhile_clear plain clear, List.reverse_reverse]
    have some : 0 < stem.length := List.length_pos_iff.2 filled
    rw [taken, if_pos]
    simp
    omega

end Path
end Retag
