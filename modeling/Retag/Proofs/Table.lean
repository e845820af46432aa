import Mathlib.Data.List.Induction
import Retag.Table

/-! Renaming by a table, entry after entry against all at once. Each entry renames the first name
equal to its key, and finds names that earlier entries have written. The two agree where no key
occurs twice and a name renamed to a later key stands after that key. The trail of a run, which keeps
each name beside the name it started from, shows that little less will do. -/
namespace Retag

theorem Text.ne_of_lt {a b : Text} (before : a < b) : a ≠ b :=
  fun same => List.lt_irrefl _ (same ▸ before)

namespace Table

def Ordered (table : Table α) : Prop := table.Pairwise fun a b => a.1 < b.1

section
variable {table done rest : Table α} {name key other : Text} {value : α}

theorem insert_ordered (ordered : table.Ordered) : (table.insert name value).Ordered ∧
    ∀ entry ∈ table.insert name value, entry.1 = name ∨ entry ∈ table := by
  induction table with
  | nil => simp [Ordered, insert]
  | cons entry entries ih =>
    obtain ⟨first, onward⟩ := List.pairwise_cons.1 ordered
    obtain ⟨inserted, source⟩ := ih onward
    rw [insert]
    split
    · rename_i before
      constructor
      · apply List.pairwise_cons.2 ⟨?_, ordered⟩
        intro later member
        rcases List.mem_cons.1 member with rfl | behind
        · exact before
        · exact List.lt_trans before (first later behind)
      · intro later member
        exact (List.mem_cons.1 member).imp_left (congrArg Prod.fst)
    split
    · rename_i same
      exact ⟨List.pairwise_cons.2 ⟨same ▸ first, onward⟩, by simp +contextual⟩
    · rename_i notBefore differ
      refine ⟨List.pairwise_cons.2 ⟨?_, inserted⟩, ?_⟩
      · intro later member
        rcases source later member with rfl | behind
        · exact (Std.lt_trichotomy entry.1 later.1).resolve_right (by simp_all [eq_comm])
        · exact first later behind
      · intro later member
        rcases List.mem_cons.1 member with rfl | behind
        · exact .inr List.mem_cons_self
        · exact (source later behind).imp_right (List.mem_cons_of_mem _)

theorem ofEntries_ordered (entries : List (Text × α)) : (ofEntries entries).Ordered := by
  have run : ∀ {table : Table α}, table.Ordered →
      Ordered (entries.foldl (fun table entry => table.insert entry.1 entry.2) table) := by
    induction entries with
    | nil => exact id
    | cons entry entries ih => exact fun ordered => ih (insert_ordered ordered).1
  exact run List.Pairwise.nil

theorem get?_append (done rest : Table α) (name : Text) :
    get? (done ++ rest) name = (done.get? name).or (rest.get? name) :=
  List.lookup_append

theorem mem_of_get? (found : table.get? name = some value) : (name, value) ∈ table := by
  obtain ⟨before, after, rfl, -⟩ := List.lookup_eq_some_iff.1 found
  simp

theorem get?_eq_none (absent : ∀ entry ∈ table, entry.1 ≠ name) : table.get? name = none := by
  rw [get?, List.lookup_eq_none_iff]
  intro entry member
  simpa using (absent entry member).symm

theorem Ordered.lt (ordered : Ordered (done ++ (key, value) :: rest)) :
    ∀ entry ∈ done, entry.1 < key := by
  intro entry member
  exact (List.pairwise_append.1 ordered).2.2 entry member (key, value) List.mem_cons_self

theorem Ordered.gt (ordered : Ordered (done ++ (key, value) :: rest)) :
    ∀ entry ∈ rest, key < entry.1 :=
  (List.pairwise_cons.1 (List.pairwise_append.1 ordered).2.1).1

theorem Ordered.fresh (ordered : Ordered (done ++ (key, value) :: rest)) : done.get? key = none :=
  get?_eq_none fun entry member => Text.ne_of_lt (ordered.lt entry member)

theorem Ordered.get? (ordered : Ordered (done ++ (key, value) :: rest)) :
    Table.get? (done ++ (key, value) :: rest) key = some value := by
  rw [get?_append, ordered.fresh]
  simp [Table.get?]

theorem Ordered.get?_of_mem (ordered : table.Ordered) (member : (key, value) ∈ table) :
    table.get? key = some value := by
  obtain ⟨done, rest, rfl⟩ := List.append_of_mem member
  exact ordered.get?

end

/-! ### In turn and at once -/

section
variable {table done rest : Table Text} {names front back : List Text}
  {name key new next other : Text}

def newName (table : Table Text) (name : Text) : Text := (table.get? name).getD name

/-- Every entry in its turn renames the first name equal to its key. -/
def inTurn (table : Table Text) (names : List Text) : List Text :=
  table.foldl (fun names entry => names.replace entry.1 entry.2) names

/-- `name` is renamed to a later key, and that key is renamed to something else. -/
structure Chained (table : Table Text) (name next : Text) : Prop where
  renamed : table.get? name = some next
  later : name < next
  again : ∃ last, table.get? next = some last ∧ last ≠ next

/-- A name that is renamed to a later key stands after that key. -/
def Settles (table : Table Text) (names : List Text) : Prop :=
  ∀ front name back, names = front ++ name :: back → ∀ next, table.Chained name next → next ∈ front

theorem newName_eq_iff : table.newName name = other ↔
    (table.get? name = none ∧ name = other) ∨ table.get? name = some other := by
  cases found : table.get? name <;> simp [newName, found]

theorem newName_concat (fresh : done.get? key = none) (name : Text) :
    newName (done ++ [(key, new)]) name =
      if name = key then new else done.newName name := by
  rw [Table.newName, get?_append]
  split
  · rename_i same
    subst same
    rw [fresh]
    simp [get?]
  · rename_i differ
    have absent : get? [(key, new)] name = none := get?_eq_none (by simpa using Ne.symm differ)
    rw [absent, Option.or_none, Table.newName]

theorem inTurn_concat (done : Table Text) (entry : Text × Text) (names : List Text) :
    inTurn (done ++ [entry]) names = (done.inTurn names).replace entry.1 entry.2 :=
  List.foldl_append

theorem Chained.append (chained : done.Chained name next) (rest : Table Text) :
    Chained (done ++ rest) name next := by
  obtain ⟨last, again, differ⟩ := chained.again
  refine ⟨?_, chained.later, last, ?_, differ⟩
  · rw [get?_append, chained.renamed, Option.some_or]
  · rw [get?_append, again, Option.some_or]

theorem replace_same (names : List Text) (name : Text) : names.replace name name = names := by
  induction names with
  | nil => rfl
  | cons first rest ih =>
    rw [List.replace_cons, ih]
    split <;> simp_all

/-- One entry more, when every name that became its key stands after that key. -/
theorem replace_map_newName (fresh : done.get? key = none) (once : names.count key ≤ 1)
    (behind : ∀ front name back, names = front ++ name :: back → done.get? name = some key →
      key ∈ front) :
    (names.map done.newName).replace key new =
      names.map (Table.newName (done ++ [(key, new)])) := by
  -- A name that now is the key was it from the start, or came after it.
  have became : ∀ {front back : List Text}, names = front ++ back → key ∉ front →
      key ∉ front.map done.newName := by
    intro front back split absent member
    obtain ⟨name, inside, renamed⟩ := List.mem_map.1 member
    rcases newName_eq_iff.1 renamed with ⟨-, rfl⟩ | found
    · exact absent inside
    · obtain ⟨ahead, after, rfl⟩ := List.append_of_mem inside
      have earlier := behind ahead name (after ++ back) (by simp [split]) found
      exact absent (List.mem_append_left _ earlier)
  have others : ∀ {part : List Text}, key ∉ part →
      part.map done.newName = part.map (Table.newName (done ++ [(key, new)])) := by
    intro part absent
    apply List.map_congr_left
    intro name member
    have differ : name ≠ key := fun same => absent (same ▸ member)
    rw [newName_concat fresh, if_neg differ]
  by_cases member : key ∈ names
  · obtain ⟨front, back, rfl⟩ := List.append_of_mem member
    rw [List.count_append, List.count_cons_self] at once
    have ahead : key ∉ front := List.count_eq_zero.1 (by omega)
    have after : key ∉ back := List.count_eq_zero.1 (by omega)
    have kept : done.newName key = key := newName_eq_iff.2 (.inl ⟨fresh, rfl⟩)
    rw [List.map_append, List.map_cons, kept, List.replace_append_right (became rfl ahead),
      List.replace_cons_self, List.map_append, List.map_cons, newName_concat fresh, if_pos rfl,
      others ahead, others after]
  · rw [List.replace_of_not_mem (became (List.append_nil names).symm member), others member]

theorem inTurn_eq_map (ordered : table.Ordered)
    (once : ∀ entry ∈ table, names.count entry.1 ≤ 1) (settles : table.Settles names) :
    table.inTurn names = names.map table.newName := by
  -- Over the entries from the last one back: those done have renamed as if at once.
  induction table using List.reverseRecOn with
  | nil => exact (List.map_id'' (fun _ => rfl) names).symm
  | append_singleton done entry ih =>
    obtain ⟨key, new⟩ := entry
    have earlier : Ordered done := (List.pairwise_append.1 ordered).1
    have fresh : get? done key = none := ordered.fresh
    have renamed := ih earlier (fun entry member => once entry (List.mem_append_left _ member))
      fun front name back split next chained =>
        settles front name back split next (chained.append _)
    rw [inTurn_concat, renamed]
    by_cases same : new = key
    · subst same
      rw [replace_same]
      apply List.map_congr_left
      intro name _
      rw [newName_concat fresh]
      split
      · rename_i same
        rw [same, newName_eq_iff]
        exact .inl ⟨fresh, rfl⟩
      · rfl
    · apply replace_map_newName fresh (once (key, new) (by simp))
      intro front name back split found
      apply settles front name back split
      refine ⟨?_, ordered.lt _ (mem_of_get? found), new, ordered.get?, same⟩
      rw [get?_append, found, Option.some_or]

end

/-! ### The trail of a run -/

structure Traced where
  start : Text
  now : Text

def Traced.ofName (name : Text) : Traced := ⟨name, name⟩

def relabel (key new : Text) : List Traced → List Traced
  | [] => []
  | item :: items =>
    if item.now = key then ⟨item.start, new⟩ :: items else item :: relabel key new items

def follow (table : Table Text) (trail : List Traced) : List Traced :=
  table.foldl (fun trail entry => relabel entry.1 entry.2 trail) trail

/-- `start` is renamed by entries with ever later keys, and at last from `key`. -/
inductive Climbs (table : Table Text) (start : Text) : Text → Text → Prop where
  | first {new} : table.get? start = some new → new ≠ start → Climbs table start start new
  | next {key name new} : Climbs table start key name → key < name →
      table.get? name = some new → new ≠ name → Climbs table start name new

/-- Entries with ever later keys lead from a name back to it. -/
def Returns (table : Table Text) : Prop := ∃ name key, table.Climbs name key name

section
variable {table done rest : Table Text} {names front back : List Text}
  {name key new next start now : Text} {trail left right : List Traced} {item : Traced}

theorem map_now_relabel (key new : Text) (trail : List Traced) :
    (relabel key new trail).map (·.now) = (trail.map (·.now)).replace key new := by
  induction trail with
  | nil => rfl
  | cons item items ih =>
    rw [relabel, List.map_cons, List.replace_cons]
    split
    · rename_i same
      simp [same]
    · rename_i differ
      simp [beq_false_of_ne (Ne.symm differ), ih]

theorem map_start_relabel (key new : Text) (trail : List Traced) :
    (relabel key new trail).map (·.start) = trail.map (·.start) := by
  induction trail with
  | nil => rfl
  | cons item items ih =>
    rw [relabel]
    split <;> simp_all

theorem map_now_follow (table : Table Text) (trail : List Traced) :
    (table.follow trail).map (·.now) = table.inTurn (trail.map (·.now)) := by
  induction table generalizing trail with
  | nil => rfl
  | cons entry entries ih =>
    change (follow entries _).map (·.now) = inTurn entries _
    rw [ih, map_now_relabel]

theorem map_start_follow (table : Table Text) (trail : List Traced) :
    (table.follow trail).map (·.start) = trail.map (·.start) := by
  induction table generalizing trail with
  | nil => rfl
  | cons entry entries ih =>
    change (follow entries _).map (·.start) = _
    rw [ih, map_start_relabel]

theorem map_ofName (names : List Text) :
    (names.map Traced.ofName).map (·.now) = names ∧
      (names.map Traced.ofName).map (·.start) = names := by
  rw [List.map_map, List.map_map]
  exact ⟨List.map_id'' (fun _ => rfl) names, List.map_id'' (fun _ => rfl) names⟩

theorem follow_append (done rest : Table Text) (trail : List Traced) :
    follow (done ++ rest) trail = rest.follow (done.follow trail) :=
  List.foldl_append

theorem mem_relabel (member : item ∈ relabel key new trail) :
    item ∈ trail ∨ (⟨item.start, key⟩ ∈ trail ∧ item.now = new) := by
  induction trail with
  | nil => cases member
  | cons head items ih =>
    rw [relabel] at member
    split at member
    · rename_i same
      rcases List.mem_cons.1 member with rfl | behind
      · exact .inr ⟨same ▸ List.mem_cons_self, rfl⟩
      · exact .inl (List.mem_cons_of_mem _ behind)
    · rcases List.mem_cons.1 member with rfl | behind
      · exact .inl List.mem_cons_self
      · exact (ih behind).imp (List.mem_cons_of_mem _) (And.imp_left (List.mem_cons_of_mem _))

theorem relabel_mem (member : item ∈ trail) (key new : Text) :
    item ∈ relabel key new trail ∨ (item.now = key ∧ ⟨item.start, new⟩ ∈ relabel key new trail) := by
  induction trail with
  | nil => cases member
  | cons head items ih =>
    rw [relabel]
    split
    · rename_i same
      rcases List.mem_cons.1 member with rfl | behind
      · exact .inr ⟨same, List.mem_cons_self⟩
      · exact .inl (List.mem_cons_of_mem _ behind)
    · rcases List.mem_cons.1 member with rfl | behind
      · exact .inl List.mem_cons_self
      · exact (ih behind).imp (List.mem_cons_of_mem _) (And.imp_right (List.mem_cons_of_mem _))

/-- The first name equal to the key is renamed, and nothing behind it. -/
theorem relabel_append (present : ⟨start, key⟩ ∈ left) (new : Text) (right : List Traced) :
    relabel key new (left ++ right) = relabel key new left ++ right ∧
      ∃ start, ⟨start, key⟩ ∈ left ∧ ⟨start, new⟩ ∈ relabel key new left := by
  induction left with
  | nil => cases present
  | cons head items ih =>
    rw [List.cons_append, relabel, relabel]
    split
    · rename_i same
      exact ⟨rfl, head.start, same ▸ List.mem_cons_self, List.mem_cons_self⟩
    · rename_i differ
      rcases List.mem_cons.1 present with rfl | behind
      · exact absurd rfl differ
      · obtain ⟨cut, first, before, after⟩ := ih behind
        exact ⟨by rw [cut, List.cons_append], first, List.mem_cons_of_mem _ before,
          List.mem_cons_of_mem _ after⟩

theorem relabel_split (key new : Text) (left right : List Traced) :
    ∃ left' right', relabel key new (left ++ right) = left' ++ right' ∧
      left'.map (·.start) = left.map (·.start) ∧
      (∀ item ∈ left, key ≠ item.now → item ∈ left') ∧
      ∀ item ∈ right, key ≠ item.now → item ∈ right' := by
  have kept : ∀ {trail : List Traced}, ∀ item ∈ trail, key ≠ item.now →
      item ∈ relabel key new trail := fun item member differ =>
    (relabel_mem member key new).resolve_right fun renamed => differ renamed.1.symm
  by_cases present : ∃ start, ⟨start, key⟩ ∈ left
  · obtain ⟨start, present⟩ := present
    refine ⟨_, right, (relabel_append present new right).1, map_start_relabel _ _ _, kept, ?_⟩
    exact fun item member _ => member
  · refine ⟨left, relabel key new right, ?_, rfl, fun item member _ => member, kept⟩
    induction left with
    | nil => rfl
    | cons head items ih =>
      have differ : head.now ≠ key := fun same =>
        present ⟨head.start, same ▸ List.mem_cons_self⟩
      rw [List.cons_append, relabel, if_neg differ, ih fun ⟨start, member⟩ =>
        present ⟨start, List.mem_cons_of_mem _ member⟩, List.cons_append]

/-- What no key of the entries is stays as it is, on its side of a place. -/
theorem follow_split (table : Table Text) (left right : List Traced) :
    ∃ left' right', table.follow (left ++ right) = left' ++ right' ∧
      left'.map (·.start) = left.map (·.start) ∧
      (∀ item ∈ left, (∀ entry ∈ table, entry.1 ≠ item.now) → item ∈ left') ∧
      ∀ item ∈ right, (∀ entry ∈ table, entry.1 ≠ item.now) → item ∈ right' := by
  induction table generalizing left right with
  | nil => exact ⟨left, right, rfl, rfl, fun _ member _ => member, fun _ member _ => member⟩
  | cons entry entries ih =>
    obtain ⟨left', right', cut, starts, ahead, behind⟩ := relabel_split entry.1 entry.2 left right
    obtain ⟨left'', right'', cut', starts', ahead', behind'⟩ := ih left' right'
    refine ⟨left'', right'', ?_, starts'.trans starts, ?_, ?_⟩
    · rw [← cut', ← cut]
      rfl
    · intro item member differ
      obtain ⟨first, onward⟩ := List.forall_mem_cons.1 differ
      exact ahead' item (ahead item member first) onward
    · intro item member differ
      obtain ⟨first, onward⟩ := List.forall_mem_cons.1 differ
      exact behind' item (behind item member first) onward

theorem Climbs.start_le (climbs : table.Climbs start key now) : start = key ∨ start < key := by
  induction climbs with
  | first found differ => exact .inl rfl
  | next climbs later found differ ih =>
    rcases ih with rfl | before
    · exact .inr later
    · exact .inr (List.lt_trans before later)

theorem Climbs.exists_first (climbs : table.Climbs start key now) :
    ∃ first, table.get? start = some first ∧
      ((key = start ∧ now = first) ∨ table.Climbs first key now) := by
  induction climbs with
  | first found differ => exact ⟨_, found, .inl ⟨rfl, rfl⟩⟩
  | next climbs later found differ ih =>
    obtain ⟨first, renamed, ⟨rfl, rfl⟩ | onward⟩ := ih
    · exact ⟨_, renamed, .inr (.first found differ)⟩
    · exact ⟨first, renamed, .inr (.next onward later found differ)⟩

/-- Every name of a run is the one it started from or was climbed to. -/
theorem climbs_of_mem_follow (ordered : Ordered (done ++ rest)) (names : List Text) :
    ∀ item ∈ done.follow (names.map .ofName), item.now = item.start ∨
      ∃ entry ∈ done, Climbs (done ++ rest) item.start entry.1 item.now := by
  induction done using List.reverseRecOn generalizing rest with
  | nil =>
    intro item member
    obtain ⟨name, -, rfl⟩ := List.mem_map.1 member
    exact .inl rfl
  | append_singleton done entry ih =>
    obtain ⟨key, new⟩ := entry
    rw [List.append_assoc, List.singleton_append] at ordered ⊢
    have earlier := ih ordered
    rintro ⟨start, now⟩ member
    rw [follow_append] at member
    have climbed : ⟨start, now⟩ ∈ follow done (names.map .ofName) → now = start ∨
        ∃ entry ∈ done ++ [(key, new)],
          Climbs (done ++ (key, new) :: rest) start entry.1 now := by
      intro member
      refine (earlier _ member).imp_right ?_
      rintro ⟨entry, inside, climbs⟩
      exact ⟨entry, List.mem_append_left _ inside, climbs⟩
    rcases mem_relabel member with member | ⟨member, renamed⟩
    · exact climbed member
    obtain rfl : now = new := renamed
    by_cases same : now = key
    · subst same
      exact climbed member
    · refine .inr ⟨(key, now), by simp, ?_⟩
      rcases earlier _ member with unchanged | ⟨entry, inside, climbs⟩
      · obtain rfl : key = start := unchanged
        exact .first ordered.get? same
      · exact .next climbs (ordered.lt entry inside) ordered.get? same

/-- A name that was renamed twice stays one that was. -/
theorem climbs_follow (ordered : rest.Ordered)
    (entries : ∀ entry ∈ rest, table.get? entry.1 = some entry.2) (member : item ∈ trail)
    (climbs : table.Climbs item.start key item.now) (twice : item.start < key)
    (later : ∀ entry ∈ rest, key < entry.1) :
    ∃ last ∈ rest.follow trail, ∃ key, last.start < key ∧
      table.Climbs last.start key last.now := by
  induction rest generalizing trail item key with
  | nil => exact ⟨item, member, key, twice, climbs⟩
  | cons entry rest ih =>
    obtain ⟨after, onward⟩ := List.pairwise_cons.1 ordered
    obtain ⟨here, there⟩ := List.forall_mem_cons.1 entries
    obtain ⟨above, beyond⟩ := List.forall_mem_cons.1 later
    rcases relabel_mem member entry.1 entry.2 with kept | ⟨same, renamed⟩
    · exact ih onward there kept climbs twice beyond
    by_cases still : entry.2 = entry.1
    · have kept : item ∈ relabel entry.1 entry.2 trail := by
        rw [still, ← same] at renamed
        rwa [still, ← same]
      exact ih onward there kept climbs twice beyond
    · have further : table.Climbs item.start entry.1 entry.2 :=
        .next (same ▸ climbs) above here still
      exact ih onward there renamed further (List.lt_trans twice above) after

/-- A name that was renamed twice has the name that the table gives it only if it came back. -/
theorem returns_of_climbs (climbs : table.Climbs item.start key item.now)
    (twice : item.start < key) (atOnce : item.now = table.newName item.start) :
    table.Returns := by
  obtain ⟨first, found, ⟨same, -⟩ | onward⟩ := climbs.exists_first
  · exact absurd same.symm (Text.ne_of_lt twice)
  · rw [newName, found, Option.getD_some] at atOnce
    exact ⟨first, key, atOnce ▸ onward⟩

variable {before between after : Table Text} {last : Text}

theorem Chained.exists_split (chained : table.Chained name next) (ordered : table.Ordered) :
    ∃ before between after last,
      table = before ++ (name, next) :: between ++ (next, last) :: after ∧ last ≠ next := by
  obtain ⟨last, again, differ⟩ := chained.again
  obtain ⟨before, behind, rfl⟩ := List.append_of_mem (mem_of_get? chained.renamed)
  have member : (next, last) ∈ behind := by
    rcases List.mem_append.1 (mem_of_get? again) with ahead | here
    · exact absurd (List.lt_trans (ordered.lt _ ahead) chained.later) (List.lt_irrefl _)
    · rcases List.mem_cons.1 here with same | member
      · exact absurd (Prod.mk.inj same).1.symm (Text.ne_of_lt chained.later)
      · exact member
  obtain ⟨between, after, rfl⟩ := List.append_of_mem member
  exact ⟨before, between, after, last, by simp, differ⟩

/-- When the turn of `next` comes, a name that was renamed to it stands before it. -/
theorem overtaken (ordered : Ordered (before ++ (name, next) :: between ++ (next, last) :: after))
    (ahead : next ∉ front) :
    ∃ left right, follow (before ++ (name, next) :: between) ((front ++ name :: back).map .ofName) =
        left ++ right ∧
      (∃ start, ⟨start, next⟩ ∈ left) ∧ (∀ item ∈ left, item.start ≠ next) ∧
      (next ∈ back → .ofName next ∈ right) := by
  have low : ∀ entry ∈ before, entry.1 < name := Ordered.lt (List.pairwise_append.1 ordered).1
  have later : name < next := ordered.lt (name, next) (by simp)
  have unlike : ∀ entry ∈ between, entry.1 ≠ next := fun entry member =>
    Text.ne_of_lt (ordered.lt entry (by simp [member]))
  obtain ⟨left, right, cut, starts, inLeft, inRight⟩ :=
    follow_split before ((front ++ [name]).map .ofName) (back.map .ofName)
  have present : .ofName name ∈ left :=
    inLeft _ (List.mem_map_of_mem (by simp)) fun entry member => Text.ne_of_lt (low entry member)
  obtain ⟨cut', start, -, renamed⟩ := relabel_append present next right
  obtain ⟨left', right', cut'', starts', inLeft', inRight'⟩ :=
    follow_split between (relabel name next left) right
  refine ⟨left', right', ?_, ⟨start, inLeft' _ renamed unlike⟩, ?_, ?_⟩
  · rw [← List.map_append, ← List.append_cons] at cut
    rw [follow_append, cut, ← cut'', ← cut']
    rfl
  · intro item member same
    have origin : item.start ∈ left'.map (·.start) := List.mem_map_of_mem member
    rw [starts', map_start_relabel, starts, (map_ofName _).2, same] at origin
    rcases List.mem_append.1 origin with inFront | isName
    · exact ahead inFront
    · exact Text.ne_of_lt later (List.mem_singleton.1 isName).symm
  · intro member
    refine inRight' _ (inRight _ (List.mem_map_of_mem member) ?_) unlike
    exact fun entry member => Text.ne_of_lt (List.lt_trans (low entry member) later)

/-- Renaming in turn follows the table only if each name that is renamed to a later key stands after
that key, or the key is not there and the table leads some name back to itself. -/
theorem settles_of_inTurn (ordered : table.Ordered)
    (follows : table.inTurn names = names.map table.newName) (cut : names = front ++ name :: back)
    (chained : table.Chained name next) : next ∈ front ∨ (next ∉ back ∧ table.Returns) := by
  by_cases ahead : next ∈ front
  · exact .inl ahead
  have atOnce : ∀ item ∈ table.follow (names.map .ofName), item.now = table.newName item.start := by
    apply List.map_inj_left.1
    rw [map_now_follow, (map_ofName names).1, follows]
    conv_lhs => rw [← (map_ofName names).2, ← map_start_follow table, List.map_map]
    rfl
  subst cut
  obtain ⟨before, between, after, last, rfl, differ⟩ := chained.exists_split ordered
  obtain ⟨left, right, cut, ⟨_, present⟩, starts, behind⟩ := overtaken ordered ahead
  obtain ⟨cut', start, reached, renamed⟩ := relabel_append present last right
  have run : follow (before ++ (name, next) :: between ++ (next, last) :: after)
      ((front ++ name :: back).map .ofName) = follow after (relabel next last left ++ right) := by
    rw [follow_append, cut, ← cut']
    rfl
  rw [run] at atOnce
  refine .inr ⟨fun member => ?_, ?_⟩
  -- The key itself, behind the name renamed to it, is passed over and keeps its name.
  · obtain ⟨left', right', cut'', -, -, inRight⟩ := follow_split after (relabel next last left) right
    have kept : .ofName next ∈ right' :=
      inRight _ (behind member) fun entry member => (Text.ne_of_lt (ordered.gt entry member)).symm
    have answer := atOnce _ (cut'' ▸ List.mem_append_right _ kept)
    rw [newName, Traced.ofName, ordered.get?] at answer
    exact differ answer.symm
  -- The name renamed in its place has been renamed twice, and can only look right by coming back.
  · have inTrail : ⟨start, next⟩ ∈ follow (before ++ (name, next) :: between)
        ((front ++ name :: back).map .ofName) := cut ▸ List.mem_append_left _ reached
    rcases climbs_of_mem_follow ordered _ _ inTrail with unchanged | ⟨entry, member, climbs⟩
    · exact absurd unchanged.symm (starts _ reached)
    have below : entry.1 < next := ordered.lt entry member
    have twice : start < next := by
      rcases climbs.start_le with same | before
      · exact lt_of_eq_of_lt same below
      · exact List.lt_trans before below
    have further := Climbs.next climbs below ordered.get? differ
    have onward : Ordered after :=
      (List.pairwise_cons.1 (List.pairwise_append.1 ordered).2.1).2
    obtain ⟨item, inLast, key, above, climbs⟩ := climbs_follow onward
      (fun entry member => ordered.get?_of_mem (by simp [member]))
      (List.mem_append_left right renamed) further twice ordered.gt
    exact returns_of_climbs climbs above (atOnce item inLast)

end
end Table
end Retag
