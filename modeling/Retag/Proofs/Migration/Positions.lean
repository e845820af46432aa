import Retag.Proofs.Migration.Idle
import Retag.Proofs.Migration.ImportMove
import Retag.Proofs.Origin.History
import Retag.Proofs.Text.Octet
import Retag.Proofs.Text.Position

/-! Reported positions. A rule reports a tag of the text that the rules before it made, and the way
back to the file as it was read goes through one renaming after the other. Main statement: a tag that
no rule wrote into the text of another is reported exactly where it opens in that file; one that a
rule did write into another is reported at the same distance from the start of that one, or at its
end. -/
namespace Retag

/-- The byte at `output` after a pass is the one at `input` before it, or both are the first of a
splice and of what replaced it. -/
inductive Splice.Continues (input output : Nat) (splices : List Splice)
    (before after : List UInt8) : Prop where
  | kept : Keeps 0 input output splices before after → Continues input output splices before after
  | replaced {splice : Splice} : Replaces 0 splice output splices before after → 0 < splice.size →
      splice.start = input → Continues input output splices before after

theorem Splice.Continues.trace {input output : Nat} {splices : List Splice}
    {before after : List UInt8} (continues : Continues input output splices before after) :
    Splice.trace splices output = input := by
  cases continues with
  | kept keeps => exact trace_kept keeps
  | replaced replaces filled start => rw [trace_replaced replaces filled, start]

def Text.OpensAt (text : Text) (offset : Nat) : Prop :=
  ∃ before rest, text = before ++ '<' :: rest ∧ offset = before.size

namespace Text

theorem opensAt_of_same_byte {text text' : Text} {offset offset' : Nat} {byte : UInt8}
    (found : text.bytes[offset]? = some byte) (found' : text'.bytes[offset']? = some byte)
    (opens : OpensAt text' offset') : OpensAt text offset := by
  have octet := (getElem?_octets_iff (by decide)).2 opens
  apply (getElem?_octets_iff (by decide)).1
  rw [octets, List.getElem?_map, found'] at octet
  rw [octets, List.getElem?_map, found]
  exact octet

theorem OpensAt.lt_size {text : Text} {offset : Nat} (opens : OpensAt text offset) :
    offset < text.size := by
  obtain ⟨before, rest, rfl, rfl⟩ := opens
  have filled : 0 < Text.size ('<' :: rest) := size_pos (by simp)
  rw [size_append]
  omega

end Text

namespace Tag
variable {source name newName : Text} {origin : Origin} {transform : AttributeTransform}
  {result : Renaming}

theorem opensAt_of_site {site : TagSite} (member : site ∈ openSites source name) :
    source.OpensAt site.start := by
  obtain ⟨before, rest, whole, start, -⟩ := opensIn_of_mem member
  exact ⟨before, name ++ rest, by simpa using whole, by simpa using start⟩

/-- What is replaced starts where a tag opens. -/
theorem opensAt_of_splice {splice : Splice}
    (renamed : rename? source name newName origin transform = some result)
    (member : splice ∈ result.splices) : source.OpensAt splice.start := by
  rw [splices_of_rename? renamed, mem_splices] at member
  obtain ⟨piece, among, -, rfl⟩ := member
  obtain ⟨before, after, whole, start⟩ := replacements_stand among
  have opening : ∃ more, piece.before = '<' :: more := by
    rcases mem_replacements.1 among with ⟨tag, -, rfl⟩ | ⟨closing, -, rfl⟩
    · exact ⟨_, rfl⟩
    · exact ⟨_, rfl⟩
  obtain ⟨more, same⟩ := opening
  exact ⟨before, more ++ after, by simp [whole, same], by simpa using start⟩

end Tag

namespace Migration
open Splice (Spliced Replaces Continues)

/-- The byte at `input` of the first state's text stands at `output` of the text that the rules make
of it, as itself or as the first of a tag that was renamed. -/
inductive Continued (colors : ColorTables) :
    (first : State) → List ComponentRule → (input : Nat) → (last : State) → (output : Nat) → Prop where
  | here {state : State} {offset : Nat} : Continued colors state [] offset state offset
  | rule {first last : State} {rule : ComponentRule} {rules : List ComponentRule}
      {result : Renaming} {input middle output : Nat} :
      renaming? colors first rule = some result →
      Continues input middle result.splices first.text.bytes result.text.bytes →
      Continued colors (first.renamed result) rules middle last output →
      Continued colors first (rule :: rules) input last output

/-- One of the rules wrote the byte at `output` of the last text, or a tag that starts there, into
the text of another tag: `distance` bytes behind the start of what it put in the place of `splice`.
The text that it found came from `origin`. -/
inductive Within (colors : ColorTables) (first : State) (rules : List ComponentRule) (last : State)
    (output : Nat) (origin : Origin) (splice : Splice) (distance : Nat) : Prop where
  | intro {earlier later used : List ComponentRule} {rule : ComponentRule} {state : State}
      {result : Renaming} {start : Nat} :
      rules = earlier ++ rule :: later → applyRules? colors first earlier = some (state, used) →
      origin = state.origin → renaming? colors state rule = some result →
      Replaces 0 splice start result.splices state.text.bytes result.text.bytes →
      0 < distance → distance < splice.size →
      Continued colors (state.renamed result) later (start + distance) last output →
      Within colors first rules last output origin splice distance

/-- The location that is reported of a tag at `offset` of the text that the rules made of the source,
which is the text of `state`. -/
structure Located (colors : ColorTables) (file source : Text) (rules : List ComponentRule)
    (state : State) (offset : Nat) (location : Location) : Prop where
  /-- A tag that was in the source is reported at its first character. -/
  own : ∀ before rest, source = before ++ '<' :: rest →
    Continued colors (start file source) rules before.size state offset →
    location = ⟨file, Position.after before⟩
  /-- A tag that was written into another is reported in what became the other one. -/
  enclosing : ∀ origin splice distance,
    Within colors (start file source) rules state offset origin splice distance →
    ∃ place, place = origin.sourceOffset (splice.start + min distance (splice.stop - splice.start)) ∧
      origin.sourceOffset splice.start ≤ place ∧ place ≤ origin.sourceOffset splice.stop ∧
      location = ⟨file, source.position place⟩
  own_or_enclosed :
    (∃ before rest, source = before ++ '<' :: rest ∧
      Continued colors (start file source) rules before.size state offset) ∨
    ∃ origin splice distance,
      Within colors (start file source) rules state offset origin splice distance

section
variable {colors : ColorTables} {state first last : State} {rule : ComponentRule}
  {rules used : List ComponentRule} {result : Renaming} {input output : Nat}

theorem renaming?_spliced (named : rule.Named) (renamed : renaming? colors state rule = some result) :
    Spliced 0 result.splices state.text.bytes result.text.bytes := by
  obtain ⟨result', again, made, -, splices⟩ := Tag.rename?_made state.text rule.newName state.origin
    (rule.transform colors) named.nonempty named.noSlash named.plain
  obtain rfl := Option.some.inj (again.symm.trans renamed)
  rw [splices]
  exact made.spliced

theorem Continued.sourceOffset (continued : Continued colors first rules input last output) :
    last.origin.sourceOffset output = first.origin.sourceOffset input := by
  induction continued with
  | here => rfl
  | rule renamed continues _ ih =>
    rw [ih, State.renamed, Origin.sourceOffset_push, continues.trace]

theorem Continued.opensAt (continued : Continued colors first rules input last output)
    (opens : last.text.OpensAt output) : first.text.OpensAt input := by
  induction continued with
  | here => exact opens
  | rule renamed continues _ ih =>
    cases continues with
    | kept keeps =>
      obtain ⟨byte, found, found'⟩ := keeps.same_byte
      exact Text.opensAt_of_same_byte found found' (ih opens)
    | replaced replaces _ start =>
      rw [← start]
      exact Tag.opensAt_of_splice renamed replaces.mem

/-- The start of a tag in the last text can be followed back to the first one, or to the middle of
what some rule wrote. -/
theorem continued_or_within (named : ∀ rule ∈ rules, rule.Named)
    (ran : applyRules? colors first rules = some (last, used)) (opens : last.text.OpensAt output) :
    (∃ input, Continued colors first rules input last output) ∨
      ∃ origin splice distance, Within colors first rules last output origin splice distance := by
  induction rules generalizing first used with
  | nil =>
    obtain ⟨rfl, -⟩ := Prod.mk.inj (Option.some.inj ran)
    exact .inl ⟨output, .here⟩
  | cons rule rules ih =>
    obtain ⟨result, rest, renamed, onward⟩ := applyRules?_cons ran
    have spliced := renaming?_spliced (named rule List.mem_cons_self) renamed
    rcases ih (fun other member => named other (List.mem_cons_of_mem _ member)) onward with
      ⟨middle, continued⟩ | ⟨origin, splice, distance, within⟩
    · have inside := (continued.opensAt opens).lt_size
      rw [← Text.length_bytes] at inside
      rcases Splice.keeps_or_replaces spliced inside with
        ⟨input, keeps⟩ | ⟨splice, start, replaces, low, high⟩
      · exact .inl ⟨input, .rule renamed (.kept keeps) continued⟩
      · obtain ⟨distance, rfl⟩ := Nat.exists_eq_add_of_le low
        by_cases starts : distance = 0
        · subst starts
          exact .inl ⟨splice.start, .rule renamed (.replaced replaces (by omega) rfl) continued⟩
        · have split : rule :: rules = [] ++ rule :: rules := rfl
          have reached : applyRules? colors first [] = some (first, []) := rfl
          exact .inr ⟨_, splice, distance, .intro split reached rfl renamed replaces (by omega)
            (by omega) continued⟩
    · cases within with
      | @intro earlier later _ rule' _ _ _ split ran' origin' renamed' replaces low high continued =>
        obtain ⟨used', reached⟩ := applyRules?_of_renaming renamed ran'
        have split' : rule :: rules = (rule :: earlier) ++ rule' :: later := by rw [split]; rfl
        exact .inr ⟨origin, splice, distance,
          .intro split' reached origin' renamed' replaces low high continued⟩

/-- What stands in the middle of what a rule wrote is traced to the same distance from the start of
what was there, or to its end. -/
theorem Within.sourceOffset {origin : Origin} {splice : Splice} {distance : Nat}
    (within : Within colors first rules last output origin splice distance) :
    last.origin.sourceOffset output =
      origin.sourceOffset (splice.start + min distance (splice.stop - splice.start)) := by
  cases within with
  | intro _ _ same _ replaces _ inside continued =>
    rw [continued.sourceOffset, State.renamed, Origin.sourceOffset_push,
      Splice.trace_inside replaces inside, same]

/-- Positions are looked up in the file as it was read. -/
theorem locate_of_applyRules? (ran : applyRules? colors first rules = some (last, used))
    (offset : Nat) : last.origin.locate offset =
      ⟨first.origin.file, first.origin.index.position (last.origin.sourceOffset offset)⟩ := by
  have same : last.origin.file = first.origin.file ∧ last.origin.index = first.origin.index := by
    apply applyRules?_preserves (P := fun state =>
      state.origin.file = first.origin.file ∧ state.origin.index = first.origin.index) _ ran ⟨rfl, rfl⟩
    intro state result _ _ _ same
    rwa [State.renamed, Origin.push_file, Origin.push_index]
  rw [Origin.locate, same.1, same.2]

theorem sourceOffset_mono_of_applyRules? (named : ∀ rule ∈ rules, rule.Named)
    (ran : applyRules? colors first rules = some (last, used))
    (mono : Monotone first.origin.sourceOffset) : Monotone last.origin.sourceOffset := by
  apply applyRules?_preserves (P := fun state => Monotone state.origin.sourceOffset) _ ran mono
  intro state result rule member renamed mono o o' le
  simp only [State.renamed, Origin.sourceOffset_push]
  exact mono (Splice.trace_mono (renaming?_spliced (named rule member) renamed) le)

theorem located {file source : Text} (named : ∀ rule ∈ rules, rule.Named)
    (ran : applyRules? colors (start file source) rules = some (state, used))
    (opens : state.text.OpensAt output) :
    Located colors file source rules state output (state.origin.locate output) := by
  have location : state.origin.locate output =
      ⟨file, source.position (state.origin.sourceOffset output)⟩ := locate_of_applyRules? ran output
  refine ⟨fun before rest whole continued => ?_, fun origin splice distance within => ?_, ?_⟩
  · have own : state.origin.sourceOffset output = before.size := continued.sourceOffset
    rw [location, own, whole, Text.position_size]
  · obtain ⟨mono, forward⟩ : Monotone origin.sourceOffset ∧ splice.start ≤ splice.stop := by
      cases within with
      | @intro earlier later _ _ _ _ _ split reached same _ replaces =>
        have earlierNamed : ∀ rule ∈ earlier, rule.Named := by
          intro rule member
          exact named rule (by simp [split, member])
        rw [same]
        exact ⟨sourceOffset_mono_of_applyRules? earlierNamed reached fun _ _ le => le,
          replaces.forward⟩
    rw [within.sourceOffset] at location
    exact ⟨_, rfl, mono (by omega), mono (by omega), location⟩
  · rcases continued_or_within named ran opens with ⟨input, continued⟩ | within
    · obtain ⟨before, rest, whole, rfl⟩ : source.OpensAt input := continued.opensAt opens
      exact .inl ⟨before, rest, whole, continued⟩
    · exact .inr within

end

theorem removeImport_issues {state : State} {name module : Text} {issue : Issue}
    (member : issue ∈ (removeImport state name module).issues) :
    issue ∈ state.issues ∨ issue.kind = .stillReferenced := by
  rcases removeImport_cases state name module with same | ⟨location, same⟩ | same
  · rw [same] at member
    exact .inl member
  · rw [same] at member
    rcases List.mem_append.1 member with before | new
    · exact .inl before
    · rw [List.mem_singleton.1 new]
      exact .inr rfl
  · rw [same, recordImport_issues] at member
    exact .inl member

/-- Moving imports reports only imports that were kept. -/
theorem moveImports_issues {state : State} {used : List ComponentRule} {issue : Issue}
    (member : issue ∈ (used.foldl moveImport state).issues) :
    issue ∈ state.issues ∨ issue.kind = .stillReferenced := by
  induction used generalizing state with
  | nil => exact .inl member
  | cons rule used ih =>
    rcases ih member with before | kept
    · unfold moveImport at before
      split at before
      · exact .inl before
      · rw [recordImport_issues] at before
        exact removeImport_issues before
    · exact .inr kept

/-- Every tag that could not be handled is reported at a place of the file as it was read: where the
tag opens there, unless a rule wrote the tag into the text of another one. -/
theorem migrate?_reports_source_positions (config : Config) (file source : Text)
    (named : ∀ rule ∈ config.components, rule.Named) :
    ∃ outcome, migrate? config file source = some outcome ∧
      ∀ issue ∈ outcome.issues, issue.kind ≠ .stillReferenced →
        ∃ earlier rule later state used,
          config.components = earlier ++ rule :: later ∧
          applyRules? config.colors (start file source) earlier = some (state, used) ∧
          ∃ site ∈ Tag.openSites state.text rule.name,
            Reports config.colors state rule issue site ∧
            Located config.colors file source earlier state site.start issue.location := by
  obtain ⟨outcome, migrated⟩ := migrate?_exists file source named
  refine ⟨outcome, migrated, ?_⟩
  intro issue member kind
  obtain ⟨last, used, ran, -, issues⟩ := migrate?_inv migrated
  rw [issues, StableSort.mem_sort] at member
  have reported : issue ∈ _ := (moveImports_issues member).resolve_right kind
  rcases reports_of_applyRules? ran reported with
    early | ⟨earlier, rule, later, state, used', split, reached, site, opens, reports⟩
  · cases early
  · refine ⟨earlier, rule, later, state, used', split, reached, site, opens, reports, ?_⟩
    rw [reports.location]
    apply located _ reached (Tag.opensAt_of_site opens)
    intro other among
    exact named other (by simp [split, among])

/-- A tag behind a renamed one, a tag in an attribute of one, and a tag that never ends. -/
theorem migrate?_reports_source_positions_nested :
    let config : Config := { Config.builtin with components :=
      [⟨['A'], "Box".toList, false, [], none⟩, ⟨['B'], ['C'], true, [], none⟩] }
    let source := "é\n<A><B color=\x7bc\x7d/></A><A x=\x7b<B color=\x7bc\x7d/>\x7d/><B".toList
    (∀ rule ∈ config.components, rule.Named) ∧
      ∃ outcome, migrate? config [] source = some outcome ∧ outcome.issues.length = 3 ∧
        ∀ issue ∈ outcome.issues, issue.kind ≠ .stillReferenced →
          ∃ earlier rule later state used,
            config.components = earlier ++ rule :: later ∧
            applyRules? config.colors (start [] source) earlier = some (state, used) ∧
            ∃ site ∈ Tag.openSites state.text rule.name,
              Reports config.colors state rule issue site ∧
              Located config.colors [] source earlier state site.start issue.location := by
  intro config source
  have named : ∀ rule ∈ config.components, rule.Named := by
    intro rule member
    rcases List.mem_cons.1 member with rfl | later
    · exact ⟨by decide, by decide, by decide⟩
    · rw [List.mem_singleton.1 later]
      exact ⟨by decide, by decide, by decide⟩
  have three : (migrate? config [] source).map (·.issues.length) = some 3 := by decide +kernel
  obtain ⟨outcome, migrated, located⟩ := migrate?_reports_source_positions config [] source named
  rw [migrated] at three
  exact ⟨named, outcome, migrated, Option.some.inj three, located⟩

/-- A tag in an attribute of a renamed one is not reported where it opens: the longer name moved it,
and no tag opens at the location that is reported. -/
theorem migrate?_position_moved_by_enclosing_tag :
    let config : Config := { Config.builtin with components :=
      [⟨['A'], "Box".toList, false, [], none⟩, ⟨['B'], ['C'], true, [], none⟩] }
    let source := "<A x=\x7b<B color=\x7bc\x7d/>\x7d/>".toList
    ∃ outcome, migrate? config [] source = some outcome ∧
      ∃ issue ∈ outcome.issues, issue.kind = .unresolvedValue ∧
        ¬∃ before rest, source = before ++ '<' :: rest ∧
          issue.location.position = Position.after before := by
  intro config source
  have reported : (migrate? config [] source).map (fun outcome =>
      outcome.issues.map fun issue => (issue.kind, issue.location.position)) =
        some [(.unresolvedValue, ⟨1, 9⟩)] := by decide +kernel
  obtain ⟨outcome, migrated, issues⟩ := Option.map_eq_some_iff.1 reported
  obtain ⟨issue, member, same⟩ := List.mem_map.1 (issues ▸ List.mem_singleton_self _)
  obtain ⟨kind, position⟩ := Prod.mk.inj same
  refine ⟨outcome, migrated, issue, member, kind, ?_⟩
  rintro ⟨before, rest, whole, place⟩
  have elsewhere : (List.range source.length).all (fun n =>
      source[n]? != some '<' || Position.after (source.take n) != ⟨1, 9⟩) = true := by decide +kernel
  have opens : source[before.length]? = some '<' := by simp [whole]
  have within : before.length < source.length := by simp [whole]
  have taken : source.take before.length = before := by simp [whole]
  have apart := List.all_eq_true.1 elsewhere before.length (List.mem_range.2 within)
  rw [opens, taken, ← place, position] at apart
  cases apart

end Migration
end Retag
