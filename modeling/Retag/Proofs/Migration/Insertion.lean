import Mathlib.Logic.Function.Basic
import Retag.Proofs.Migration.Positions
import Retag.Proofs.Migration.Previews
import Retag.Proofs.Splice.Insertion
import Retag.Proofs.Text.LineFeed

/-! The line at which a new import is reported. It is looked up at a place near the end of the one
before it, but not at that end: where a line feed follows, the place is the start of the next line.
Main statement: which place it is, and that the line is the one on which the import before it ends
exactly if the file as it was read has no line feed between the two. -/
namespace Retag

namespace Import
open Splice (Delimits commonLength)
open Text (startsLine)

/-- The place at which a statement is looked up that was put in, on a line of its own, between
`front` and `rest`. -/
inductive ReportedAt (front rest statement : Text) : (place : Nat) → Prop
  /-- Where the first list was opened that is still open. -/
  | opened {place : Nat} (first : IsLeast {place | OpenAt front place} place) :
    ReportedAt front rest statement place
  /-- Behind the line feed that follows. -/
  | below (closed : Closed front) (feed : rest.head? = some '\n') :
    ReportedAt front rest statement (front.size + 1)
  /-- In the line before it, where that one begins to end like the statement. -/
  | within {lead line : Text} {place : Nat} (closed : Closed front)
    (noFeed : rest.head? ≠ some '\n') (whole : front = lead ++ line)
    (starts : startsLine true lead = true) (noBreak : '\n' ∉ line)
    (shared : place + commonLength line.bytes.reverse statement.bytes.reverse = front.size) :
    ReportedAt front rest statement place

theorem not_closed_of_openAt {text : Text} {place : Nat} (opened : OpenAt text place) :
    ¬Closed text := by
  obtain ⟨before, opening, inside, default, whole, starts, opens, absent, -⟩ := opened
  exact fun closed => absent (closed before opening inside default whole starts opens)

theorem ReportedAt.eq_of_feed {front rest statement : Text} {place : Nat}
    (reported : ReportedAt front rest statement place) (closed : Closed front)
    (feed : rest.head? = some '\n') : place = front.size + 1 := by
  cases reported with
  | opened first => exact absurd closed (not_closed_of_openAt first.1)
  | below => rfl
  | within _ noFeed => exact absurd feed noFeed

theorem size_takeBytes_stop {source : Text} {site : ImportSite} (member : site ∈ sites source) :
    (source.takeBytes site.stop).size = site.stop := by
  obtain ⟨front, c, rest, whole, -, stop⟩ := stop_of_mem member
  rw [stop, Nat.zero_add, whole, Text.takeBytes_size]

section
variable {front rest statement : Text} {splice : Splice}
  (delimits : Delimits splice (front ++ rest).bytes (front ++ '\n' :: (statement ++ rest)).bytes)
include delimits

theorem delimits_bytes : Delimits splice (front.bytes ++ rest.bytes)
    (front.bytes ++ 10 :: statement.bytes ++ rest.bytes) := by
  have feed : String.utf8EncodeChar '\n' = [10] := rfl
  simpa [feed] using delimits

/-- What follows the line feed that was put in. -/
theorem reportedAt_behind (closed : Closed front) :
    ReportedAt front rest statement (Splice.trace [splice] (front ++ ['\n']).size) := by
  have bytes := delimits_bytes delimits
  have place : (front ++ ['\n']).size = front.bytes.length + 1 := by
    rw [Text.size_append, Text.length_bytes]
    rfl
  rw [place]
  by_cases feed : rest.head? = some '\n'
  · rw [bytes.trace_behind_break (Text.head?_bytes_feed_iff.2 feed), Text.length_bytes]
    exact .below closed feed
  · obtain ⟨lead, line, whole, starts, noBreak, -⟩ := LineIndex.exists_last_line front
    have cut : front.bytes = lead.bytes ++ line.bytes := by rw [whole, Text.bytes_append]
    have begins : Splice.StartsLine lead.bytes lead.bytes.length := by
      rw [Text.length_bytes]
      exact Text.startsLine_bytes starts
    have shared := bytes.trace_behind_line (mt Text.head?_bytes_feed_iff.1 feed) cut begins
      (mt Text.feed_mem_bytes_iff.1 noBreak)
    rw [Text.length_bytes] at shared ⊢
    exact .within closed feed whole starts noBreak shared

/-- The start of a statement that was there before stays where it is. -/
theorem trace_openAt {place : Nat} (opened : OpenAt front place) :
    Splice.trace [splice] place = place := by
  obtain ⟨above, opening, inside, -, rfl, starts, -, -, rfl⟩ := opened
  have within : above.size ≤ (above ++ (opening ++ inside)).bytes.length := by simp
  apply (delimits_bytes delimits).trace_line_start within
  rw [Text.bytes_append]
  exact (Splice.startsLine_lead (List.prefix_append _ _) (by simp)).2 (Text.startsLine_bytes starts)

end
end Import

namespace Migration
open Import (Closed ReportedAt)
open Origin (Untouched)
open Splice (Spliced)

def State.lineAt (state : State) (offset : Nat) : Nat := (state.origin.locate offset).position.line

/-- The passes that made the text of a state from the source, with the texts between them. -/
structure Traced (file source : Text) (texts : Nat → List UInt8) (passes : Nat → List Splice)
    (n : Nat) (state : State) : Prop where
  first : texts 0 = source.bytes
  passed : ∀ k < n, Spliced 0 (passes k) (texts k) (texts (k + 1))
  last : texts n = state.text.bytes
  origin : state.origin = Origin.after file source passes n

section
variable {file source : Text} {texts : Nat → List UInt8} {passes : Nat → List Splice} {n : Nat}
  {state next : State}

theorem traced_start (file source : Text) :
    Traced file source (fun _ => source.bytes) (fun _ => []) 0 (start file source) :=
  ⟨rfl, fun _ lt => absurd lt (Nat.not_lt_zero _), rfl, rfl⟩

theorem Traced.pass (traced : Traced file source texts passes n state) {splices : List Splice}
    (spliced : Spliced 0 splices state.text.bytes next.text.bytes)
    (origin : next.origin = state.origin.push splices) :
    Traced file source (Function.update texts (n + 1) next.text.bytes)
      (Function.update passes n splices) (n + 1) next where
  first := by rw [Function.update_of_ne (by omega), traced.first]
  passed := by
    intro k lt
    rw [Function.update_of_ne (show k ≠ n + 1 by omega)]
    by_cases last : k = n
    · subst last
      rw [Function.update_self, Function.update_self, traced.last]
      exact spliced
    · rw [Function.update_of_ne last, Function.update_of_ne (by omega)]
      exact traced.passed k (by omega)
  last := Function.update_self _ _ _
  origin := by
    have earlier : ∀ k < n, Function.update passes n splices k = passes k :=
      fun k lt => Function.update_of_ne (by omega) _ _
    rw [origin, traced.origin, Origin.after, Function.update_self, Origin.after_congr earlier]

theorem Traced.lineAt (traced : Traced file source texts passes n state) (offset : Nat) :
    state.lineAt offset = (source.position (state.origin.sourceOffset offset)).line := by
  rw [State.lineAt, Origin.locate, traced.origin, Origin.after_index]
  rfl

/-- Behind a line feed of the source, that no pass replaced, is a later line. -/
theorem Traced.lineAt_lt (traced : Traced file source texts passes n state) {input o o' : Nat}
    (untouched : Untouched texts passes 0 input n o) (feed : state.text.bytes[o]? = some 10)
    (lt : o < o') : state.lineAt o < state.lineAt o' := by
  have place : state.origin.sourceOffset o = input := by
    rw [traced.origin, untouched.sourceOffset]
    rfl
  have beyond : input < state.origin.sourceOffset o' := by
    rw [traced.origin]
    exact untouched.lt_sourceOffset file source lt
  obtain ⟨byte, old, new⟩ := untouched.same_byte
  rw [traced.last, feed] at new
  rw [traced.first, ← Option.some.inj new] at old
  rw [traced.lineAt, traced.lineAt, place]
  exact Text.line_lt_of_feed old beyond

end

/-- The text of the state was made from the source by passes that its origin knows. -/
def HasHistory (file source : Text) (state : State) : Prop :=
  ∃ texts passes n, Traced file source texts passes n state

section
variable {file source : Text} {state : State}

theorem HasHistory.renamed (history : HasHistory file source state) {colors : ColorTables}
    {rule : ComponentRule} {result : Renaming}
    (renamed : renaming? colors state rule = some result) :
    HasHistory file source (state.renamed result) := by
  obtain ⟨texts, passes, n, traced⟩ := history
  exact ⟨_, _, _, traced.pass (Tag.spliced_of_rename? renamed) rfl⟩

theorem HasHistory.recordImport (history : HasHistory file source state) (module text : Text) :
    HasHistory file source (recordImport state module text) := by
  obtain ⟨texts, passes, n, traced⟩ := history
  unfold Migration.recordImport
  split
  · exact ⟨texts, passes, n, traced⟩
  · rename_i between
    exact ⟨_, _, _, traced.pass (Splice.delimits_of_betweenBytes between).spliced rfl⟩

theorem HasHistory.removeImport (history : HasHistory file source state) (name module : Text) :
    HasHistory file source (removeImport state name module) := by
  rcases removeImport_cases state name module with same | ⟨location, same⟩ | same
  · rwa [same]
  · rw [same]
    obtain ⟨texts, passes, n, traced⟩ := history
    exact ⟨texts, passes, n, traced.first, traced.passed, traced.last, traced.origin⟩
  · rw [same]
    exact history.recordImport _ _

theorem HasHistory.moveImport (history : HasHistory file source state) (rule : ComponentRule) :
    HasHistory file source (moveImport state rule) := by
  unfold Migration.moveImport
  split
  · exact history
  · exact (history.removeImport _ _).recordImport _ _

theorem HasHistory.moveImports (history : HasHistory file source state)
    (used : List ComponentRule) :
    HasHistory file source (used.foldl Migration.moveImport state) := by
  induction used generalizing state with
  | nil => exact history
  | cons rule used ih => exact ih (history.moveImport rule)

/-- Rules keep the history, so a run of them has one. -/
theorem hasHistory_of_applyRules? {colors : ColorTables} {rules used : List ComponentRule}
    (ran : applyRules? colors (start file source) rules = some (state, used)) :
    HasHistory file source state :=
  applyRules?_preserves (fun _ _ _ _ renamed history => history.renamed renamed) ran
    ⟨_, _, _, traced_start file source⟩

end

theorem moveImports_edits (state : State) (used : List ComponentRule) :
    state.edits <+: (used.foldl moveImport state).edits := by
  induction used generalizing state with
  | nil => exact List.prefix_refl _
  | cons rule used ih => exact (moveImport_edits state rule).trans (ih (moveImport state rule))

/-! ### The edit of a new statement -/

/-- What the edit of a statement says that was put in behind the import `last` of a state's text. -/
structure ReportsInsertion (file source : Text) (state : State) (last : ImportSite)
    (statement : Text) (edit : Edit) (place : Nat) : Prop where
  fresh : edit.before = []
  reported : ReportedAt (state.text.takeBytes last.stop) (state.text.dropBytes last.stop)
    statement place
  line : edit.line = (source.position (state.origin.sourceOffset place)).line
  /-- It is the line on which the import ends exactly if the source has no line feed between. -/
  same_iff : edit.line = state.lineAt last.stop ↔
    source.NoFeedBetween (state.origin.sourceOffset place) (state.origin.sourceOffset last.stop)
  /-- It is a later one if the import is followed by a line feed of the source. -/
  later : Closed (state.text.takeBytes last.stop) →
    (state.text.dropBytes last.stop).head? = some '\n' →
    ∀ texts passes n input, Traced file source texts passes n state →
      Untouched texts passes 0 input n last.stop → state.lineAt last.stop < edit.line

section
variable {state : State} {module name : Text}

/-- A statement of a module that was not imported is looked up in the text that has it. -/
theorem recordImport_fresh {text : Text} {splice : Splice} {found : Text.Found NamedImport}
    (unread : Import.findNamed? state.text module = none)
    (between : Splice.between state.text text = some splice)
    (first : Import.findNamed? text module = some found) :
    (recordImport state module text).edits = state.edits ++
      [⟨state.lineAt (Splice.trace [splice] found.before.size), [], found.item.text⟩] := by
  unfold recordImport
  simp only [between, unread, first]
  simp [lineOf, State.lineAt, Origin.locate, Origin.sourceOffset_push]

theorem ensureImport_reported {last : ImportSite}
    (unread : Import.findNamed? state.text module = none)
    (site : (Import.sites state.text).getLast? = some last) (noBreak : '\n' ∉ module)
    (noBrace : '}' ∉ name) : ∃ edit place,
      (recordImport state module (Import.ensure state.text module name)).edits =
        state.edits ++ [edit] ∧ edit.before = [] ∧ edit.line = state.lineAt place ∧
      ReportedAt (state.text.takeBytes last.stop) (state.text.dropBytes last.stop)
        (Import.single module name last.quote last.semicolon) place := by
  obtain ⟨front, tail, rest, split, stop, semicolon, result⟩ :=
    Import.exists_behind unread site name
  rw [← stop, split, Text.takeBytes_size, Text.dropBytes_size, ← split]
  have changed : state.text ≠ Import.ensure state.text module name := by
    intro same
    have lengths := congrArg List.length (split.symm.trans (same.trans result))
    simp only [List.length_append, List.length_cons] at lengths
    omega
  obtain ⟨splice, between⟩ := Option.ne_none_iff_exists'.1
    (mt Splice.betweenBytes_eq_none_iff.1 (mt Text.bytes_inj.1 changed))
  have delimits := Splice.delimits_of_betweenBytes between
  rw [result, split] at delimits
  by_cases closed : Closed front
  · obtain ⟨statement, found, -⟩ :=
      Import.findNamed?_behind unread split semicolon noBreak noBrace closed
    rw [← result] at found
    exact ⟨_, _, recordImport_fresh unread between found, rfl, rfl,
      Import.reportedAt_behind delimits closed⟩
  · obtain ⟨_, opened⟩ := Import.exists_openAt closed
    obtain ⟨found, _, _, first, least, -⟩ :=
      Import.findNamed?_enclosed unread split semicolon noBreak noBrace opened
    rw [← result] at first
    refine ⟨_, _, recordImport_fresh unread between first, rfl, rfl, ?_⟩
    rw [Import.trace_openAt delimits least.1]
    exact .opened least

/-- The place fixes the line, through whatever passes the text was made. -/
theorem reportsInsertion_of_reportedAt {file source statement : Text} {edit : Edit} {place : Nat}
    {last : ImportSite} (history : HasHistory file source state)
    (member : last ∈ Import.sites state.text) (fresh : edit.before = [])
    (line : edit.line = state.lineAt place)
    (reported : ReportedAt (state.text.takeBytes last.stop) (state.text.dropBytes last.stop)
      statement place) : ReportsInsertion file source state last statement edit place where
  fresh := fresh
  reported := reported
  line := by
    obtain ⟨_, _, _, traced⟩ := history
    rw [line, traced.lineAt]
  same_iff := by
    obtain ⟨_, _, _, traced⟩ := history
    rw [line, traced.lineAt, traced.lineAt, Text.line_eq_iff]
  later := by
    intro closed feed texts passes n input traced untouched
    have cut := Import.size_takeBytes_stop member
    rw [line, reported.eq_of_feed closed feed, cut]
    exact traced.lineAt_lt untouched (Text.getElem?_cut cut feed) (Nat.lt_succ_self _)

end

/-- A statement that is put in behind the last import is reported at the line of the place where it
is looked up, which need not be the line on which that import ends. -/
theorem migrate?_reports_insertion {config : Config} {file source : Text} {state : State}
    {used earlier later : List ComponentRule} {rule : ComponentRule} {move : ImportMove}
    {last : ImportSite}
    (ran : applyRules? config.colors (start file source) config.components = some (state, used))
    (split : used = earlier ++ rule :: later) (moves : rule.imports = some move)
    (noBreak : '\n' ∉ move.target) (noBrace : '}' ∉ rule.newName) :
    let current := removeImport (earlier.foldl moveImport state) rule.name move.source
    let statement := Import.single move.target rule.newName last.quote last.semicolon
    Import.findNamed? current.text move.target = none →
    (Import.sites current.text).getLast? = some last →
    ∃ outcome edit more place, migrate? config file source = some outcome ∧
      outcome.edits = current.edits ++ edit :: more ∧ HasHistory file source current ∧
      ReportsInsertion file source current last statement edit place := by
  intro current statement unread site
  have moved : (rule :: later).foldl moveImport (earlier.foldl moveImport state) =
      later.foldl moveImport (recordImport current move.target
        (Import.ensure current.text move.target rule.newName)) := by
    simp only [List.foldl_cons, moveImport, moves, current]
  obtain ⟨edit, place, edits, fresh, line, reported⟩ :=
    ensureImport_reported unread site noBreak noBrace
  have history : HasHistory file source current :=
    ((hasHistory_of_applyRules? ran).moveImports earlier).removeImport _ _
  obtain ⟨more, added⟩ := moveImports_edits (recordImport current move.target
    (Import.ensure current.text move.target rule.newName)) later
  rw [edits, List.append_assoc, List.singleton_append] at added
  obtain ⟨outcome, migrated, all⟩ : ∃ outcome, migrate? config file source = some outcome ∧
      outcome.edits = (used.foldl moveImport state).edits := by
    rw [migrate?, ran]
    exact ⟨_, rfl, rfl⟩
  refine ⟨outcome, edit, more, place, migrated, ?_, history,
    reportsInsertion_of_reportedAt history (List.mem_of_getLast? site) fresh line reported⟩
  rw [all, split, List.foldl_append, moved, added]

/-- Lines end with a carriage return and a line feed, an import goes, and the new one is reported
at the line on which the import before it ends. -/
theorem migrate?_reports_insertion_return :
    let source := ("import \x7b CButton \x7d from '@coreui/react'\r\n" ++
      "import React from 'react'\r\n<CButton/>\r\n").toList
    ∃ state last outcome edit more place,
      let current := removeImport state "CButton".toList "@coreui/react".toList
      applyRules? Config.builtin.colors (start [] source) Config.builtin.components =
        some (state, [.builtin]) ∧
      Import.findNamed? current.text "@chakra-ui/react".toList = none ∧
      (Import.sites current.text).getLast? = some last ∧
      migrate? .builtin [] source = some outcome ∧ outcome.edits = current.edits ++ edit :: more ∧
      ReportsInsertion [] source current last
        "import \x7b Button \x7d from '@chakra-ui/react'".toList edit place ∧
      current.lineAt last.stop = 2 ∧ edit.line = 2 := by
  intro source
  have run : (applyRules? Config.builtin.colors (start [] source) Config.builtin.components).map
      (fun result =>
        let current := removeImport result.1 "CButton".toList "@coreui/react".toList
        (result.2, (Import.findNamed? current.text "@chakra-ui/react".toList).isNone,
          (Import.sites current.text).getLast?, current.lineAt 25, current.edits.map (·.line))) =
      some ([.builtin], true, some ⟨0, 25, .single, false⟩, 2, [3, 1]) := by decide +kernel
  have lines : (migrate? .builtin [] source).map (·.edits.map (·.line)) = some [3, 1, 2] := by
    decide +kernel
  obtain ⟨⟨state, used⟩, ran, same⟩ := Option.map_eq_some_iff.1 run
  simp only [Prod.mk.injEq, Option.isNone_iff_eq_none] at same
  obtain ⟨rfl, unread, site, line, earlier⟩ := same
  have split : [ComponentRule.builtin] = [] ++ .builtin :: [] := rfl
  obtain ⟨outcome, edit, more, place, migrated, edits, -, reports⟩ :=
    migrate?_reports_insertion ran split rfl (by decide) (by decide) unread site
  refine ⟨state, _, outcome, edit, more, place, ran, unread, site, migrated, edits, reports, line,
    ?_⟩
  rw [migrated, Option.map_some] at lines
  have shown : [3, 1] ++ (edit :: more).map (·.line) = [3, 1, 2] := by
    rw [← earlier, ← List.map_append]
    exact (congrArg (List.map _) edits).symm.trans (Option.some.inj lines)
  have both : edit.line = 2 ∧ more = [] := by simpa using shown
  exact both.1

/-- The import before it ends on the first line, and the new one is reported at the second. -/
theorem migrate?_insertion_reported_later :
    let source := "import React from 'react'\n<CButton/>\n".toList
    ∃ state last outcome edit,
      let current := removeImport state "CButton".toList "@coreui/react".toList
      applyRules? Config.builtin.colors (start [] source) Config.builtin.components =
        some (state, [.builtin]) ∧
      Import.findNamed? current.text "@chakra-ui/react".toList = none ∧
      (Import.sites current.text).getLast? = some last ∧
      migrate? .builtin [] source = some outcome ∧ outcome.edits = current.edits ++ [edit] ∧
      current.lineAt last.stop = 1 ∧ edit.line = 2 := by
  intro source
  have run : (applyRules? Config.builtin.colors (start [] source) Config.builtin.components).map
      (fun result =>
        let current := removeImport result.1 "CButton".toList "@coreui/react".toList
        (result.2, (Import.findNamed? current.text "@chakra-ui/react".toList).isNone,
          (Import.sites current.text).getLast?, current.lineAt 25, current.edits)) =
      some ([.builtin], true, some ⟨0, 25, .single, false⟩, 1,
        [⟨2, "<CButton/>".toList, "<Button/>".toList⟩]) := by decide +kernel
  have edits : (migrate? .builtin [] source).map (·.edits) =
      some [⟨2, "<CButton/>".toList, "<Button/>".toList⟩,
        ⟨2, [], "import \x7b Button \x7d from '@chakra-ui/react'".toList⟩] := by decide +kernel
  obtain ⟨⟨state, used⟩, ran, same⟩ := Option.map_eq_some_iff.1 run
  simp only [Prod.mk.injEq, Option.isNone_iff_eq_none] at same
  obtain ⟨rfl, unread, site, line, earlier⟩ := same
  obtain ⟨outcome, migrated, all⟩ := Option.map_eq_some_iff.1 edits
  have behind : outcome.edits =
      (removeImport state "CButton".toList "@coreui/react".toList).edits ++
        [⟨2, [], "import \x7b Button \x7d from '@chakra-ui/react'".toList⟩] := by
    rw [all, earlier]
    rfl
  exact ⟨state, _, outcome, _, ran, unread, site, migrated, behind, line, rfl⟩

end Migration
end Retag
