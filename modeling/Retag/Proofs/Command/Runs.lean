import Retag.Proofs.Command.Schedule
import Retag.Proofs.Migration.Step

/-! What the runs of a command do to files. Checking and previewing leave them as they are; a
migration writes exactly the files that they report, in whatever order it takes them. A run that ends
without reports may leave files where they are, but none that is neither as it was nor migrated. -/
namespace Retag

theorem Migration.changed_eq {config : Config} {file source : Text} {outcome : Outcome}
    (migrated : migrate? config file source = some outcome) :
    outcome.changed = (outcome.text != source) := by
  obtain ⟨⟨state, used⟩, -, same⟩ := Option.bind_eq_some_iff.1 migrated
  obtain rfl := Option.some.inj same
  rfl

namespace Command

/-- Runs the command, with another action. -/
def runOn (command : Command) (split : Split) (action : Action) (system : FileSystem) :
    RunResult × FileSystem :=
  (({ command with action } : Command).run split : StateM FileSystem RunResult).run system

def configOn (command : Command) (system : FileSystem) : Option Config :=
  ((command.loadConfig : StateM FileSystem (Option Config)).run system).1

def filesOn (command : Command) (config : Config) (system : FileSystem) : List Text :=
  ((command.selectFiles config.walk : StateM FileSystem (List Text)).run system).1

def pendingOn (command : Command) (config : Config) (system : FileSystem) (path : Text) : Bool :=
  (command.reportOn config system path).any (·.changed)

/-- The path leads to a file that held another text at first and holds that of its migration at
last. -/
def Migrated (command : Command) (config : Config) (first last : FileSystem) (path : Text)
    (names : List Text) : Prop :=
  ∃ source outcome, first.place? path = some names ∧
    first.node? names = some (.file (some source)) ∧
    Migration.migrate? config (Path.label command.dir path) source = some outcome ∧
    command.reportOn config first path = some ⟨Path.label command.dir path, .ok outcome⟩ ∧
    outcome.text ≠ source ∧ last.node? names = some (.file (some outcome.text))

section
variable {command : Command} {config : Config} {files : List Text} {system : FileSystem}

theorem loadConfig_run (command : Command) (system : FileSystem) :
    (command.loadConfig : StateM FileSystem (Option Config)).run system =
      (command.configOn system, system) := by
  unfold configOn loadConfig
  cases command.config with
  | some path => rfl
  | none =>
    have looks (path : Text) (next : Option FileTree → StateM FileSystem (Option Config)) :
        (Files.tree? path >>= next).run system = (next (system.at? path).toOption).run system := rfl
    dsimp only
    rw [looks]
    split <;> rfl

theorem selectFiles_run (command : Command) (config : Config) (system : FileSystem) :
    (command.selectFiles config.walk : StateM FileSystem (List Text)).run system =
      (command.filesOn config system, system) := by
  unfold filesOn selectFiles
  split <;> rfl

/-- A run reads the configuration, selects the files and processes them. -/
theorem runOn_eq (loaded : command.configOn system = some config)
    (selected : command.filesOn config system = files) (split : Split) (action : Action) :
    command.runOn split action system =
      ((processFiles { command with action } config split files : StateM FileSystem _).run
        system).map ({ command with action } : Command).result id := by
  have load : ({ command with action } : Command).configOn system = some config := loaded
  have select : ({ command with action } : Command).filesOn config system = files := selected
  rw [runOn, run, run_bind, loadConfig_run, load]
  dsimp only
  rw [run_bind, selectFiles_run, select]
  rfl

/-- A run ends as one of its schedules does, with the reports on the files as they were. -/
theorem runOn_schedule (loaded : command.configOn system = some config)
    (selected : command.filesOn config system = files) (distinct : Distinct system files)
    (split : Split) (action : Action) :
    ∃ pool, Schedule { command with action } config (.start system files) pool ∧
      Ends pool.jobs (command.reportsOn config files system) ∧
      command.runOn split action system = (({ command with action } : Command).result
        (command.reportsOn config files system), pool.system) := by
  obtain ⟨jobs, schedule, ends⟩ :=
    processFiles_schedule { command with action } config split files system [] []
  rw [List.nil_append, List.nil_append, List.append_nil, List.append_nil] at schedule
  have invariant := (invariant_start { command with action } config system files).schedule distinct
    schedule
  have reports := invariant.reports_eq ends
  refine ⟨_, schedule, reports ▸ ends, ?_⟩
  rw [runOn_eq loaded selected]
  exact Prod.ext (congrArg ({ command with action } : Command).result reports) rfl

theorem mem_reports_iff {reports : List FileReport} {report : FileReport}
    (reported : command.reportsOn config files system = some reports) :
    report ∈ reports ↔ ∃ path ∈ files, command.reportOn config system path = some report := by
  rw [← List.mem_map_of_injective (Option.some_injective _), ← reportsOn_eq_some_iff.1 reported,
    List.mem_map]

theorem pendingOn_eq_true_iff {path : Text} :
    command.pendingOn config system path = true ↔
      ∃ report, command.reportOn config system path = some report ∧ report.changed = true :=
  Option.any_eq_true _ _

section
variable {last : FileSystem} {path : Text} {names : List Text}
  (migrated : Migrated command config system last path names)
include migrated

theorem Migrated.place : system.place? path = some names := by
  obtain ⟨_, _, here, -⟩ := migrated
  exact here

theorem Migrated.pending : command.pendingOn config system path = true := by
  obtain ⟨source, outcome, -, -, found, reported, differs, -⟩ := migrated
  rw [pendingOn, reported]
  simpa [FileReport.changed, FileReport.outcome?, Except.toOption,
    Migration.changed_eq found] using differs

theorem Migrated.differs : last.node? names ≠ system.node? names := by
  obtain ⟨source, outcome, -, held, -, -, differs, new⟩ := migrated
  rw [held, new]
  intro same
  cases same
  exact differs rfl

end

theorem migrated_of_written? {last : FileSystem} {path text : Text} {names : List Text}
    {report : FileReport} (reported : command.reportOn config system path = some report)
    (written : command.written? report = some text) (here : system.place? path = some names)
    (new : last.node? names = some (.file (some text))) :
    Migrated command config system last path names := by
  obtain ⟨-, changed, outcome, result, rfl⟩ := written?_eq_some_iff.1 written
  obtain ⟨source, outcome', readable, migrated, differs, rfl⟩ := reportOf_changed reported changed
  obtain rfl := Except.ok.inj result
  obtain ⟨names', here', held⟩ := FileSystem.read_eq_ok_iff.1 readable
  obtain rfl := Option.some.inj (here.symm.trans here')
  rw [Migration.changed_eq migrated] at differs
  exact ⟨source, outcome', here, held, migrated, reported, bne_iff_ne.1 differs, new⟩

section
variable {pool : Pool} (invariant : Invariant command config system files pool)
include invariant

/-- At any time, what is at a place is as it was or the migration of a file. -/
theorem Invariant.node_or_migrated (names : List Text) :
    pool.system.node? names = system.node? names ∨
      ∃ path ∈ files, Migrated command config system pool.system path names := by
  have nodes := invariant.nodes names
  cases found : overwritten command system pool.jobs names with
  | none =>
    rw [found] at nodes
    exact .inl nodes
  | some new =>
    obtain ⟨path, member, report, text, here, reported, written, rfl⟩ :=
      invariant.of_overwritten found
    rw [found] at nodes
    exact .inr ⟨path, member, migrated_of_written? reported written here nodes⟩

theorem Invariant.node_kept {names : List Text}
    (same : ∀ path ∈ files, system.place? path = some names →
      command.pendingOn config system path = false) :
    pool.system.node? names = system.node? names := by
  rcases invariant.node_or_migrated names with kept | ⟨path, member, migrated⟩
  · exact kept
  · have pending := migrated.pending
    rw [same path member migrated.place] at pending
    cases pending

variable {reports : List FileReport} (distinct : Distinct system files)
  (ends : Ends pool.jobs (some reports))
include distinct ends

/-- At the end of a run that writes, every pending file is migrated. -/
theorem Invariant.migrated {path : Text} (writes : command.writes = true) (member : path ∈ files)
    (pending : command.pendingOn config system path = true) :
    ∃ names, Migrated command config system pool.system path names := by
  obtain ⟨report, reported, changed⟩ := pendingOn_eq_true_iff.1 pending
  obtain ⟨source, outcome, readable, -, -, rfl⟩ := reportOf_changed reported changed
  obtain ⟨names, here, -⟩ := FileSystem.read_eq_ok_iff.1 readable
  have written := written?_eq_some_iff.2 ⟨writes, changed, outcome, rfl, rfl⟩
  refine ⟨names, migrated_of_written? reported written here ?_⟩
  rw [invariant.node_of_path distinct ends member here, reported, Option.bind_some, written]
  rfl

theorem Invariant.node_unchanged {path : Text} {names : List Text} (member : path ∈ files)
    (here : system.place? path = some names)
    (same : command.pendingOn config system path = false) :
    pool.system.node? names = system.node? names := by
  rw [invariant.node_of_path distinct ends member here]
  cases found : (command.reportOn config system path).bind command.written? with
  | none => rfl
  | some text =>
    obtain ⟨report, reported, written⟩ := Option.bind_eq_some_iff.1 found
    obtain ⟨-, changed, -⟩ := written?_eq_some_iff.1 written
    rw [pendingOn_eq_true_iff.2 ⟨report, reported, changed⟩] at same
    cases same

/-- A file is pending exactly if a run changes it. -/
theorem Invariant.pending_iff {path : Text} (writes : command.writes = true)
    (member : path ∈ files) :
    command.pendingOn config system path = true ↔
      ∃ names, system.place? path = some names ∧
        pool.system.node? names ≠ system.node? names := by
  constructor
  · intro pending
    obtain ⟨names, migrated⟩ := invariant.migrated distinct ends writes member pending
    exact ⟨names, migrated.place, migrated.differs⟩
  · rintro ⟨names, here, differs⟩
    apply Bool.of_not_eq_false
    intro same
    exact differs (invariant.node_unchanged distinct ends member here same)

/-- All stays as it is if and only if no report says that a file changed. -/
theorem Invariant.same_iff (writes : command.writes = true) :
    (∀ names, pool.system.node? names = system.node? names) ↔
      ∀ report ∈ reports, report.changed = false := by
  have reported := (invariant.reports_eq ends).symm
  constructor
  · intro same report among
    obtain ⟨path, member, found⟩ := (mem_reports_iff reported).1 among
    apply Bool.of_not_eq_true
    intro changed
    obtain ⟨names, -, differs⟩ := (invariant.pending_iff distinct ends writes member).1
      (pendingOn_eq_true_iff.2 ⟨report, found, changed⟩)
    exact differs (same names)
  · intro unchanged names
    rcases invariant.node_or_migrated names with same | ⟨path, member, migrated⟩
    · exact same
    · obtain ⟨report, found, changed⟩ := pendingOn_eq_true_iff.1 migrated.pending
      rw [unchanged report ((mem_reports_iff reported).2 ⟨path, member, found⟩)] at changed
      cases changed

end

/-- A run succeeds if it has reports, no file fails and, for a check, none is pending. -/
theorem exitCode_eq_zero_iff (command : Command) (reports : Option (List FileReport)) :
    (command.result reports).exitCode = 0 ↔
      ∃ list, reports = some list ∧ (∀ report ∈ list, report.failed = false) ∧
        (command.action = .check → ∀ report ∈ list, report.changed = false) := by
  cases reports with
  | none => simp [result]
  | some list =>
    have code : (command.result (some list)).exitCode = 0 ↔
        command.fails (Summary.ofReports list) = false := by
      dsimp only [result]
      cases command.fails (Summary.ofReports list) <;> simp
    rw [code, fails, Bool.or_eq_false_iff, Bool.and_eq_false_imp]
    simp [Summary.ofReports]

theorem writes_migrate (command : Command) :
    ({ command with action := .migrate false } : Command).writes = true := by
  simp [writes]

/-- A check succeeds if a migration does and changes nothing. -/
theorem exits_iff {pool : Pool}
    (invariant : Invariant { command with action := .migrate false } config system files pool)
    (distinct : Distinct system files)
    (ended : Ends pool.jobs (command.reportsOn config files system)) :
    (({ command with action := .check } : Command).result
        (command.reportsOn config files system)).exitCode = 0 ↔
      (({ command with action := .migrate false } : Command).result
        (command.reportsOn config files system)).exitCode = 0 ∧
        ∀ names, pool.system.node? names = system.node? names := by
  rw [exitCode_eq_zero_iff, exitCode_eq_zero_iff]
  constructor
  · rintro ⟨reports, reported, succeeded, unchanged⟩
    rw [reported] at ended
    exact ⟨⟨reports, reported, succeeded, nofun⟩,
      (invariant.same_iff distinct ended (writes_migrate command)).2 (unchanged rfl)⟩
  · rintro ⟨⟨reports, reported, succeeded, -⟩, same⟩
    rw [reported] at ended
    exact ⟨reports, reported, succeeded,
      fun _ => (invariant.same_iff distinct ended (writes_migrate command)).1 same⟩

end

/-- What the runs of a command have to do with each other if there are reports. A migration leaves
`last`. -/
structure Completes (command : Command) (config : Config) (split : Split) (files : List Text)
    (system last : FileSystem) : Prop where
  /-- Whatever is done, it can be done in any order. -/
  anyOrder : ∀ action pool reports,
    Schedule { command with action } config (.start system files) pool →
    Ends pool.jobs (some reports) →
      ∀ names, pool.system.node? names = (command.runOn split action system).2.node? names
  migrated : ∀ path ∈ files, command.pendingOn config system path = true →
    ∃ names, Migrated command config system last path names
  /-- The pending files are those that are written. -/
  pending : ∀ path ∈ files, command.pendingOn config system path = true ↔
    ∃ names, system.place? path = some names ∧ last.node? names ≠ system.node? names

/-- What the runs of a command on files have to do with each other. A migration leaves `last`. -/
structure RunsAgree (command : Command) (config : Config) (split : Split) (files : List Text)
    (system last : FileSystem) : Prop where
  /-- Checking and previewing report on the files and leave everything as it is. -/
  checks : ∀ other, command.runOn other .check system =
    (({ command with action := .check } : Command).result
      (command.reportsOn config files system), system)
  previews : ∀ other, command.runOn other (.migrate true) system =
    (({ command with action := .migrate true } : Command).result
      (command.reportsOn config files system), system)
  migrates : command.runOn split (.migrate false) system =
    (({ command with action := .migrate false } : Command).result
      (command.reportsOn config files system), last)
  /-- Whatever is done, every order that ends has these reports, or none if there are none. -/
  reports : ∀ action,
    (∃ pool, Schedule { command with action } config (.start system files) pool ∧
      Ends pool.jobs (command.reportsOn config files system) ∧
      pool.system = (command.runOn split action system).2) ∧
    ∀ pool reports, Schedule { command with action } config (.start system files) pool →
      Ends pool.jobs reports → reports = command.reportsOn config files system
  /-- At any time, a place is as it was or has the migration of a file. -/
  steps : ∀ action pool, Schedule { command with action } config (.start system files) pool →
    (action ≠ .migrate false → pool.system = system) ∧
    ∀ names, pool.system.node? names = system.node? names ∨
      ∃ path ∈ files, Migrated command config system pool.system path names
  /-- Everything else stays, files that cannot be read among it. -/
  kept : ∀ names, (∀ path ∈ files, system.place? path = some names →
    command.pendingOn config system path = false) → last.node? names = system.node? names
  exits : ∀ other, (command.runOn other .check system).1.exitCode = 0 ↔
    (command.runOn split (.migrate false) system).1.exitCode = 0 ∧
      ∀ names, last.node? names = system.node? names
  /-- There are reports if the names of the rules can stand in tags. -/
  named : (∀ rule ∈ config.components, rule.Named) →
    (command.reportsOn config files system).isSome
  completes : (command.reportsOn config files system).isSome →
    Completes command config split files system last

theorem reportsOn_isSome {command : Command} {config : Config} (files : List Text)
    (system : FileSystem) (named : ∀ rule ∈ config.components, rule.Named) :
    (command.reportsOn config files system).isSome := by
  rw [Option.isSome_iff_ne_none]
  intro unreported
  obtain ⟨path, -, none⟩ := reportsOn_eq_none_iff.1 unreported
  rw [reportOn] at none
  cases content : system.read path with
  | error error =>
    rw [content] at none
    cases none
  | ok source =>
    obtain ⟨outcome, migrated⟩ :=
      Migration.migrate?_exists (Path.label command.dir path) source named
    rw [content, reportOf, migrated] at none
    cases none

/-- Where a configuration can be read and no two of the selected files are the same, all runs agree,
whatever the files are. -/
theorem runs_agree (command : Command) (split : Split) (system : FileSystem) {config : Config}
    {files : List Text} (loaded : command.configOn system = some config)
    (selected : command.filesOn config system = files) (distinct : Distinct system files) :
    RunsAgree command config split files system
      (command.runOn split (.migrate false) system).2 := by
  have ends := runOn_schedule loaded selected distinct
  have invariants (action : Action) {pool : Pool}
      (schedule : Schedule { command with action } config (.start system files) pool) :
      Invariant { command with action } config system files pool :=
    (invariant_start _ config system files).schedule distinct schedule
  have reads (action : Action) (other : action ≠ .migrate false) {pool : Pool}
      (schedule : Schedule { command with action } config (.start system files) pool) :
      pool.system = system :=
    (invariant_start _ config system files).schedule_reads distinct (by simpa [writes] using other)
      schedule
  have leaves (action : Action) (other : action ≠ .migrate false) (split : Split) :
      command.runOn split action system = (({ command with action } : Command).result
        (command.reportsOn config files system), system) := by
    obtain ⟨pool, schedule, -, ran⟩ := ends split action
    rw [ran, reads action other schedule]
  obtain ⟨pool, schedule, ended, ran⟩ := ends split (.migrate false)
  have writes := writes_migrate command
  have invariant := invariants (.migrate false) schedule
  have checked := leaves .check nofun
  rw [ran]
  exact {
    checks := checked
    previews := leaves (.migrate true) (by simp)
    migrates := ran
    reports := by
      intro action
      obtain ⟨pool, schedule, ended, ran⟩ := ends split action
      refine ⟨⟨pool, schedule, ended, by rw [ran]⟩, ?_⟩
      intro other reports schedule' ended'
      exact (invariants action schedule').reports_eq ended'
    steps := by
      intro action pool schedule
      exact ⟨fun other => reads action other schedule, (invariants action schedule).node_or_migrated⟩
    kept := fun names => invariant.node_kept
    exits := by
      intro other
      rw [checked, ran]
      exact exits_iff invariant distinct ended
    named := reportsOn_isSome files system
    completes := by
      intro complete
      obtain ⟨reports, reported⟩ := Option.isSome_iff_exists.1 complete
      rw [reported] at ended
      exact {
        anyOrder := by
          intro action other reports' schedule' ended'
          obtain ⟨pool, schedule, ended, ran⟩ := ends split action
          rw [reported] at ended
          rw [ran]
          exact (invariants action schedule').nodes_unique (invariants action schedule) distinct
            ended' ended
        migrated := fun path => invariant.migrated distinct ended writes
        pending := fun path => invariant.pending_iff distinct ended writes } }

/-- A file that changes, one that is no text, one that stays, and one that is missing, named twice.
Their paths start in the working directory, at the root and above the working directory. -/
theorem runs_agree_mixed :
    let system : FileSystem := ⟨.directory [("home".toList, .directory
      [("a.jsx".toList, .file (some "<CButton>é</CButton>".toList)), ("b.jsx".toList, .file none),
        ("c.jsx".toList, .file (some "<p/>".toList))])], ["home".toList]⟩
    let files := ["a.jsx", "/home/./b.jsx", "../home/c.jsx", "d.jsx", "d.jsx"].map String.toList
    let command : Command := ⟨.check, "/home".toList, none, false, files⟩
    command.configOn system = some .builtin ∧ command.filesOn .builtin system = files ∧
      Distinct system files ∧
      (command.reportsOn .builtin files system).map
          (·.map fun report => (report.label, report.changed, report.failed)) =
        some [("a.jsx".toList, true, false), ("b.jsx".toList, false, true),
          ("../home/c.jsx".toList, false, false), ("d.jsx".toList, false, true),
          ("d.jsx".toList, false, true)] ∧
      RunsAgree command .builtin (.halves .part .part) files system
        (command.runOn (.halves .part .part) (.migrate false) system).2 := by
  intro system files command
  have loaded : command.configOn system = some .builtin := by decide +kernel
  have selected : command.filesOn .builtin system = files := rfl
  have distinct : Distinct system files := by
    unfold Distinct
    decide +kernel
  exact ⟨loaded, selected, distinct, by decide +kernel,
    runs_agree command (.halves .part .part) system loaded selected distinct⟩

/-- Without reports, the files that a migration leaves depend on how it split them. -/
example :
    let config : Config := { Config.builtin with components :=
      [⟨['/'], ['F'], false, [], none⟩, ⟨['A'], ['B'], false, [], none⟩] }
    let system : FileSystem := ⟨.directory [(['a'], .file (some "</ ></ ><//>".toList)),
      (['b'], .file (some "<A/>".toList))], []⟩
    let run (split : Split) := (processFiles ⟨.migrate false, ['.'], none, false, []⟩ config split
      [['a'], ['b']] : StateM FileSystem (Option (List FileReport))).run system
    (run .part).1.isNone ∧ (run .part).2.read ['b'] = .ok "<A/>".toList ∧
      (run (.halves .part .part)).1.isNone ∧
      (run (.halves .part .part)).2.read ['b'] = .ok "<B/>".toList := by
  decide +kernel

end Command
end Retag
