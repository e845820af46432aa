import Mathlib.Logic.Relation
import Retag.Command.Run
import Retag.Proofs.FileTree

/-! The files of a run in any order. Each file is read and, if it has to be, written, and these steps
may come in any order between different files; a file without a report ends the run, and others may
be left where they are. While no two paths lead to the same file, a file that is read is as it was at
the start. So every order ends with the same reports, or without any, and if there are reports, with
the same files. However a run splits its files, it follows one of these orders. -/
namespace Retag

def FileReport.newText? (report : FileReport) : Option Text :=
  report.outcome?.bind fun outcome => if outcome.changed then some outcome.text else none

namespace Command
open FileTree (Node)

/-- What is reported of a file, by what reading it gave. -/
def reportOf (dir : Text) (config : Config) (path : Text) :
    Except ReadError Text → Option FileReport
  | .error error => some ⟨Path.label dir path, .error (.read path error.message)⟩
  | .ok source =>
    (Migration.migrate? config (Path.label dir path) source).map (⟨Path.label dir path, .ok ·⟩)

def reportOn (command : Command) (config : Config) (system : FileSystem) (path : Text) :
    Option FileReport :=
  reportOf command.dir config path (system.read path)

/-- The reports on files, if there is one on each. -/
def reportsOn (command : Command) (config : Config) (files : List Text) (system : FileSystem) :
    Option (List FileReport) :=
  files.mapM (command.reportOn config system)

def written? (command : Command) (report : FileReport) : Option Text :=
  if command.writes then report.newText? else none

inductive Stage where
  | waiting
  /-- The file was read, and its new text is not written yet. -/
  | writing (report : FileReport) (text : Text)
  | done (report : FileReport)
  /-- There is no report. -/
  | broken

structure Job where
  path : Text
  stage : Stage

/-- A run on its way, with its files in the order in which they were given. -/
structure Pool where
  system : FileSystem
  jobs : List Job

def Pool.start (system : FileSystem) (files : List Text) : Pool :=
  ⟨system, files.map (⟨·, .waiting⟩)⟩

/-- A run may end here: with reports when all files are done, and without when one of them broke. -/
def Ends (jobs : List Job) : Option (List FileReport) → Prop
  | some reports => jobs.map Job.stage = reports.map .done
  | none => ∃ job ∈ jobs, job.stage = .broken

def afterReading (command : Command) : Option FileReport → Stage
  | none => .broken
  | some report =>
    match command.written? report with
    | some text => .writing report text
    | none => .done report

/-- One file is read or written. -/
inductive Step (command : Command) (config : Config) : Pool → Pool → Prop where
  | read {system : FileSystem} {before after : List Job} {path : Text} :
      Step command config ⟨system, before ++ ⟨path, .waiting⟩ :: after⟩
        ⟨system, before ++ ⟨path, command.afterReading (command.reportOn config system path)⟩ ::
          after⟩
  | write {system : FileSystem} {before after : List Job} {path text : Text} {report : FileReport} :
      Step command config ⟨system, before ++ ⟨path, .writing report text⟩ :: after⟩
        ⟨system.write path text, before ++ ⟨path, .done report⟩ :: after⟩

abbrev Schedule (command : Command) (config : Config) : Pool → Pool → Prop :=
  Relation.ReflTransGen (Step command config)

/-- No two of the paths lead to the same place. -/
def Distinct (system : FileSystem) (files : List Text) : Prop :=
  (files.filterMap system.place?).Nodup

section
variable {command : Command} {config : Config} {first : FileSystem} {files : List Text}

theorem reportsOn_eq_some_iff {reports : List FileReport} :
    command.reportsOn config files first = some reports ↔
      files.map (command.reportOn config first) = reports.map some := by
  unfold reportsOn
  induction files generalizing reports with
  | nil => cases reports <;> simp
  | cons path files ih =>
    rw [List.mapM_cons, List.map_cons]
    cases command.reportOn config first path with
    | none => cases reports <;> simp
    | some report =>
      cases reports with
      | nil => cases files.mapM (command.reportOn config first) <;> simp
      | cons other reports =>
        have rest := @ih reports
        cases others : files.mapM (command.reportOn config first) <;> simp_all

theorem reportsOn_eq_none_iff :
    command.reportsOn config files first = none ↔
      ∃ path ∈ files, command.reportOn config first path = none := by
  unfold reportsOn
  induction files with
  | nil => simp
  | cons path files ih =>
    rw [List.mapM_cons]
    cases reported : command.reportOn config first path with
    | none => simp [reported]
    | some report => cases others : files.mapM (command.reportOn config first) <;> simp_all

@[simp] theorem written?_error (command : Command) (label : Text) (error : FileError) :
    command.written? ⟨label, .error error⟩ = none := by
  simp [written?, FileReport.newText?, FileReport.outcome?, Except.toOption]

@[simp] theorem written?_ok (command : Command) (label : Text) (outcome : Migration.Outcome) :
    command.written? ⟨label, .ok outcome⟩ =
      if outcome.changed && command.writes then some outcome.text else none := by
  unfold written? FileReport.newText?
  cases command.writes with
  | false => simp
  | true => simp [FileReport.outcome?, Except.toOption]

theorem written?_eq_none (reads : command.writes = false) (report : FileReport) :
    command.written? report = none := by
  rw [written?, reads]
  rfl

/-- A report says that a file changed if it could be read and its migration has another text. -/
theorem reportOf_changed {dir path : Text} {content : Except ReadError Text} {report : FileReport}
    (reported : reportOf dir config path content = some report) (changed : report.changed = true) :
    ∃ source outcome, content = .ok source ∧
      Migration.migrate? config (Path.label dir path) source = some outcome ∧
      outcome.changed = true ∧ report = ⟨Path.label dir path, .ok outcome⟩ := by
  cases content with
  | error error =>
    obtain rfl := Option.some.inj reported
    cases changed
  | ok source =>
    obtain ⟨outcome, migrated, rfl⟩ := Option.map_eq_some_iff.1 reported
    refine ⟨source, outcome, rfl, migrated, ?_, rfl⟩
    simpa [FileReport.changed, FileReport.outcome?, Except.toOption] using changed

theorem written?_eq_some_iff {report : FileReport} {text : Text} :
    command.written? report = some text ↔
      command.writes = true ∧ report.changed = true ∧
        ∃ outcome, report.result = .ok outcome ∧ outcome.text = text := by
  obtain ⟨label, result⟩ := report
  cases result with
  | error error => simp
  | ok outcome =>
    simp [FileReport.changed, FileReport.outcome?, Except.toOption, and_left_comm, and_comm, and_assoc]

/-- Only a file that could be read is written. -/
theorem readable_of_written? {path text : Text} {report : FileReport}
    (reported : command.reportOn config first path = some report)
    (written : command.written? report = some text) : ∃ source, first.read path = .ok source := by
  obtain ⟨-, changed, -⟩ := written?_eq_some_iff.1 written
  obtain ⟨source, -, readable, -⟩ := reportOf_changed reported changed
  exact ⟨source, readable⟩

def Job.written? (command : Command) (job : Job) : Option Text :=
  match job.stage with
  | .done report => command.written? report
  | _ => none

/-- The job was not misled: it found its file as it was at the start. -/
def Job.OnCourse (command : Command) (config : Config) (first : FileSystem) (job : Job) : Prop :=
  match job.stage with
  | .waiting => True
  | .writing report text =>
    command.reportOn config first job.path = some report ∧ command.written? report = some text
  | .done report => command.reportOn config first job.path = some report
  | .broken => command.reportOn config first job.path = none

/-- What the jobs have put at a place. -/
def overwritten (command : Command) (first : FileSystem) (jobs : List Job) (names : List Text) :
    Option Node :=
  jobs.findSome? fun job =>
    if first.place? job.path = some names then
      (job.written? command).map fun text => .file (some text)
    else none

/-- A run that started from `first` is on its way: all is as it was, but for what the jobs that are
done have written. -/
structure Invariant (command : Command) (config : Config) (first : FileSystem) (files : List Text)
    (pool : Pool) : Prop where
  paths : pool.jobs.map Job.path = files
  onCourse : ∀ job ∈ pool.jobs, job.OnCourse command config first
  workDir : pool.system.workDir = first.workDir
  nodes : ∀ names, pool.system.node? names =
    (overwritten command first pool.jobs names).or (first.node? names)

theorem invariant_start (command : Command) (config : Config) (first : FileSystem)
    (files : List Text) : Invariant command config first files (.start first files) where
  paths := by simp [Pool.start, Function.comp_def]
  onCourse := by
    intro job member
    obtain ⟨path, -, rfl⟩ := List.mem_map.1 member
    trivial
  workDir := rfl
  nodes := by
    intro names
    have none : overwritten command first (Pool.start first files).jobs names = none := by
      apply List.findSome?_eq_none_iff.2
      intro job member
      obtain ⟨path, -, rfl⟩ := List.mem_map.1 member
      simp [Job.written?]
    rw [none]
    rfl

section
variable {before after : List Job} {job : Job} {names : List Text}

theorem overwritten_elsewhere (elsewhere : first.place? job.path ≠ some names) :
    overwritten command first (before ++ job :: after) names =
      overwritten command first (before ++ after) names := by
  simp [overwritten, List.findSome?_append, elsewhere]

/-- Only one job writes to a place. -/
theorem overwritten_here (distinct : Distinct first ((before ++ job :: after).map Job.path))
    (here : first.place? job.path = some names) :
    overwritten command first (before ++ job :: after) names =
      (job.written? command).map fun text => .file (some text) := by
  rw [Distinct, List.Nodup, List.pairwise_filterMap, List.map_append, List.map_cons,
    List.pairwise_append, List.pairwise_cons] at distinct
  obtain ⟨-, ⟨behind, -⟩, ahead⟩ := distinct
  have noneBefore : overwritten command first before names = none := by
    apply List.findSome?_eq_none_iff.2
    intro other member
    apply if_neg
    intro same
    exact ahead other.path (List.mem_map_of_mem member) job.path List.mem_cons_self names same names
      here rfl
  have noneAfter : overwritten command first after names = none := by
    apply List.findSome?_eq_none_iff.2
    intro other member
    apply if_neg
    intro same
    exact behind other.path (List.mem_map_of_mem member) names here names same rfl
  rw [overwritten] at noneBefore noneAfter
  rw [overwritten, List.findSome?_append, List.findSome?_cons, noneBefore, noneAfter, if_pos here]
  cases job.written? command <;> rfl

end

theorem Job.OnCourse.reported {job : Job} {report : FileReport}
    (onCourse : job.OnCourse command config first) (done : job.stage = .done report) :
    command.reportOn config first job.path = some report := by
  rw [Job.OnCourse, done] at onCourse
  exact onCourse

/-- What a job has written is what the report on its file as it was asks for. -/
theorem Job.OnCourse.of_written? {job : Job} {text : Text}
    (onCourse : job.OnCourse command config first) (written : job.written? command = some text) :
    ∃ report, command.reportOn config first job.path = some report ∧
      command.written? report = some text := by
  unfold Job.written? at written
  split at written
  · rename_i report done
    exact ⟨report, onCourse.reported done, written⟩
  · cases written

variable {pool next : Pool}

/-- What is not as it was, was written by a job. -/
theorem Invariant.of_overwritten {names : List Text} {new : Node}
    (invariant : Invariant command config first files pool)
    (found : overwritten command first pool.jobs names = some new) :
    ∃ path ∈ files, ∃ report text, first.place? path = some names ∧
      command.reportOn config first path = some report ∧
      command.written? report = some text ∧ new = .file (some text) := by
  obtain ⟨job, member, put⟩ := List.exists_of_findSome?_eq_some found
  split at put
  · rename_i here
    obtain ⟨text, written, rfl⟩ := Option.map_eq_some_iff.1 put
    obtain ⟨report, reported, planned⟩ := (invariant.onCourse job member).of_written? written
    refine ⟨job.path, ?_, report, text, here, reported, planned, rfl⟩
    rw [← invariant.paths]
    exact List.mem_map_of_mem member
  · cases put

/-- Only files that could be read are written, so none becomes a directory or the other way round. -/
theorem Invariant.sameShape (invariant : Invariant command config first files pool) :
    first.SameShape pool.system where
  workDir := invariant.workDir.symm
  tree := by
    intro names
    have nodes := invariant.nodes names
    unfold FileSystem.node? at nodes
    rw [nodes]
    cases found : overwritten command first pool.jobs names with
    | none => rfl
    | some new =>
      obtain ⟨path, -, report, text, here, reported, written, rfl⟩ := invariant.of_overwritten found
      obtain ⟨source, readable⟩ := readable_of_written? reported written
      obtain ⟨place, leads, held⟩ := FileSystem.read_eq_ok_iff.1 readable
      obtain rfl := Option.some.inj (here.symm.trans leads)
      rw [FileSystem.node?] at held
      rw [held]
      rfl

section
variable {before after : List Job} {job : Job}
variable (invariant : Invariant command config first files pool)
  (jobs : pool.jobs = before ++ job :: after)
include invariant jobs

/-- A file that is still to be written is as it was at the start. -/
theorem Invariant.read_eq (distinct : Distinct first files)
    (unwritten : job.written? command = none) :
    pool.system.read job.path = first.read job.path := by
  rw [FileSystem.read_eq, FileSystem.read_eq, ← invariant.sameShape.resolve]
  cases leads : first.resolve job.path with
  | error error => rfl
  | ok names =>
    have here : first.place? job.path = some names := by rw [FileSystem.place?, leads]; rfl
    have paths := invariant.paths
    rw [jobs] at paths
    have held : pool.system.node? names = first.node? names := by
      rw [invariant.nodes, jobs, overwritten_here (paths ▸ distinct) here, unwritten]
      rfl
    simp only [Except.bind, held]

/-- One job may go on, if the files follow. -/
theorem Invariant.advance {system : FileSystem} {stage : Stage}
    (onCourse : Job.OnCourse command config first ⟨job.path, stage⟩)
    (workDir : system.workDir = pool.system.workDir)
    (nodes : ∀ names, system.node? names = (overwritten command first
      (before ++ ⟨job.path, stage⟩ :: after) names).or (first.node? names)) :
    Invariant command config first files ⟨system, before ++ ⟨job.path, stage⟩ :: after⟩ where
  paths := by
    rw [← invariant.paths, jobs]
    simp
  onCourse := by
    intro other member
    rcases List.mem_append.1 member with early | late
    · exact invariant.onCourse other (by simp [jobs, early])
    · rcases List.mem_cons.1 late with rfl | behind
      · exact onCourse
      · exact invariant.onCourse other (by simp [jobs, behind])
  workDir := workDir.trans invariant.workDir
  nodes := nodes

end

theorem onCourse_afterReading (command : Command) (config : Config) (first : FileSystem)
    (path : Text) :
    Job.OnCourse command config first
      ⟨path, command.afterReading (command.reportOn config first path)⟩ := by
  unfold afterReading
  split
  · assumption
  · rename_i report reported
    split
    · rename_i text written
      exact ⟨reported, written⟩
    · exact reported

/-- What was read may be written later, but nothing is written yet. -/
theorem written?_afterReading (command : Command) (path : Text) (report : Option FileReport) :
    Job.written? command ⟨path, command.afterReading report⟩ = none := by
  unfold afterReading
  split
  · rfl
  · split
    · rfl
    · assumption

theorem Invariant.step (invariant : Invariant command config first files pool)
    (distinct : Distinct first files) (step : Step command config pool next) :
    Invariant command config first files next := by
  cases step with
  | @read system before after path =>
    have same : command.reportOn config system path = command.reportOn config first path :=
      congrArg (reportOf command.dir config path) (invariant.read_eq rfl distinct rfl)
    rw [same]
    apply invariant.advance rfl (onCourse_afterReading command config first path) rfl
    intro names
    rw [invariant.nodes]
    simp only [overwritten, List.findSome?_append, List.findSome?_cons, written?_afterReading]
    rfl
  | @write system before after path text report =>
    obtain ⟨reported, written⟩ : command.reportOn config first path = some report ∧
        command.written? report = some text :=
      invariant.onCourse ⟨path, .writing report text⟩ (by simp)
    obtain ⟨source, readable⟩ := readable_of_written? reported written
    have same := invariant.read_eq rfl distinct rfl
    have place : system.place? path = first.place? path := by
      rw [FileSystem.place?, FileSystem.place?, ← invariant.sameShape.resolve]
    apply invariant.advance rfl
    · exact reported
    · exact FileSystem.workDir_write system path text
    · intro names
      rw [FileSystem.node?_write (same.trans readable), place]
      by_cases here : first.place? path = some names
      · have paths : (before ++ ⟨path, .done report⟩ :: after).map Job.path = files := by
          rw [← invariant.paths]
          simp
        have put : Job.written? command ⟨path, .done report⟩ = some text := written
        rw [if_pos here, overwritten_here (paths ▸ distinct) here, put]
        rfl
      · rw [if_neg here, invariant.nodes, overwritten_elsewhere here, overwritten_elsewhere here]

theorem Invariant.schedule (invariant : Invariant command config first files pool)
    (distinct : Distinct first files) (schedule : Schedule command config pool next) :
    Invariant command config first files next := by
  induction schedule with
  | refl => exact invariant
  | tail _ step ih => exact ih.step distinct step

/-- A run that does not write leaves everything as it is. -/
theorem Invariant.step_reads (invariant : Invariant command config first files pool)
    (reads : command.writes = false) (step : Step command config pool next) :
    next.system = pool.system := by
  cases step with
  | read => rfl
  | @write system before after path text report =>
    obtain ⟨-, written⟩ : command.reportOn config first path = some report ∧
        command.written? report = some text :=
      invariant.onCourse ⟨path, .writing report text⟩ (by simp)
    rw [written?_eq_none reads] at written
    cases written

theorem Invariant.schedule_reads (invariant : Invariant command config first files pool)
    (distinct : Distinct first files) (reads : command.writes = false)
    (schedule : Schedule command config pool next) : next.system = pool.system := by
  induction schedule with
  | refl => rfl
  | tail before step ih =>
    exact ((invariant.schedule distinct before).step_reads reads step).trans ih

/-- A run ends with the reports on the files as they were at the start, or without, if there is none
on one of them. -/
theorem Invariant.reports_eq {reports : Option (List FileReport)}
    (invariant : Invariant command config first files pool) (ends : Ends pool.jobs reports) :
    reports = command.reportsOn config files first := by
  have onCourse := invariant.onCourse
  rw [← invariant.paths]
  generalize pool.jobs = jobs at onCourse ends
  symm
  cases reports with
  | none =>
    obtain ⟨job, member, broken⟩ := ends
    have unreported := onCourse job member
    rw [Job.OnCourse, broken] at unreported
    exact reportsOn_eq_none_iff.2 ⟨job.path, List.mem_map_of_mem member, unreported⟩
  | some reports =>
    rw [reportsOn_eq_some_iff, List.map_map]
    unfold Ends at ends
    induction jobs generalizing reports with
    | nil =>
      cases reports with
      | nil => rfl
      | cons report reports => cases ends
    | cons job jobs ih =>
      cases reports with
      | nil => cases ends
      | cons report reports =>
        obtain ⟨done, rest⟩ := List.cons.inj ends
        rw [List.map_cons, List.map_cons,
          ih (fun job member => onCourse job (List.mem_cons_of_mem _ member)) reports rest]
        exact congrArg (· :: reports.map some) ((onCourse job List.mem_cons_self).reported done)

/-- A file holds what its report says once all are done. -/
theorem Invariant.node_of_path {reports : List FileReport} {path : Text} {names : List Text}
    (invariant : Invariant command config first files pool) (distinct : Distinct first files)
    (ends : Ends pool.jobs (some reports)) (member : path ∈ files)
    (here : first.place? path = some names) :
    pool.system.node? names =
      (((command.reportOn config first path).bind command.written?).map fun text =>
        Node.file (some text)).or (first.node? names) := by
  rw [← invariant.paths] at member distinct
  obtain ⟨job, among, rfl⟩ := List.mem_map.1 member
  obtain ⟨before, after, jobs⟩ := List.append_of_mem among
  obtain ⟨report, -, done⟩ := List.mem_map.1 (ends ▸ List.mem_map_of_mem among)
  have reported := (invariant.onCourse job among).reported done.symm
  rw [invariant.nodes, jobs, overwritten_here (jobs ▸ distinct) here, Job.written?, ← done, reported,
    Option.bind_some]

theorem Invariant.node_elsewhere {names : List Text}
    (invariant : Invariant command config first files pool)
    (elsewhere : ∀ path ∈ files, first.place? path ≠ some names) :
    pool.system.node? names = first.node? names := by
  rw [invariant.nodes]
  cases found : overwritten command first pool.jobs names with
  | none => rfl
  | some new =>
    obtain ⟨path, member, -, -, here, -⟩ := invariant.of_overwritten found
    exact absurd here (elsewhere path member)

/-- All orders with reports end with the same files. -/
theorem Invariant.nodes_unique {other : Pool} {reports reports' : List FileReport}
    (invariant : Invariant command config first files pool)
    (invariant' : Invariant command config first files other) (distinct : Distinct first files)
    (ends : Ends pool.jobs (some reports)) (ends' : Ends other.jobs (some reports'))
    (names : List Text) : pool.system.node? names = other.system.node? names := by
  by_cases somewhere : ∃ path ∈ files, first.place? path = some names
  · obtain ⟨path, member, here⟩ := somewhere
    rw [invariant.node_of_path distinct ends member here,
      invariant'.node_of_path distinct ends' member here]
  · have elsewhere : ∀ path ∈ files, first.place? path ≠ some names := by
      intro path member here
      exact somewhere ⟨path, member, here⟩
    rw [invariant.node_elsewhere elsewhere, invariant'.node_elsewhere elsewhere]

end

section
variable (command : Command) (config : Config)

/-- What processing a file returns, and what it does. -/
theorem processFile_run (path : Text) (system : FileSystem) :
    (processFile command config path : StateM FileSystem (Option FileReport)).run system =
      (command.reportOn config system path,
        match (command.reportOn config system path).bind command.written? with
        | some text => system.write path text
        | none => system) := by
  have reads (next : Except ReadError Text → StateM FileSystem (Option FileReport)) :
      (Files.read path >>= next).run system = (next (system.read path)).run system := rfl
  have writes (text : Text) (next : Option Text → StateM FileSystem (Option FileReport)) :
      (Files.write path text >>= next).run system = (next none).run (system.write path text) := rfl
  rw [processFile, reads, reportOn]
  cases system.read path with
  | error error =>
    rw [reportOf, Option.bind_some, written?_error]
    rfl
  | ok source =>
    dsimp only
    rw [reportOf]
    cases Migration.migrate? config (Path.label command.dir path) source with
    | none => rfl
    | some outcome =>
      dsimp only
      rw [Option.map_some, Option.bind_some, written?_ok]
      split
      · rw [writes]
        rfl
      · rfl

theorem processFile_schedule (path : Text) (system : FileSystem) (before after : List Job) :
    Schedule command config ⟨system, before ++ ⟨path, .waiting⟩ :: after⟩
      ⟨((processFile command config path : StateM FileSystem (Option FileReport)).run system).2,
        before ++ ⟨path, (command.reportOn config system path).elim .broken .done⟩ :: after⟩ := by
  have reading : Step command config ⟨system, before ++ ⟨path, .waiting⟩ :: after⟩
      ⟨system, before ++
        ⟨path, command.afterReading (command.reportOn config system path)⟩ :: after⟩ := .read
  rw [processFile_run]
  cases reported : command.reportOn config system path with
  | none =>
    rw [reported] at reading
    exact .single reading
  | some report =>
    rw [reported, afterReading] at reading
    rw [Option.bind_some]
    cases written : command.written? report with
    | none =>
      rw [written] at reading
      exact .single reading
    | some text =>
      rw [written] at reading
      exact .tail (.single reading) .write

theorem Ends.append {front back : List Job} {reports others : Option (List FileReport)}
    (ends : Ends front reports) (ends' : Ends back others) :
    Ends (front ++ back) (reports.bind fun reports => others.map (reports ++ ·)) := by
  cases reports with
  | none =>
    obtain ⟨job, member, broken⟩ := ends
    exact ⟨job, List.mem_append_left back member, broken⟩
  | some reports =>
    cases others with
    | none =>
      obtain ⟨job, member, broken⟩ := ends'
      exact ⟨job, List.mem_append_right front member, broken⟩
    | some others =>
      unfold Ends at *
      simp [ends, ends']

theorem run_bind {α β : Type} (task : StateM FileSystem α) (next : α → StateM FileSystem β)
    (system : FileSystem) :
    (task >>= next).run system = (next (task.run system).1).run (task.run system).2 := rfl

theorem processPart_schedule (files : List Text) (system : FileSystem) (before after : List Job) :
    ∃ jobs, Schedule command config ⟨system, before ++ (files.map (⟨·, .waiting⟩) ++ after)⟩
        ⟨((processPart command config files : StateM FileSystem _).run system).2,
          before ++ (jobs ++ after)⟩ ∧
      Ends jobs ((processPart command config files : StateM FileSystem _).run system).1 := by
  induction files generalizing system before with
  | nil => exact ⟨[], .refl, rfl⟩
  | cons path files ih =>
    have one := processFile_schedule command config path system before
      (files.map (⟨·, .waiting⟩) ++ after)
    rw [processPart, run_bind, processFile_run]
    rw [processFile_run] at one
    generalize command.reportOn config system path = reported at one
    cases reported with
    | none => exact ⟨_ :: files.map (⟨·, .waiting⟩), one, _, List.mem_cons_self, rfl⟩
    | some report =>
      obtain ⟨jobs, others, ends⟩ := ih _ (before ++ [⟨path, .done report⟩])
      rw [List.append_assoc, List.append_assoc] at others
      have here : Ends [⟨path, .done report⟩] (some [report]) := rfl
      exact ⟨_ :: jobs, one.trans others, here.append ends⟩

/-- However a run splits its files, it follows a schedule. -/
theorem processFiles_schedule (split : Split) (files : List Text) (system : FileSystem)
    (before after : List Job) :
    ∃ jobs, Schedule command config ⟨system, before ++ (files.map (⟨·, .waiting⟩) ++ after)⟩
        ⟨((processFiles command config split files : StateM FileSystem _).run system).2,
          before ++ (jobs ++ after)⟩ ∧
      Ends jobs ((processFiles command config split files : StateM FileSystem _).run system).1 := by
  induction split generalizing files system before after with
  | part => exact processPart_schedule command config files system before after
  | halves front back ihFront ihBack =>
    obtain ⟨jobs, one, ends⟩ := ihFront (files.take (files.length / 2)) system before
      ((files.drop (files.length / 2)).map (⟨·, .waiting⟩) ++ after)
    obtain ⟨jobs', other, ends'⟩ := ihBack (files.drop (files.length / 2))
      ((processFiles command config front (files.take (files.length / 2)) :
        StateM FileSystem _).run system).2 (before ++ jobs) after
    rw [List.append_assoc, List.append_assoc] at other
    rw [← List.append_assoc (List.map _ _), ← List.map_append, List.take_append_drop] at one
    refine ⟨jobs ++ jobs', ?_, ends.append ends'⟩
    rw [List.append_assoc]
    exact one.trans other

end
end Command
end Retag
