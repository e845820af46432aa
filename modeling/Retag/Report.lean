import Retag.Migration
import Retag.Text.Lines

/-! What is printed about a run. -/
namespace Retag

/-- Why a file was not migrated. -/
inductive FileError where
  | read (path message : Text)
  | write (path message : Text)
deriving DecidableEq

def FileError.message : FileError → Text
  | .read path message => "failed to read ".toList ++ path ++ ": ".toList ++ message
  | .write path message => "failed to write ".toList ++ path ++ ": ".toList ++ message

/-- What happened to a file. -/
structure FileReport where
  label : Text
  result : Except FileError Migration.Outcome

namespace FileReport

def outcome? (report : FileReport) : Option Migration.Outcome := report.result.toOption

def changed (report : FileReport) : Bool := report.outcome?.any (·.changed)

def failed (report : FileReport) : Bool := report.outcome?.isNone

def issues (report : FileReport) : List Issue := (report.outcome?.map (·.issues)).getD []

end FileReport

structure Summary where
  scanned : Nat
  changed : Nat
  failed : Nat
  issues : Nat
deriving DecidableEq

def Summary.ofReports (reports : List FileReport) : Summary where
  scanned := reports.length
  changed := reports.countP (·.changed)
  failed := reports.countP (·.failed)
  issues := (reports.flatMap (·.issues)).length

namespace Report

/-- How a report says that files changed: they did if the changes were written. -/
def verb (applied : Bool) : Text := if applied then "changed".toList else "would change".toList

/-- A count and a noun, which takes an `s` unless the count is one. -/
def counted (count : Nat) (noun : Text) : Text :=
  Text.ofNat count ++ ' ' :: noun ++ if count = 1 then [] else ['s']

def endLine (line : Text) : Text := line ++ ['\n']

def preview (label : Text) (edit : Edit) : Text :=
  endLine ("--- ".toList ++ label ++ ':' :: Text.ofNat edit.line) ++
    (Text.lines edit.before).flatMap (fun line => endLine ('-' :: ' ' :: line)) ++
    (Text.lines edit.after).flatMap (fun line => endLine ('+' :: ' ' :: line))

def fileText (applied previews : Bool) (report : FileReport) : Text :=
  match report.result with
  | .error error => endLine ("error: ".toList ++ error.message)
  | .ok outcome =>
    if outcome.changed then
      endLine (verb applied ++ ": ".toList ++ report.label ++ " (".toList ++
          counted outcome.occurrences "occurrence".toList ++ [')']) ++
        if previews then outcome.edits.flatMap (preview report.label) else []
    else []

def summaryText (applied : Bool) (summary : Summary) : Text :=
  endLine (counted summary.scanned "file".toList ++ " scanned, ".toList ++
    Text.ofNat summary.changed ++ ' ' :: verb applied ++ ", ".toList ++
    Text.ofNat summary.failed ++ " failed".toList)

/-- The report of a run: the files in order, the counts, and all issues. -/
def render (applied previews : Bool) (reports : List FileReport) : Text :=
  reports.flatMap (fileText applied previews) ++
    summaryText applied (Summary.ofReports reports) ++
    reports.flatMap fun report => report.issues.flatMap fun issue => endLine issue.render

end Report
end Retag
