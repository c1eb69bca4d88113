import AccessTopology.Proofs.Document.Record
import AccessTopology.Validation.Report

namespace AccessTopology

/-!
# Validation reports read back

Every report reads back from what it is written as, its violations in order.
-/

namespace Violation

/-- Columns of violations. -/
def columns : List (Column Violation) :=
  [.kept .required "rule" .text Violation.rule
      (fun violation value => { violation with rule := value }),
    .kept .required "severity"
      (.named (Severity.all.map (fun severity => (severity.name, severity)))
        Severity.name (fun severity => by cases severity <;> decide))
      Violation.severity
      (fun violation value => { violation with severity := value }),
    .kept .required "message" .text Violation.message
      (fun violation value => { violation with message := value }),
    .kept .optional "subject" .text? Violation.subject
      (fun violation value => { violation with subject := value }),
    .kept .required "remediation" .texts Violation.remediation
      (fun violation value => { violation with remediation := value })]

/-- The table of violations. -/
def table : Table Violation where
  initial :=
    { rule := "", severity := .error, message := "", subject := none,
      remediation := [] }
  columns := columns
  starts := by
    simp [columns]
  distinct := by
    decide
  commute := by
    simp [columns, Column.Commute]
  rebuilt := by
    simp [columns, Column.putAll]

/-- Violations. -/
def codec : Codec Violation where
  reader := reader
  write := toJson
  layout := table.layout
  Keeps _ := True
  reads := by
    intro violation _ shorter abridges
    apply table.reads _ abridges
    simp [Table.Keeps, table, columns]

@[simp] theorem keeps_codec (violation : Violation) :
    codec.Keeps violation :=
  trivial

end Violation

namespace Report

/-- Columns of reports. -/
def columns : List (Column Report) :=
  [.kept .required "valid" .flag Report.valid
      (fun report value => { report with valid := value }),
    .kept .required "violations" Violation.codec.list Report.violations
      (fun report value => { report with violations := value })]

/-- The table of reports. -/
def table : Table Report where
  initial := ⟨true, []⟩
  columns := columns
  starts := by
    simp [columns]
  distinct := by
    decide
  commute := by
    simp [columns, Column.Commute]
  rebuilt := by
    simp [columns, Column.putAll]

/-- Reports. -/
def codec : Codec Report where
  reader := reader
  write := toJson
  layout := table.layout
  Keeps _ := True
  reads := by
    intro report _ shorter abridges
    apply table.reads _ abridges
    simp [Table.Keeps, table, columns]

end Report

end AccessTopology
