import AccessTopology.Spec.Document

namespace AccessTopology

/-!
# Validation reports

What the rules say about a topology. Errors make it invalid, warnings do not.
-/

/-- How grave a violation is. -/
inductive Severity
  | error
  | warning
  deriving Repr, DecidableEq

/-- One thing that a rule says about a topology. -/
structure Violation where
  rule : String
  severity : Severity
  message : String
  subject : Option String
  remediation : List String
  deriving Repr, DecidableEq

/-- Everything that the rules say about a topology. -/
structure Report where
  valid : Bool
  violations : List Violation
  deriving Repr, DecidableEq

namespace Severity

/-- Every severity, in the order of declaration. -/
def all : List Severity :=
  [error, warning]

/-- The name of a severity. -/
def name : Severity → String
  | error => "error"
  | warning => "warning"

end Severity

namespace Report

/-- The violations that make a topology invalid. -/
def errors (report : Report) : List Violation :=
  report.violations.filter (·.severity = .error)

/-- The violations that do not. -/
def warnings (report : Report) : List Violation :=
  report.violations.filter (·.severity = .warning)

/-- Whether some violation makes the topology invalid. -/
def hasErrors (report : Report) : Bool :=
  report.violations.any (·.severity = .error)

/-- The report of some violations. -/
def ofViolations (violations : List Violation) : Report :=
  { valid := !violations.any (·.severity = .error)
    violations := violations }

end Report

namespace Violation

/-- Fields of a violation. -/
def fields : List (Field Violation) :=
  [.required "rule" .string
      (fun violation value => { violation with rule := value }),
    .required "severity"
      (.cases (Severity.all.map (fun severity => (severity.name, severity))))
      (fun violation value => { violation with severity := value }),
    .required "message" .string
      (fun violation value => { violation with message := value }),
    .optional "subject" (.option .string)
      (fun violation value => { violation with subject := value }),
    .required "remediation" (.list .string)
      (fun violation value => { violation with remediation := value })]

/-- Read a violation. -/
def reader : Reader Violation :=
  .record fields
    { rule := "", severity := .error, message := "", subject := none,
      remediation := [] }

/-- A violation as a document. -/
def toJson (violation : Violation) : Json :=
  .object
    [("rule", .string violation.rule),
      ("severity", .string violation.severity.name),
      ("message", .string violation.message),
      ("subject", .ofString? violation.subject),
      ("remediation", .ofStrings violation.remediation)]

end Violation

namespace Report

/-- Fields of a report. -/
def fields : List (Field Report) :=
  [.required "valid" .bool
      (fun report value => { report with valid := value }),
    .required "violations" (.list Violation.reader)
      (fun report value => { report with violations := value })]

/-- Read a report. -/
def reader : Reader Report :=
  .record fields ⟨true, []⟩

/-- A report as a document. -/
def toJson (report : Report) : Json :=
  .object
    [("valid", .bool report.valid),
      ("violations", .ofList Violation.toJson report.violations)]

end Report

end AccessTopology
