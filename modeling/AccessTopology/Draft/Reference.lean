import AccessTopology.Identity.LogicalKey
import AccessTopology.Spec.Document

namespace AccessTopology

/-!
# References between resources

A field whose value is not known when a resource is drafted either names
another draft of the pass and the identifier wanted from it, or is given by the
caller.
-/

/-- Where the value of a field comes from. -/
inductive Reference
  | draft (key : LogicalKey) (field : String)
  | external (value : String)
  deriving Repr, DecidableEq

/-- Read a key: any text is one. -/
def LogicalKey.reader : Reader LogicalKey :=
  fun form node => (Reader.string form node).map LogicalKey.mk

namespace Reference

/-- The key of the draft that a reference points at. -/
def draftKey? : Reference → Option LogicalKey
  | draft key _ => some key
  | external _ => none

/-- Read a reference to a draft. -/
def draftReader : Reader Reference :=
  fun form node =>
    (Reader.record
      [.required "key" LogicalKey.reader
          (fun (_, field) value => (value, field)),
        .required "field" .string (fun (key, _) value => (key, value))]
      (LogicalKey.mk "", "") form node).map
      (fun (key, field) => draft key field)

/-- Read a reference to a given value. -/
def externalReader : Reader Reference :=
  .record
    [.required "value" .string (fun _ value => external value)]
    (external "")

/-- Read a reference. -/
def reader : Reader Reference :=
  .tagged "from" [("draft", draftReader), ("external", externalReader)]

/-- A reference as a document. -/
def toJson : Reference → Json
  | draft key field =>
      .object
        [("from", .string "draft"), ("key", .string key.text),
          ("field", .string field)]
  | external value =>
      .object [("from", .string "external"), ("value", .string value)]

end Reference

end AccessTopology
