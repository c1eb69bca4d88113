import AccessTopology.Draft.Basic
import AccessTopology.RenderError

namespace AccessTopology

/-!
# The ledger of drafts

A ledger lists what was drafted in order, each draft with the declaration it
came from. A key may be drafted again only by the same draft, which adds
nothing.
-/

/-- A draft and the declaration it came from. -/
structure LedgerEntry where
  draft : Draft
  source : String

/-- Drafts in the order in which they were made. -/
structure Ledger where
  entries : List LedgerEntry

/-- What a stage does next: draft a resource, or fail. -/
inductive Step
  | draft (draft : Draft) (source : String)
  | fault (error : RenderError)

namespace Ledger

/-- The ledger without drafts. -/
def empty : Ledger :=
  ⟨[]⟩

/-- The drafts, in order. -/
def drafts (ledger : Ledger) : List Draft :=
  ledger.entries.map LedgerEntry.draft

/-- The keys of the drafts, in order. -/
def keys (ledger : Ledger) : List LogicalKey :=
  ledger.drafts.map Draft.key

/-- Number of drafts. -/
def size (ledger : Ledger) : Nat :=
  ledger.entries.length

/-- The entry that holds a key. -/
def find?
    (ledger : Ledger)
    (key : LogicalKey) :
    Option LedgerEntry :=
  ledger.entries.find? (·.draft.key = key)

/-- Whether a key was drafted. -/
def contains
    (ledger : Ledger)
    (key : LogicalKey) :
    Bool :=
  (ledger.find? key).isSome

/--
Enter a draft. The answer tells whether it is new; a key that holds another
draft is an error that names both declarations.
-/
def push
    (ledger : Ledger)
    (draft : Draft)
    (source : String) :
    Except RenderError (Bool × Ledger) :=
  match ledger.find? draft.key with
  | none => .ok (true, ⟨ledger.entries ++ [⟨draft, source⟩]⟩)
  | some entry =>
      if entry.draft.same draft then .ok (false, ledger)
      else
        .error (.configuration (.keyConflict entry.source source draft.key))

/-- Take steps up to the first that fails; what was entered before stays. -/
def run : Ledger → List Step → Ledger × Option RenderError
  | ledger, [] => (ledger, none)
  | ledger, .fault error :: _ => (ledger, some error)
  | ledger, .draft draft source :: steps =>
      match ledger.push draft source with
      | .ok (_, ledger) => run ledger steps
      | .error error => (ledger, some error)

/-- The first draft that points at a key without a draft, and the first such key. -/
def dangling? (ledger : Ledger) : Option (LogicalKey × LogicalKey) :=
  ledger.drafts.findSome?
    (fun draft =>
      (draft.targets.find? (fun target => !ledger.contains target)).map
        (fun target => (draft.key, target)))

end Ledger

end AccessTopology
