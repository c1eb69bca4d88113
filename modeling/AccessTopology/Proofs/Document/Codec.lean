import AccessTopology.Proofs.Document.Listing
import AccessTopology.Spec.Document

namespace AccessTopology

/-!
# Codecs

Members that hold what they default to may be left out of a document.  A layout
says which members these are, at any depth, and a codec pairs the reader of a
type with the way its values are written: what a value is written as reads back
as that value, with any such members left out.
-/

/--
How the values of a type are laid out: as a list of items of one layout, as a
record of named members, or in a way that leaves nothing out.  A member has a
layout of its own, and the value at which it may be left out if there is one.
-/
inductive Layout
  | fixed
  | items (item : Layout)
  | record (members : List (String × Layout × Option Json))

namespace Layout

mutual

/-- A value without some of the members that its layout lets it leave out. -/
inductive Abridges : Layout → Json → Json → Prop
  | whole (layout : Layout) (value : Json) :
      Abridges layout value value
  | items {item : Layout} {values shorter : List Json} :
      AbridgesItems item values shorter →
        Abridges (.items item) (.array values) (.array shorter)
  | record
      {members : List (String × Layout × Option Json)}
      {values shorter : List (String × Json)} :
      AbridgesMembers members values shorter →
        Abridges (.record members) (.object values) (.object shorter)

/-- Each item of a list is abridged on its own. -/
inductive AbridgesItems : Layout → List Json → List Json → Prop
  | nil (item : Layout) :
      AbridgesItems item [] []
  | cons {item : Layout} {value short : Json} {values shorter : List Json} :
      Abridges item value short →
      AbridgesItems item values shorter →
        AbridgesItems item (value :: values) (short :: shorter)

/-- Each member is kept, itself abridged, or is left out where it may be. -/
inductive AbridgesMembers :
    List (String × Layout × Option Json) →
    List (String × Json) →
    List (String × Json) →
    Prop
  | nil (members : List (String × Layout × Option Json)) :
      AbridgesMembers members [] []
  | kept
      {members : List (String × Layout × Option Json)}
      {name : String}
      {layout : Layout}
      {default? : Option Json}
      {value short : Json}
      {values shorter : List (String × Json)} :
      members.lookup name = some (layout, default?) →
      Abridges layout value short →
      AbridgesMembers members values shorter →
        AbridgesMembers members ((name, value) :: values)
          ((name, short) :: shorter)
  | leftOut
      {members : List (String × Layout × Option Json)}
      {name : String}
      {layout : Layout}
      {value : Json}
      {values shorter : List (String × Json)} :
      members.lookup name = some (layout, some value) →
      AbridgesMembers members values shorter →
        AbridgesMembers members ((name, value) :: values) shorter

end

theorem Abridges.eq_of_fixed
    {value shorter : Json}
    (abridges : fixed.Abridges value shorter) :
    shorter = value := by
  cases abridges
  rfl

theorem Abridges.eq_null
    {layout : Layout}
    {shorter : Json}
    (abridges : layout.Abridges .null shorter) :
    shorter = .null := by
  cases abridges
  rfl

/-- Nothing is abridged to null but null. -/
theorem Abridges.ne_null
    {layout : Layout}
    {value shorter : Json}
    (abridges : layout.Abridges value shorter)
    (present : value ≠ .null) :
    shorter ≠ .null := by
  cases abridges with
  | whole =>
      exact present
  | items | record =>
      nofun

theorem AbridgesItems.refl
    (item : Layout)
    (values : List Json) :
    AbridgesItems item values values := by
  induction values with
  | nil =>
      exact .nil item
  | cons value values inductionHypothesis =>
      exact .cons (.whole item value) inductionHypothesis

/-- A list is abridged item by item. -/
theorem Abridges.exists_items
    {item : Layout}
    {values : List Json}
    {shorter : Json}
    (abridges : (Layout.items item).Abridges (.array values) shorter) :
    ∃ shorterItems,
      shorter = .array shorterItems ∧
        AbridgesItems item values shorterItems := by
  cases abridges with
  | whole =>
      exact ⟨values, rfl, .refl item values⟩
  | items abridgesItems =>
      exact ⟨_, rfl, abridgesItems⟩

/-- A record is abridged member by member. -/
theorem Abridges.exists_members
    {members : List (String × Layout × Option Json)}
    {values : List (String × Json)}
    {shorter : Json}
    (known :
      ∀ value ∈ values, ∃ entry, members.lookup value.1 = some entry)
    (abridges : (Layout.record members).Abridges (.object values) shorter) :
    ∃ shorterMembers,
      shorter = .object shorterMembers ∧
        AbridgesMembers members values shorterMembers := by
  cases abridges with
  | whole =>
      refine ⟨values, rfl, ?_⟩
      induction values with
      | nil =>
          exact .nil members
      | cons value values inductionHypothesis =>
          obtain ⟨⟨entry, found⟩, restKnown⟩ :=
            List.forall_mem_cons.mp known
          exact .kept found (.whole _ _) (inductionHypothesis restKnown)
  | record abridgesMembers =>
      exact ⟨_, rfl, abridgesMembers⟩

end Layout

/--
How values of a type are read and written.  A value that the codec keeps reads
back from what it is written as, whatever its layout lets that leave out.
-/
structure Codec (α : Type) where
  reader : Reader α
  write : α → Json
  layout : Layout
  Keeps : α → Prop
  reads :
    ∀ {value},
      Keeps value →
        ∀ {shorter},
          layout.Abridges (write value) shorter →
            reader.Reads shorter value

namespace Codec

/-- A codec whose documents leave nothing out. -/
def plain
    (reader : Reader α)
    (write : α → Json)
    (Keeps : α → Prop)
    (reads : ∀ value, Keeps value → reader.Reads (write value) value) :
    Codec α where
  reader := reader
  write := write
  layout := .fixed
  Keeps := Keeps
  reads := by
    intro value keeps shorter abridges
    rw [abridges.eq_of_fixed]
    exact reads value keeps

/-- Texts. -/
def text : Codec String :=
  plain .string .string (fun _ => True) (fun value _ => .string value)

/-- Truth values. -/
def flag : Codec Bool :=
  plain .bool .bool (fun _ => True) (fun value _ => .bool value)

/-- Counts. -/
def count : Codec Nat :=
  plain .count .ofNat (fun _ => True) (fun value _ => .count value)

/--
Arbitrary values.  Those are kept that list the members of every object by
increasing name, as all do that were read.
-/
def any : Codec Json :=
  plain .any id Json.KeysIncrease (fun _ increase => .any increase)

/-- Cases, which are written as their names. -/
def named
    (cases : List (String × α))
    (name : α → String)
    (found : ∀ value, cases.lookup (name value) = some value) :
    Codec α :=
  plain (.cases cases) (fun value => .string (name value)) (fun _ => True)
    (fun value _ => .cases (found value))

/-- Values that may be null, where no value is written so. -/
def option (codec : Codec α) : Codec (Option α) where
  reader := .option codec.reader
  write := .ofOption codec.write
  layout := codec.layout
  Keeps value? :=
    ∀ value ∈ value?, codec.Keeps value ∧ codec.write value ≠ .null
  reads := by
    intro value? keeps shorter abridges
    cases value? with
    | none =>
        rw [abridges.eq_null]
        exact .none codec.reader
    | some value =>
        obtain ⟨keepsValue, present⟩ := keeps value rfl
        exact .some (abridges.ne_null present)
          (codec.reads keepsValue abridges)

/-- Texts that may be null. -/
def text? : Codec (Option String) where
  reader := .option .string
  write := .ofString?
  layout := .fixed
  Keeps _ := True
  reads := by
    intro text? _ shorter abridges
    rw [abridges.eq_of_fixed]
    cases text? with
    | none =>
        exact .none .string
    | some text =>
        exact .some nofun (.string text)

/-- Lists. -/
def list (codec : Codec α) : Codec (List α) where
  reader := .list codec.reader
  write := .ofList codec.write
  layout := .items codec.layout
  Keeps values := ∀ value ∈ values, codec.Keeps value
  reads := by
    intro values keeps shorter abridges
    obtain ⟨items, rfl, abridgesItems⟩ := abridges.exists_items
    refine .list ?_
    clear abridges
    induction values generalizing items with
    | nil =>
        cases abridgesItems
        exact .nil
    | cons value values inductionHypothesis =>
        obtain ⟨keepsValue, keepsRest⟩ := List.forall_mem_cons.mp keeps
        cases abridgesItems with
        | cons abridgesValue abridgesRest =>
            exact .cons (codec.reads keepsValue abridgesValue)
              (inductionHypothesis keepsRest _ abridgesRest)

/-- Lists of texts. -/
def texts : Codec (List String) :=
  plain (.list .string) .ofStrings (fun _ => True)
    (fun _ _ => text.list.reads (fun _ _ => trivial) (.whole _ _))

/-- Lists of arbitrary values. -/
def values : Codec (List Json) :=
  plain (.list .any) .array (fun items => ∀ item ∈ items, item.KeysIncrease)
    (fun items increase => by
      have reads := any.list.reads increase (.whole _ _)
      simpa [list, any, plain, Json.ofList] using reads)

/-- Maps, whose entries are all written in full. -/
def keyMap (codec : Codec α) : Codec (KeyMap α) :=
  plain (.map codec.reader) (.ofKeyMap codec.write)
    (fun map => ∀ entry ∈ map.entries, codec.Keeps entry.2)
    (fun _ keeps =>
      .keyMap (fun entry listed =>
        codec.reads (keeps entry listed) (.whole _ _)))

@[simp] theorem keeps_text (value : String) :
    text.Keeps value :=
  trivial

@[simp] theorem keeps_flag (value : Bool) :
    flag.Keeps value :=
  trivial

@[simp] theorem keeps_count (value : Nat) :
    count.Keeps value :=
  trivial

@[simp] theorem keeps_any (value : Json) :
    any.Keeps value ↔ value.KeysIncrease :=
  .rfl

@[simp] theorem write_text (value : String) :
    text.write value = .string value :=
  rfl

@[simp] theorem write_any (value : Json) :
    any.write value = value :=
  rfl

@[simp] theorem keeps_named
    {cases : List (String × α)}
    {name : α → String}
    {found : ∀ value, cases.lookup (name value) = some value}
    (value : α) :
    (named cases name found).Keeps value :=
  trivial

@[simp] theorem keeps_text? (text? : Option String) :
    Codec.text?.Keeps text? :=
  trivial

@[simp] theorem keeps_option
    (codec : Codec α)
    (value? : Option α) :
    codec.option.Keeps value? ↔
      ∀ value ∈ value?, codec.Keeps value ∧ codec.write value ≠ .null :=
  .rfl

theorem keeps_none (codec : Codec α) :
    codec.option.Keeps none :=
  nofun

theorem keeps_nil (codec : Codec α) :
    codec.list.Keeps [] :=
  nofun

@[simp] theorem keeps_list
    (codec : Codec α)
    (values : List α) :
    codec.list.Keeps values ↔ ∀ value ∈ values, codec.Keeps value :=
  .rfl

@[simp] theorem keeps_texts (values : List String) :
    texts.Keeps values :=
  trivial

@[simp] theorem write_texts (values : List String) :
    texts.write values ≠ .null :=
  nofun

@[simp] theorem keeps_values (items : List Json) :
    values.Keeps items ↔ ∀ item ∈ items, item.KeysIncrease :=
  .rfl

theorem keeps_no_values : values.Keeps [] :=
  nofun

@[simp] theorem keeps_keyMap
    (codec : Codec α)
    (map : KeyMap α) :
    codec.keyMap.Keeps map ↔
      ∀ entry ∈ map.entries, codec.Keeps entry.2 :=
  .rfl

end Codec

end AccessTopology
