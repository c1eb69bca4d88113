import AccessTopology.Proofs.Document.Codec
import Mathlib.Data.List.Pairwise

namespace AccessTopology

/-!
# Records read back

A table lists the members of a type's records: the field that reads each member,
how it is written and when it may be left out.  Fields change different parts of
a record, so the order in which members are listed does not matter, and those
left out have their default in the record that reading starts from.
-/

/-- What a field makes of a value is a change of the record, however it is listed. -/
structure Field.Takes
    (field : Field σ)
    (value : Json)
    (change : σ → σ) :
    Prop where
  distinct :
    value.NamesDistinct
  read :
    ∀ form listing,
      value.SameValue listing →
        listing.NamesDistinct →
          ∀ record,
            field.read form (.ofJson listing) record = .ok (change record)

/-- A field takes what its reader reads, and sets it. -/
theorem Field.takes_make
    {reader : Reader α}
    {value : Json}
    {result : α}
    (reads : reader.Reads value result)
    (presence : Presence)
    (name : String)
    (set : σ → α → σ) :
    (Field.make presence name reader set).Takes value
      (fun record => set record result) where
  distinct := reads.distinct
  read := by
    intro form listing same distinct record
    simp only [make, reads.read form listing same distinct]
    rfl

/--
A member of the records of a type.  Where reading starts from a fitting record,
a member that is not written, or that may be left out for what it holds, is not
needed to read a record back.
-/
structure Column (σ : Type) where
  field : Field σ
  layout : Layout
  default? : Option Json
  written : σ → Option Json
  put : σ → σ → σ
  Keeps : σ → Prop
  Starts : σ → Prop
  takes :
    ∀ {record},
      Keeps record →
        ∀ {value},
          written record = some value →
            ∀ {shorter},
              layout.Abridges value shorter →
                field.Takes shorter (put record)
  unneeded :
    ∀ {initial record},
      Starts initial →
        Keeps record →
          (written record = none ∨
              ∃ value, written record = some value ∧ default? = some value) →
            field.presence ≠ .required ∧ put record initial = initial

namespace Column

variable {σ : Type}

/-- A member that is always written and never left out. -/
def kept
    (presence : Presence)
    (name : String)
    (codec : Codec α)
    (get : σ → α)
    (set : σ → α → σ) :
    Column σ where
  field := .make presence name codec.reader set
  layout := codec.layout
  default? := none
  written record := some (codec.write (get record))
  put record target := set target (get record)
  Keeps record := codec.Keeps (get record)
  Starts _ := True
  takes := by
    rintro record keeps value ⟨rfl⟩ shorter abridges
    exact Field.takes_make (codec.reads keeps abridges) presence name set
  unneeded := by
    rintro initial record _ keeps (notWritten | ⟨value, _, noDefault⟩)
    · cases notWritten
    · cases noDefault

/-- A member that may be left out where it holds a default. -/
def defaulted
    (default : α)
    (name : String)
    (codec : Codec α)
    (get : σ → α)
    (set : σ → α → σ)
    (keepsDefault : codec.Keeps default) :
    Column σ where
  field := .make .defaulted name codec.reader set
  layout := codec.layout
  default? := some (codec.write default)
  written record := some (codec.write (get record))
  put record target := set target (get record)
  Keeps record := codec.Keeps (get record)
  Starts initial := set initial default = initial
  takes := by
    rintro record keeps value ⟨rfl⟩ shorter abridges
    exact Field.takes_make (codec.reads keeps abridges) .defaulted name set
  unneeded := by
    rintro initial record unchanged keeps (notWritten | ⟨value, isWritten, isDefault⟩)
    · cases notWritten
    · have sameWritten : codec.write default = codec.write (get record) := by
        rw [Option.some.injEq] at isWritten isDefault
        exact isDefault.trans isWritten.symm
      have readsDefault := codec.reads keepsDefault (.whole _ _)
      rw [sameWritten] at readsDefault
      have isDefault : get record = default :=
        (codec.reads keeps (.whole _ _)).unique readsDefault
      refine ⟨nofun, ?_⟩
      rw [isDefault]
      exact unchanged

/-- A member that is written only where there is a value. -/
def ifPresent
    (name : String)
    (codec : Codec α)
    (get : σ → Option α)
    (set : σ → Option α → σ) :
    Column σ where
  field := .make .defaulted name codec.option.reader set
  layout := codec.layout
  default? := none
  written record := (get record).map codec.write
  put record target := set target (get record)
  Keeps record := codec.option.Keeps (get record)
  Starts initial := set initial none = initial
  takes := by
    intro record keeps value isWritten shorter abridges
    cases found : get record with
    | none =>
        rw [found] at isWritten
        cases isWritten
    | some content =>
        rw [found] at keeps isWritten
        cases isWritten
        exact Field.takes_make (codec.option.reads keeps abridges) .defaulted
          name set
  unneeded := by
    rintro initial record unchanged keeps
      (notWritten | ⟨value, _, noDefault⟩)
    · refine ⟨nofun, ?_⟩
      rw [Option.map_eq_none_iff.mp notWritten]
      exact unchanged
    · cases noDefault

section

variable {name : String}

@[simp] theorem keeps_kept
    {presence : Presence}
    {codec : Codec α}
    {get : σ → α}
    {set : σ → α → σ}
    (record : σ) :
    (kept presence name codec get set).Keeps record ↔
      codec.Keeps (get record) :=
  .rfl

@[simp] theorem put_kept
    {presence : Presence}
    {codec : Codec α}
    {get : σ → α}
    {set : σ → α → σ}
    (record target : σ) :
    (kept presence name codec get set).put record target =
      set target (get record) :=
  rfl

@[simp] theorem starts_kept
    {presence : Presence}
    {codec : Codec α}
    {get : σ → α}
    {set : σ → α → σ}
    (initial : σ) :
    (kept presence name codec get set).Starts initial :=
  trivial

@[simp] theorem keeps_defaulted
    {default : α}
    {codec : Codec α}
    {get : σ → α}
    {set : σ → α → σ}
    (keepsDefault : codec.Keeps default)
    (record : σ) :
    (defaulted default name codec get set keepsDefault).Keeps record ↔
      codec.Keeps (get record) :=
  .rfl

@[simp] theorem put_defaulted
    {default : α}
    {codec : Codec α}
    {get : σ → α}
    {set : σ → α → σ}
    (keepsDefault : codec.Keeps default)
    (record target : σ) :
    (defaulted default name codec get set keepsDefault).put record target =
      set target (get record) :=
  rfl

@[simp] theorem starts_defaulted
    {default : α}
    {codec : Codec α}
    {get : σ → α}
    {set : σ → α → σ}
    (keepsDefault : codec.Keeps default)
    (initial : σ) :
    (defaulted default name codec get set keepsDefault).Starts initial ↔
      set initial default = initial :=
  .rfl

@[simp] theorem keeps_ifPresent
    {codec : Codec α}
    {get : σ → Option α}
    {set : σ → Option α → σ}
    (record : σ) :
    (ifPresent name codec get set).Keeps record ↔
      codec.option.Keeps (get record) :=
  .rfl

@[simp] theorem put_ifPresent
    {codec : Codec α}
    {get : σ → Option α}
    {set : σ → Option α → σ}
    (record target : σ) :
    (ifPresent name codec get set).put record target =
      set target (get record) :=
  rfl

@[simp] theorem starts_ifPresent
    {codec : Codec α}
    {get : σ → Option α}
    {set : σ → Option α → σ}
    (initial : σ) :
    (ifPresent name codec get set).Starts initial ↔
      set initial none = initial :=
  .rfl

end

/-- The name of a column's member. -/
def name (column : Column σ) : String :=
  column.field.name

/-- The member that a record is written with in a column, if any. -/
def member?
    (record : σ)
    (column : Column σ) :
    Option (String × Json) :=
  (column.written record).map (column.name, ·)

/-- What a layout says of a column. -/
def entry (column : Column σ) : String × Layout × Option Json :=
  (column.name, column.layout, column.default?)

/-- Put the values of a record into another, column by column. -/
def putAll
    (columns : List (Column σ))
    (record target : σ) :
    σ :=
  columns.foldl (fun target column => column.put record target) target

/-- Two columns change different parts of a record. -/
def Commute (left right : Column σ) : Prop :=
  ∀ record target,
    left.put record (right.put record target) =
      right.put record (left.put record target)

instance : Std.Symm (Commute : Column σ → Column σ → Prop) :=
  ⟨fun _ _ commute record target => (commute record target).symm⟩

/-- Among fields of different names a column's field is found by its name. -/
theorem find?_map_field
    {columns : List (Column σ)}
    (distinct : (columns.map name).Nodup)
    {column : Column σ}
    (listed : column ∈ columns) :
    Field.find? (columns.map field) column.name = some column.field := by
  induction columns with
  | nil =>
      cases listed
  | cons first rest inductionHypothesis =>
      rw [List.map_cons, List.nodup_cons] at distinct
      rcases List.mem_cons.mp listed with isFirst | inRest
      · rw [isFirst]
        simp [Field.find?, name]
      · have differs : first.field.name ≠ column.name :=
          fun same =>
            distinct.1 (List.mem_map.mpr ⟨column, inRest, same.symm⟩)
        have found := inductionHypothesis distinct.2 inRest
        rw [Field.find?] at found
        simp [Field.find?, differs, found]

end Column

/--
The columns of a type's records.  They have different names and change different
parts of a record, and together they make up the whole of it.
-/
structure Table (σ : Type) where
  initial : σ
  columns : List (Column σ)
  starts : ∀ column ∈ columns, column.Starts initial
  distinct : (columns.map Column.name).Nodup
  commute : columns.Pairwise Column.Commute
  rebuilt : ∀ record, Column.putAll columns record initial = record

namespace Table

variable {σ : Type} (table : Table σ)

/-- The fields of a table's records. -/
def fields : List (Field σ) :=
  table.columns.map Column.field

/-- A table's record as a document. -/
def write (record : σ) : Json :=
  .object (table.columns.filterMap (Column.member? record))

/-- The layout of a table's documents. -/
def layout : Layout :=
  .record (table.columns.map Column.entry)

/-- Whether every column keeps what it finds in a record. -/
def Keeps (record : σ) : Prop :=
  ∀ column ∈ table.columns, column.Keeps record

variable {table}

/-- The field of a column is found by its name. -/
theorem find?_eq
    {column : Column σ}
    (listed : column ∈ table.columns) :
    Field.find? table.fields column.name = some column.field :=
  Column.find?_map_field table.distinct listed

/-- The layout of a column is found by its name. -/
theorem lookup_entry
    {column : Column σ}
    (listed : column ∈ table.columns) :
    (table.columns.map Column.entry).lookup column.name =
      some (column.layout, column.default?) := by
  refine KeyMap.lookup_of_mem ?_ (List.mem_map_of_mem listed)
  rw [List.map_map]
  exact table.distinct

/-- Reading members puts the values of their columns into the record. -/
theorem readMembers_eq
    (form : Form)
    (record : σ)
    {chosen : List (Column σ)}
    {listed : List (String × Json)}
    (isColumn : ∀ column ∈ chosen, column ∈ table.columns)
    (distinct : (chosen.map Column.name).Nodup)
    (read :
      List.Forall₂
        (fun column member =>
          column.name = member.1 ∧
            ∀ target,
              column.field.read form (.ofJson member.2) target =
                .ok (column.put record target))
        chosen listed)
    (seen : List String)
    (unseen : ∀ column ∈ chosen, column.name ∉ seen)
    (target : σ) :
    Field.readMembers table.fields form (Node.ofMembers listed) seen target =
      .ok
        ((chosen.map Column.name).reverse ++ seen,
          Column.putAll chosen record target) := by
  induction read generalizing seen target with
  | nil =>
      rfl
  | @cons column member columns members readFirst _ inductionHypothesis =>
      obtain ⟨sameName, readValue⟩ := readFirst
      obtain ⟨firstIsColumn, restAreColumns⟩ :=
        List.forall_mem_cons.mp isColumn
      obtain ⟨firstUnseen, restUnseen⟩ := List.forall_mem_cons.mp unseen
      obtain ⟨firstDiffers, restDistinct⟩ := List.nodup_cons.mp distinct
      have stillUnseen :
          ∀ other ∈ columns, other.name ∉ column.name :: seen := by
        intro other isOther isSeen
        rcases List.mem_cons.mp isSeen with isFirst | before
        · exact firstDiffers
            (List.mem_map.mpr ⟨other, isOther, isFirst⟩)
        · exact restUnseen other isOther before
      rw [Node.ofMembers, Field.readMembers, ← sameName,
        find?_eq firstIsColumn]
      simp only [firstUnseen, ↓reduceIte, readValue,
        inductionHypothesis restAreColumns restDistinct _ stillUnseen]
      simp [Column.putAll]

/-- Columns put their values into a record in any order. -/
theorem putAll_perm
    {chosen : List (Column σ)}
    (sameColumns : chosen.Perm table.columns)
    (record target : σ) :
    Column.putAll chosen record target =
      Column.putAll table.columns record target := by
  have commute :
      ∀ left ∈ table.columns,
        ∀ right ∈ table.columns, left.Commute right :=
    fun left leftListed right rightListed =>
      List.Pairwise.forall_of_forall (fun _ _ _ _ => rfl) table.commute
        leftListed rightListed
  refine sameColumns.foldl_eq' ?_ target
  intro left leftChosen right rightChosen target
  exact commute right (sameColumns.mem_iff.mp rightChosen) left
    (sameColumns.mem_iff.mp leftChosen) record target

/--
The members of some columns suffice to read a record: no other column is
required, and none would change the initial record.
-/
def Suffices
    (table : Table σ)
    (record : σ)
    (chosen : List (Column σ)) :
    Prop :=
  ∃ leftOut,
    (leftOut ++ chosen).Perm table.columns ∧
      ∀ column ∈ leftOut,
        column.field.presence ≠ .required ∧
          column.put record table.initial = table.initial

namespace Suffices

variable {record : σ} {chosen : List (Column σ)}

theorem perm
    (sufficient : table.Suffices record chosen)
    {reordered : List (Column σ)}
    (sameColumns : reordered.Perm chosen) :
    table.Suffices record reordered := by
  obtain ⟨leftOut, allColumns, unneeded⟩ := sufficient
  exact ⟨leftOut, (sameColumns.append_left leftOut).trans allColumns,
    unneeded⟩

theorem isColumn
    (sufficient : table.Suffices record chosen)
    {column : Column σ}
    (isChosen : column ∈ chosen) :
    column ∈ table.columns := by
  obtain ⟨leftOut, allColumns, _⟩ := sufficient
  exact allColumns.mem_iff.mp (List.mem_append_right leftOut isChosen)

theorem distinct
    (sufficient : table.Suffices record chosen) :
    (chosen.map Column.name).Nodup := by
  obtain ⟨leftOut, allColumns, _⟩ := sufficient
  have allDistinct : ((leftOut ++ chosen).map Column.name).Nodup :=
    (allColumns.map Column.name).nodup_iff.mpr table.distinct
  rw [List.map_append] at allDistinct
  exact allDistinct.of_append_right

/-- The columns' values make up the record. -/
theorem putAll_eq
    (sufficient : table.Suffices record chosen) :
    Column.putAll chosen record table.initial = record := by
  obtain ⟨leftOut, allColumns, unneeded⟩ := sufficient
  have unchanged :
      Column.putAll leftOut record table.initial = table.initial := by
    clear allColumns
    induction leftOut with
    | nil =>
        rfl
    | cons column rest inductionHypothesis =>
        obtain ⟨⟨_, first⟩, others⟩ := List.forall_mem_cons.mp unneeded
        rw [Column.putAll, List.foldl_cons, first]
        exact inductionHypothesis others
  calc
    Column.putAll chosen record table.initial =
        Column.putAll (leftOut ++ chosen) record table.initial := by
      simp only [Column.putAll, List.foldl_append] at unchanged ⊢
      rw [unchanged]
    _ = Column.putAll table.columns record table.initial :=
      putAll_perm allColumns record table.initial
    _ = record :=
      table.rebuilt record

/-- Nothing is missing where the columns' members have been read. -/
theorem missing?_eq_none
    (sufficient : table.Suffices record chosen) :
    Field.missing? table.fields (chosen.map Column.name).reverse = none := by
  obtain ⟨leftOut, allColumns, unneeded⟩ := sufficient
  apply List.find?_eq_none.mpr
  intro field isField isMissing
  obtain ⟨column, listed, rfl⟩ := List.mem_map.mp isField
  simp only [List.mem_reverse, Bool.and_eq_true, decide_eq_true_eq,
    Bool.not_eq_true', decide_eq_false_iff_not] at isMissing
  rcases List.mem_append.mp (allColumns.mem_iff.mpr listed) with
    isLeftOut | isChosen
  · exact (unneeded column isLeftOut).1 isMissing.1
  · exact isMissing.2 (List.mem_map_of_mem isChosen)

/-- Members of columns that suffice are read as the record. -/
theorem readTable_eq
    (sufficient : table.Suffices record chosen)
    {form : Form}
    {listed : List (String × Json)}
    (read :
      List.Forall₂
        (fun column member =>
          column.name = member.1 ∧
            ∀ target,
              column.field.read form (.ofJson member.2) target =
                .ok (column.put record target))
        chosen listed) :
    Field.readTable table.fields form (Node.ofMembers listed) .closed
        table.initial =
      .ok record := by
  have readMembers :=
    readMembers_eq form record (fun _ => sufficient.isColumn)
      sufficient.distinct read [] (by simp) table.initial
  rw [List.append_nil, sufficient.putAll_eq] at readMembers
  simp only [Field.readTable, readMembers, Closing.check,
    sufficient.missing?_eq_none, bind, Except.bind]

end Suffices

/--
The members of an abridged record belong to some of the columns, and the other
columns are not needed.
-/
theorem exists_chosen
    {record : σ}
    (keeps : table.Keeps record)
    {columns : List (Column σ)}
    (isColumn : ∀ column ∈ columns, column ∈ table.columns)
    {shorter : List (String × Json)}
    (abridges :
      Layout.AbridgesMembers (table.columns.map Column.entry)
        (columns.filterMap (Column.member? record)) shorter) :
    ∃ chosen leftOut,
      (leftOut ++ chosen).Perm columns ∧
        List.Forall₂
          (fun column member =>
            column.name = member.1 ∧
              column.field.Takes member.2 (column.put record))
          chosen shorter ∧
        ∀ column ∈ leftOut,
          column.field.presence ≠ .required ∧
            column.put record table.initial = table.initial := by
  induction columns generalizing shorter with
  | nil =>
      cases abridges
      exact ⟨[], [], .nil, .nil, by simp⟩
  | cons column rest inductionHypothesis =>
      obtain ⟨listed, restListed⟩ := List.forall_mem_cons.mp isColumn
      have keepsColumn := keeps column listed
      cases written : column.written record with
      | none =>
          have skipped : Column.member? record column = none := by
            rw [Column.member?, written, Option.map_none]
          rw [List.filterMap_cons_none skipped] at abridges
          obtain ⟨chosen, leftOut, sameColumns, takes, unneeded⟩ :=
            inductionHypothesis restListed abridges
          exact ⟨chosen, column :: leftOut, sameColumns.cons column, takes,
            List.forall_mem_cons.mpr
              ⟨column.unneeded (table.starts column listed) keepsColumn
                (.inl written), unneeded⟩⟩
      | some value =>
          have present :
              Column.member? record column = some (column.name, value) := by
            rw [Column.member?, written, Option.map_some]
          rw [List.filterMap_cons_some present] at abridges
          cases abridges with
          | kept found abridgesValue abridgesRest =>
              rw [lookup_entry listed] at found
              cases found
              obtain ⟨chosen, leftOut, sameColumns, takes, unneeded⟩ :=
                inductionHypothesis restListed abridgesRest
              refine ⟨column :: chosen, leftOut,
                List.perm_middle.trans (sameColumns.cons column),
                .cons ⟨rfl, ?_⟩ takes, unneeded⟩
              exact column.takes keepsColumn written abridgesValue
          | leftOut found abridgesRest =>
              rw [lookup_entry listed] at found
              have isDefault : column.default? = some value :=
                (Prod.mk.inj (Option.some.inj found)).2
              obtain ⟨chosen, leftOut, sameColumns, takes, unneeded⟩ :=
                inductionHypothesis restListed abridgesRest
              exact ⟨chosen, column :: leftOut, sameColumns.cons column,
                takes,
                List.forall_mem_cons.mpr
                  ⟨column.unneeded (table.starts column listed) keepsColumn
                    (.inr ⟨value, written, isDefault⟩), unneeded⟩⟩

/-- A table's record reads back from its document, however abridged. -/
theorem reads
    {record : σ}
    (keeps : table.Keeps record)
    {shorter : Json}
    (abridges : table.layout.Abridges (table.write record) shorter) :
    (Reader.record table.fields table.initial).Reads shorter record := by
  have known :
      ∀ member ∈ table.columns.filterMap (Column.member? record),
        ∃ entry,
          (table.columns.map Column.entry).lookup member.1 = some entry := by
    intro member isMember
    obtain ⟨column, listed, written⟩ := List.mem_filterMap.mp isMember
    obtain ⟨value, _, rfl⟩ := Option.map_eq_some_iff.mp written
    exact ⟨_, lookup_entry listed⟩
  obtain ⟨members, rfl, abridgesMembers⟩ := abridges.exists_members known
  obtain ⟨chosen, leftOut, sameColumns, takes, unneeded⟩ :=
    exists_chosen keeps (fun _ listed => listed) abridgesMembers
  have sufficient : table.Suffices record chosen :=
    ⟨leftOut, sameColumns, unneeded⟩
  have membersDistinct : Json.NamesDistinct (.object members) := by
    have sameNames : chosen.map Column.name = members.map Prod.fst := by
      rw [← List.forall₂_eq_eq_eq, List.forall₂_map_left_iff,
        List.forall₂_map_right_iff]
      exact takes.imp (fun _ _ taken => taken.1)
    refine .object (sameNames ▸ sufficient.distinct) ?_
    intro member isMember
    obtain ⟨index, inRange, rfl⟩ := List.getElem_of_mem isMember
    exact (takes.get (takes.length_eq ▸ inRange) inRange).2.distinct
  refine ⟨membersDistinct, ?_⟩
  intro form listing same distinct
  cases same with
  | @object _ listed sameMembers =>
      obtain ⟨reordered, sameChosen, related⟩ :=
        Json.exists_perm_relating takes (.object sameMembers) membersDistinct
          distinct
      rw [Node.ofJson, Reader.record]
      refine (sufficient.perm sameChosen).readTable_eq (related.imp ?_)
      rintro column listing ⟨member, ⟨sameName, takesMember⟩, listedAs⟩
      exact ⟨sameName.trans listedAs.name, fun target =>
        takesMember.read form _ listedAs.value listedAs.distinct target⟩

end Table

end AccessTopology
