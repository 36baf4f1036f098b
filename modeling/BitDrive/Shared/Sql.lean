import Mathlib.Data.List.Nodup

set_option autoImplicit false

namespace Sql

inductive Value where
  | null
  | integer (value : Int64)
  | text (value : String)
  | blob (value : List UInt8)
  deriving DecidableEq

inductive Constraint where
  | primaryKey
  | autoincrement
  | notNull
  | unique
  | default (value : Value)
  deriving DecidableEq

structure Column where
  name : String
  type : String
  constraints : List Constraint
  deriving DecidableEq

structure ForeignKey where
  column : String
  table : String
  references : String
  cascade : Bool
  deriving DecidableEq

structure TableDef where
  name : String
  columns : List Column
  foreignKeys : List ForeignKey
  deriving DecidableEq

structure IndexDef where
  name : String
  table : String
  column : String
  deriving DecidableEq

inductive Violation where
  | notNull (table column : String)
  | unique (table column : String)
  | foreignKey
  deriving DecidableEq

def Violation.message : Violation → String
  | notNull table column => s!"NOT NULL constraint failed: {table}.{column}"
  | unique table column => s!"UNIQUE constraint failed: {table}.{column}"
  | foreignKey => "FOREIGN KEY constraint failed"

abbrev Row := String → Value

namespace Value

-- `=` of the language, which no null meets.
def equals (left right : Value) : Bool := left ≠ .null && left = right

def ofBool (value : Bool) : Value := .integer (if value then 1 else 0)

def ofOption {α : Type} (put : α → Value) : Option α → Value
  | none => .null
  | some value => put value

def toText : Value → Option String
  | .text value => some value
  | _ => none

def toInteger : Value → Option Int64
  | .integer value => some value
  | _ => none

def toBlob : Value → Option (List UInt8)
  | .blob value => some value
  | _ => none

def toBool (value : Value) : Option Bool := value.toInteger.map (· ≠ 0)

def toOption {α : Type} (read : Value → Option α) : Value → Option (Option α)
  | .null => some none
  | value => (read value).map some

@[simp] theorem toText_text (value : String) : (text value).toText = some value := rfl

@[simp] theorem toInteger_integer (value : Int64) : (integer value).toInteger = some value := rfl

@[simp] theorem toBlob_blob (value : List UInt8) : (blob value).toBlob = some value := rfl

@[simp] theorem toBool_ofBool (value : Bool) : (ofBool value).toBool = some value := by
  cases value <;> rfl

@[simp] theorem toOption_ofOption_text (value : Option String) :
    (ofOption text value).toOption toText = some value := by
  cases value <;> rfl

@[simp] theorem toOption_ofOption_integer (value : Option Int64) :
    (ofOption integer value).toOption toInteger = some value := by
  cases value <;> rfl

@[simp] theorem toOption_ofOption_blob (value : Option (List UInt8)) :
    (ofOption blob value).toOption toBlob = some value := by
  cases value <;> rfl

end Value

theorem equals_blob (left right : List UInt8) :
    (Value.blob left).equals (.blob right) = decide (left = right) := by
  simp [Value.equals]

theorem equals_text (left right : String) :
    (Value.text left).equals (.text right) = decide (left = right) := by
  simp [Value.equals]

inductive Operand where
  | parameter
  | literal (value : Value)

def values : List Operand → List Value → Option (List Value)
  | [], [] => some []
  | [], _ :: _ => none
  | .literal value :: operands, parameters => (values operands parameters).map (value :: ·)
  | .parameter :: operands, value :: parameters => (values operands parameters).map (value :: ·)
  | .parameter :: _, [] => none

-- Columns that are not named stay null.
def rowOf (columns : List String) (values : List Value) : Row :=
  fun column => ((columns.zip values).lookup column).getD .null

theorem map_rowOf (columns : List String) (values : List Value) (distinct : columns.Nodup)
    (lengths : columns.length = values.length) : columns.map (rowOf columns values) = values := by
  induction columns generalizing values with
  | nil => simpa using lengths.symm
  | cons column columns ih =>
    cases values with
    | nil => simp at lengths
    | cons value values =>
      have ⟨fresh, others⟩ := List.nodup_cons.mp distinct
      have first : rowOf (column :: columns) (value :: values) column = value := by
        simp [rowOf]
      have later : columns.map (rowOf (column :: columns) (value :: values)) =
          columns.map (rowOf columns values) := by
        apply List.map_congr_left
        intro other member
        have different : other ≠ column := fun same => fresh (same ▸ member)
        have passed : (other == column) = false := beq_eq_false_iff_ne.mpr different
        simp [rowOf, List.lookup_cons, passed]
      rw [List.map_cons, first, later, ih values others (by simpa using lengths)]

theorem rowOf_of_notMem (columns : List String) (values : List Value) (column : String)
    (absent : column ∉ columns) : rowOf columns values column = .null := by
  have missing : (columns.zip values).lookup column = none := by
    rw [List.lookup_eq_none_iff]
    intro entry member
    have there := (List.of_mem_zip (a := entry.1) (b := entry.2) member).1
    exact bne_iff_ne.mpr fun same => absent (same ▸ there)
  rw [rowOf, missing, Option.getD_none]

theorem eq_rowOf (columns : List String) (values : List Value) (row : Row)
    (distinct : columns.Nodup) (same : columns.map row = values)
    (rest : ∀ column, column ∉ columns → row column = .null) : row = rowOf columns values := by
  have lengths : columns.length = values.length := by rw [← same, List.length_map]
  have equal := (map_rowOf columns values distinct lengths).trans same.symm
  funext column
  by_cases member : column ∈ columns
  next => exact (List.map_inj_left.mp equal column member).symm
  next => rw [rest column member, rowOf_of_notMem columns values column member]

theorem mapM_read {α : Type} (read : List Value → Option α) (written : α → List Value)
    (returns : ∀ record, read (written record) = some record) (records : List α) :
    (records.map written).mapM read = some records := by
  induction records with
  | nil => rfl
  | cons record records ih =>
    rw [List.map_cons, List.mapM_cons, returns, ih]
    rfl

inductive Error where
  | violation (violation : Violation)
  | parameterCount
  | columnType
  deriving DecidableEq

namespace TableDef

variable (table : TableDef)

def keys : List String :=
  (table.columns.filter fun column =>
    column.constraints.contains .primaryKey || column.constraints.contains .unique).map
      Column.name

def required : List String :=
  (table.columns.filter fun column => column.constraints.contains .notNull).map Column.name

def missing (row : Row) : Option String :=
  table.required.find? fun column => row column = .null

def taken (others : List Row) (row : Row) : Option String :=
  table.keys.find? fun key => others.any fun other => (other key).equals (row key)

def check (others : List Row) (row : Row) : Except Violation Unit :=
  match table.missing row with
  | some column => .error (.notNull table.name column)
  | none =>
    match table.taken others row with
    | some column => .error (.unique table.name column)
    | none => .ok ()

def insert (rows : List Row) (row : Row) : Except Violation (List Row) :=
  (table.check rows row).map fun _ => rows ++ [row]

variable {table} in
theorem of_insert_eq_ok {rows next : List Row} {row : Row} (ok : table.insert rows row = .ok next) :
    next = rows ++ [row] := by
  rw [insert] at ok
  cases checked : table.check rows row with
  | error violation =>
    rw [checked] at ok
    cases ok
  | ok =>
    rw [checked] at ok
    exact (Except.ok.inj ok).symm

theorem insert_of_fresh (key : String) (keys : table.keys = [key]) (rows : List Row) (row : Row)
    (present : table.missing row = none) (fresh : ∀ other ∈ rows, other key ≠ row key) :
    table.insert rows row = .ok (rows ++ [row]) := by
  have free : table.taken rows row = none := by
    rw [taken, keys, List.find?_eq_none]
    intro column member
    rw [List.mem_singleton.mp member, List.any_eq_true]
    intro ⟨other, there, equals⟩
    rw [Value.equals, Bool.and_eq_true, decide_eq_true_eq, decide_eq_true_eq] at equals
    exact fresh other there equals.2
  simp [insert, check, present, free, Except.map]

theorem insert_of_taken (key : String) (keys : table.keys = [key]) (rows : List Row) (row : Row)
    (present : table.missing row = none)
    (taken : ∃ other ∈ rows, (other key).equals (row key) = true) :
    table.insert rows row = .error (.unique table.name key) := by
  have found : table.taken rows row = some key := by
    rw [TableDef.taken, keys]
    exact List.find?_cons_of_pos (List.any_eq_true.mpr taken)
  simp [insert, check, present, found, Except.map]

-- `ON CONFLICT(target) DO UPDATE SET`, with the listed columns taken from the new row. A conflict
-- of another column is none of its business.
def upsert (target : String) (columns : List String) (rows : List Row) (row : Row) :
    Except Violation (List Row) :=
  match rows.find? fun other => (other target).equals (row target) with
  | none => table.insert rows row
  | some old =>
    let updated : Row := fun column => if column ∈ columns then row column else old column
    let others := rows.filter fun other => !(other target).equals (row target)
    (table.check others updated).map fun _ =>
      rows.map fun other => if (other target).equals (row target) then updated else other

variable {table} in
theorem of_upsert_eq_ok {target : String} {columns : List String} {rows next : List Row} {row : Row}
    (ok : table.upsert target columns rows row = .ok next) (key : target ∉ columns)
    (before : Row) (member : before ∈ rows) : ∃ after ∈ next, after target = before target := by
  rw [upsert] at ok
  split at ok
  next =>
    rw [of_insert_eq_ok ok]
    exact ⟨before, List.mem_append_left _ member, rfl⟩
  next old found =>
    have matched := List.find?_some found
    simp only [Except.map] at ok
    split at ok
    next => contradiction
    next =>
      obtain rfl := Except.ok.inj ok
      by_cases same : (before target).equals (row target) = true
      next =>
        refine ⟨_, List.mem_map.mpr ⟨before, member, rfl⟩, ?_⟩
        rw [if_pos same, if_neg key]
        simp only [Value.equals, Bool.and_eq_true, decide_eq_true_eq] at matched same
        rw [matched.2, same.2]
      next => exact ⟨before, List.mem_map.mpr ⟨before, member, if_neg same⟩, rfl⟩

end TableDef

def update (rows : List Row) (condition : Row → Bool) (assignments : List (String × Value)) :
    List Row :=
  rows.map fun row =>
    if condition row then fun column => (assignments.lookup column).getD (row column) else row

def delete (rows : List Row) (condition : Row → Bool) : List Row :=
  rows.filter fun row => !condition row

def select (columns : List String) (rows : List Row) (condition : Row → Bool) :
    List (List Value) :=
  (rows.filter condition).map fun row => columns.map row

theorem assigned_rowOf (columns : List String) (values after : List Value)
    (assignments : List (String × Value)) (distinct : columns.Nodup)
    (inside : ∀ assignment ∈ assignments, assignment.1 ∈ columns)
    (same : (columns.map fun column =>
      (assignments.lookup column).getD (rowOf columns values column)) = after) :
    (fun column => (assignments.lookup column).getD (rowOf columns values column)) =
      rowOf columns after := by
  refine eq_rowOf columns after _ distinct same fun column absent => ?_
  have unassigned : assignments.lookup column = none := by
    rw [List.lookup_eq_none_iff]
    intro assignment member
    exact bne_iff_ne.mpr fun equal => absent (equal ▸ inside assignment member)
  rw [unassigned, Option.getD_none, rowOf_of_notMem columns values column absent]

section

variable {α : Type} (row : α → Row) (condition : Row → Bool) (holds : α → Prop)
  [DecidablePred holds]

theorem select_rows (columns : List String) (values : α → List Value)
    (read : ∀ record, columns.map (row record) = values record)
    (same : ∀ record, condition (row record) = decide (holds record)) (records : List α) :
    select columns (records.map row) condition =
      (records.filter fun record => holds record).map values := by
  simp only [select, List.filter_map, List.map_map, Function.comp_def, same, read]

theorem delete_rows (same : ∀ record, condition (row record) = decide (holds record))
    (records : List α) :
    delete (records.map row) condition =
      (records.filter fun record => ¬ holds record).map row := by
  simp only [delete, List.filter_map, Function.comp_def, same, decide_not]

theorem update_rows (assignments : List (String × Value)) (change : α → α)
    (same : ∀ record, condition (row record) = decide (holds record))
    (changed : ∀ record,
      (fun column => (assignments.lookup column).getD (row record column)) = row (change record))
    (records : List α) :
    update (records.map row) condition assignments =
      (records.map fun record => if holds record then change record else record).map row := by
  simp only [update, List.map_map, List.map_inj_left, Function.comp_apply, same, changed,
    decide_eq_true_eq]
  intro record _
  exact (apply_ite row (holds record) (change record) record).symm

end

structure Holds (rows : List Row) (key : String) (row : Row) : Prop where
  member : row ∈ rows
  only : ∀ other ∈ rows, other key = row key → other = row

theorem holds_insert (rows : List Row) (key : String) (row : Row)
    (fresh : ∀ other ∈ rows, other key ≠ row key) : Holds (rows ++ [row]) key row where
  member := List.mem_append_right rows (List.mem_singleton_self row)
  only := by
    intro other member same
    rcases List.mem_append.mp member with older | newest
    next => exact absurd same (fresh other older)
    next => exact List.mem_singleton.mp newest

namespace Holds

variable {rows : List Row} {key : String} {row : Row}

theorem append (holds : Holds rows key row) (other : Row) (different : other key ≠ row key) :
    Holds (rows ++ [other]) key row where
  member := List.mem_append_left _ holds.member
  only := by
    intro found member same
    rcases List.mem_append.mp member with older | newest
    next => exact holds.only found older same
    next =>
      rw [List.mem_singleton.mp newest] at same
      exact absurd same different

theorem update (holds : Holds rows key row) (condition : Row → Bool)
    (assignments : List (String × Value)) (untouched : condition row = false)
    (kept : assignments.lookup key = none) :
    Holds (Sql.update rows condition assignments) key row where
  member := List.mem_map.mpr ⟨row, holds.member, by simp [untouched]⟩
  only := by
    intro found member same
    have ⟨before, there, made⟩ := List.mem_map.mp member
    have unchanged : found key = before key := by
      rw [← made]
      split
      next => simp [kept]
      next => rfl
    obtain rfl : before = row := holds.only before there (unchanged.symm.trans same)
    rw [← made, untouched]
    rfl

theorem delete (holds : Holds rows key row) (condition : Row → Bool)
    (untouched : condition row = false) : Holds (Sql.delete rows condition) key row where
  member := List.mem_filter.mpr ⟨holds.member, by simp [untouched]⟩
  only := fun other member => holds.only other (List.mem_filter.mp member).1

theorem select (holds : Holds rows key row) (columns : List String) (known : row key ≠ .null) :
    ∃ others, Sql.select columns rows (fun other => (other key).equals (row key)) =
      columns.map row :: others := by
  have all : ∀ other ∈ rows.filter fun other => (other key).equals (row key), other = row := by
    intro other member
    have ⟨there, equals⟩ := List.mem_filter.mp member
    have same : other key = row key := by
      rw [Value.equals, Bool.and_eq_true, decide_eq_true_eq, decide_eq_true_eq] at equals
      exact equals.2
    exact holds.only other there same
  have there : row ∈ rows.filter fun other => (other key).equals (row key) :=
    List.mem_filter.mpr ⟨holds.member, by simp [Value.equals, known]⟩
  rw [Sql.select]
  cases found : rows.filter fun other => (other key).equals (row key) with
  | nil =>
    rw [found] at there
    contradiction
  | cons first others =>
    rw [found] at all
    rw [List.map_cons, all first List.mem_cons_self]
    exact ⟨_, rfl⟩

end Holds

end Sql
