import BitDrive.Core.Schema
import BitDrive.Shared.Keyed

set_option autoImplicit false

namespace BitDrive.Core

open Sql

structure ConfigRecord where
  key : String
  value : String
  description : Option String
  readOnly : Bool
  secret : Bool
  updatedAt : Int64
  deriving DecidableEq

def configColumns : List String :=
  ["key", "value", "description", "read_only", "secret", "updated_at"]

-- The record stands for the arguments of the call and the clock.
def setConfig (rows : List Row) (record : ConfigRecord) : Except Sql.Error (List Row) :=
  let parameters :=
    [.text record.key, .text record.value, .ofOption .text record.description,
      .ofBool record.readOnly, .ofBool record.secret, .integer record.updatedAt]
  match values [.parameter, .parameter, .parameter, .parameter, .parameter, .parameter]
      parameters with
  | none => .error .parameterCount
  | some values =>
    (configTable.upsert "key" ["value", "description", "read_only", "secret", "updated_at"] rows
      (rowOf configColumns values)).mapError .violation

def getConfig (rows : List Row) (key : String) : Except Sql.Error (Option String) :=
  match select ["value"] rows fun row => (row "key").equals (.text key) with
  | [value] :: _ =>
    match value.toText with
    | some value => .ok (some value)
    | none => .error .columnType
  | _ => .ok none

def deleteConfig (rows : List Row) (key : String) : List Row :=
  delete rows fun row =>
    (row "key").equals (.text key) && (row "read_only").equals (.integer 0)

namespace ConfigRecord

def ofValues : List Value → Option ConfigRecord
  | [key, value, description, readOnly, secret, updatedAt] => do
    return {
      key := ← key.toText
      value := ← value.toText
      description := ← description.toOption Value.toText
      readOnly := ← readOnly.toBool
      secret := ← secret.toBool
      updatedAt := ← updatedAt.toInteger }
  | _ => none

def values (record : ConfigRecord) : List Value :=
  [.text record.key, .text record.value, .ofOption .text record.description,
    .ofBool record.readOnly, .ofBool record.secret, .integer record.updatedAt]

def row (record : ConfigRecord) : Row := rowOf configColumns record.values

@[simp] theorem ofValues_values (record : ConfigRecord) : ofValues record.values = some record := by
  simp [ofValues, values]

theorem map_row (record : ConfigRecord) : configColumns.map record.row = record.values :=
  map_rowOf configColumns record.values (by decide) rfl

@[simp] theorem row_key (record : ConfigRecord) : record.row "key" = .text record.key := rfl

@[simp] theorem row_value (record : ConfigRecord) : record.row "value" = .text record.value := rfl

@[simp] theorem row_readOnly (record : ConfigRecord) :
    record.row "read_only" = .ofBool record.readOnly := rfl

end ConfigRecord

def listConfig (rows : List Row) : Except Sql.Error (List ConfigRecord) :=
  match (select configColumns rows fun _ => true).mapM ConfigRecord.ofValues with
  | some records => .ok records
  | none => .error .columnType

inductive SettingCall where
  | set (record : ConfigRecord)
  | delete (key : String)

def callConfig (rows : List Row) : SettingCall → List Row
  | .set record => (setConfig rows record).toOption.getD rows
  | .delete key => deleteConfig rows key

def settle (records : List ConfigRecord) : SettingCall → List ConfigRecord
  | .set record => Keyed.put ConfigRecord.key record records
  | .delete key => records.filter fun record => record.key ≠ key || record.readOnly

theorem find_config (records : List ConfigRecord) (key : String) :
    (records.map ConfigRecord.row).find? (fun row => (row "key").equals (.text key)) =
      (Keyed.lookup ConfigRecord.key records key).map ConfigRecord.row := by
  simp only [List.find?_map, Keyed.lookup, Function.comp_def, ConfigRecord.row_key, equals_text]

theorem check_config (others : List ConfigRecord) (record : ConfigRecord)
    (fresh : ∀ other ∈ others, other.key ≠ record.key) :
    configTable.check (others.map ConfigRecord.row) record.row = .ok () := by
  have keys : configTable.keys = ["key"] := rfl
  have required : configTable.required = ["value", "updated_at"] := rfl
  have present : configTable.missing record.row = none := by
    rw [TableDef.missing, required]
    rfl
  have free : configTable.taken (others.map ConfigRecord.row) record.row = none := by
    rw [TableDef.taken, keys]
    simpa [equals_text] using fresh
  rw [TableDef.check, present, free]

theorem updated_row (record old : ConfigRecord) (same : old.key = record.key) :
    (fun column => if column ∈ ["value", "description", "read_only", "secret", "updated_at"] then
        record.row column else old.row column) = record.row := by
  have known : old.row "key" = record.row "key" := by simp [same]
  refine eq_rowOf configColumns _ _ (by decide) ?_ fun column absent => ?_
  next =>
    rw [← record.map_row]
    simp [configColumns, known]
  next =>
    have outside (record : ConfigRecord) : record.row column = .null :=
      rowOf_of_notMem configColumns record.values column absent
    rw [outside, outside, ite_self]

theorem setConfig_eq (records : List ConfigRecord) (record : ConfigRecord) :
    setConfig (records.map ConfigRecord.row) record =
      .ok ((Keyed.put ConfigRecord.key record records).map ConfigRecord.row) := by
  have bound : setConfig (records.map ConfigRecord.row) record =
      (configTable.upsert "key" ["value", "description", "read_only", "secret", "updated_at"]
        (records.map ConfigRecord.row) record.row).mapError .violation := rfl
  rw [bound, TableDef.upsert, ConfigRecord.row_key, find_config]
  cases found : Keyed.lookup ConfigRecord.key records record.key with
  | none =>
    have fresh := Keyed.ne_of_lookup_eq_none _ found
    have absent : ¬ ∃ other ∈ records, other.key = record.key := by
      rintro ⟨other, member, same⟩
      exact fresh other member same
    rw [Keyed.put, if_neg absent, Option.map_none, TableDef.insert,
      check_config records record fresh]
    simp [Except.map, Except.mapError]
  | some old =>
    have same := Keyed.lookup_key ConfigRecord.key found
    have there : ∃ other ∈ records, other.key = record.key :=
      ⟨old, List.mem_of_find?_eq_some found, same⟩
    have others : (records.map ConfigRecord.row).filter
        (fun other => !(other "key").equals (.text record.key)) =
          (records.filter fun other => !decide (other.key = record.key)).map ConfigRecord.row := by
      simp only [List.filter_map, Function.comp_def, ConfigRecord.row_key, equals_text]
    have fresh : ∀ other ∈ records.filter fun other => !decide (other.key = record.key),
        other.key ≠ record.key := by
      intro other member
      simpa using (List.mem_filter.mp member).2
    simp only [Option.map_some, updated_row record old same, others,
      check_config _ record fresh]
    rw [Keyed.put, if_pos there]
    simp only [Except.map, Except.mapError, Except.ok.injEq, List.map_map, List.map_inj_left,
      Function.comp_apply, ConfigRecord.row_key, equals_text]
    intro other _
    by_cases here : other.key = record.key
    next => simp only [here, decide_true, if_true]
    next => simp only [here, decide_false, Bool.false_eq_true, if_false]

theorem deleteConfig_eq (records : List ConfigRecord) (key : String) :
    deleteConfig (records.map ConfigRecord.row) key =
      (settle records (.delete key)).map ConfigRecord.row := by
  have zero (flag : Bool) : (Value.ofBool flag).equals (.integer 0) = !flag := by
    cases flag <;> rfl
  simp only [deleteConfig, delete, settle, List.filter_map, Function.comp_def,
    ConfigRecord.row_key, ConfigRecord.row_readOnly, equals_text, zero]
  congr 2
  funext record
  simp

theorem callConfig_eq (records : List ConfigRecord) (request : SettingCall) :
    callConfig (records.map ConfigRecord.row) request =
      (settle records request).map ConfigRecord.row := by
  cases request with
  | set record =>
    rw [callConfig, setConfig_eq]
    rfl
  | delete key => exact deleteConfig_eq records key

theorem callConfigs_eq (records : List ConfigRecord) (history : List SettingCall) :
    history.foldl callConfig (records.map ConfigRecord.row) =
      (history.foldl settle records).map ConfigRecord.row := by
  induction history generalizing records with
  | nil => rfl
  | cons request history ih =>
    rw [List.foldl_cons, List.foldl_cons, callConfig_eq, ih]

theorem getConfig_eq (records : List ConfigRecord) (key : String) :
    getConfig (records.map ConfigRecord.row) key =
      .ok ((Keyed.lookup ConfigRecord.key records key).map ConfigRecord.value) := by
  have selected : select ["value"] (records.map ConfigRecord.row)
      (fun row => (row "key").equals (.text key)) =
        (records.filter fun other => other.key = key).map fun other => [.text other.value] := by
    simp only [select, List.filter_map, List.map_map, Function.comp_def, ConfigRecord.row_key,
      equals_text, List.map_cons, List.map_nil, ConfigRecord.row_value]
  rw [getConfig, selected, Keyed.lookup, ← List.head?_filter]
  cases records.filter fun other => other.key = key with
  | nil => rfl
  | cons first others => rfl

theorem listConfig_eq (records : List ConfigRecord) :
    listConfig (records.map ConfigRecord.row) = .ok records := by
  have selected : select configColumns (records.map ConfigRecord.row) (fun _ => true) =
      records.map ConfigRecord.values := by
    simp only [select, List.filter_true, List.map_map, Function.comp_def, ConfigRecord.map_row]
  rw [listConfig, selected, mapM_read _ _ ConfigRecord.ofValues_values]

theorem settle_distinct (records : List ConfigRecord) (request : SettingCall)
    (distinct : Keyed.Distinct ConfigRecord.key records) :
    Keyed.Distinct ConfigRecord.key (settle records request) := by
  cases request with
  | set record => exact Keyed.distinct_put _ record records distinct
  | delete key => exact List.Nodup.sublist (List.filter_sublist.map _) distinct

def SettingCall.leaves (key : String) (held : Option ConfigRecord) :
    SettingCall → Option ConfigRecord
  | .set record => if record.key = key then some record else held
  | .delete other => if other = key then held.filter (·.readOnly) else held

theorem lookup_settle (records : List ConfigRecord) (request : SettingCall) (key : String)
    (distinct : Keyed.Distinct ConfigRecord.key records) :
    Keyed.lookup ConfigRecord.key (settle records request) key =
      request.leaves key (Keyed.lookup ConfigRecord.key records key) := by
  cases request with
  | set record =>
    rw [settle, Keyed.lookup_put, SettingCall.leaves]
    by_cases here : record.key = key
    next => rw [← here, Function.update_self, if_pos rfl]
    next =>
      have apart : key ≠ record.key := fun same => here same.symm
      rw [Function.update_of_ne apart, if_neg here]
  | delete other =>
    rw [settle, Keyed.lookup_filter _ _ _ distinct, SettingCall.leaves]
    cases found : Keyed.lookup ConfigRecord.key records key with
    | none => simp
    | some record =>
      have named := Keyed.lookup_key _ found
      by_cases here : other = key
      next => simp [here, named, Option.filter]
      next =>
        have apart : record.key ≠ other := fun same => here (same.symm.trans named)
        simp [here, apart, Option.filter]

theorem settled_lookup (history : List SettingCall) (key : String) :
    Keyed.Distinct ConfigRecord.key (history.foldl settle []) ∧
      Keyed.lookup ConfigRecord.key (history.foldl settle []) key =
        history.foldl (fun held request => request.leaves key held) none := by
  induction history using List.reverseRecOn with
  | nil => exact ⟨.nil, rfl⟩
  | append_singleton history request ih =>
    obtain ⟨distinct, same⟩ := ih
    simp only [List.foldl_append, List.foldl_cons, List.foldl_nil]
    exact ⟨settle_distinct _ request distinct, by rw [lookup_settle _ _ _ distinct, same]⟩

structure LastSet (key : String) (history : List SettingCall) (record : ConfigRecord)
    (after : List SettingCall) : Prop where
  set : ∃ before, history = before ++ .set record :: after
  named : record.key = key
  last : ∀ later : ConfigRecord, .set later ∈ after → later.key ≠ key
  kept : record.readOnly = false → .delete key ∉ after

theorem not_lastSet_nil (key : String) (record : ConfigRecord) (after : List SettingCall) :
    ¬ LastSet key [] record after := by
  intro last
  obtain ⟨before, split⟩ := last.set
  simp at split

theorem lastSet_concat (key : String) (history after : List SettingCall) (request : SettingCall)
    (record : ConfigRecord) :
    LastSet key (history ++ [request]) record after ↔
      (request = .set record ∧ record.key = key ∧ after = []) ∨
      ∃ earlier, after = earlier ++ [request] ∧ LastSet key history record earlier ∧
        (∀ later : ConfigRecord, request = .set later → later.key ≠ key) ∧
        (record.readOnly = false → request ≠ .delete key) := by
  constructor
  next =>
    rintro ⟨⟨before, split⟩, named, last, kept⟩
    cases after using List.reverseRecOn with
    | nil =>
      obtain ⟨_, same⟩ := List.append_inj' split rfl
      exact .inl ⟨(List.cons.inj same).1, named, rfl⟩
    | append_singleton earlier final =>
      rw [← List.cons_append, ← List.append_assoc] at split
      obtain ⟨front, same⟩ := List.append_inj' split rfl
      obtain rfl : request = final := (List.cons.inj same).1
      refine .inr ⟨earlier, rfl, ⟨⟨before, front⟩, named, ?_, ?_⟩, ?_, ?_⟩
      next => exact fun later member => last later (List.mem_append_left _ member)
      next => exact fun writable member => kept writable (List.mem_append_left _ member)
      next => exact fun later same => last later (by simp [same])
      next => exact fun writable same => kept writable (by simp [same])
  next =>
    rintro (⟨rfl, named, rfl⟩ | ⟨earlier, rfl, ⟨⟨before, split⟩, named, last, kept⟩, other, safe⟩)
    next => exact ⟨⟨history, rfl⟩, named, by simp, by simp⟩
    next =>
      refine ⟨⟨before, by rw [split]; simp⟩, named, ?_, ?_⟩
      next =>
        intro later member
        rcases List.mem_append.mp member with old | new
        next => exact last later old
        next => exact other later (List.mem_singleton.mp new).symm
      next =>
        intro writable member
        rcases List.mem_append.mp member with old | new
        next => exact kept writable old
        next => exact safe writable (List.mem_singleton.mp new).symm

theorem held_iff (history : List SettingCall) (key : String) (record : ConfigRecord) :
    history.foldl (fun held request => request.leaves key held) none = some record ↔
      ∃ after, LastSet key history record after := by
  induction history using List.reverseRecOn generalizing record with
  | nil => simp [not_lastSet_nil]
  | append_singleton history request ih =>
    simp only [List.foldl_append, List.foldl_cons, List.foldl_nil, lastSet_concat]
    generalize history.foldl (fun held request => request.leaves key held) none = held at ih
    by_cases quiet : (∀ later : ConfigRecord, request = .set later → later.key ≠ key) ∧
        request ≠ .delete key
    next =>
      have idle : request.leaves key held = held := by
        cases request with
        | set other => exact if_neg (quiet.1 other rfl)
        | delete other => exact if_neg fun same => quiet.2 (congrArg _ same)
      rw [idle, ih]
      constructor
      next =>
        rintro ⟨earlier, last⟩
        exact ⟨_, .inr ⟨earlier, rfl, last, quiet.1, fun _ => quiet.2⟩⟩
      next =>
        rintro ⟨_, ⟨same, named, _⟩ | ⟨earlier, _, last, _⟩⟩
        next => exact absurd named (quiet.1 record same)
        next => exact ⟨earlier, last⟩
    next =>
      cases request with
      | set other =>
        have here : other.key = key := by
          by_contra elsewhere
          refine quiet ⟨?_, by simp⟩
          rintro later same
          rwa [← SettingCall.set.inj same]
        rw [SettingCall.leaves, if_pos here]
        constructor
        next =>
          intro same
          obtain rfl := Option.some.inj same
          exact ⟨[], .inl ⟨rfl, here, rfl⟩⟩
        next =>
          rintro ⟨_, ⟨same, _⟩ | ⟨_, _, _, apart, _⟩⟩
          next => rw [SettingCall.set.inj same]
          next => exact absurd here (apart other rfl)
      | delete other =>
        have here : other = key := by
          by_contra elsewhere
          exact quiet ⟨by simp, fun same => elsewhere (SettingCall.delete.inj same)⟩
        rw [SettingCall.leaves, if_pos here, Option.filter_eq_some_iff, ih]
        constructor
        next =>
          rintro ⟨⟨earlier, last⟩, readOnly⟩
          exact ⟨_, .inr ⟨earlier, rfl, last, by simp, by simp [readOnly]⟩⟩
        next =>
          rintro ⟨_, ⟨same, _⟩ | ⟨earlier, _, last, _, safe⟩⟩
          next => contradiction
          next =>
            refine ⟨⟨earlier, last⟩, ?_⟩
            by_contra writable
            exact safe (Bool.not_eq_true _ ▸ writable) (congrArg _ here)

theorem config_history_iff (history : List SettingCall) :
    let rows := history.foldl callConfig []
    (∀ record, ∃ next, setConfig rows record = .ok next) ∧
      (∀ key value, getConfig rows key = .ok (some value) ↔
        ∃ record after, LastSet key history record after ∧ record.value = value) ∧
      ∃ records, listConfig rows = .ok records ∧ (records.map ConfigRecord.key).Nodup ∧
        ∀ record, record ∈ records ↔ ∃ after, LastSet record.key history record after := by
  intro rows
  have stored : rows = (history.foldl settle []).map ConfigRecord.row := callConfigs_eq [] history
  have found (key : String) := settled_lookup history key
  rw [stored]
  refine ⟨?_, ?_, _, listConfig_eq _, (found "").1, ?_⟩
  next =>
    intro record
    exact ⟨_, setConfig_eq _ record⟩
  next =>
    intro key value
    rw [getConfig_eq, (found key).2]
    constructor
    next =>
      intro got
      obtain ⟨record, held, same⟩ := Option.map_eq_some_iff.mp (Except.ok.inj got)
      obtain ⟨after, last⟩ := (held_iff history key record).mp held
      exact ⟨record, after, last, same⟩
    next =>
      rintro ⟨record, after, last, same⟩
      rw [(held_iff history key record).mpr ⟨after, last⟩, Option.map_some, same]
  next =>
    intro record
    obtain ⟨distinct, same⟩ := found record.key
    rw [← held_iff, ← same, Keyed.lookup_eq_some _ _ distinct]
    exact (and_iff_left rfl).symm

end BitDrive.Core
