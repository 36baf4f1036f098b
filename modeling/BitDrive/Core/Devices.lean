import BitDrive.Core.Schema
import BitDrive.Shared.Keyed

set_option autoImplicit false

namespace BitDrive.Core

open Sql

structure DeviceRecord where
  id : List UInt8
  name : Option String
  address : String
  paired : Bool
  trusted : Bool
  psk : Option (List UInt8)
  lastSeen : Option Int64
  createdAt : Int64
  metadata : String
  deriving DecidableEq

structure UpsertDevice where
  deviceId : List UInt8
  name : Option String
  address : String
  paired : Bool
  trusted : Bool
  psk : Option (List UInt8)
  now : Int64

def deviceColumns : List String :=
  ["id", "name", "address", "paired", "trusted", "psk", "last_seen", "created_at", "metadata"]

def upsertDevice (rows : List Row) (request : UpsertDevice) : Except Sql.Error (List Row) :=
  let parameters :=
    [.blob request.deviceId, .ofOption .text request.name, .text request.address,
      .ofBool request.paired, .ofBool request.trusted, .ofOption .blob request.psk,
      .integer request.now, .integer request.now]
  match values [.parameter, .parameter, .parameter, .parameter, .parameter, .parameter,
      .parameter, .parameter, .literal (.text "{}")] parameters with
  | none => .error .parameterCount
  | some values =>
    (devicesTable.upsert "id" ["name", "address", "paired", "trusted", "psk", "last_seen"] rows
      (rowOf deviceColumns values)).mapError .violation

def DeviceRecord.ofValues : List Value → Option DeviceRecord
  | [id, name, address, paired, trusted, psk, lastSeen, createdAt, metadata] => do
    return {
      id := ← id.toBlob
      name := ← name.toOption Value.toText
      address := ← address.toText
      paired := ← paired.toBool
      trusted := ← trusted.toBool
      psk := ← psk.toOption Value.toBlob
      lastSeen := ← lastSeen.toOption Value.toInteger
      createdAt := ← createdAt.toInteger
      metadata := ← metadata.toText }
  | _ => none

def getDevice (rows : List Row) (deviceId : List UInt8) :
    Except Sql.Error (Option DeviceRecord) :=
  match select deviceColumns rows fun row => (row "id").equals (.blob deviceId) with
  | [] => .ok none
  | values :: _ =>
    match DeviceRecord.ofValues values with
    | some record => .ok (some record)
    | none => .error .columnType

def callUpsert (rows : List Row) (request : UpsertDevice) : List Row :=
  match upsertDevice rows request with
  | .ok next => next
  | .error _ => rows

namespace DeviceRecord

def values (record : DeviceRecord) : List Value :=
  [.blob record.id, .ofOption .text record.name, .text record.address, .ofBool record.paired,
    .ofBool record.trusted, .ofOption .blob record.psk, .ofOption .integer record.lastSeen,
    .integer record.createdAt, .text record.metadata]

def row (record : DeviceRecord) : Row := rowOf deviceColumns record.values

theorem deviceColumns_nodup : deviceColumns.Nodup := by decide

theorem map_row (record : DeviceRecord) : deviceColumns.map record.row = record.values :=
  map_rowOf deviceColumns record.values deviceColumns_nodup rfl

@[simp] theorem ofValues_values (record : DeviceRecord) : ofValues record.values = some record := by
  simp [ofValues, values]

@[simp] theorem row_id (record : DeviceRecord) : record.row "id" = .blob record.id := rfl

@[simp] theorem row_address (record : DeviceRecord) :
    record.row "address" = .text record.address := rfl

end DeviceRecord

def UpsertDevice.record (request : UpsertDevice) : DeviceRecord where
  id := request.deviceId
  name := request.name
  address := request.address
  paired := request.paired
  trusted := request.trusted
  psk := request.psk
  lastSeen := some request.now
  createdAt := request.now
  metadata := "{}"

def UpsertDevice.merged (request : UpsertDevice) (old : DeviceRecord) : DeviceRecord :=
  { request.record with id := old.id, createdAt := old.createdAt, metadata := old.metadata }

def AddressTaken (records : List DeviceRecord) (request : UpsertDevice) : Prop :=
  ∃ other ∈ records, other.address = request.address ∧ other.id ≠ request.deviceId

instance (records : List DeviceRecord) (request : UpsertDevice) :
    Decidable (AddressTaken records request) :=
  inferInstanceAs (Decidable (∃ other ∈ records, _ ∧ _))

def upsertRecord (records : List DeviceRecord) (request : UpsertDevice) : List DeviceRecord :=
  match Keyed.lookup DeviceRecord.id records request.deviceId with
  | none => records ++ [request.record]
  | some old => records.map fun other =>
      if other.id = request.deviceId then request.merged old else other

-- Only the two columns that are unique can be refused.
theorem check_device (records : List DeviceRecord) (record : DeviceRecord)
    (fresh : ∀ other ∈ records, other.id ≠ record.id) :
    devicesTable.check (records.map DeviceRecord.row) record.row =
      if ∃ other ∈ records, other.address = record.address then
        .error (.unique "devices" "address")
      else .ok () := by
  have keys : devicesTable.keys = ["id", "address"] := rfl
  have required : devicesTable.required = ["address", "paired", "trusted", "created_at"] := rfl
  have present : devicesTable.missing record.row = none := by
    rw [TableDef.missing, required]
    rfl
  have id : (records.map DeviceRecord.row).any
      (fun other => (other "id").equals (record.row "id")) = false := by
    simpa [equals_blob] using fresh
  rw [TableDef.check, present, TableDef.taken, keys]
  simp only [List.find?_cons, id]
  by_cases taken : ∃ other ∈ records, other.address = record.address
  next =>
    have address : (records.map DeviceRecord.row).any
        (fun other => (other "address").equals (record.row "address")) = true := by
      simpa [equals_text] using taken
    rw [if_pos taken, address]
    rfl
  next =>
    have address : (records.map DeviceRecord.row).any
        (fun other => (other "address").equals (record.row "address")) = false := by
      simpa [equals_text] using taken
    rw [if_neg taken, address]
    rfl

theorem find_row (records : List DeviceRecord) (deviceId : List UInt8) :
    (records.map DeviceRecord.row).find? (fun other => (other "id").equals (.blob deviceId)) =
      (Keyed.lookup DeviceRecord.id records deviceId).map DeviceRecord.row := by
  simp only [List.find?_map, Keyed.lookup, Function.comp_def, DeviceRecord.row_id, equals_blob]

theorem merged_row (request : UpsertDevice) (old : DeviceRecord) :
    (fun column => if column ∈ ["name", "address", "paired", "trusted", "psk", "last_seen"] then
        request.record.row column else old.row column) = (request.merged old).row := by
  refine eq_rowOf deviceColumns _ _ DeviceRecord.deviceColumns_nodup rfl fun column absent => ?_
  have outside (record : DeviceRecord) : record.row column = .null :=
    rowOf_of_notMem deviceColumns record.values column absent
  rw [outside, outside, ite_self]

theorem upsert_new (records : List DeviceRecord) (request : UpsertDevice)
    (fresh : ∀ other ∈ records, other.id ≠ request.deviceId) :
    devicesTable.upsert "id" ["name", "address", "paired", "trusted", "psk", "last_seen"]
        (records.map DeviceRecord.row) request.record.row =
      if AddressTaken records request then .error (.unique "devices" "address")
      else .ok ((records ++ [request.record]).map DeviceRecord.row) := by
  have taken : (∃ other ∈ records, other.address = request.record.address) ↔
      AddressTaken records request := by
    constructor
    next => exact fun ⟨other, member, same⟩ => ⟨other, member, same, fresh other member⟩
    next => exact fun ⟨other, member, same, _⟩ => ⟨other, member, same⟩
  have unknown : Keyed.lookup DeviceRecord.id records request.record.id = none :=
    Keyed.lookup_eq_none _ records _ fresh
  rw [TableDef.upsert, DeviceRecord.row_id, find_row, unknown]
  simp only [Option.map_none, TableDef.insert, check_device records request.record fresh, taken]
  split
  next => rfl
  next => simp [Except.map]

theorem upsert_known (records : List DeviceRecord) (request : UpsertDevice) (old : DeviceRecord)
    (known : Keyed.lookup DeviceRecord.id records request.record.id = some old)
    (same : old.id = request.record.id) :
    devicesTable.upsert "id" ["name", "address", "paired", "trusted", "psk", "last_seen"]
        (records.map DeviceRecord.row) request.record.row =
      if AddressTaken records request then .error (.unique "devices" "address")
      else .ok ((records.map fun other =>
        if other.id = request.deviceId then request.merged old else other).map
          DeviceRecord.row) := by
  have others : (records.map DeviceRecord.row).filter
      (fun other => !(other "id").equals (.blob request.record.id)) =
        (records.filter fun other => !decide (other.id = request.record.id)).map
          DeviceRecord.row := by
    simp only [List.filter_map, Function.comp_def, DeviceRecord.row_id, equals_blob]
  have fresh (other : DeviceRecord)
      (member : other ∈ records.filter fun other => !decide (other.id = request.record.id)) :
      other.id ≠ (request.merged old).id := by
    have different : other.id ≠ request.record.id := by
      simpa using (List.mem_filter.mp member).2
    exact fun equal => different (equal.trans same)
  have taken : (∃ other ∈ records.filter fun other => !decide (other.id = request.record.id),
      other.address = (request.merged old).address) ↔ AddressTaken records request := by
    simp only [List.mem_filter, AddressTaken, Bool.not_eq_true', decide_eq_false_iff_not]
    constructor
    next => exact fun ⟨other, ⟨member, different⟩, equal⟩ => ⟨other, member, equal, different⟩
    next => exact fun ⟨other, member, equal, different⟩ => ⟨other, ⟨member, different⟩, equal⟩
  rw [TableDef.upsert, DeviceRecord.row_id, find_row, known]
  simp only [Option.map_some, merged_row, others, check_device _ (request.merged old) fresh, taken]
  split
  next => rfl
  next =>
    simp only [Except.map, List.map_map, Except.ok.injEq, List.map_inj_left, Function.comp_apply,
      DeviceRecord.row_id, equals_blob]
    intro other _
    have named : request.record.id = request.deviceId := rfl
    by_cases here : other.id = request.deviceId
    next => simp only [named, here, decide_true, if_true]
    next => simp only [named, here, decide_false, Bool.false_eq_true, if_false]

theorem upsertDevice_eq (records : List DeviceRecord)
    (distinct : Keyed.Distinct DeviceRecord.id records) (request : UpsertDevice) :
    upsertDevice (records.map DeviceRecord.row) request =
      if AddressTaken records request then
        .error (.violation (.unique "devices" "address"))
      else .ok ((upsertRecord records request).map DeviceRecord.row) := by
  have bound : upsertDevice (records.map DeviceRecord.row) request =
      (devicesTable.upsert "id" ["name", "address", "paired", "trusted", "psk", "last_seen"]
        (records.map DeviceRecord.row) request.record.row).mapError .violation := rfl
  rw [bound, upsertRecord]
  cases found : Keyed.lookup DeviceRecord.id records request.deviceId with
  | none =>
    rw [upsert_new records request (Keyed.ne_of_lookup_eq_none _ found)]
    split <;> rfl
  | some old =>
    have ⟨_, same⟩ := (Keyed.lookup_eq_some _ records distinct _ old).mp found
    rw [upsert_known records request old found same]
    split <;> rfl

theorem getDevice_eq (records : List DeviceRecord) (deviceId : List UInt8) :
    getDevice (records.map DeviceRecord.row) deviceId =
      .ok (Keyed.lookup DeviceRecord.id records deviceId) := by
  have selected : select deviceColumns (records.map DeviceRecord.row)
      (fun row => (row "id").equals (.blob deviceId)) =
        (records.filter fun other => other.id = deviceId).map DeviceRecord.values := by
    simp only [select, List.filter_map, List.map_map, Function.comp_def, DeviceRecord.row_id,
      equals_blob, DeviceRecord.map_row]
  rw [getDevice, selected, Keyed.lookup, ← List.head?_filter]
  cases records.filter fun other => other.id = deviceId with
  | nil => rfl
  | cons first others => simp

structure Listed (records : List DeviceRecord) : Prop where
  ids : Keyed.Distinct DeviceRecord.id records
  addresses : Keyed.Distinct DeviceRecord.address records
  metadata : ∀ record ∈ records, record.metadata = "{}"

theorem Listed.concat {records : List DeviceRecord} (listed : Listed records)
    (record : DeviceRecord) (fresh : ∀ other ∈ records, other.id ≠ record.id)
    (free : ∀ other ∈ records, other.address ≠ record.address)
    (initial : record.metadata = "{}") : Listed (records ++ [record]) where
  ids := Keyed.distinct_concat _ records listed.ids record fresh
  addresses := Keyed.distinct_concat _ records listed.addresses record free
  metadata := by
    intro other member
    rcases List.mem_append.mp member with older | newest
    next => exact listed.metadata other older
    next => rwa [List.mem_singleton.mp newest]

theorem Listed.replace {records : List DeviceRecord} (listed : Listed records)
    (record : DeviceRecord)
    (free : ∀ other ∈ records, other.address = record.address → other.id = record.id)
    (initial : record.metadata = "{}") :
    Listed (records.map fun other => if other.id = record.id then record else other) where
  ids := by
    have kept (other : DeviceRecord) :
        (if other.id = record.id then record else other).id = other.id := by
      split
      next here => exact here.symm
      next => rfl
    rw [Keyed.Distinct, List.map_map]
    simp only [Function.comp_def, kept]
    exact listed.ids
  addresses := by
    rw [Keyed.Distinct, List.map_map]
    refine List.Nodup.map_on ?_ (List.Nodup.of_map _ listed.ids)
    intro first here second there equal
    simp only [Function.comp_apply] at equal
    have byAddress : first.address = second.address → first = second :=
      List.inj_on_of_nodup_map listed.addresses here there
    have byId : first.id = second.id → first = second :=
      List.inj_on_of_nodup_map listed.ids here there
    by_cases left : first.id = record.id <;> by_cases right : second.id = record.id
    next => exact byId (left.trans right.symm)
    next =>
      rw [if_pos left, if_neg right] at equal
      exact absurd (free second there equal.symm) right
    next =>
      rw [if_neg left, if_pos right] at equal
      exact absurd (free first here equal) left
    next =>
      rw [if_neg left, if_neg right] at equal
      exact byAddress equal
  metadata := by
    intro other member
    obtain ⟨before, there, made⟩ := List.mem_map.mp member
    rw [← made]
    split
    next => exact initial
    next => exact listed.metadata before there

theorem upsertRecord_listed (records : List DeviceRecord) (listed : Listed records)
    (request : UpsertDevice) (free : ¬ AddressTaken records request) :
    Listed (upsertRecord records request) := by
  rw [upsertRecord]
  cases found : Keyed.lookup DeviceRecord.id records request.deviceId with
  | none =>
    have fresh := Keyed.ne_of_lookup_eq_none _ found
    exact listed.concat request.record fresh
      (fun other member same => free ⟨other, member, same, fresh other member⟩) rfl
  | some old =>
    have ⟨inside, same⟩ := (Keyed.lookup_eq_some _ records listed.ids _ old).mp found
    have own (other : DeviceRecord) (member : other ∈ records)
        (equal : other.address = request.address) : other.id = (request.merged old).id := by
      by_contra different
      exact free ⟨other, member, equal, fun named => different (named.trans same.symm)⟩
    have replaced := listed.replace (request.merged old) own (listed.metadata old inside)
    have named : (request.merged old).id = request.deviceId := same
    rwa [named] at replaced

theorem callUpsert_listed (records : List DeviceRecord) (listed : Listed records)
    (request : UpsertDevice) :
    ∃ next, Listed next ∧
      callUpsert (records.map DeviceRecord.row) request = next.map DeviceRecord.row := by
  by_cases taken : AddressTaken records request
  next =>
    refine ⟨records, listed, ?_⟩
    rw [callUpsert, upsertDevice_eq records listed.ids, if_pos taken]
  next =>
    refine ⟨upsertRecord records request, upsertRecord_listed records listed request taken, ?_⟩
    rw [callUpsert, upsertDevice_eq records listed.ids, if_neg taken]

theorem upserts_listed (records : List DeviceRecord) (listed : Listed records)
    (history : List UpsertDevice) :
    ∃ next, Listed next ∧
      history.foldl callUpsert (records.map DeviceRecord.row) = next.map DeviceRecord.row := by
  induction history generalizing records with
  | nil => exact ⟨records, listed, rfl⟩
  | cons request history ih =>
    have ⟨after, still, same⟩ := callUpsert_listed records listed request
    rw [List.foldl_cons, same]
    exact ih after still

def UpsertDevice.stored (request : UpsertDevice) (old : Option DeviceRecord) : DeviceRecord :=
  { request.record with createdAt := old.elim request.now DeviceRecord.createdAt }

theorem lookup_upsertRecord (records : List DeviceRecord) (listed : Listed records)
    (request : UpsertDevice) (free : ¬ AddressTaken records request) :
    Keyed.lookup DeviceRecord.id (upsertRecord records request) request.deviceId =
      some (request.stored (Keyed.lookup DeviceRecord.id records request.deviceId)) := by
  have after := upsertRecord_listed records listed request free
  rw [Keyed.lookup_eq_some _ _ after.ids]
  refine ⟨?_, rfl⟩
  rw [upsertRecord]
  cases found : Keyed.lookup DeviceRecord.id records request.deviceId with
  | none => exact List.mem_append_right _ (List.mem_singleton_self request.record)
  | some old =>
    have ⟨inside, same⟩ := (Keyed.lookup_eq_some _ records listed.ids _ old).mp found
    have merged : request.merged old = request.stored (some old) := by
      simp [UpsertDevice.merged, UpsertDevice.stored, UpsertDevice.record, same,
        listed.metadata old inside]
    rw [← merged]
    exact List.mem_map.mpr ⟨old, inside, if_pos same⟩

structure UniqueRows (rows : List Row) : Prop where
  ids : (rows.map fun row => row "id").Nodup
  addresses : (rows.map fun row => row "address").Nodup

theorem Listed.uniqueRows {records : List DeviceRecord} (listed : Listed records) :
    UniqueRows (records.map DeviceRecord.row) where
  ids := by
    have blobs : (records.map DeviceRecord.row).map (fun row => row "id") =
        (records.map DeviceRecord.id).map Value.blob := by
      simp [Function.comp_def]
    rw [blobs]
    exact listed.ids.map fun _ _ same => Value.blob.inj same
  addresses := by
    have texts : (records.map DeviceRecord.row).map (fun row => row "address") =
        (records.map DeviceRecord.address).map Value.text := by
      simp [Function.comp_def]
    rw [texts]
    exact listed.addresses.map fun _ _ same => Value.text.inj same

structure Lands (rows : List Row) (request : UpsertDevice) (next : List Row) : Prop where
  succeeds : upsertDevice rows request = .ok next
  returned : ∃ old, getDevice rows request.deviceId = .ok old ∧
    getDevice next request.deviceId = .ok (some (request.stored old))
  unique : UniqueRows next

theorem upsert_lands_iff (history : List UpsertDevice) (request : UpsertDevice) :
    let rows := history.foldl callUpsert []
    ((∃ next, Lands rows request next) ↔
      ∀ row ∈ rows, row "address" = .text request.address → row "id" = .blob request.deviceId) ∧
    UniqueRows rows := by
  have empty : Listed [] := ⟨List.nodup_nil, List.nodup_nil, by simp⟩
  have ⟨records, listed, reached⟩ := upserts_listed [] empty history
  rw [List.map_nil] at reached
  have condition : (∀ row ∈ records.map DeviceRecord.row,
      row "address" = .text request.address → row "id" = .blob request.deviceId) ↔
        ¬ AddressTaken records request := by
    simp [AddressTaken]
  intro rows
  have same : rows = records.map DeviceRecord.row := reached
  rw [same, condition]
  refine ⟨?_, listed.uniqueRows⟩
  constructor
  next =>
    intro ⟨next, lands⟩ taken
    have succeeds := lands.succeeds
    rw [upsertDevice_eq records listed.ids, if_pos taken] at succeeds
    cases succeeds
  next =>
    intro free
    have after := upsertRecord_listed records listed request free
    refine ⟨(upsertRecord records request).map DeviceRecord.row, ?_, ?_, after.uniqueRows⟩
    next => rw [upsertDevice_eq records listed.ids, if_neg free]
    next =>
      refine ⟨_, getDevice_eq records request.deviceId, ?_⟩
      rw [getDevice_eq, lookup_upsertRecord records listed request free]

def phoneRequest (deviceId : List UInt8) : UpsertDevice where
  deviceId := deviceId
  name := some "Test Device"
  address := "AA:BB:CC:DD:EE:FF"
  paired := true
  trusted := true
  psk := none
  now := 1000

theorem reinstalled_phone_refused :
    upsertDevice ([phoneRequest [1, 2, 3, 4, 5, 6]].foldl callUpsert [])
        (phoneRequest [6, 5, 4, 3, 2, 1]) =
      .error (.violation (.unique "devices" "address")) ∧
    ¬ ∃ next, Lands ([phoneRequest [1, 2, 3, 4, 5, 6]].foldl callUpsert [])
      (phoneRequest [6, 5, 4, 3, 2, 1]) next := by
  have refused : upsertDevice ([phoneRequest [1, 2, 3, 4, 5, 6]].foldl callUpsert [])
      (phoneRequest [6, 5, 4, 3, 2, 1]) =
        .error (.violation (.unique "devices" "address")) := rfl
  refine ⟨refused, fun ⟨next, lands⟩ => ?_⟩
  have succeeds := lands.succeeds
  rw [refused] at succeeds
  cases succeeds

end BitDrive.Core
