import BitDrive.Core.Devices

set_option autoImplicit false

namespace BitDrive.Core

open Sql

def getPairedDevices (rows : List Row) : Except Sql.Error (List DeviceRecord) :=
  match (select deviceColumns rows fun row => (row "paired").equals (.integer 1)).mapM
      DeviceRecord.ofValues with
  | some records => .ok records
  | none => .error .columnType

@[simp] theorem DeviceRecord.row_paired (record : DeviceRecord) :
    record.row "paired" = .ofBool record.paired := rfl

theorem getPairedDevices_eq (records : List DeviceRecord) :
    getPairedDevices (records.map DeviceRecord.row) = .ok (records.filter (·.paired)) := by
  have flag (value : Bool) : (Value.ofBool value).equals (.integer 1) = value := by
    cases value <;> rfl
  have selected : select deviceColumns (records.map DeviceRecord.row)
      (fun row => (row "paired").equals (.integer 1)) =
        (records.filter (·.paired)).map DeviceRecord.values := by
    simp only [select, List.filter_map, List.map_map, Function.comp_def, DeviceRecord.row_paired,
      flag, DeviceRecord.map_row]
  rw [getPairedDevices, selected, mapM_read _ _ DeviceRecord.ofValues_values]

theorem lookup_upsertRecord_ne (records : List DeviceRecord) (request : UpsertDevice)
    (deviceId : List UInt8) (other : request.deviceId ≠ deviceId) :
    Keyed.lookup DeviceRecord.id (upsertRecord records request) deviceId =
      Keyed.lookup DeviceRecord.id records deviceId := by
  rw [upsertRecord]
  cases found : Keyed.lookup DeviceRecord.id records request.deviceId with
  | none =>
    have fresh := Keyed.ne_of_lookup_eq_none _ found
    have apart : deviceId ≠ request.record.id := fun same => other same.symm
    rw [Keyed.lookup_concat _ records request.record fresh, Function.update_of_ne apart]
  | some old =>
    have named := Keyed.lookup_key _ found
    have kept (record : DeviceRecord) :
        (if record.id = request.deviceId then request.merged old else record).id = record.id := by
      split
      next here => exact named.trans here.symm
      next => rfl
    rw [Keyed.lookup_map _ _ kept]
    cases known : Keyed.lookup DeviceRecord.id records deviceId with
    | none => rfl
    | some record =>
      have apart : ¬ record.id = request.deviceId :=
        fun same => other (same.symm.trans (Keyed.lookup_key _ known))
      rw [Option.map_some, if_neg apart]

def latest (log : List UpsertDevice) (deviceId : List UInt8) : Option UpsertDevice :=
  Keyed.lookup UpsertDevice.deviceId log.reverse deviceId

def described (log : List UpsertDevice) (deviceId : List UInt8) : Option DeviceRecord :=
  match Keyed.lookup UpsertDevice.deviceId log deviceId, latest log deviceId with
  | some first, some last => some { last.record with createdAt := first.now }
  | _, _ => none

def Elsewhere (log : List UpsertDevice) (request : UpsertDevice) : Prop :=
  ∃ other ∈ log, other.deviceId ≠ request.deviceId ∧
    (latest log other.deviceId).map UpsertDevice.address = some request.address

instance (log : List UpsertDevice) (request : UpsertDevice) : Decidable (Elsewhere log request) :=
  inferInstanceAs (Decidable (∃ other ∈ log, _ ∧ _))

def accept (log : List UpsertDevice) (request : UpsertDevice) : List UpsertDevice :=
  if Elsewhere log request then log else log ++ [request]

theorem latest_concat (log : List UpsertDevice) (request : UpsertDevice) (deviceId : List UInt8) :
    latest (log ++ [request]) deviceId =
      if request.deviceId = deviceId then some request else latest log deviceId := by
  simp [latest, Keyed.lookup_cons]

theorem latest_isSome (log : List UpsertDevice) (deviceId : List UInt8) :
    (latest log deviceId).isSome = (Keyed.lookup UpsertDevice.deviceId log deviceId).isSome := by
  rw [Bool.eq_iff_iff, latest, Keyed.lookup, Keyed.lookup, List.find?_isSome, List.find?_isSome]
  simp only [List.mem_reverse]

theorem described_eq_some {log : List UpsertDevice} {deviceId : List UInt8} {record : DeviceRecord}
    (known : described log deviceId = some record) :
    ∃ last, latest log deviceId = some last ∧ last.address = record.address ∧
      record.id = deviceId := by
  rw [described] at known
  split at known
  next first last _ found =>
    obtain rfl := Option.some.inj known
    have named : last.deviceId = deviceId := Keyed.lookup_key _ found
    exact ⟨last, found, rfl, named⟩
  next => cases known

theorem described_concat (log : List UpsertDevice) (request : UpsertDevice)
    (deviceId : List UInt8) :
    described (log ++ [request]) deviceId =
      if request.deviceId = deviceId then some (request.stored (described log deviceId))
      else described log deviceId := by
  have both := latest_isSome log deviceId
  have first : Keyed.lookup UpsertDevice.deviceId (log ++ [request]) deviceId =
      (Keyed.lookup UpsertDevice.deviceId log deviceId).or
        (if request.deviceId = deviceId then some request else none) := by
    rw [Keyed.lookup, List.find?_append]
    by_cases here : request.deviceId = deviceId <;> simp [Keyed.lookup, here]
  rw [described, described, first, latest_concat]
  cases oldest : Keyed.lookup UpsertDevice.deviceId log deviceId with
  | none =>
    cases newest : latest log deviceId with
    | none => by_cases here : request.deviceId = deviceId <;> simp [here, UpsertDevice.stored]
    | some last => simp [oldest, newest] at both
  | some oldest' =>
    cases newest : latest log deviceId with
    | none => simp [oldest, newest] at both
    | some last => by_cases here : request.deviceId = deviceId <;> simp [here, UpsertDevice.stored]

structure Viewed (records : List DeviceRecord) (log : List UpsertDevice) : Prop where
  listed : Listed records
  known : ∀ deviceId, Keyed.lookup DeviceRecord.id records deviceId = described log deviceId

theorem Viewed.member_iff {records : List DeviceRecord} {log : List UpsertDevice}
    (viewed : Viewed records log) (record : DeviceRecord) :
    record ∈ records ↔ described log record.id = some record := by
  rw [← viewed.known, Keyed.lookup_eq_some _ records viewed.listed.ids]
  exact (and_iff_left rfl).symm

theorem Viewed.taken_iff {records : List DeviceRecord} {log : List UpsertDevice}
    (viewed : Viewed records log) (request : UpsertDevice) :
    AddressTaken records request ↔ Elsewhere log request := by
  constructor
  next =>
    rintro ⟨record, member, held, apart⟩
    obtain ⟨last, found, same, _⟩ := described_eq_some ((viewed.member_iff record).mp member)
    have named : last.deviceId = record.id := Keyed.lookup_key _ found
    have logged : last ∈ log := List.mem_reverse.mp (List.mem_of_find?_eq_some found)
    refine ⟨last, logged, fun equal => apart (named.symm.trans equal), ?_⟩
    rw [named, found, Option.map_some, same, held]
  next =>
    rintro ⟨other, logged, apart, held⟩
    obtain ⟨last, found, address⟩ := Option.map_eq_some_iff.mp held
    cases known : described log other.deviceId with
    | none =>
      have both := latest_isSome log other.deviceId
      rw [described, found] at known
      cases oldest : Keyed.lookup UpsertDevice.deviceId log other.deviceId with
      | none => simp [found, oldest] at both
      | some first => simp [oldest] at known
    | some record =>
      obtain ⟨_, again, same, named⟩ := described_eq_some known
      obtain rfl := Option.some.inj (found.symm.trans again)
      have inside := (viewed.member_iff record).mpr (by rw [named, known])
      exact ⟨record, inside, same.symm.trans address, by rwa [named]⟩

theorem Viewed.step {records : List DeviceRecord} {log : List UpsertDevice}
    (viewed : Viewed records log) (request : UpsertDevice) :
    ∃ next, Viewed next (accept log request) ∧
      callUpsert (records.map DeviceRecord.row) request = next.map DeviceRecord.row := by
  have result := upsertDevice_eq records viewed.listed.ids request
  by_cases taken : AddressTaken records request
  next =>
    refine ⟨records, ?_, ?_⟩
    next => rwa [accept, if_pos ((viewed.taken_iff request).mp taken)]
    next => rw [callUpsert, result, if_pos taken]
  next =>
    refine ⟨upsertRecord records request, ⟨?_, ?_⟩, ?_⟩
    next => exact upsertRecord_listed records viewed.listed request taken
    next =>
      intro deviceId
      rw [accept, if_neg fun elsewhere => taken ((viewed.taken_iff request).mpr elsewhere),
        described_concat]
      by_cases here : request.deviceId = deviceId
      next =>
        subst here
        rw [if_pos rfl, lookup_upsertRecord records viewed.listed request taken, viewed.known]
      next => rw [if_neg here, lookup_upsertRecord_ne records request deviceId here, viewed.known]
    next => rw [callUpsert, result, if_neg taken]

theorem viewed_history (history : List UpsertDevice) :
    ∃ records, Viewed records (history.foldl accept []) ∧
      history.foldl callUpsert [] = records.map DeviceRecord.row := by
  induction history using List.reverseRecOn with
  | nil =>
    refine ⟨[], ⟨⟨List.nodup_nil, List.nodup_nil, by simp⟩, ?_⟩, rfl⟩
    exact fun deviceId => rfl
  | append_singleton history request ih =>
    obtain ⟨records, viewed, reached⟩ := ih
    obtain ⟨next, after, same⟩ := viewed.step request
    simp only [List.foldl_append, List.foldl_cons, List.foldl_nil]
    exact ⟨next, after, by rw [reached, same]⟩

theorem upsertDevice_isOk_iff {records : List DeviceRecord} {log : List UpsertDevice}
    (viewed : Viewed records log) (request : UpsertDevice) :
    (upsertDevice (records.map DeviceRecord.row) request).isOk = true ↔ ¬ Elsewhere log request := by
  rw [upsertDevice_eq records viewed.listed.ids request, ← viewed.taken_iff request]
  by_cases taken : AddressTaken records request <;> simp [taken, Except.isOk, Except.toBool]

theorem device_log_view (history : List UpsertDevice) :
    let rows := history.foldl callUpsert []
    let log := history.foldl accept []
    (∀ request, (upsertDevice rows request).isOk = true ↔ ¬ Elsewhere log request) ∧
      (∀ deviceId, getDevice rows deviceId = .ok (described log deviceId)) ∧
      ∃ records, getPairedDevices rows = .ok records ∧ Keyed.Distinct DeviceRecord.id records ∧
        ∀ record, record ∈ records ↔
          described log record.id = some record ∧ record.paired = true := by
  obtain ⟨records, viewed, reached⟩ := viewed_history history
  simp only [reached]
  refine ⟨upsertDevice_isOk_iff viewed, ?_, ?_⟩
  next =>
    intro deviceId
    rw [getDevice_eq, viewed.known]
  next =>
    refine ⟨records.filter (·.paired), getPairedDevices_eq records, ?_, ?_⟩
    next => exact List.Nodup.sublist (List.filter_sublist.map _) viewed.listed.ids
    next =>
      intro record
      rw [List.mem_filter, viewed.member_iff]

end BitDrive.Core
