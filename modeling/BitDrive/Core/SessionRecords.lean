import BitDrive.Core.Devices
import BitDrive.Shared.Lifetime

set_option autoImplicit false

namespace BitDrive.Core

open Sql

structure SessionRecord where
  id : List UInt8
  deviceId : List UInt8
  protocolVersion : String
  sessionKeys : List UInt8
  capabilities : String
  state : String
  createdAt : Int64
  lastActivity : Int64
  bytesSent : Int64
  bytesReceived : Int64
  deriving DecidableEq

structure CreateSession where
  sessionId : List UInt8
  deviceId : List UInt8
  protocolVersion : String
  sessionKeys : List UInt8
  capabilities : String
  now : Int64

structure SessionTables where
  -- Whether the database enforces foreign keys; the source leaves it at the default.
  foreignKeys : Bool
  devices : List Row
  sessions : List Row

def SessionTables.empty (foreignKeys : Bool) : SessionTables where
  foreignKeys := foreignKeys
  devices := []
  sessions := []

def insertSessionColumns : List String :=
  ["id", "device_id", "protocol_version", "session_keys", "capabilities", "state", "created_at",
    "last_activity"]

def selectSessionColumns : List String :=
  ["id", "device_id", "protocol_version", "session_keys", "capabilities", "state", "created_at",
    "last_activity", "bytes_sent", "bytes_received"]

-- The columns that the statement does not name have their defaults.
def sessionRow (values : List Value) : Row :=
  rowOf (insertSessionColumns ++ ["bytes_sent", "bytes_received"])
    (values ++ [.integer 0, .integer 0])

namespace SessionTables

def createSession (tables : SessionTables) (request : CreateSession) :
    Except Sql.Error SessionTables :=
  let parameters :=
    [.blob request.sessionId, .blob request.deviceId, .text request.protocolVersion,
      .blob request.sessionKeys, .text request.capabilities, .integer request.now,
      .integer request.now]
  match values [.parameter, .parameter, .parameter, .parameter, .parameter,
      .literal (.text "opening"), .parameter, .parameter] parameters with
  | none => .error .parameterCount
  | some values =>
    match sessionsTable.insert tables.sessions (sessionRow values) with
    | .error violation => .error (.violation violation)
    | .ok rows =>
      if tables.foreignKeys && !tables.devices.any fun device =>
          (device "id").equals (.blob request.deviceId) then
        .error (.violation .foreignKey)
      else .ok { tables with sessions := rows }

def updateSessionState (tables : SessionTables) (sessionId : List UInt8) (state : String)
    (now : Int64) : SessionTables :=
  { tables with
    sessions := update tables.sessions (fun row => (row "id").equals (.blob sessionId))
      [("state", .text state), ("last_activity", .integer now)] }

end SessionTables

namespace SessionRecord

def ofValues : List Value → Option SessionRecord
  | [id, deviceId, protocolVersion, sessionKeys, capabilities, state, createdAt, lastActivity,
      bytesSent, bytesReceived] => do
    return {
      id := ← id.toBlob
      deviceId := ← deviceId.toBlob
      protocolVersion := ← protocolVersion.toText
      sessionKeys := ← sessionKeys.toBlob
      capabilities := ← capabilities.toText
      state := ← state.toText
      createdAt := ← createdAt.toInteger
      lastActivity := ← lastActivity.toInteger
      bytesSent := ← bytesSent.toInteger
      bytesReceived := ← bytesReceived.toInteger }
  | _ => none

def values (record : SessionRecord) : List Value :=
  [.blob record.id, .blob record.deviceId, .text record.protocolVersion, .blob record.sessionKeys,
    .text record.capabilities, .text record.state, .integer record.createdAt,
    .integer record.lastActivity, .integer record.bytesSent, .integer record.bytesReceived]

def row (record : SessionRecord) : Row := rowOf selectSessionColumns record.values

@[simp] theorem ofValues_values (record : SessionRecord) :
    ofValues record.values = some record := by
  simp [ofValues, values]

theorem map_row (record : SessionRecord) : selectSessionColumns.map record.row = record.values :=
  map_rowOf selectSessionColumns record.values (by decide) rfl

@[simp] theorem row_id (record : SessionRecord) : record.row "id" = .blob record.id := rfl

@[simp] theorem row_state (record : SessionRecord) : record.row "state" = .text record.state := rfl

end SessionRecord

def activeStates : List String := ["opening", "negotiating", "authenticating", "active"]

namespace SessionTables

def getSession (tables : SessionTables) (sessionId : List UInt8) :
    Except Sql.Error (Option SessionRecord) :=
  match select selectSessionColumns tables.sessions fun row =>
      (row "id").equals (.blob sessionId) with
  | [] => .ok none
  | values :: _ =>
    match SessionRecord.ofValues values with
    | some record => .ok (some record)
    | none => .error .columnType

def getActiveSessions (tables : SessionTables) : Except Sql.Error (List SessionRecord) :=
  let found := select selectSessionColumns tables.sessions fun row =>
    activeStates.any fun state => (row "state").equals (.text state)
  match found.mapM SessionRecord.ofValues with
  | some records => .ok records
  | none => .error .columnType

end SessionTables

inductive SessionCall where
  | upsertDevice (request : UpsertDevice)
  | createSession (request : CreateSession)
  | updateSessionState (sessionId : List UInt8) (state : String) (now : Int64)

def SessionTables.call (tables : SessionTables) : SessionCall → SessionTables
  | .upsertDevice request => { tables with devices := callUpsert tables.devices request }
  | .createSession request => (tables.createSession request).toOption.getD tables
  | .updateSessionState sessionId state now => tables.updateSessionState sessionId state now

def CreateSession.record (request : CreateSession) : SessionRecord where
  id := request.sessionId
  deviceId := request.deviceId
  protocolVersion := request.protocolVersion
  sessionKeys := request.sessionKeys
  capabilities := request.capabilities
  state := "opening"
  createdAt := request.now
  lastActivity := request.now
  bytesSent := 0
  bytesReceived := 0

def SessionRecord.moved (record : SessionRecord) (state : String) (now : Int64) : SessionRecord :=
  { record with state := state, lastActivity := now }

def SessionRecord.track (record : SessionRecord) : SessionCall → SessionRecord
  | .updateSessionState sessionId state now =>
    if sessionId = record.id then record.moved state now else record
  | _ => record

@[simp] theorem SessionRecord.track_id (record : SessionRecord) (request : SessionCall) :
    (record.track request).id = record.id := by
  cases request with
  | updateSessionState sessionId state now =>
    rw [track]
    split <;> rfl
  | _ => rfl

@[simp] theorem SessionRecord.track_deviceId (record : SessionRecord) (request : SessionCall) :
    (record.track request).deviceId = record.deviceId := by
  cases request with
  | updateSessionState sessionId state now =>
    rw [track]
    split <;> rfl
  | _ => rfl

theorem moved_row (record : SessionRecord) (state : String) (now : Int64) :
    (fun column => ([("state", Value.text state), ("last_activity", Value.integer now)].lookup
        column).getD (record.row column)) = (record.moved state now).row :=
  assigned_rowOf selectSessionColumns record.values _ _ (by decide) (by simp [selectSessionColumns])
    rfl

theorem row_named (sessionId : List UInt8) (record : SessionRecord) :
    (record.row "id").equals (.blob sessionId) = decide (record.id = sessionId) := by
  rw [SessionRecord.row_id, equals_blob]

namespace SessionTables

structure Stores (tables : SessionTables) (records : List SessionRecord) : Prop where
  rows : tables.sessions = records.map SessionRecord.row
  distinct : Keyed.Distinct SessionRecord.id records

def HasDevice (tables : SessionTables) (deviceId : List UInt8) : Prop :=
  ∃ row ∈ tables.devices, row "id" = .blob deviceId

instance (tables : SessionTables) (deviceId : List UInt8) :
    Decidable (tables.HasDevice deviceId) :=
  inferInstanceAs (Decidable (∃ row ∈ tables.devices, row "id" = .blob deviceId))

theorem any_device (tables : SessionTables) (deviceId : List UInt8) :
    (tables.devices.any fun device => (device "id").equals (.blob deviceId)) =
      decide (tables.HasDevice deviceId) := by
  rw [Bool.eq_iff_iff, List.any_eq_true, decide_eq_true_eq]
  constructor
  next =>
    rintro ⟨row, member, equals⟩
    rw [Value.equals, Bool.and_eq_true, decide_eq_true_eq, decide_eq_true_eq] at equals
    exact ⟨row, member, equals.2⟩
  next =>
    rintro ⟨row, member, same⟩
    exact ⟨row, member, by simp [same, equals_blob]⟩

theorem createSession_eq (tables : SessionTables) (records : List SessionRecord)
    (stores : tables.Stores records) (request : CreateSession) :
    tables.createSession request =
      if ∃ other ∈ records, other.id = request.sessionId then
        .error (.violation (.unique "sessions" "id"))
      else if tables.foreignKeys = true ∧ ¬ tables.HasDevice request.deviceId then
        .error (.violation .foreignKey)
      else
        .ok { tables with sessions := (records ++ [request.record]).map SessionRecord.row } := by
  have bound : tables.createSession request =
      match sessionsTable.insert tables.sessions request.record.row with
      | .error violation => .error (.violation violation)
      | .ok rows =>
        if tables.foreignKeys && !tables.devices.any fun device =>
            (device "id").equals (.blob request.deviceId) then
          .error (.violation .foreignKey)
        else .ok { tables with sessions := rows } := rfl
  rw [bound, tables.any_device]
  by_cases taken : ∃ other ∈ records, other.id = request.sessionId
  next =>
    have refused : sessionsTable.insert tables.sessions request.record.row =
        .error (.unique "sessions" "id") := by
      refine sessionsTable.insert_of_taken "id" rfl _ _ rfl ?_
      simpa [stores.rows, equals_blob, CreateSession.record] using taken
    rw [refused, if_pos taken]
  next =>
    have inserted : sessionsTable.insert tables.sessions request.record.row =
        .ok (tables.sessions ++ [request.record.row]) := by
      refine sessionsTable.insert_of_fresh "id" rfl _ _ rfl ?_
      simpa [stores.rows, CreateSession.record] using taken
    rw [inserted, if_neg taken]
    cases tables.foreignKeys <;> by_cases known : tables.HasDevice request.deviceId <;>
      simp [known, stores.rows]

theorem updateSessionState_eq (tables : SessionTables) (records : List SessionRecord)
    (stores : tables.Stores records) (sessionId : List UInt8) (state : String) (now : Int64) :
    (tables.updateSessionState sessionId state now).sessions =
      (records.map fun record => record.track (.updateSessionState sessionId state now)).map
        SessionRecord.row := by
  have tracked (record : SessionRecord) :
      record.track (.updateSessionState sessionId state now) =
        if record.id = sessionId then record.moved state now else record := by
    simp only [SessionRecord.track, eq_comm]
  simp only [tracked, updateSessionState, stores.rows]
  exact update_rows _ _ _ _ _ (row_named sessionId) (moved_row · state now) records

theorem getSession_eq (tables : SessionTables) (records : List SessionRecord)
    (stores : tables.Stores records) (sessionId : List UInt8) :
    tables.getSession sessionId = .ok (Keyed.lookup SessionRecord.id records sessionId) := by
  rw [getSession, stores.rows,
    select_rows _ _ _ _ _ SessionRecord.map_row (row_named sessionId), Keyed.lookup,
    ← List.head?_filter]
  cases records.filter fun other => other.id = sessionId with
  | nil => rfl
  | cons first others => simp

theorem getActiveSessions_eq (tables : SessionTables) (records : List SessionRecord)
    (stores : tables.Stores records) :
    tables.getActiveSessions =
      .ok (records.filter fun record => record.state ∈ activeStates) := by
  have active (record : SessionRecord) :
      (activeStates.any fun state => (record.row "state").equals (.text state)) =
        decide (record.state ∈ activeStates) := by
    simp [SessionRecord.row_state, equals_text, activeStates]
  have selected := select_rows SessionRecord.row
    (fun row => activeStates.any fun state => (row "state").equals (.text state))
    (fun record => record.state ∈ activeStates) _ _ SessionRecord.map_row active records
  rw [getActiveSessions, stores.rows, selected]
  simp only [mapM_read _ _ SessionRecord.ofValues_values]

def newSession (tables : SessionTables) : SessionCall → Option SessionRecord
  | .createSession request =>
    if (tables.createSession request).isOk then some request.record else none
  | _ => none

def afterCall (tables : SessionTables) (records : List SessionRecord) (request : SessionCall) :
    List SessionRecord :=
  records.filterMap (fun record => some (record.track request)) ++
    (tables.newSession request).toList

theorem createSession_isOk (tables : SessionTables) (records : List SessionRecord)
    (stores : tables.Stores records) (request : CreateSession) :
    (tables.createSession request).isOk = true ↔
      (∀ other ∈ records, other.id ≠ request.sessionId) ∧
        (tables.foreignKeys = true → tables.HasDevice request.deviceId) := by
  rw [createSession_eq tables records stores]
  by_cases taken : ∃ other ∈ records, other.id = request.sessionId
  next =>
    obtain ⟨other, member, same⟩ := taken
    rw [if_pos ⟨other, member, same⟩]
    constructor
    next => exact fun ok => Bool.noConfusion ok
    next => exact fun fresh => absurd same (fresh.1 other member)
  next =>
    have fresh : ∀ other ∈ records, other.id ≠ request.sessionId :=
      fun other member same => taken ⟨other, member, same⟩
    rw [if_neg taken]
    by_cases orphan : tables.foreignKeys = true ∧ ¬ tables.HasDevice request.deviceId
    next =>
      rw [if_pos orphan]
      constructor
      next => exact fun ok => Bool.noConfusion ok
      next => exact fun both => absurd (both.2 orphan.1) orphan.2
    next =>
      rw [if_neg orphan]
      constructor
      next =>
        intro _
        refine ⟨fresh, fun enforced => ?_⟩
        by_contra unknown
        exact orphan ⟨enforced, unknown⟩
      next => exact fun _ => rfl

theorem newSession_fresh {tables : SessionTables} {records : List SessionRecord}
    (stores : tables.Stores records) {request : SessionCall} {record : SessionRecord}
    (new : tables.newSession request = some record) :
    (∀ other ∈ records, other.id ≠ record.id) ∧
      ∀ other : SessionRecord, some (other.track request) = some other := by
  cases request with
  | createSession given =>
    simp only [newSession] at new
    split at new
    next made =>
      obtain rfl := Option.some.inj new
      exact ⟨((createSession_isOk tables records stores given).mp made).1, fun other => rfl⟩
    next => cases new
  | _ => cases new

theorem track_named (request : SessionCall) (record next : SessionRecord)
    (tracked : some (record.track request) = some next) : next.id = record.id := by
  rw [← Option.some.inj tracked, SessionRecord.track_id]

theorem call_rows {tables : SessionTables} {records : List SessionRecord}
    (stores : tables.Stores records) (request : SessionCall) :
    (tables.call request).sessions = (tables.afterCall records request).map SessionRecord.row := by
  have kept : records.filterMap some = records := List.filterMap_some
  cases request with
  | upsertDevice request =>
    simp [call, afterCall, newSession, SessionRecord.track, kept, stores.rows]
  | createSession request =>
    have made := createSession_eq tables records stores request
    by_cases taken : ∃ other ∈ records, other.id = request.sessionId
    next =>
      rw [if_pos taken] at made
      simp [call, made, afterCall, newSession, Except.toOption, Except.isOk, Except.toBool,
        SessionRecord.track, kept, stores.rows]
    next =>
      rw [if_neg taken] at made
      by_cases orphan : tables.foreignKeys = true ∧ ¬ tables.HasDevice request.deviceId
      next =>
        rw [if_pos orphan] at made
        simp [call, made, afterCall, newSession, Except.toOption, Except.isOk, Except.toBool,
          SessionRecord.track, kept, stores.rows]
      next =>
        rw [if_neg orphan] at made
        simp [call, made, afterCall, newSession, Except.toOption, Except.isOk, Except.toBool,
          SessionRecord.track, kept]
  | updateSessionState sessionId state now =>
    have updated := tables.updateSessionState_eq records stores sessionId state now
    have idle : (tables.newSession (.updateSessionState sessionId state now)).toList = [] := rfl
    rw [call, updated, afterCall, idle, List.append_nil]
    exact congrArg _ (congrFun List.filterMap_eq_map _).symm

theorem call_stores {tables : SessionTables} {records : List SessionRecord}
    (stores : tables.Stores records) (request : SessionCall) :
    (tables.call request).Stores (tables.afterCall records request) where
  rows := call_rows stores request
  distinct := Keyed.distinct_evolved _ _ _ (track_named request) records stores.distinct
    fun _ new => newSession_fresh stores new

def run (tables : SessionTables) (history : List SessionCall) : SessionTables :=
  history.foldl call tables

theorem run_stores (foreignKeys : Bool) (history : List SessionCall) :
    ∃ records, ((empty foreignKeys).run history).Stores records := by
  induction history using List.reverseRecOn with
  | nil => exact ⟨[], rfl, .nil⟩
  | append_singleton history request ih =>
    obtain ⟨records, stores⟩ := ih
    rw [run, List.foldl_append]
    exact ⟨_, call_stores stores request⟩

def sessionOf (tables : SessionTables) (sessionId : List UInt8) : Option SessionRecord :=
  (tables.getSession sessionId).toOption.join

theorem sessionOf_eq {tables : SessionTables} {records : List SessionRecord}
    (stores : tables.Stores records) (sessionId : List UInt8) :
    tables.sessionOf sessionId = Keyed.lookup SessionRecord.id records sessionId := by
  rw [sessionOf, getSession_eq tables records stores]
  rfl

theorem session_governs (foreignKeys : Bool) (sessionId : List UInt8) (before : List SessionCall)
    (request : SessionCall) :
    Lifetime.Governs call (·.sessionOf sessionId)
      (fun tables request => (tables.newSession request).filter (·.id = sessionId))
      (fun record request => some (record.track request))
      (before.foldl call (empty foreignKeys)) request := by
  obtain ⟨records, stores⟩ := run_stores foreignKeys before
  rw [run] at stores
  rw [Lifetime.Governs, sessionOf_eq (call_stores stores request), sessionOf_eq stores]
  exact Keyed.lookup_evolved _ _ _ (track_named request) records stores.distinct
    (fun _ new => newSession_fresh stores new) sessionId

theorem newSession_eq (tables : SessionTables) (request : SessionCall) (sessionId : List UInt8)
    (first : SessionRecord) :
    (tables.newSession request).filter (·.id = sessionId) = some first ↔
      ∃ given, request = .createSession given ∧ given.sessionId = sessionId ∧
        (tables.createSession given).isOk = true ∧ given.record = first := by
  rw [Option.filter_eq_some_iff]
  cases request with
  | createSession given =>
    by_cases made : (tables.createSession given).isOk = true
    next =>
      rw [newSession, if_pos made]
      constructor
      next =>
        rintro ⟨same, named⟩
        obtain rfl := Option.some.inj same
        exact ⟨given, rfl, of_decide_eq_true named, made, rfl⟩
      next =>
        rintro ⟨other, same, named, _, rfl⟩
        obtain rfl := SessionCall.createSession.inj same
        exact ⟨rfl, decide_eq_true named⟩
    next =>
      rw [newSession, if_neg made]
      simp [made]
  | _ => simp [newSession]

theorem foldlM_track (after : List SessionCall) (record : SessionRecord) :
    after.foldlM (fun record request => some (record.track request)) record =
      some (after.foldl SessionRecord.track record) :=
  List.foldlM_pure

theorem createSession_absent (foreignKeys : Bool) (history : List SessionCall)
    (request : CreateSession)
    (made : (((empty foreignKeys).run history).createSession request).isOk = true) :
    ((empty foreignKeys).run history).sessionOf request.sessionId = none := by
  obtain ⟨records, stores⟩ := run_stores foreignKeys history
  rw [sessionOf_eq stores]
  exact Keyed.lookup_eq_none _ _ _ ((createSession_isOk _ records stores request).mp made).1

theorem sessionOf_eq_some_iff (foreignKeys : Bool) (history : List SessionCall)
    (sessionId : List UInt8) (record : SessionRecord) :
    ((empty foreignKeys).run history).sessionOf sessionId = some record ↔
      ∃ before request after, history = before ++ .createSession request :: after ∧
        request.sessionId = sessionId ∧
        (((empty foreignKeys).run before).createSession request).isOk = true ∧
        record = after.foldl SessionRecord.track request.record := by
  refine (Lifetime.view_eq_some_iff (empty foreignKeys) rfl (session_governs foreignKeys sessionId)
    history record).trans ?_
  constructor
  next =>
    rintro ⟨before, birth, after, first, split, absent, born, lived⟩
    obtain ⟨request, rfl, named, made, rfl⟩ := (newSession_eq _ _ _ _).mp born
    rw [foldlM_track] at lived
    exact ⟨before, request, after, split, named, made, (Option.some.inj lived).symm⟩
  next =>
    rintro ⟨before, request, after, split, rfl, made, rfl⟩
    exact ⟨before, .createSession request, after, request.record, split,
      createSession_absent foreignKeys before request made,
      (newSession_eq _ _ _ _).mpr ⟨request, rfl, rfl, made, rfl⟩, foldlM_track after _⟩

theorem createSession_frame (tables next : SessionTables) (request : CreateSession)
    (made : tables.createSession request = .ok next) :
    next.foreignKeys = tables.foreignKeys ∧ next.devices = tables.devices := by
  simp only [createSession, values, Option.map_some] at made
  split at made
  next => contradiction
  next =>
    split at made
    next => contradiction
    next =>
      obtain rfl := Except.ok.inj made
      exact ⟨rfl, rfl⟩

theorem call_foreignKeys (tables : SessionTables) (request : SessionCall) :
    (tables.call request).foreignKeys = tables.foreignKeys := by
  cases request with
  | upsertDevice request => rfl
  | createSession request =>
    rw [call]
    cases made : tables.createSession request with
    | error error => rfl
    | ok next => exact (tables.createSession_frame next request made).1
  | updateSessionState sessionId state now => rfl

theorem run_foreignKeys (tables : SessionTables) (history : List SessionCall) :
    (tables.run history).foreignKeys = tables.foreignKeys := by
  induction history generalizing tables with
  | nil => rfl
  | cons request history ih => exact (ih _).trans (tables.call_foreignKeys request)

theorem upsertDevice_keeps {rows next : List Row} {request : UpsertDevice}
    (upserted : upsertDevice rows request = .ok next) (row : Row) (member : row ∈ rows) :
    ∃ after ∈ next, after "id" = row "id" := by
  have bound : (devicesTable.upsert "id"
      ["name", "address", "paired", "trusted", "psk", "last_seen"] rows
        request.record.row).mapError Error.violation = .ok next := upserted
  cases written : devicesTable.upsert "id"
      ["name", "address", "paired", "trusted", "psk", "last_seen"] rows request.record.row with
  | error violation =>
    rw [written] at bound
    contradiction
  | ok stored =>
    rw [written] at bound
    obtain rfl := Except.ok.inj bound
    exact TableDef.of_upsert_eq_ok written (by decide) row member

theorem call_keeps_device (tables : SessionTables) (request : SessionCall) (deviceId : List UInt8)
    (known : tables.HasDevice deviceId) : (tables.call request).HasDevice deviceId := by
  cases request with
  | upsertDevice request =>
    obtain ⟨row, member, named⟩ := known
    simp only [call, HasDevice, callUpsert]
    cases upserted : BitDrive.Core.upsertDevice tables.devices request with
    | error error => exact ⟨row, member, named⟩
    | ok next =>
      obtain ⟨after, there, same⟩ := upsertDevice_keeps upserted row member
      exact ⟨after, there, same.trans named⟩
  | createSession request =>
    rw [call]
    cases made : tables.createSession request with
    | error error => exact known
    | ok next =>
      change next.HasDevice deviceId
      rwa [HasDevice, (tables.createSession_frame next request made).2]
  | updateSessionState sessionId state now => exact known

theorem run_keeps_device (tables : SessionTables) (history : List SessionCall)
    (deviceId : List UInt8) (known : tables.HasDevice deviceId) :
    (tables.run history).HasDevice deviceId := by
  induction history generalizing tables with
  | nil => exact known
  | cons request history ih => exact ih _ (tables.call_keeps_device request deviceId known)

theorem track_deviceId (record : SessionRecord) (after : List SessionCall) :
    (after.foldl SessionRecord.track record).deviceId = record.deviceId := by
  induction after generalizing record with
  | nil => rfl
  | cons request after ih => rw [List.foldl_cons, ih, SessionRecord.track_deviceId]

theorem session_history_iff (foreignKeys : Bool) (history : List SessionCall) :
    let tables := (empty foreignKeys).run history
    (∀ sessionId record, tables.getSession sessionId = .ok (some record) ↔
        ∃ before request after, history = before ++ .createSession request :: after ∧
          request.sessionId = sessionId ∧
          (((empty foreignKeys).run before).createSession request).isOk = true ∧
          record = after.foldl SessionRecord.track request.record) ∧
      (∀ request, (tables.createSession request).isOk = true ↔
        tables.getSession request.sessionId = .ok none ∧
          (foreignKeys = true → tables.HasDevice request.deviceId)) ∧
      (foreignKeys = true → ∀ sessionId record,
        tables.getSession sessionId = .ok (some record) → tables.HasDevice record.deviceId) ∧
      ∃ records, tables.getActiveSessions = .ok records ∧
        (records.map SessionRecord.id).Nodup ∧
        ∀ record, record ∈ records ↔
          tables.getSession record.id = .ok (some record) ∧ record.state ∈ activeStates := by
  intro tables
  obtain ⟨records, stores⟩ := run_stores foreignKeys history
  have found (sessionId : List UInt8) (record : SessionRecord) :=
    sessionOf_eq_some_iff foreignKeys history sessionId record
  simp only [sessionOf_eq stores] at found
  refine ⟨?_, ?_, ?_, _, getActiveSessions_eq tables records stores, ?_, ?_⟩
  next =>
    intro sessionId record
    rw [getSession_eq tables records stores, Except.ok.injEq]
    exact found sessionId record
  next =>
    intro request
    have enforced : tables.foreignKeys = foreignKeys := run_foreignKeys _ history
    rw [createSession_isOk tables records stores, getSession_eq tables records stores, enforced,
      Except.ok.injEq]
    have fresh : (∀ other ∈ records, other.id ≠ request.sessionId) ↔
        Keyed.lookup SessionRecord.id records request.sessionId = none :=
      ⟨Keyed.lookup_eq_none _ records _, Keyed.ne_of_lookup_eq_none _⟩
    rw [fresh]
  next =>
    intro enforced sessionId record got
    rw [getSession_eq tables records stores, Except.ok.injEq, found] at got
    obtain ⟨before, request, after, split, _, ok, rfl⟩ := got
    obtain ⟨earlier, earlierStores⟩ := run_stores foreignKeys before
    have known := ((createSession_isOk _ earlier earlierStores request).mp ok).2
      ((run_foreignKeys _ before).trans enforced)
    have later := run_keeps_device _ (.createSession request :: after) _ known
    have reached : ((empty foreignKeys).run before).run (.createSession request :: after) =
        tables := by
      simp only [tables, split, run, List.foldl_append]
    rw [reached] at later
    rwa [track_deviceId]
  next => exact List.Nodup.sublist (List.filter_sublist.map _) stores.distinct
  next =>
    intro record
    rw [getSession_eq tables records stores, Except.ok.injEq,
      Keyed.lookup_eq_some _ _ stores.distinct, List.mem_filter, decide_eq_true_eq]
    exact and_congr_left fun _ => (and_iff_left rfl).symm

end SessionTables

end BitDrive.Core
