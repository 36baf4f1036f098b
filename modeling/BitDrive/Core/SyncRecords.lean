import BitDrive.Core.Schema

set_option autoImplicit false

namespace BitDrive.Core

open Sql

structure SyncJobRecord where
  id : String
  name : String
  description : String
  direction : String
  localPath : String
  remotePath : String
  enabled : Bool
  autoSync : Bool
  scheduleType : Option String
  scheduleValue : Option String
  conflictStrategy : String
  filters : String
  status : String
  lastSync : Option Int64
  createdAt : Int64
  updatedAt : Int64
  stats : String
  deriving DecidableEq

structure SyncConflictRecord where
  id : String
  jobId : String
  localPath : String
  remotePath : String
  localMetadata : String
  remoteMetadata : String
  localHash : String
  remoteHash : String
  detectedAt : Int64
  resolved : Bool
  resolutionStrategy : String
  deriving DecidableEq, Inhabited

structure SyncTables where
  -- Whether the database enforces foreign keys; the source leaves it at the default.
  foreignKeys : Bool
  syncJobs : List Row
  syncConflicts : List Row

def SyncTables.empty (foreignKeys : Bool) : SyncTables where
  foreignKeys := foreignKeys
  syncJobs := []
  syncConflicts := []

def insertJobColumns : List String :=
  ["id", "name", "description", "direction", "local_path", "remote_path", "enabled", "auto_sync",
    "schedule_type", "schedule_value", "conflict_strategy", "filters", "status", "last_sync",
    "created_at", "updated_at", "stats"]

def selectJobColumns : List String :=
  ["id", "name", "description", "direction", "local_path", "remote_path", "enabled", "auto_sync",
    "schedule_type", "schedule_value", "conflict_strategy", "filters", "status", "last_sync",
    "created_at", "updated_at", "stats"]

def insertConflictColumns : List String :=
  ["id", "job_id", "local_path", "remote_path", "local_metadata", "remote_metadata", "local_hash",
    "remote_hash", "detected_at", "resolved", "resolution_strategy"]

def selectConflictColumns : List String :=
  ["id", "job_id", "local_path", "remote_path", "local_metadata", "remote_metadata", "local_hash",
    "remote_hash", "detected_at", "resolved", "resolution_strategy"]

namespace SyncTables

def createSyncJob (tables : SyncTables) (job : SyncJobRecord) : Except Sql.Error SyncTables :=
  let parameters :=
    [.text job.id, .text job.name, .text job.description, .text job.direction,
      .text job.localPath, .text job.remotePath, .ofBool job.enabled, .ofBool job.autoSync,
      .ofOption .text job.scheduleType, .ofOption .text job.scheduleValue,
      .text job.conflictStrategy, .text job.filters, .ofOption .integer job.lastSync,
      .integer job.createdAt, .integer job.updatedAt]
  match values [.parameter, .parameter, .parameter, .parameter, .parameter, .parameter,
      .parameter, .parameter, .parameter, .parameter, .parameter, .parameter,
      .literal (.text "idle"), .parameter, .parameter, .parameter, .literal (.text "{}")]
      parameters with
  | none => .error .parameterCount
  | some values =>
    match syncJobsTable.insert tables.syncJobs (rowOf insertJobColumns values) with
    | .error violation => .error (.violation violation)
    | .ok rows => .ok { tables with syncJobs := rows }

def updateSyncJobStatus (tables : SyncTables) (jobId status : String) (now : Int64) :
    SyncTables :=
  { tables with
    syncJobs := update tables.syncJobs (fun row => (row "id").equals (.text jobId))
      [("status", .text status), ("updated_at", .integer now)] }

def updateSyncJobLastSync (tables : SyncTables) (jobId : String) (lastSync now : Int64) :
    SyncTables :=
  { tables with
    syncJobs := update tables.syncJobs (fun row => (row "id").equals (.text jobId))
      [("last_sync", .integer lastSync), ("updated_at", .integer now)] }

-- The conflicts go with their job where foreign keys are enforced.
def deleteSyncJob (tables : SyncTables) (jobId : String) : SyncTables :=
  { tables with
    syncJobs := delete tables.syncJobs fun row => (row "id").equals (.text jobId)
    syncConflicts :=
      if tables.foreignKeys then
        delete tables.syncConflicts fun row => (row "job_id").equals (.text jobId)
      else tables.syncConflicts }

def addSyncConflict (tables : SyncTables) (conflict : SyncConflictRecord) :
    Except Sql.Error SyncTables :=
  let parameters :=
    [.text conflict.id, .text conflict.jobId, .text conflict.localPath, .text conflict.remotePath,
      .text conflict.localMetadata, .text conflict.remoteMetadata, .text conflict.localHash,
      .text conflict.remoteHash, .integer conflict.detectedAt, .text conflict.resolutionStrategy]
  match values [.parameter, .parameter, .parameter, .parameter, .parameter, .parameter,
      .parameter, .parameter, .parameter, .literal (.integer 0), .parameter] parameters with
  | none => .error .parameterCount
  | some values =>
    match syncConflictsTable.insert tables.syncConflicts (rowOf insertConflictColumns values) with
    | .error violation => .error (.violation violation)
    | .ok rows =>
      if tables.foreignKeys && !tables.syncJobs.any fun job =>
          (job "id").equals (.text conflict.jobId) then
        .error (.violation .foreignKey)
      else .ok { tables with syncConflicts := rows }

def resolveSyncConflict (tables : SyncTables) (conflictId strategy : String) : SyncTables :=
  { tables with
    syncConflicts := update tables.syncConflicts (fun row => (row "id").equals (.text conflictId))
      [("resolved", .integer 1), ("resolution_strategy", .text strategy)] }

end SyncTables

namespace SyncJobRecord

def ofValues : List Value → Option SyncJobRecord
  | [id, name, description, direction, localPath, remotePath, enabled, autoSync, scheduleType,
      scheduleValue, conflictStrategy, filters, status, lastSync, createdAt, updatedAt, stats] => do
    return {
      id := ← id.toText
      name := ← name.toText
      description := ← description.toText
      direction := ← direction.toText
      localPath := ← localPath.toText
      remotePath := ← remotePath.toText
      enabled := ← enabled.toBool
      autoSync := ← autoSync.toBool
      scheduleType := ← scheduleType.toOption Value.toText
      scheduleValue := ← scheduleValue.toOption Value.toText
      conflictStrategy := ← conflictStrategy.toText
      filters := ← filters.toText
      status := ← status.toText
      lastSync := ← lastSync.toOption Value.toInteger
      createdAt := ← createdAt.toInteger
      updatedAt := ← updatedAt.toInteger
      stats := ← stats.toText }
  | _ => none

def values (job : SyncJobRecord) : List Value :=
  [.text job.id, .text job.name, .text job.description, .text job.direction, .text job.localPath,
    .text job.remotePath, .ofBool job.enabled, .ofBool job.autoSync,
    .ofOption .text job.scheduleType, .ofOption .text job.scheduleValue,
    .text job.conflictStrategy, .text job.filters, .text job.status,
    .ofOption .integer job.lastSync, .integer job.createdAt, .integer job.updatedAt,
    .text job.stats]

@[simp] theorem ofValues_values (job : SyncJobRecord) : ofValues job.values = some job := by
  simp [ofValues, values]

end SyncJobRecord

namespace SyncConflictRecord

def ofValues : List Value → Option SyncConflictRecord
  | [id, jobId, localPath, remotePath, localMetadata, remoteMetadata, localHash, remoteHash,
      detectedAt, resolved, resolutionStrategy] => do
    return {
      id := ← id.toText
      jobId := ← jobId.toText
      localPath := ← localPath.toText
      remotePath := ← remotePath.toText
      localMetadata := ← localMetadata.toText
      remoteMetadata := ← remoteMetadata.toText
      localHash := ← localHash.toText
      remoteHash := ← remoteHash.toText
      detectedAt := ← detectedAt.toInteger
      resolved := ← resolved.toBool
      resolutionStrategy := ← resolutionStrategy.toText }
  | _ => none

def values (conflict : SyncConflictRecord) : List Value :=
  [.text conflict.id, .text conflict.jobId, .text conflict.localPath, .text conflict.remotePath,
    .text conflict.localMetadata, .text conflict.remoteMetadata, .text conflict.localHash,
    .text conflict.remoteHash, .integer conflict.detectedAt, .ofBool conflict.resolved,
    .text conflict.resolutionStrategy]

@[simp] theorem ofValues_values (conflict : SyncConflictRecord) :
    ofValues conflict.values = some conflict := by
  simp [ofValues, values]

theorem values_inj {left right : SyncConflictRecord} (same : left.values = right.values) :
    left = right := by
  have read := congrArg ofValues same
  rw [ofValues_values, ofValues_values] at read
  exact Option.some.inj read

end SyncConflictRecord

namespace SyncTables

def getSyncJob (tables : SyncTables) (jobId : String) :
    Except Sql.Error (Option SyncJobRecord) :=
  match select selectJobColumns tables.syncJobs fun row => (row "id").equals (.text jobId) with
  | [] => .ok none
  | values :: _ =>
    match SyncJobRecord.ofValues values with
    | some record => .ok (some record)
    | none => .error .columnType

def getSyncConflicts (tables : SyncTables) (jobId : String) :
    Except Sql.Error (List SyncConflictRecord) :=
  let found := select selectConflictColumns tables.syncConflicts fun row =>
    (row "job_id").equals (.text jobId)
  match found.mapM SyncConflictRecord.ofValues with
  | some records => .ok records
  | none => .error .columnType

end SyncTables

inductive SyncCall where
  | createSyncJob (job : SyncJobRecord)
  | updateSyncJobStatus (jobId status : String) (now : Int64)
  | updateSyncJobLastSync (jobId : String) (lastSync now : Int64)
  | deleteSyncJob (jobId : String)
  | addSyncConflict (conflict : SyncConflictRecord)
  | resolveSyncConflict (conflictId strategy : String)

def SyncTables.call (tables : SyncTables) : SyncCall → SyncTables
  | .createSyncJob job => (tables.createSyncJob job).toOption.getD tables
  | .updateSyncJobStatus jobId status now => tables.updateSyncJobStatus jobId status now
  | .updateSyncJobLastSync jobId lastSync now => tables.updateSyncJobLastSync jobId lastSync now
  | .deleteSyncJob jobId => tables.deleteSyncJob jobId
  | .addSyncConflict conflict => (tables.addSyncConflict conflict).toOption.getD tables
  | .resolveSyncConflict conflictId strategy => tables.resolveSyncConflict conflictId strategy

def SyncCall.SparesJob (id : String) : SyncCall → Prop
  | createSyncJob job => job.id ≠ id
  | updateSyncJobStatus jobId _ _ => jobId ≠ id
  | updateSyncJobLastSync jobId _ _ => jobId ≠ id
  | deleteSyncJob jobId => jobId ≠ id
  | addSyncConflict _ => True
  | resolveSyncConflict _ _ => True

def SyncCall.SparesConflict (id job : String) : SyncCall → Prop
  | createSyncJob _ => True
  | updateSyncJobStatus _ _ _ => True
  | updateSyncJobLastSync _ _ _ => True
  | deleteSyncJob jobId => jobId ≠ job
  | addSyncConflict conflict => conflict.id ≠ id
  | resolveSyncConflict conflictId _ => conflictId ≠ id

namespace SyncJobRecord

def row (job : SyncJobRecord) : Row := rowOf insertJobColumns job.values

def stored (job : SyncJobRecord) : SyncJobRecord := { job with status := "idle", stats := "{}" }

theorem map_row (job : SyncJobRecord) : selectJobColumns.map job.row = job.values :=
  map_rowOf insertJobColumns job.values (by decide) rfl

@[simp] theorem row_id (job : SyncJobRecord) : job.row "id" = .text job.id := rfl

@[simp] theorem stored_id (job : SyncJobRecord) : job.stored.id = job.id := rfl

theorem stored_eq_self (job : SyncJobRecord) :
    job.stored = job ↔ job.status = "idle" ∧ job.stats = "{}" := by
  constructor
  next =>
    intro same
    exact ⟨(congrArg status same).symm, (congrArg stats same).symm⟩
  next =>
    intro ⟨idle, empty⟩
    cases job
    cases idle
    cases empty
    rfl

end SyncJobRecord

namespace SyncConflictRecord

def row (conflict : SyncConflictRecord) : Row := rowOf insertConflictColumns conflict.values

def stored (conflict : SyncConflictRecord) : SyncConflictRecord :=
  { conflict with resolved := false }

theorem map_row (conflict : SyncConflictRecord) :
    selectConflictColumns.map conflict.row = conflict.values :=
  map_rowOf insertConflictColumns conflict.values (by decide) rfl

@[simp] theorem row_id (conflict : SyncConflictRecord) :
    conflict.row "id" = .text conflict.id := rfl

@[simp] theorem row_jobId (conflict : SyncConflictRecord) :
    conflict.row "job_id" = .text conflict.jobId := rfl

@[simp] theorem stored_id (conflict : SyncConflictRecord) :
    conflict.stored.id = conflict.id := rfl

@[simp] theorem stored_jobId (conflict : SyncConflictRecord) :
    conflict.stored.jobId = conflict.jobId := rfl

theorem stored_eq_self (conflict : SyncConflictRecord) :
    conflict.stored = conflict ↔ conflict.resolved = false := by
  constructor
  next =>
    intro same
    exact (congrArg resolved same).symm
  next =>
    intro unresolved
    cases conflict
    cases unresolved
    rfl

end SyncConflictRecord

namespace SyncTables

theorem createSyncJob_eq (tables : SyncTables) (job : SyncJobRecord) :
    tables.createSyncJob job =
      match syncJobsTable.insert tables.syncJobs job.stored.row with
      | .error violation => .error (.violation violation)
      | .ok rows => .ok { tables with syncJobs := rows } := rfl

theorem addSyncConflict_eq (tables : SyncTables) (conflict : SyncConflictRecord) :
    tables.addSyncConflict conflict =
      match syncConflictsTable.insert tables.syncConflicts conflict.stored.row with
      | .error violation => .error (.violation violation)
      | .ok rows =>
        if tables.foreignKeys && !tables.syncJobs.any fun job =>
            (job "id").equals (.text conflict.jobId) then
          .error (.violation .foreignKey)
        else .ok { tables with syncConflicts := rows } := rfl

def FreshJob (tables : SyncTables) (id : String) : Prop :=
  ∀ row ∈ tables.syncJobs, row "id" ≠ .text id

def FreshConflict (tables : SyncTables) (id : String) : Prop :=
  ∀ row ∈ tables.syncConflicts, row "id" ≠ .text id

def HasJob (tables : SyncTables) (id : String) : Prop :=
  ∃ row ∈ tables.syncJobs, row "id" = .text id

theorem createSyncJob_of_fresh (tables : SyncTables) (job : SyncJobRecord)
    (fresh : tables.FreshJob job.id) :
    tables.createSyncJob job =
      .ok { tables with syncJobs := tables.syncJobs ++ [job.stored.row] } := by
  have inserted : syncJobsTable.insert tables.syncJobs job.stored.row =
      .ok (tables.syncJobs ++ [job.stored.row]) :=
    syncJobsTable.insert_of_fresh "id" rfl _ _ rfl fresh
  rw [createSyncJob_eq, inserted]

theorem addSyncConflict_of_fresh (tables : SyncTables) (conflict : SyncConflictRecord)
    (fresh : tables.FreshConflict conflict.id) (job : tables.HasJob conflict.jobId) :
    tables.addSyncConflict conflict =
      .ok { tables with syncConflicts := tables.syncConflicts ++ [conflict.stored.row] } := by
  have inserted : syncConflictsTable.insert tables.syncConflicts conflict.stored.row =
      .ok (tables.syncConflicts ++ [conflict.stored.row]) :=
    syncConflictsTable.insert_of_fresh "id" rfl _ _ rfl fresh
  have known : (tables.syncJobs.any fun job => (job "id").equals (.text conflict.jobId)) = true := by
    have ⟨row, member, same⟩ := job
    exact List.any_eq_true.mpr ⟨row, member, by simp [same, equals_text]⟩
  rw [addSyncConflict_eq, inserted]
  simp [known]

theorem call_createSyncJob (tables : SyncTables) (job : SyncJobRecord) :
    tables.call (.createSyncJob job) = tables ∨
      tables.call (.createSyncJob job) =
        { tables with syncJobs := tables.syncJobs ++ [job.stored.row] } := by
  rw [call, createSyncJob_eq]
  cases inserted : syncJobsTable.insert tables.syncJobs job.stored.row with
  | error violation => exact .inl rfl
  | ok rows =>
    rw [TableDef.of_insert_eq_ok inserted]
    exact .inr rfl

theorem call_addSyncConflict (tables : SyncTables) (conflict : SyncConflictRecord) :
    tables.call (.addSyncConflict conflict) = tables ∨
      tables.call (.addSyncConflict conflict) =
        { tables with syncConflicts := tables.syncConflicts ++ [conflict.stored.row] } := by
  rw [call, addSyncConflict_eq]
  cases inserted : syncConflictsTable.insert tables.syncConflicts conflict.stored.row with
  | error violation => exact .inl rfl
  | ok rows =>
    rw [TableDef.of_insert_eq_ok inserted]
    simp only
    split
    next => exact .inl rfl
    next => exact .inr rfl

theorem call_keeps_job (tables : SyncTables) (id : String) (row : Row)
    (holds : Sql.Holds tables.syncJobs "id" row) (named : row "id" = .text id) (request : SyncCall)
    (spares : request.SparesJob id) : Sql.Holds (tables.call request).syncJobs "id" row := by
  have unmatched (jobId : String) (different : jobId ≠ id) :
      (row "id").equals (.text jobId) = false := by
    rw [named, equals_text, decide_eq_false different.symm]
  cases request with
  | createSyncJob job =>
    rcases tables.call_createSyncJob job with same | added
    next => rwa [same]
    next =>
      rw [added]
      refine holds.append job.stored.row ?_
      rw [named, SyncJobRecord.row_id, SyncJobRecord.stored_id]
      exact fun same => spares (Value.text.inj same)
  | updateSyncJobStatus jobId status now => exact holds.update _ _ (unmatched jobId spares) rfl
  | updateSyncJobLastSync jobId lastSync now =>
    exact holds.update _ _ (unmatched jobId spares) rfl
  | deleteSyncJob jobId => exact holds.delete _ (unmatched jobId spares)
  | addSyncConflict conflict => rcases tables.call_addSyncConflict conflict with h | h <;> rwa [h]
  | resolveSyncConflict conflictId strategy => exact holds

theorem call_keeps_conflict (tables : SyncTables) (id job : String) (row : Row)
    (holds : Sql.Holds tables.syncConflicts "id" row) (named : row "id" = .text id)
    (owned : row "job_id" = .text job) (request : SyncCall)
    (spares : request.SparesConflict id job) :
    Sql.Holds (tables.call request).syncConflicts "id" row := by
  cases request with
  | createSyncJob job => rcases tables.call_createSyncJob job with h | h <;> rwa [h]
  | updateSyncJobStatus jobId status now => exact holds
  | updateSyncJobLastSync jobId lastSync now => exact holds
  | deleteSyncJob jobId =>
    rw [call, deleteSyncJob]
    simp only
    split
    next =>
      refine holds.delete _ ?_
      rw [owned, equals_text, decide_eq_false fun same => spares same.symm]
    next => exact holds
  | addSyncConflict conflict =>
    rcases tables.call_addSyncConflict conflict with same | added
    next => rwa [same]
    next =>
      rw [added]
      refine holds.append conflict.stored.row ?_
      rw [named, SyncConflictRecord.row_id, SyncConflictRecord.stored_id]
      exact fun same => spares (Value.text.inj same)
  | resolveSyncConflict conflictId strategy =>
    refine holds.update _ _ ?_ rfl
    rw [named, equals_text, decide_eq_false fun same => spares same.symm]

theorem calls_keep_job (tables : SyncTables) (id : String) (row : Row)
    (holds : Sql.Holds tables.syncJobs "id" row) (named : row "id" = .text id)
    (later : List SyncCall) (spares : ∀ request ∈ later, request.SparesJob id) :
    Sql.Holds (later.foldl call tables).syncJobs "id" row := by
  induction later generalizing tables with
  | nil => exact holds
  | cons request later ih =>
    have ⟨first, rest⟩ := List.forall_mem_cons.mp spares
    exact ih (tables.call request) (tables.call_keeps_job id row holds named request first) rest

theorem calls_keep_conflict (tables : SyncTables) (id job : String) (row : Row)
    (holds : Sql.Holds tables.syncConflicts "id" row) (named : row "id" = .text id)
    (owned : row "job_id" = .text job) (later : List SyncCall)
    (spares : ∀ request ∈ later, request.SparesConflict id job) :
    Sql.Holds (later.foldl call tables).syncConflicts "id" row := by
  induction later generalizing tables with
  | nil => exact holds
  | cons request later ih =>
    have ⟨first, rest⟩ := List.forall_mem_cons.mp spares
    exact ih (tables.call request)
      (tables.call_keeps_conflict id job row holds named owned request first) rest

def Readable (tables : SyncTables) : Prop :=
  ∀ row ∈ tables.syncConflicts, ∃ record : SyncConflictRecord,
    selectConflictColumns.map row = record.values

theorem call_readable (tables : SyncTables) (readable : tables.Readable) (request : SyncCall) :
    (tables.call request).Readable := by
  cases request with
  | createSyncJob job => rcases tables.call_createSyncJob job with h | h <;> rwa [h]
  | updateSyncJobStatus jobId status now => exact readable
  | updateSyncJobLastSync jobId lastSync now => exact readable
  | deleteSyncJob jobId =>
    intro row member
    rw [call, deleteSyncJob] at member
    simp only at member
    split at member
    next => exact readable row (List.mem_filter.mp member).1
    next => exact readable row member
  | addSyncConflict conflict =>
    rcases tables.call_addSyncConflict conflict with same | added
    next => rwa [same]
    next =>
      rw [added]
      intro row member
      rcases List.mem_append.mp member with older | newest
      next => exact readable row older
      next =>
        rw [List.mem_singleton.mp newest]
        exact ⟨conflict.stored, conflict.stored.map_row⟩
  | resolveSyncConflict conflictId strategy =>
    intro row member
    have ⟨before, there, made⟩ := List.mem_map.mp member
    have ⟨record, same⟩ := readable before there
    split at made
    next =>
      refine ⟨{ record with resolved := true, resolutionStrategy := strategy }, ?_⟩
      rw [← made]
      simp only [selectConflictColumns, List.map_cons, List.map_nil, SyncConflictRecord.values,
        List.cons.injEq] at same
      simp [selectConflictColumns, SyncConflictRecord.values, Value.ofBool, same,
        List.lookup_cons]
    next => exact ⟨record, made ▸ same⟩

theorem calls_readable (tables : SyncTables) (readable : tables.Readable)
    (later : List SyncCall) : (later.foldl call tables).Readable := by
  induction later generalizing tables with
  | nil => exact readable
  | cons request later ih => exact ih (tables.call request) (tables.call_readable readable request)

theorem getSyncJob_of_holds (tables : SyncTables) (job : SyncJobRecord)
    (holds : Sql.Holds tables.syncJobs "id" job.row) :
    tables.getSyncJob job.id = .ok (some job) := by
  have ⟨others, found⟩ := holds.select selectJobColumns (by simp)
  rw [SyncJobRecord.row_id, SyncJobRecord.map_row] at found
  rw [getSyncJob, found]
  simp

theorem getSyncConflicts_of_readable (tables : SyncTables) (readable : tables.Readable)
    (jobId : String) : ∃ records, tables.getSyncConflicts jobId = .ok records ∧
      ∀ record, record ∈ records ↔ ∃ row ∈ tables.syncConflicts,
        row "job_id" = .text jobId ∧ selectConflictColumns.map row = record.values := by
  let matching := tables.syncConflicts.filter fun row => (row "job_id").equals (.text jobId)
  have matched (row : Row) :
      row ∈ matching ↔ row ∈ tables.syncConflicts ∧ row "job_id" = .text jobId := by
    simp only [matching, List.mem_filter, Value.equals, Bool.and_eq_true, decide_eq_true_eq]
    constructor
    next =>
      rintro ⟨member, _, same⟩
      exact ⟨member, same⟩
    next =>
      rintro ⟨member, same⟩
      exact ⟨member, by simp [same], same⟩
  have each : ∀ row ∈ matching, ∃ record : SyncConflictRecord,
      selectConflictColumns.map row = record.values :=
    fun row member => readable row ((matched row).mp member).1
  choose! read same using each
  have found : select selectConflictColumns tables.syncConflicts
      (fun row => (row "job_id").equals (.text jobId)) =
        (matching.map read).map SyncConflictRecord.values := by
    rw [List.map_map]
    exact List.map_congr_left same
  refine ⟨matching.map read, ?_, fun record => ?_⟩
  next => rw [getSyncConflicts, found, mapM_read _ _ SyncConflictRecord.ofValues_values]
  next =>
    rw [List.mem_map]
    constructor
    next =>
      rintro ⟨row, member, made⟩
      obtain ⟨there, owned⟩ := (matched row).mp member
      exact ⟨row, there, owned, made ▸ same row member⟩
    next =>
      rintro ⟨row, there, owned, values⟩
      have member := (matched row).mpr ⟨there, owned⟩
      exact ⟨row, member, SyncConflictRecord.values_inj ((same row member).symm.trans values)⟩

end SyncTables

def JobReturns (tables : SyncTables) (job : SyncJobRecord) (later : List SyncCall) : Prop :=
  ∃ next, tables.createSyncJob job = .ok next ∧
    (later.foldl SyncTables.call next).getSyncJob job.id = .ok (some job)

def ConflictReturns (tables : SyncTables) (conflict : SyncConflictRecord)
    (later : List SyncCall) : Prop :=
  ∃ next records, tables.addSyncConflict conflict = .ok next ∧
    (later.foldl SyncTables.call next).getSyncConflicts conflict.jobId = .ok records ∧
    conflict ∈ records

theorem created_job_read (tables : SyncTables) (job : SyncJobRecord)
    (fresh : tables.FreshJob job.id) (later : List SyncCall)
    (spares : ∀ request ∈ later, request.SparesJob job.id) :
    ∃ next, tables.createSyncJob job = .ok next ∧
      (later.foldl SyncTables.call next).getSyncJob job.id = .ok (some job.stored) := by
  refine ⟨_, tables.createSyncJob_of_fresh job fresh, ?_⟩
  have holds := holds_insert tables.syncJobs "id" job.stored.row fresh
  exact SyncTables.getSyncJob_of_holds _ job.stored
    (SyncTables.calls_keep_job { tables with syncJobs := tables.syncJobs ++ [job.stored.row] }
      job.id job.stored.row holds rfl later spares)

theorem added_conflict_read (tables : SyncTables) (readable : tables.Readable)
    (conflict : SyncConflictRecord) (fresh : tables.FreshConflict conflict.id)
    (job : tables.HasJob conflict.jobId) (later : List SyncCall)
    (spares : ∀ request ∈ later, request.SparesConflict conflict.id conflict.jobId) :
    ∃ next records, tables.addSyncConflict conflict = .ok next ∧
      (later.foldl SyncTables.call next).getSyncConflicts conflict.jobId = .ok records ∧
      ∀ record, record.id = conflict.id → (record ∈ records ↔ record = conflict.stored) := by
  have added := tables.addSyncConflict_of_fresh conflict fresh job
  have called : tables.call (.addSyncConflict conflict) =
      { tables with syncConflicts := tables.syncConflicts ++ [conflict.stored.row] } := by
    rw [SyncTables.call, added]
    rfl
  let next : SyncTables :=
    { tables with syncConflicts := tables.syncConflicts ++ [conflict.stored.row] }
  have nextReadable : next.Readable := by
    rw [show next = tables.call (.addSyncConflict conflict) from called.symm]
    exact tables.call_readable readable (.addSyncConflict conflict)
  have kept := next.calls_keep_conflict conflict.id conflict.jobId conflict.stored.row
    (holds_insert tables.syncConflicts "id" conflict.stored.row fresh) rfl rfl later spares
  have ⟨records, found, members⟩ := SyncTables.getSyncConflicts_of_readable _
    (next.calls_readable nextReadable later) conflict.jobId
  refine ⟨next, records, added, found, fun record named => ?_⟩
  rw [members]
  constructor
  next =>
    intro ⟨row, there, owned, values⟩
    have id : row "id" = .text record.id := by
      simp only [selectConflictColumns, List.map_cons, SyncConflictRecord.values,
        List.cons.injEq] at values
      exact values.1
    have same : row = conflict.stored.row :=
      kept.only row there (by rw [id, named, SyncConflictRecord.row_id, SyncConflictRecord.stored_id])
    rw [same, SyncConflictRecord.map_row] at values
    exact (SyncConflictRecord.values_inj values).symm
  next =>
    intro same
    rw [same]
    exact ⟨conflict.stored.row, kept.member, rfl, conflict.stored.map_row⟩

theorem records_return_iff (foreignKeys : Bool) (history : List SyncCall) :
    let tables := history.foldl SyncTables.call (.empty foreignKeys)
    (∀ job later, tables.FreshJob job.id →
      (∀ request ∈ later, SyncCall.SparesJob job.id request) →
      (JobReturns tables job later ↔ job.status = "idle" ∧ job.stats = "{}")) ∧
    ∀ conflict later, tables.FreshConflict conflict.id → tables.HasJob conflict.jobId →
      (∀ request ∈ later, SyncCall.SparesConflict conflict.id conflict.jobId request) →
      (ConflictReturns tables conflict later ↔ conflict.resolved = false) := by
  intro tables
  have readable : tables.Readable :=
    SyncTables.calls_readable (.empty foreignKeys) (fun _ member => nomatch member) history
  constructor
  next =>
    intro job later fresh spares
    have ⟨next, created, read⟩ := created_job_read tables job fresh later spares
    rw [← job.stored_eq_self]
    constructor
    next =>
      intro ⟨other, again, returned⟩
      obtain rfl : next = other := Except.ok.inj (created.symm.trans again)
      exact Option.some.inj (Except.ok.inj (read.symm.trans returned))
    next =>
      intro same
      exact ⟨next, created, by rw [read, same]⟩
  next =>
    intro conflict later fresh job spares
    have ⟨next, records, added, read, members⟩ :=
      added_conflict_read tables readable conflict fresh job later spares
    rw [← conflict.stored_eq_self]
    constructor
    next =>
      intro ⟨other, found, again, returned, member⟩
      obtain rfl : next = other := Except.ok.inj (added.symm.trans again)
      obtain rfl : records = found := Except.ok.inj (read.symm.trans returned)
      exact ((members conflict rfl).mp member).symm
    next =>
      intro same
      exact ⟨next, records, added, read, (members conflict rfl).mpr same.symm⟩

def runningJob : SyncJobRecord where
  id := "job-1"
  name := "Test Job"
  description := "Test description"
  direction := "bidirectional"
  localPath := "/local/path"
  remotePath := "/remote/path"
  enabled := true
  autoSync := false
  scheduleType := none
  scheduleValue := none
  conflictStrategy := "last_write_wins"
  filters := "{}"
  status := "running"
  lastSync := none
  createdAt := 1000
  updatedAt := 1000
  stats := "{}"

def resolvedConflict : SyncConflictRecord where
  id := "conflict-1"
  jobId := "job-1"
  localPath := "/local/path"
  remotePath := "/remote/path"
  localMetadata := "{}"
  remoteMetadata := "{}"
  localHash := ""
  remoteHash := ""
  detectedAt := 1000
  resolved := true
  resolutionStrategy := "keep_local"

theorem runningJob_fresh : (SyncTables.empty true).FreshJob "job-1" :=
  fun _ member => nomatch member

theorem runningJob_created :
    (SyncTables.empty true).call (.createSyncJob runningJob) =
      { SyncTables.empty true with syncJobs := [runningJob.stored.row] } := by
  rw [SyncTables.call, SyncTables.createSyncJob_of_fresh _ _ runningJob_fresh]
  rfl

theorem resolvedConflict_fresh :
    ((SyncTables.empty true).call (.createSyncJob runningJob)).FreshConflict "conflict-1" := by
  rw [runningJob_created]
  exact fun _ member => nomatch member

theorem resolvedConflict_owner :
    ((SyncTables.empty true).call (.createSyncJob runningJob)).HasJob "job-1" := by
  rw [runningJob_created]
  exact ⟨runningJob.stored.row, List.mem_singleton_self _, rfl⟩

theorem records_return_iff_open :
    JobReturns (.empty true) { runningJob with status := "idle" }
        [.deleteSyncJob "job-2", .createSyncJob { runningJob with id := "job-2" }] ∧
    ConflictReturns ((SyncTables.empty true).call (.createSyncJob runningJob))
        { resolvedConflict with resolved := false } [.updateSyncJobStatus "job-1" "idle" 2000] := by
  constructor
  next =>
    refine ((records_return_iff true []).1 { runningJob with status := "idle" } _
      runningJob_fresh ?_).mpr ⟨rfl, rfl⟩
    simp [SyncCall.SparesJob, runningJob]
  next =>
    refine ((records_return_iff true [.createSyncJob runningJob]).2
      { resolvedConflict with resolved := false } _ resolvedConflict_fresh
      resolvedConflict_owner ?_).mpr rfl
    simp [SyncCall.SparesConflict]

theorem records_altered :
    (SyncTables.empty true).FreshJob runningJob.id ∧
    ¬ JobReturns (.empty true) runningJob [] ∧
    let tables := (SyncTables.empty true).call (.createSyncJob runningJob)
    tables.FreshConflict resolvedConflict.id ∧ tables.HasJob resolvedConflict.jobId ∧
    ¬ ConflictReturns tables resolvedConflict [] := by
  refine ⟨runningJob_fresh, ?_, resolvedConflict_fresh, resolvedConflict_owner, ?_⟩
  next =>
    intro ⟨next, again, returned⟩
    have created := SyncTables.createSyncJob_of_fresh _ runningJob runningJob_fresh
    obtain rfl : _ = next := Except.ok.inj (created.symm.trans again)
    have idle : some runningJob.stored = some runningJob := Except.ok.inj returned
    exact absurd (congrArg (Option.map SyncJobRecord.status) idle) (by decide)
  next =>
    intro ⟨next, records, again, returned, member⟩
    have added := SyncTables.addSyncConflict_of_fresh _ resolvedConflict resolvedConflict_fresh
      resolvedConflict_owner
    obtain rfl : _ = next := Except.ok.inj (added.symm.trans again)
    rw [runningJob_created] at returned
    have unresolved : [resolvedConflict.stored] = records := Except.ok.inj returned
    rw [← unresolved, List.mem_singleton] at member
    exact absurd (congrArg SyncConflictRecord.resolved member) (by decide)

end BitDrive.Core
