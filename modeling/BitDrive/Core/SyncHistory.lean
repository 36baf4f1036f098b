import BitDrive.Core.SyncRecords
import BitDrive.Shared.Keyed
import BitDrive.Shared.Lifetime

set_option autoImplicit false

namespace BitDrive.Core

open Sql

def SyncTables.listSyncJobs (tables : SyncTables) : Except Sql.Error (List SyncJobRecord) :=
  match (select selectJobColumns tables.syncJobs fun _ => true).mapM SyncJobRecord.ofValues with
  | some records => .ok records
  | none => .error .columnType

def SyncJobRecord.evolve (job : SyncJobRecord) : SyncCall → Option SyncJobRecord
  | .updateSyncJobStatus jobId status now =>
    some (if job.id = jobId then { job with status := status, updatedAt := now } else job)
  | .updateSyncJobLastSync jobId lastSync now =>
    some (if job.id = jobId then { job with lastSync := some lastSync, updatedAt := now } else job)
  | .deleteSyncJob jobId => if job.id = jobId then none else some job
  | _ => some job

def SyncConflictRecord.evolve (foreignKeys : Bool) (conflict : SyncConflictRecord) :
    SyncCall → Option SyncConflictRecord
  | .resolveSyncConflict conflictId strategy =>
    some (if conflict.id = conflictId then
        { conflict with resolved := true, resolutionStrategy := strategy }
      else conflict)
  | .deleteSyncJob jobId =>
    if foreignKeys = true ∧ conflict.jobId = jobId then none else some conflict
  | _ => some conflict

theorem SyncJobRecord.evolve_id (request : SyncCall) (job next : SyncJobRecord)
    (evolved : job.evolve request = some next) : next.id = job.id := by
  cases request with
  | updateSyncJobStatus jobId status now =>
    obtain rfl := Option.some.inj evolved
    split <;> rfl
  | updateSyncJobLastSync jobId lastSync now =>
    obtain rfl := Option.some.inj evolved
    split <;> rfl
  | deleteSyncJob jobId =>
    rw [evolve] at evolved
    split at evolved
    next => cases evolved
    next => rw [Option.some.inj evolved]
  | _ => rw [Option.some.inj evolved]

theorem SyncConflictRecord.evolve_keeps (foreignKeys : Bool) (request : SyncCall)
    (conflict next : SyncConflictRecord) (evolved : conflict.evolve foreignKeys request = some next) :
    next.id = conflict.id ∧ next.jobId = conflict.jobId := by
  cases request with
  | resolveSyncConflict conflictId strategy =>
    obtain rfl := Option.some.inj evolved
    split <;> exact ⟨rfl, rfl⟩
  | deleteSyncJob jobId =>
    rw [evolve] at evolved
    split at evolved
    next => cases evolved
    next =>
      obtain rfl := Option.some.inj evolved
      exact ⟨rfl, rfl⟩
  | _ =>
    obtain rfl := Option.some.inj evolved
    exact ⟨rfl, rfl⟩

namespace SyncTables

def newJob (tables : SyncTables) : SyncCall → Option SyncJobRecord
  | .createSyncJob job => if (tables.createSyncJob job).isOk then some job.stored else none
  | _ => none

def newConflict (tables : SyncTables) : SyncCall → Option SyncConflictRecord
  | .addSyncConflict conflict =>
    if (tables.addSyncConflict conflict).isOk then some conflict.stored else none
  | _ => none

structure Stores (tables : SyncTables) (jobs : List SyncJobRecord)
    (conflicts : List SyncConflictRecord) : Prop where
  jobRows : tables.syncJobs = jobs.map SyncJobRecord.row
  conflictRows : tables.syncConflicts = conflicts.map SyncConflictRecord.row
  jobIds : Keyed.Distinct SyncJobRecord.id jobs
  conflictIds : Keyed.Distinct SyncConflictRecord.id conflicts
  owned : tables.foreignKeys = true → ∀ conflict ∈ conflicts, ∃ job ∈ jobs, job.id = conflict.jobId

theorem createSyncJob_stores {tables : SyncTables} {jobs : List SyncJobRecord}
    {conflicts : List SyncConflictRecord} (stores : tables.Stores jobs conflicts)
    (job : SyncJobRecord) :
    tables.createSyncJob job =
      if ∃ other ∈ jobs, other.id = job.id then .error (.violation (.unique "sync_jobs" "id"))
      else .ok { tables with syncJobs := (jobs ++ [job.stored]).map SyncJobRecord.row } := by
  by_cases taken : ∃ other ∈ jobs, other.id = job.id
  next =>
    have refused : syncJobsTable.insert tables.syncJobs job.stored.row =
        .error (.unique "sync_jobs" "id") := by
      refine syncJobsTable.insert_of_taken "id" rfl _ _ rfl ?_
      simpa [stores.jobRows, equals_text] using taken
    rw [createSyncJob_eq, refused, if_pos taken]
  next =>
    have fresh : tables.FreshJob job.id := by
      simpa [FreshJob, stores.jobRows] using taken
    rw [createSyncJob_of_fresh tables job fresh, if_neg taken, stores.jobRows]
    simp

theorem hasJob_iff {tables : SyncTables} {jobs : List SyncJobRecord}
    {conflicts : List SyncConflictRecord} (stores : tables.Stores jobs conflicts) (jobId : String) :
    (tables.syncJobs.any fun job => (job "id").equals (.text jobId)) =
      decide (∃ job ∈ jobs, job.id = jobId) := by
  rw [Bool.eq_iff_iff, List.any_eq_true, decide_eq_true_eq]
  simp [stores.jobRows, equals_text]

theorem addSyncConflict_stores {tables : SyncTables} {jobs : List SyncJobRecord}
    {conflicts : List SyncConflictRecord} (stores : tables.Stores jobs conflicts)
    (conflict : SyncConflictRecord) :
    tables.addSyncConflict conflict =
      if ∃ other ∈ conflicts, other.id = conflict.id then
        .error (.violation (.unique "sync_conflicts" "id"))
      else if tables.foreignKeys = true ∧ ¬ ∃ job ∈ jobs, job.id = conflict.jobId then
        .error (.violation .foreignKey)
      else .ok { tables with
        syncConflicts := (conflicts ++ [conflict.stored]).map SyncConflictRecord.row } := by
  rw [addSyncConflict_eq, hasJob_iff stores]
  by_cases taken : ∃ other ∈ conflicts, other.id = conflict.id
  next =>
    have refused : syncConflictsTable.insert tables.syncConflicts conflict.stored.row =
        .error (.unique "sync_conflicts" "id") := by
      refine syncConflictsTable.insert_of_taken "id" rfl _ _ rfl ?_
      simpa [stores.conflictRows, equals_text] using taken
    rw [refused, if_pos taken]
  next =>
    have inserted : syncConflictsTable.insert tables.syncConflicts conflict.stored.row =
        .ok (tables.syncConflicts ++ [conflict.stored.row]) := by
      refine syncConflictsTable.insert_of_fresh "id" rfl _ _ rfl ?_
      simpa [stores.conflictRows] using taken
    rw [inserted, if_neg taken]
    by_cases known : ∃ job ∈ jobs, job.id = conflict.jobId <;>
      cases tables.foreignKeys <;> simp [known, stores.conflictRows]

theorem statusAssigned_row (job : SyncJobRecord) (status : String) (now : Int64) :
    (fun column => ([("status", Value.text status), ("updated_at", Value.integer now)].lookup
        column).getD (job.row column)) =
      SyncJobRecord.row { job with status := status, updatedAt := now } :=
  assigned_rowOf insertJobColumns job.values _ _ (by decide) (by simp [insertJobColumns]) rfl

theorem lastSyncAssigned_row (job : SyncJobRecord) (lastSync now : Int64) :
    (fun column => ([("last_sync", Value.integer lastSync), ("updated_at", Value.integer now)].lookup
        column).getD (job.row column)) =
      SyncJobRecord.row { job with lastSync := some lastSync, updatedAt := now } :=
  assigned_rowOf insertJobColumns job.values _ _ (by decide) (by simp [insertJobColumns]) rfl

theorem resolvedAssigned_row (conflict : SyncConflictRecord) (strategy : String) :
    (fun column => ([("resolved", Value.integer 1), ("resolution_strategy", Value.text strategy)
        ].lookup column).getD (conflict.row column)) =
      SyncConflictRecord.row { conflict with resolved := true, resolutionStrategy := strategy } :=
  assigned_rowOf insertConflictColumns conflict.values _ _ (by decide)
    (by simp [insertConflictColumns]) rfl

theorem filterMap_drop {α : Type} (drops : α → Prop) [DecidablePred drops] (values : List α) :
    (values.filterMap fun value => if drops value then none else some value) =
      values.filter fun value => ¬ drops value := by
  induction values with
  | nil => rfl
  | cons value values ih => by_cases dropped : drops value <;> simp [dropped, ih]

def jobsAfter (tables : SyncTables) (jobs : List SyncJobRecord) (request : SyncCall) :
    List SyncJobRecord :=
  jobs.filterMap (·.evolve request) ++ (tables.newJob request).toList

def conflictsAfter (tables : SyncTables) (conflicts : List SyncConflictRecord)
    (request : SyncCall) : List SyncConflictRecord :=
  conflicts.filterMap (·.evolve tables.foreignKeys request) ++ (tables.newConflict request).toList

theorem jobsAfter_of_none (tables : SyncTables) (jobs : List SyncJobRecord) (request : SyncCall)
    (idle : tables.newJob request = none) :
    tables.jobsAfter jobs request = jobs.filterMap (·.evolve request) := by
  rw [jobsAfter, idle, Option.toList_none, List.append_nil]

theorem conflictsAfter_of_none (tables : SyncTables) (conflicts : List SyncConflictRecord)
    (request : SyncCall) (idle : tables.newConflict request = none) :
    tables.conflictsAfter conflicts request =
      conflicts.filterMap (·.evolve tables.foreignKeys request) := by
  rw [conflictsAfter, idle, Option.toList_none, List.append_nil]

theorem jobsAfter_rows {tables : SyncTables} {jobs : List SyncJobRecord}
    {conflicts : List SyncConflictRecord} (stores : tables.Stores jobs conflicts)
    (request : SyncCall) :
    (tables.call request).syncJobs = (tables.jobsAfter jobs request).map SyncJobRecord.row := by
  have named (jobId : String) (job : SyncJobRecord) :
      (job.row "id").equals (.text jobId) = decide (job.id = jobId) := by
    rw [SyncJobRecord.row_id, equals_text]
  have kept : jobs.filterMap some = jobs := List.filterMap_some
  cases request with
  | createSyncJob job =>
    have made := createSyncJob_stores stores job
    by_cases taken : ∃ other ∈ jobs, other.id = job.id
    next =>
      rw [if_pos taken] at made
      simp [call, made, jobsAfter, newJob, Except.toOption, Except.isOk, Except.toBool,
        SyncJobRecord.evolve, kept, stores.jobRows]
    next =>
      rw [if_neg taken] at made
      simp [call, made, jobsAfter, newJob, Except.toOption, Except.isOk, Except.toBool,
        SyncJobRecord.evolve, kept]
  | updateSyncJobStatus jobId status now =>
    rw [call, updateSyncJobStatus, stores.jobRows, update_rows _ _ _ _ _ (named jobId)
      (statusAssigned_row · status now), jobsAfter_of_none _ _ _ rfl]
    exact congrArg _ (congrFun List.filterMap_eq_map _).symm
  | updateSyncJobLastSync jobId lastSync now =>
    rw [call, updateSyncJobLastSync, stores.jobRows, update_rows _ _ _ _ _ (named jobId)
      (lastSyncAssigned_row · lastSync now), jobsAfter_of_none _ _ _ rfl]
    exact congrArg _ (congrFun List.filterMap_eq_map _).symm
  | deleteSyncJob jobId =>
    rw [call, deleteSyncJob, stores.jobRows, delete_rows _ _ _ (named jobId),
      jobsAfter_of_none _ _ _ rfl]
    exact congrArg _ (filterMap_drop (fun job : SyncJobRecord => job.id = jobId) jobs).symm
  | addSyncConflict conflict =>
    have same : (tables.call (.addSyncConflict conflict)).syncJobs = tables.syncJobs := by
      rcases tables.call_addSyncConflict conflict with idle | added
      next => rw [idle]
      next => rw [added]
    simp [same, stores.jobRows, jobsAfter, newJob, SyncJobRecord.evolve, kept]
  | resolveSyncConflict conflictId strategy =>
    simp [call, resolveSyncConflict, stores.jobRows, jobsAfter, newJob, SyncJobRecord.evolve, kept]

theorem conflictsAfter_rows {tables : SyncTables} {jobs : List SyncJobRecord}
    {conflicts : List SyncConflictRecord} (stores : tables.Stores jobs conflicts)
    (request : SyncCall) :
    (tables.call request).syncConflicts =
      (tables.conflictsAfter conflicts request).map SyncConflictRecord.row := by
  have kept : conflicts.filterMap some = conflicts := List.filterMap_some
  cases request with
  | createSyncJob job =>
    have same : (tables.call (.createSyncJob job)).syncConflicts = tables.syncConflicts := by
      rcases tables.call_createSyncJob job with idle | added
      next => rw [idle]
      next => rw [added]
    simp [same, stores.conflictRows, conflictsAfter, newConflict, SyncConflictRecord.evolve, kept]
  | deleteSyncJob jobId =>
    have owner (conflict : SyncConflictRecord) :
        (conflict.row "job_id").equals (.text jobId) = decide (conflict.jobId = jobId) := by
      rw [SyncConflictRecord.row_jobId, equals_text]
    rw [conflictsAfter_of_none _ _ _ rfl, call, deleteSyncJob]
    cases enforced : tables.foreignKeys with
    | false => simp [stores.conflictRows, SyncConflictRecord.evolve, kept]
    | true =>
      rw [if_pos rfl, stores.conflictRows, delete_rows _ _ _ owner]
      refine congrArg (List.map SyncConflictRecord.row) ?_
      simpa [SyncConflictRecord.evolve] using
        (filterMap_drop (fun conflict : SyncConflictRecord => conflict.jobId = jobId) conflicts).symm
  | addSyncConflict conflict =>
    have made := addSyncConflict_stores stores conflict
    by_cases taken : ∃ other ∈ conflicts, other.id = conflict.id
    next =>
      rw [if_pos taken] at made
      simp [call, made, conflictsAfter, newConflict, Except.toOption, Except.isOk, Except.toBool,
        SyncConflictRecord.evolve, kept, stores.conflictRows]
    next =>
      rw [if_neg taken] at made
      by_cases orphan : tables.foreignKeys = true ∧ ¬ ∃ job ∈ jobs, job.id = conflict.jobId
      next =>
        rw [if_pos orphan] at made
        simp [call, made, conflictsAfter, newConflict, Except.toOption, Except.isOk, Except.toBool,
          SyncConflictRecord.evolve, kept, stores.conflictRows]
      next =>
        rw [if_neg orphan] at made
        simp [call, made, conflictsAfter, newConflict, Except.toOption, Except.isOk, Except.toBool,
          SyncConflictRecord.evolve, kept]
  | resolveSyncConflict conflictId strategy =>
    have named (conflict : SyncConflictRecord) :
        (conflict.row "id").equals (.text conflictId) = decide (conflict.id = conflictId) := by
      rw [SyncConflictRecord.row_id, equals_text]
    rw [call, resolveSyncConflict, stores.conflictRows, update_rows _ _ _ _ _ named
      (resolvedAssigned_row · strategy), conflictsAfter_of_none _ _ _ rfl]
    exact congrArg _ (congrFun List.filterMap_eq_map _).symm
  | updateSyncJobStatus jobId status now =>
    simp [call, updateSyncJobStatus, stores.conflictRows, conflictsAfter, newConflict,
      SyncConflictRecord.evolve, kept]
  | updateSyncJobLastSync jobId lastSync now =>
    simp [call, updateSyncJobLastSync, stores.conflictRows, conflictsAfter, newConflict,
      SyncConflictRecord.evolve, kept]

theorem newJob_fresh {tables : SyncTables} {jobs : List SyncJobRecord}
    {conflicts : List SyncConflictRecord} (stores : tables.Stores jobs conflicts)
    {request : SyncCall} {job : SyncJobRecord} (new : tables.newJob request = some job) :
    (∀ other ∈ jobs, other.id ≠ job.id) ∧
      ∀ other : SyncJobRecord, other.evolve request = some other := by
  cases request with
  | createSyncJob given =>
    simp only [newJob] at new
    split at new
    next made =>
      obtain rfl := Option.some.inj new
      rw [createSyncJob_stores stores] at made
      refine ⟨fun other member same => ?_, fun other => rfl⟩
      rw [if_pos ⟨other, member, same⟩] at made
      cases made
    next => cases new
  | _ => cases new

theorem newConflict_fresh {tables : SyncTables} {jobs : List SyncJobRecord}
    {conflicts : List SyncConflictRecord} (stores : tables.Stores jobs conflicts)
    {request : SyncCall} {conflict : SyncConflictRecord}
    (new : tables.newConflict request = some conflict) :
    (∀ other ∈ conflicts, other.id ≠ conflict.id) ∧
      ∀ other : SyncConflictRecord, other.evolve tables.foreignKeys request = some other := by
  cases request with
  | addSyncConflict given =>
    simp only [newConflict] at new
    split at new
    next made =>
      obtain rfl := Option.some.inj new
      rw [addSyncConflict_stores stores] at made
      refine ⟨fun other member same => ?_, fun other => rfl⟩
      rw [if_pos ⟨other, member, same⟩] at made
      cases made
    next => cases new
  | _ => cases new

theorem newConflict_owned {tables : SyncTables} {jobs : List SyncJobRecord}
    {conflicts : List SyncConflictRecord} (stores : tables.Stores jobs conflicts)
    {request : SyncCall} {conflict : SyncConflictRecord}
    (new : tables.newConflict request = some conflict) (enforced : tables.foreignKeys = true) :
    ∃ job ∈ jobs, job.evolve request = some job ∧ job.id = conflict.jobId := by
  cases request with
  | addSyncConflict given =>
    simp only [newConflict] at new
    split at new
    next made =>
      obtain rfl := Option.some.inj new
      rw [addSyncConflict_stores stores] at made
      by_cases known : ∃ job ∈ jobs, job.id = given.jobId
      next =>
        obtain ⟨job, member, named⟩ := known
        exact ⟨job, member, rfl, named⟩
      next =>
        rw [if_pos (And.intro enforced known)] at made
        split at made <;> cases made
    next => cases new
  | _ => cases new

theorem call_foreignKeys (tables : SyncTables) (request : SyncCall) :
    (tables.call request).foreignKeys = tables.foreignKeys := by
  cases request with
  | createSyncJob job => rcases tables.call_createSyncJob job with same | same <;> rw [same]
  | addSyncConflict conflict =>
    rcases tables.call_addSyncConflict conflict with same | same <;> rw [same]
  | _ => rfl

theorem owned_after {tables : SyncTables} {jobs : List SyncJobRecord}
    {conflicts : List SyncConflictRecord} (stores : tables.Stores jobs conflicts)
    (request : SyncCall) (enforced : tables.foreignKeys = true) (conflict : SyncConflictRecord)
    (member : conflict ∈ tables.conflictsAfter conflicts request) :
    ∃ job ∈ tables.jobsAfter jobs request, job.id = conflict.jobId := by
  rcases List.mem_append.mp member with older | newest
  next =>
    obtain ⟨old, inside, became⟩ := List.mem_filterMap.mp older
    obtain ⟨_, sameJob⟩ := old.evolve_keeps _ request conflict became
    obtain ⟨job, known, named⟩ := stores.owned enforced old inside
    cases evolved : job.evolve request with
    | some next =>
      have there : next ∈ jobs.filterMap (·.evolve request) :=
        List.mem_filterMap.mpr ⟨job, known, evolved⟩
      refine ⟨next, List.mem_append_left _ there, ?_⟩
      rw [job.evolve_id request next evolved, named, sameJob]
    | none =>
      cases request with
      | deleteSyncJob jobId =>
        simp only [SyncJobRecord.evolve, ite_eq_left_iff, reduceCtorEq, imp_false, not_not] at evolved
        rw [SyncConflictRecord.evolve, if_pos ⟨enforced, named.symm.trans evolved⟩] at became
        cases became
      | _ => cases evolved
  next =>
    have new := Option.mem_toList.mp newest
    obtain ⟨job, inside, idle, named⟩ := newConflict_owned stores new enforced
    exact ⟨job, List.mem_append_left _ (List.mem_filterMap.mpr ⟨job, inside, idle⟩), named⟩

theorem call_stores {tables : SyncTables} {jobs : List SyncJobRecord}
    {conflicts : List SyncConflictRecord} (stores : tables.Stores jobs conflicts)
    (request : SyncCall) :
    (tables.call request).Stores (tables.jobsAfter jobs request)
      (tables.conflictsAfter conflicts request) where
  jobRows := jobsAfter_rows stores request
  conflictRows := conflictsAfter_rows stores request
  jobIds := Keyed.distinct_evolved _ _ _ (SyncJobRecord.evolve_id request) jobs stores.jobIds
    fun _ new => newJob_fresh stores new
  conflictIds := Keyed.distinct_evolved _ _ _
    (fun conflict next evolved => (conflict.evolve_keeps _ request next evolved).1) conflicts
    stores.conflictIds fun _ new => newConflict_fresh stores new
  owned := by
    rw [call_foreignKeys]
    exact owned_after stores request

def run (foreignKeys : Bool) (history : List SyncCall) : SyncTables :=
  history.foldl call (empty foreignKeys)

theorem run_stores (foreignKeys : Bool) (history : List SyncCall) :
    ∃ jobs conflicts, (run foreignKeys history).Stores jobs conflicts := by
  induction history using List.reverseRecOn with
  | nil => exact ⟨[], [], rfl, rfl, .nil, .nil, by simp⟩
  | append_singleton history request ih =>
    obtain ⟨jobs, conflicts, stores⟩ := ih
    rw [run, List.foldl_append]
    exact ⟨_, _, call_stores stores request⟩

theorem run_foreignKeys (foreignKeys : Bool) (history : List SyncCall) :
    (run foreignKeys history).foreignKeys = foreignKeys := by
  induction history using List.reverseRecOn with
  | nil => rfl
  | append_singleton history request ih =>
    rw [run, List.foldl_append]
    exact (call_foreignKeys _ request).trans ih

theorem getSyncJob_eq {tables : SyncTables} {jobs : List SyncJobRecord}
    {conflicts : List SyncConflictRecord} (stores : tables.Stores jobs conflicts) (jobId : String) :
    tables.getSyncJob jobId = .ok (Keyed.lookup SyncJobRecord.id jobs jobId) := by
  have named (job : SyncJobRecord) :
      (job.row "id").equals (.text jobId) = decide (job.id = jobId) := by
    rw [SyncJobRecord.row_id, equals_text]
  rw [getSyncJob, stores.jobRows, select_rows _ _ _ _ _ SyncJobRecord.map_row named, Keyed.lookup,
    ← List.head?_filter]
  cases jobs.filter fun job => job.id = jobId with
  | nil => rfl
  | cons first others => simp

theorem listSyncJobs_eq {tables : SyncTables} {jobs : List SyncJobRecord}
    {conflicts : List SyncConflictRecord} (stores : tables.Stores jobs conflicts) :
    tables.listSyncJobs = .ok jobs := by
  have all (job : SyncJobRecord) : true = decide True := rfl
  rw [listSyncJobs, stores.jobRows, select_rows _ _ _ _ _ SyncJobRecord.map_row all,
    mapM_read _ _ SyncJobRecord.ofValues_values]
  simp

theorem getSyncConflicts_eq {tables : SyncTables} {jobs : List SyncJobRecord}
    {conflicts : List SyncConflictRecord} (stores : tables.Stores jobs conflicts) (jobId : String) :
    tables.getSyncConflicts jobId =
      .ok (conflicts.filter fun conflict => conflict.jobId = jobId) := by
  have owner (conflict : SyncConflictRecord) :
      (conflict.row "job_id").equals (.text jobId) = decide (conflict.jobId = jobId) := by
    rw [SyncConflictRecord.row_jobId, equals_text]
  rw [getSyncConflicts, stores.conflictRows,
    select_rows _ _ _ _ _ SyncConflictRecord.map_row owner]
  simp only [mapM_read _ _ SyncConflictRecord.ofValues_values]

def jobOf (tables : SyncTables) (jobId : String) : Option SyncJobRecord :=
  (select selectJobColumns tables.syncJobs fun row => (row "id").equals (.text jobId)).head?.bind
    SyncJobRecord.ofValues

def conflictOf (tables : SyncTables) (conflictId : String) : Option SyncConflictRecord :=
  (select selectConflictColumns tables.syncConflicts fun row =>
    (row "id").equals (.text conflictId)).head?.bind SyncConflictRecord.ofValues

theorem jobOf_eq {tables : SyncTables} {jobs : List SyncJobRecord}
    {conflicts : List SyncConflictRecord} (stores : tables.Stores jobs conflicts) (jobId : String) :
    tables.jobOf jobId = Keyed.lookup SyncJobRecord.id jobs jobId := by
  have named (job : SyncJobRecord) :
      (job.row "id").equals (.text jobId) = decide (job.id = jobId) := by
    rw [SyncJobRecord.row_id, equals_text]
  rw [jobOf, stores.jobRows, select_rows _ _ _ _ _ SyncJobRecord.map_row named, Keyed.lookup,
    ← List.head?_filter, List.head?_map, Option.bind_map]
  simp

theorem conflictOf_eq {tables : SyncTables} {jobs : List SyncJobRecord}
    {conflicts : List SyncConflictRecord} (stores : tables.Stores jobs conflicts)
    (conflictId : String) :
    tables.conflictOf conflictId = Keyed.lookup SyncConflictRecord.id conflicts conflictId := by
  have named (conflict : SyncConflictRecord) :
      (conflict.row "id").equals (.text conflictId) = decide (conflict.id = conflictId) := by
    rw [SyncConflictRecord.row_id, equals_text]
  rw [conflictOf, stores.conflictRows, select_rows _ _ _ _ _ SyncConflictRecord.map_row named,
    Keyed.lookup, ← List.head?_filter, List.head?_map, Option.bind_map]
  simp

theorem job_governs (foreignKeys : Bool) (jobId : String) (before : List SyncCall)
    (request : SyncCall) :
    Lifetime.Governs call (·.jobOf jobId)
      (fun tables request => (tables.newJob request).filter (·.id = jobId)) SyncJobRecord.evolve
      (before.foldl call (empty foreignKeys)) request := by
  obtain ⟨jobs, conflicts, stores⟩ := run_stores foreignKeys before
  rw [run] at stores
  rw [Lifetime.Governs, jobOf_eq (call_stores stores request), jobOf_eq stores]
  exact Keyed.lookup_evolved _ _ _ (SyncJobRecord.evolve_id request) jobs stores.jobIds
    (fun _ new => newJob_fresh stores new) jobId

theorem conflict_governs (foreignKeys : Bool) (conflictId : String) (before : List SyncCall)
    (request : SyncCall) :
    Lifetime.Governs call (·.conflictOf conflictId)
      (fun tables request => (tables.newConflict request).filter (·.id = conflictId))
      (SyncConflictRecord.evolve foreignKeys) (before.foldl call (empty foreignKeys)) request := by
  obtain ⟨jobs, conflicts, stores⟩ := run_stores foreignKeys before
  have enforced := run_foreignKeys foreignKeys before
  rw [run] at stores enforced
  rw [Lifetime.Governs, conflictOf_eq (call_stores stores request), conflictOf_eq stores]
  have found := Keyed.lookup_evolved _ _ _
    (fun conflict next evolved => (conflict.evolve_keeps _ request next evolved).1) conflicts
    stores.conflictIds (fun _ new => newConflict_fresh stores new) conflictId
  rw [enforced] at found
  rw [conflictsAfter, enforced]
  exact found

theorem newJob_named {tables : SyncTables} {request : SyncCall} {jobId : String}
    {first : SyncJobRecord} (born : (tables.newJob request).filter (·.id = jobId) = some first) :
    ∃ job, request = .createSyncJob job ∧ job.id = jobId ∧ job.stored = first := by
  obtain ⟨new, named⟩ := Option.filter_eq_some_iff.mp born
  cases request with
  | createSyncJob job =>
    simp only [newJob] at new
    split at new
    next =>
      obtain rfl := Option.some.inj new
      exact ⟨job, rfl, of_decide_eq_true named, rfl⟩
    next => cases new
  | _ => cases new

theorem unread_iff (foreignKeys : Bool) (history : List SyncCall) (jobId : String) :
    (run foreignKeys history).getSyncJob jobId = .ok none ↔
      (run foreignKeys history).jobOf jobId = none := by
  obtain ⟨jobs, conflicts, stores⟩ := run_stores foreignKeys history
  rw [getSyncJob_eq stores, jobOf_eq stores, Except.ok.injEq]

theorem newJob_of_absent (foreignKeys : Bool) (history : List SyncCall) (job : SyncJobRecord)
    (absent : (run foreignKeys history).jobOf job.id = none) :
    ((run foreignKeys history).newJob (.createSyncJob job)).filter (·.id = job.id) =
      some job.stored := by
  obtain ⟨jobs, conflicts, stores⟩ := run_stores foreignKeys history
  rw [jobOf_eq stores] at absent
  have free : ¬ ∃ other ∈ jobs, other.id = job.id := by
    rintro ⟨other, member, same⟩
    exact Keyed.ne_of_lookup_eq_none _ absent other member same
  rw [newJob, createSyncJob_stores stores, if_neg free]
  simp [Except.isOk, Except.toBool, Option.filter]

theorem createSyncJob_isOk_iff {tables : SyncTables} {jobs : List SyncJobRecord}
    {conflicts : List SyncConflictRecord} (stores : tables.Stores jobs conflicts)
    (job : SyncJobRecord) :
    (tables.createSyncJob job).isOk = true ↔ tables.getSyncJob job.id = .ok none := by
  rw [createSyncJob_stores stores, getSyncJob_eq stores, Except.ok.injEq]
  by_cases taken : ∃ other ∈ jobs, other.id = job.id
  next =>
    rw [if_pos taken]
    obtain ⟨other, member, same⟩ := taken
    refine iff_of_false (by simp [Except.isOk, Except.toBool]) fun missing => ?_
    exact Keyed.ne_of_lookup_eq_none _ missing other member same
  next =>
    rw [if_neg taken]
    refine iff_of_true rfl (Keyed.lookup_eq_none _ _ _ fun other member same => ?_)
    exact taken ⟨other, member, same⟩

theorem sync_jobs_history_iff (foreignKeys : Bool) (history : List SyncCall) :
    let tables := run foreignKeys history
    (∀ job, (tables.createSyncJob job).isOk = true ↔ tables.getSyncJob job.id = .ok none) ∧
    (∀ jobId, ∃ found, tables.getSyncJob jobId = .ok found ∧
      ∀ record, found = some record ↔
        ∃ before job after, history = before ++ .createSyncJob job :: after ∧ job.id = jobId ∧
          (run foreignKeys before).getSyncJob jobId = .ok none ∧
          after.foldlM SyncJobRecord.evolve job.stored = some record) ∧
    ∃ jobs, tables.listSyncJobs = .ok jobs ∧ Keyed.Distinct SyncJobRecord.id jobs ∧
      ∀ record, record ∈ jobs ↔ tables.getSyncJob record.id = .ok (some record) := by
  obtain ⟨jobs, conflicts, stores⟩ := run_stores foreignKeys history
  intro tables
  refine ⟨createSyncJob_isOk_iff stores, ?_, ?_⟩
  next =>
    intro jobId
    refine ⟨Keyed.lookup SyncJobRecord.id jobs jobId, getSyncJob_eq stores jobId, fun record => ?_⟩
    have lives := Lifetime.view_eq_some_iff (empty foreignKeys) rfl (job_governs foreignKeys jobId)
      history record
    rw [← jobOf_eq stores]
    refine lives.trans ?_
    constructor
    next =>
      rintro ⟨before, birth, after, first, split, absent, born, lived⟩
      obtain ⟨job, rfl, named, rfl⟩ := newJob_named born
      exact ⟨before, job, after, split, named, (unread_iff foreignKeys before jobId).mpr absent,
        lived⟩
    next =>
      rintro ⟨before, job, after, split, rfl, unread, lived⟩
      have absent := (unread_iff foreignKeys before job.id).mp unread
      exact ⟨before, .createSyncJob job, after, job.stored, split, absent,
        newJob_of_absent foreignKeys before job absent, lived⟩
  next =>
    refine ⟨jobs, listSyncJobs_eq stores, stores.jobIds, fun record => ?_⟩
    rw [getSyncJob_eq stores, Except.ok.injEq, Keyed.lookup_eq_some _ jobs stores.jobIds]
    exact (and_iff_left rfl).symm

theorem newConflict_eq (tables : SyncTables) (request : SyncCall) (conflictId : String)
    (first : SyncConflictRecord) :
    (tables.newConflict request).filter (·.id = conflictId) = some first ↔
      ∃ conflict, request = .addSyncConflict conflict ∧ conflict.id = conflictId ∧
        (tables.addSyncConflict conflict).isOk = true ∧ conflict.stored = first := by
  rw [Option.filter_eq_some_iff]
  cases request with
  | addSyncConflict conflict =>
    by_cases made : (tables.addSyncConflict conflict).isOk = true
    next =>
      rw [newConflict, if_pos made]
      constructor
      next =>
        rintro ⟨same, named⟩
        obtain rfl := Option.some.inj same
        exact ⟨conflict, rfl, of_decide_eq_true named, made, rfl⟩
      next =>
        rintro ⟨other, same, named, _, rfl⟩
        obtain rfl := SyncCall.addSyncConflict.inj same
        exact ⟨rfl, decide_eq_true named⟩
    next =>
      rw [newConflict, if_neg made]
      simp [made]
  | _ => simp [newConflict]

theorem addSyncConflict_absent (foreignKeys : Bool) (history : List SyncCall)
    (conflict : SyncConflictRecord)
    (made : ((run foreignKeys history).addSyncConflict conflict).isOk = true) :
    (run foreignKeys history).conflictOf conflict.id = none := by
  obtain ⟨jobs, conflicts, stores⟩ := run_stores foreignKeys history
  rw [conflictOf_eq stores]
  refine Keyed.lookup_eq_none _ _ _ fun other member same => ?_
  rw [addSyncConflict_stores stores, if_pos ⟨other, member, same⟩] at made
  cases made

theorem evolve_jobId (foreignKeys : Bool) (after : List SyncCall)
    (conflict record : SyncConflictRecord)
    (lived : after.foldlM (SyncConflictRecord.evolve foreignKeys) conflict = some record) :
    record.id = conflict.id ∧ record.jobId = conflict.jobId := by
  induction after generalizing conflict with
  | nil =>
    obtain rfl := Option.some.inj lived
    exact ⟨rfl, rfl⟩
  | cons request after ih =>
    rw [List.foldlM_cons] at lived
    obtain ⟨next, evolved, rest⟩ := Option.bind_eq_some_iff.mp lived
    obtain ⟨named, owned⟩ := conflict.evolve_keeps foreignKeys request next evolved
    obtain ⟨sameId, sameJob⟩ := ih next rest
    exact ⟨sameId.trans named, sameJob.trans owned⟩

theorem sync_conflicts_history_iff (foreignKeys : Bool) (history : List SyncCall)
    (jobId : String) :
    ∃ conflicts, (run foreignKeys history).getSyncConflicts jobId = .ok conflicts ∧
      Keyed.Distinct SyncConflictRecord.id conflicts ∧
      (∀ record, record ∈ conflicts ↔
        ∃ before conflict after, history = before ++ .addSyncConflict conflict :: after ∧
          conflict.jobId = jobId ∧
          ((run foreignKeys before).addSyncConflict conflict).isOk = true ∧
          after.foldlM (SyncConflictRecord.evolve foreignKeys) conflict.stored = some record) ∧
      (foreignKeys = true → conflicts ≠ [] →
        (run foreignKeys history).getSyncJob jobId ≠ .ok none) := by
  obtain ⟨jobs, conflicts, stores⟩ := run_stores foreignKeys history
  refine ⟨conflicts.filter fun conflict => conflict.jobId = jobId,
    getSyncConflicts_eq stores jobId, ?_, fun record => ?_, fun enforced some => ?_⟩
  next => exact List.Nodup.sublist (List.filter_sublist.map _) stores.conflictIds
  next =>
    have lives := Lifetime.view_eq_some_iff (empty foreignKeys) rfl
      (conflict_governs foreignKeys record.id) history record
    have there : record ∈ conflicts ↔ (run foreignKeys history).conflictOf record.id = some record := by
      rw [conflictOf_eq stores, Keyed.lookup_eq_some _ conflicts stores.conflictIds]
      exact (and_iff_left rfl).symm
    rw [List.mem_filter, there, decide_eq_true_eq]
    constructor
    next =>
      rintro ⟨held, owned⟩
      obtain ⟨before, birth, after, first, split, absent, born, lived⟩ := lives.mp held
      obtain ⟨conflict, rfl, named, made, rfl⟩ := (newConflict_eq _ _ _ _).mp born
      obtain ⟨_, sameJob⟩ := evolve_jobId foreignKeys after _ record lived
      exact ⟨before, conflict, after, split, sameJob.symm.trans owned, made, lived⟩
    next =>
      rintro ⟨before, conflict, after, split, owned, made, lived⟩
      obtain ⟨sameId, sameJob⟩ := evolve_jobId foreignKeys after _ record lived
      have absent := addSyncConflict_absent foreignKeys before conflict made
      refine ⟨lives.mpr ⟨before, .addSyncConflict conflict, after, conflict.stored, split, ?_, ?_,
        lived⟩, sameJob.trans owned⟩
      next => rwa [sameId]
      next => exact (newConflict_eq _ _ _ _).mpr ⟨conflict, rfl, sameId.symm, made, rfl⟩
  next =>
    obtain ⟨conflict, member⟩ := List.exists_mem_of_ne_nil _ some
    obtain ⟨inside, owner⟩ := List.mem_filter.mp member
    obtain ⟨job, known, named⟩ :=
      stores.owned ((run_foreignKeys foreignKeys history).trans enforced) conflict inside
    rw [getSyncJob_eq stores, Ne, Except.ok.injEq]
    intro missing
    exact Keyed.ne_of_lookup_eq_none _ missing job known (named.trans (of_decide_eq_true owner))

end SyncTables

end BitDrive.Core
