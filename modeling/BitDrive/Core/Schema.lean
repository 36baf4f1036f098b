import BitDrive.Shared.Crash
import BitDrive.Shared.Sql
import Mathlib.Data.Finset.Insert
import Mathlib.Data.List.Perm.Basic

set_option autoImplicit false

namespace BitDrive.Core

open Sql Crash

def schemaMigrationsTable : TableDef where
  name := "schema_migrations"
  columns :=
    [⟨"version", "INTEGER", [.primaryKey]⟩,
     ⟨"applied_at", "INTEGER", [.notNull]⟩]
  foreignKeys := []

def devicesTable : TableDef where
  name := "devices"
  columns :=
    [⟨"id", "BLOB", [.primaryKey]⟩,
     ⟨"name", "TEXT", []⟩,
     ⟨"address", "TEXT", [.notNull, .unique]⟩,
     ⟨"paired", "INTEGER", [.notNull, .default (.integer 0)]⟩,
     ⟨"trusted", "INTEGER", [.notNull, .default (.integer 0)]⟩,
     ⟨"psk", "BLOB", []⟩,
     ⟨"last_seen", "INTEGER", []⟩,
     ⟨"created_at", "INTEGER", [.notNull]⟩,
     ⟨"metadata", "TEXT", []⟩]
  foreignKeys := []

def sessionsTable : TableDef where
  name := "sessions"
  columns :=
    [⟨"id", "BLOB", [.primaryKey]⟩,
     ⟨"device_id", "BLOB", [.notNull]⟩,
     ⟨"protocol_version", "TEXT", [.notNull]⟩,
     ⟨"session_keys", "BLOB", []⟩,
     ⟨"capabilities", "TEXT", []⟩,
     ⟨"state", "TEXT", [.notNull]⟩,
     ⟨"created_at", "INTEGER", [.notNull]⟩,
     ⟨"last_activity", "INTEGER", [.notNull]⟩,
     ⟨"bytes_sent", "INTEGER", [.default (.integer 0)]⟩,
     ⟨"bytes_received", "INTEGER", [.default (.integer 0)]⟩]
  foreignKeys :=
    [⟨"device_id", "devices", "id", true⟩]

def servicesTable : TableDef where
  name := "services"
  columns :=
    [⟨"id", "TEXT", [.primaryKey]⟩,
     ⟨"session_id", "BLOB", [.notNull]⟩,
     ⟨"name", "TEXT", [.notNull]⟩,
     ⟨"version", "INTEGER", [.notNull]⟩,
     ⟨"channel_id", "INTEGER", [.notNull]⟩,
     ⟨"channel_type", "TEXT", [.notNull]⟩,
     ⟨"active", "INTEGER", [.notNull, .default (.integer 0)]⟩,
     ⟨"healthy", "INTEGER", [.notNull, .default (.integer 1)]⟩,
     ⟨"registered_at", "INTEGER", [.notNull]⟩,
     ⟨"last_heartbeat", "INTEGER", []⟩,
     ⟨"metadata", "TEXT", []⟩]
  foreignKeys :=
    [⟨"session_id", "sessions", "id", true⟩]

def syncJobsTable : TableDef where
  name := "sync_jobs"
  columns :=
    [⟨"id", "TEXT", [.primaryKey]⟩,
     ⟨"name", "TEXT", [.notNull]⟩,
     ⟨"description", "TEXT", []⟩,
     ⟨"direction", "TEXT", [.notNull]⟩,
     ⟨"local_path", "TEXT", [.notNull]⟩,
     ⟨"remote_path", "TEXT", [.notNull]⟩,
     ⟨"enabled", "INTEGER", [.notNull, .default (.integer 1)]⟩,
     ⟨"auto_sync", "INTEGER", [.notNull, .default (.integer 0)]⟩,
     ⟨"schedule_type", "TEXT", []⟩,
     ⟨"schedule_value", "TEXT", []⟩,
     ⟨"conflict_strategy", "TEXT", [.notNull, .default (.text "last_write_wins")]⟩,
     ⟨"filters", "TEXT", []⟩,
     ⟨"status", "TEXT", [.notNull, .default (.text "idle")]⟩,
     ⟨"last_sync", "INTEGER", []⟩,
     ⟨"created_at", "INTEGER", [.notNull]⟩,
     ⟨"updated_at", "INTEGER", [.notNull]⟩,
     ⟨"stats", "TEXT", []⟩]
  foreignKeys := []

def syncConflictsTable : TableDef where
  name := "sync_conflicts"
  columns :=
    [⟨"id", "TEXT", [.primaryKey]⟩,
     ⟨"job_id", "TEXT", [.notNull]⟩,
     ⟨"local_path", "TEXT", [.notNull]⟩,
     ⟨"remote_path", "TEXT", [.notNull]⟩,
     ⟨"local_metadata", "TEXT", []⟩,
     ⟨"remote_metadata", "TEXT", []⟩,
     ⟨"local_hash", "TEXT", []⟩,
     ⟨"remote_hash", "TEXT", []⟩,
     ⟨"detected_at", "INTEGER", [.notNull]⟩,
     ⟨"resolved", "INTEGER", [.notNull, .default (.integer 0)]⟩,
     ⟨"resolution_strategy", "TEXT", []⟩]
  foreignKeys :=
    [⟨"job_id", "sync_jobs", "id", true⟩]

def photoBackupSessionsTable : TableDef where
  name := "photo_backup_sessions"
  columns :=
    [⟨"id", "TEXT", [.primaryKey]⟩,
     ⟨"device_id", "BLOB", [.notNull]⟩,
     ⟨"status", "TEXT", [.notNull]⟩,
     ⟨"total_photos", "INTEGER", [.default (.integer 0)]⟩,
     ⟨"backed_up", "INTEGER", [.default (.integer 0)]⟩,
     ⟨"skipped", "INTEGER", [.default (.integer 0)]⟩,
     ⟨"errors", "INTEGER", [.default (.integer 0)]⟩,
     ⟨"bytes_total", "INTEGER", [.default (.integer 0)]⟩,
     ⟨"bytes_transferred", "INTEGER", [.default (.integer 0)]⟩,
     ⟨"started_at", "INTEGER", [.notNull]⟩,
     ⟨"completed_at", "INTEGER", []⟩,
     ⟨"config", "TEXT", []⟩]
  foreignKeys := []

def photosTable : TableDef where
  name := "photos"
  columns :=
    [⟨"id", "TEXT", [.primaryKey]⟩,
     ⟨"backup_session_id", "TEXT", []⟩,
     ⟨"filename", "TEXT", [.notNull]⟩,
     ⟨"path", "TEXT", [.notNull]⟩,
     ⟨"size", "INTEGER", [.notNull]⟩,
     ⟨"mime_type", "TEXT", []⟩,
     ⟨"width", "INTEGER", []⟩,
     ⟨"height", "INTEGER", []⟩,
     ⟨"created_time", "INTEGER", [.notNull]⟩,
     ⟨"modified_time", "INTEGER", [.notNull]⟩,
     ⟨"hash", "TEXT", []⟩,
     ⟨"exif", "TEXT", []⟩,
     ⟨"location_lat", "REAL", []⟩,
     ⟨"location_lon", "REAL", []⟩,
     ⟨"albums", "TEXT", []⟩,
     ⟨"favorite", "INTEGER", [.default (.integer 0)]⟩,
     ⟨"trashed", "INTEGER", [.default (.integer 0)]⟩]
  foreignKeys :=
    [⟨"backup_session_id", "photo_backup_sessions", "id", false⟩]

def shellSessionsTable : TableDef where
  name := "shell_sessions"
  columns :=
    [⟨"id", "TEXT", [.primaryKey]⟩,
     ⟨"device_id", "BLOB", [.notNull]⟩,
     ⟨"name", "TEXT", []⟩,
     ⟨"working_directory", "TEXT", []⟩,
     ⟨"environment", "TEXT", []⟩,
     ⟨"state", "TEXT", [.notNull]⟩,
     ⟨"cols", "INTEGER", []⟩,
     ⟨"rows", "INTEGER", []⟩,
     ⟨"created_at", "INTEGER", [.notNull]⟩,
     ⟨"last_activity", "INTEGER", [.notNull]⟩]
  foreignKeys :=
    [⟨"device_id", "devices", "id", true⟩]

def shellHistoryTable : TableDef where
  name := "shell_history"
  columns :=
    [⟨"id", "INTEGER", [.primaryKey, .autoincrement]⟩,
     ⟨"session_id", "TEXT", [.notNull]⟩,
     ⟨"command", "TEXT", [.notNull]⟩,
     ⟨"exit_code", "INTEGER", []⟩,
     ⟨"executed_at", "INTEGER", [.notNull]⟩]
  foreignKeys :=
    [⟨"session_id", "shell_sessions", "id", true⟩]

def configTable : TableDef where
  name := "config"
  columns :=
    [⟨"key", "TEXT", [.primaryKey]⟩,
     ⟨"value", "TEXT", [.notNull]⟩,
     ⟨"description", "TEXT", []⟩,
     ⟨"read_only", "INTEGER", [.default (.integer 0)]⟩,
     ⟨"secret", "INTEGER", [.default (.integer 0)]⟩,
     ⟨"updated_at", "INTEGER", [.notNull]⟩]
  foreignKeys := []

inductive Statement where
  | createTable (table : TableDef)
  | createIndex (index : IndexDef)

abbrev Migration := List Statement

def migration001InitialSchema : Migration :=
  [.createTable devicesTable,
    .createTable sessionsTable,
    .createTable servicesTable,
    .createTable syncJobsTable,
    .createTable syncConflictsTable,
    .createTable photoBackupSessionsTable,
    .createTable photosTable,
    .createTable shellSessionsTable,
    .createTable shellHistoryTable,
    .createTable configTable]

def migration002AddIndexes : Migration :=
  [.createIndex ⟨"idx_devices_address", "devices", "address"⟩,
    .createIndex ⟨"idx_devices_paired", "devices", "paired"⟩,
    .createIndex ⟨"idx_devices_trusted", "devices", "trusted"⟩,
    .createIndex ⟨"idx_sessions_device", "sessions", "device_id"⟩,
    .createIndex ⟨"idx_sessions_state", "sessions", "state"⟩,
    .createIndex ⟨"idx_services_session", "services", "session_id"⟩,
    .createIndex ⟨"idx_sync_jobs_enabled", "sync_jobs", "enabled"⟩,
    .createIndex ⟨"idx_sync_conflicts_job", "sync_conflicts", "job_id"⟩,
    .createIndex ⟨"idx_photos_session", "photos", "backup_session_id"⟩,
    .createIndex ⟨"idx_photos_hash", "photos", "hash"⟩,
    .createIndex ⟨"idx_shell_sessions_device", "shell_sessions", "device_id"⟩,
    .createIndex ⟨"idx_shell_history_session", "shell_history", "session_id"⟩]

def migration003AddConfigTable : Migration := [.createTable configTable]

-- What the names of the last four say is in the first migration already.
def migration004AddSyncTables : Migration := []

def migration005AddPhotoBackup : Migration := []

def migration006AddShellHistory : Migration := []

def migration007AddConfig : Migration := []

def migrations : List Migration :=
  [migration001InitialSchema, migration002AddIndexes, migration003AddConfigTable,
    migration004AddSyncTables, migration005AddPhotoBackup, migration006AddShellHistory,
    migration007AddConfig]

def allTables : List TableDef :=
  [schemaMigrationsTable, devicesTable, sessionsTable, servicesTable, syncJobsTable,
    syncConflictsTable, photoBackupSessionsTable, photosTable, shellSessionsTable,
    shellHistoryTable, configTable]

def Statement.index? : Statement → Option IndexDef
  | .createTable _ => none
  | .createIndex index => some index

def allIndexes : List IndexDef := migration002AddIndexes.filterMap Statement.index?

structure Schema where
  tables : Finset TableDef
  indexes : Finset IndexDef
  versions : List (Int64 × Int64)

inductive SchemaError where
  | nameTaken (name : String)
  | noSuchTable (table : String)
  | noSuchColumn (table column : String)
  | violation (violation : Violation)

namespace Schema

def empty : Schema where
  tables := ∅
  indexes := ∅
  versions := []

def applied (version : Int64) (db : Schema) : Bool := db.versions.any fun row => row.1 = version

def execute (statement : Statement) (db : Schema) : Except SchemaError Schema :=
  match statement with
  | .createTable table =>
    if ∃ other ∈ db.tables, other.name = table.name then .ok db
    else if ∃ index ∈ db.indexes, index.name = table.name then .error (.nameTaken table.name)
    else .ok { db with tables := insert table db.tables }
  | .createIndex index =>
    if ¬ ∃ table ∈ db.tables, table.name = index.table then .error (.noSuchTable index.table)
    else if ∃ table ∈ db.tables, table.name = index.name then .error (.nameTaken index.name)
    else if ∃ other ∈ db.indexes, other.name = index.name then .ok db
    else if ∃ table ∈ db.tables, table.name = index.table ∧
        ∃ column ∈ table.columns, column.name = index.column then
      .ok { db with indexes := insert index db.indexes }
    else .error (.noSuchColumn index.table index.column)

def recordVersion (version appliedAt : Int64) (db : Schema) : Except SchemaError Schema :=
  if ¬ ∃ table ∈ db.tables, table.name = "schema_migrations" then
    .error (.noSuchTable "schema_migrations")
  else if db.applied version then
    .error (.violation (.unique "schema_migrations" "version"))
  else .ok { db with versions := db.versions ++ [(version, appliedAt)] }

end Schema

def migrate (clock : Int64 → Int64) (version : Int64) (migration : Migration) :
    Program Schema SchemaError :=
  .skipIf (Schema.applied version)
    (.andThen (.all (migration.map fun statement => .step (Schema.execute statement)))
      (.step (Schema.recordVersion version (clock version))))

def versionOf (position : Nat) : Int64 := Int64.ofNat (position + 1)

def runMigrations (clock : Int64 → Int64) : Program Schema SchemaError :=
  .andThen (.step (Schema.execute (.createTable schemaMigrationsTable)))
    (.all (migrations.zipIdx.map fun entry => migrate clock (versionOf entry.2) entry.1))

end BitDrive.Core
