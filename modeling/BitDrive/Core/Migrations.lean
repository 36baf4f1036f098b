import BitDrive.Core.Schema

set_option autoImplicit false

namespace BitDrive.Core

open Sql Crash

def initialTables : List TableDef :=
  [devicesTable, sessionsTable, servicesTable, syncJobsTable, syncConflictsTable,
    photoBackupSessionsTable, photosTable, shellSessionsTable, shellHistoryTable, configTable]

theorem table_names_distinct : (allTables.map TableDef.name).Nodup := by decide

theorem index_names_distinct : (allIndexes.map IndexDef.name).Nodup := by decide

theorem names_apart : ∀ index ∈ allIndexes, ∀ table ∈ allTables, table.name ≠ index.name := by
  decide

theorem indexed_columns : ∀ index ∈ allIndexes, ∃ table ∈ initialTables,
    table.name = index.table ∧ ∃ column ∈ table.columns, column.name = index.column := by
  decide

theorem initialTables_subset : ∀ table ∈ initialTables, table ∈ allTables :=
  fun _ member => List.mem_cons_of_mem schemaMigrationsTable member

namespace Statement

def Known : Statement → Prop
  | .createTable table => table ∈ allTables
  | .createIndex index => index ∈ allIndexes

def Done (statement : Statement) (db : Schema) : Prop :=
  match statement with
  | .createTable table => table ∈ db.tables
  | .createIndex index => index ∈ db.indexes

end Statement

namespace Schema

structure Sound (db : Schema) : Prop where
  tables : ∀ table ∈ db.tables, table ∈ allTables
  indexes : ∀ index ∈ db.indexes, index ∈ allIndexes
  once : (db.versions.map Prod.fst).Nodup
  known : ∀ version ∈ db.versions.map Prod.fst, ∃ entry ∈ migrations.zipIdx,
    version = versionOf entry.2
  complete : ∀ entry ∈ migrations.zipIdx, db.applied (versionOf entry.2) = true →
    ∀ statement ∈ entry.1, statement.Done db

structure Extends (db next : Schema) : Prop where
  tables : ∀ table ∈ db.tables, table ∈ next.tables
  indexes : ∀ index ∈ db.indexes, index ∈ next.indexes
  versions : db.versions <+: next.versions

theorem Extends.refl (db : Schema) : db.Extends db :=
  ⟨fun _ member => member, fun _ member => member, List.prefix_refl _⟩

theorem Extends.trans {first second third : Schema} (front : first.Extends second)
    (back : second.Extends third) : first.Extends third :=
  ⟨fun table member => back.tables table (front.tables table member),
    fun index member => back.indexes index (front.indexes index member),
    front.versions.trans back.versions⟩

theorem Extends.done {db next : Schema} (larger : db.Extends next) (statement : Statement)
    (done : statement.Done db) : statement.Done next := by
  cases statement with
  | createTable table => exact larger.tables table done
  | createIndex index => exact larger.indexes index done

theorem applied_iff (version : Int64) (db : Schema) :
    db.applied version = true ↔ version ∈ db.versions.map Prod.fst := by
  simp [applied]

theorem Extends.applied {db next : Schema} (larger : db.Extends next) (version : Int64)
    (recorded : db.applied version = true) : next.applied version = true := by
  rw [applied_iff] at recorded ⊢
  exact (larger.versions.map Prod.fst).subset recorded

theorem Sound.grow {db next : Schema} (sound : db.Sound) (larger : db.Extends next)
    (same : next.versions = db.versions) (tables : ∀ table ∈ next.tables, table ∈ allTables)
    (indexes : ∀ index ∈ next.indexes, index ∈ allIndexes) : next.Sound where
  tables := tables
  indexes := indexes
  once := same ▸ sound.once
  known := same ▸ sound.known
  complete := by
    intro entry member recorded statement inside
    have before : db.applied (versionOf entry.2) = true := by
      rwa [Schema.applied, same] at recorded
    exact larger.done statement (sound.complete entry member before statement inside)

theorem Sound.table_of_name {db : Schema} (sound : db.Sound) (table other : TableDef)
    (known : table ∈ allTables) (present : other ∈ db.tables) (same : other.name = table.name) :
    table ∈ db.tables := by
  have equal : other = table :=
    List.inj_on_of_nodup_map table_names_distinct (sound.tables other present) known same
  rwa [← equal]

theorem Sound.index_of_name {db : Schema} (sound : db.Sound) (index other : IndexDef)
    (known : index ∈ allIndexes) (present : other ∈ db.indexes) (same : other.name = index.name) :
    index ∈ db.indexes := by
  have equal : other = index :=
    List.inj_on_of_nodup_map index_names_distinct (sound.indexes other present) known same
  rwa [← equal]

theorem execute_createTable (db : Schema) (sound : db.Sound) (table : TableDef)
    (known : table ∈ allTables) :
    ∃ next, execute (.createTable table) db = .ok next ∧ next.Sound ∧ table ∈ next.tables ∧
      db.Extends next ∧ next.versions = db.versions := by
  by_cases present : ∃ other ∈ db.tables, other.name = table.name
  next =>
    have ⟨other, inside, same⟩ := present
    exact ⟨db, by rw [execute, if_pos present], sound,
      sound.table_of_name table other known inside same, .refl db, rfl⟩
  next =>
    have free : ¬ ∃ index ∈ db.indexes, index.name = table.name := by
      intro ⟨index, inside, same⟩
      exact names_apart index (sound.indexes index inside) table known same.symm
    have larger : db.Extends { db with tables := insert table db.tables } :=
      ⟨fun other inside => Finset.mem_insert_of_mem inside, fun _ inside => inside,
        List.prefix_refl _⟩
    have tables (other : TableDef) (inside : other ∈ insert table db.tables) :
        other ∈ allTables := by
      rcases Finset.mem_insert.mp inside with rfl | older
      next => exact known
      next => exact sound.tables other older
    exact ⟨_, by rw [execute, if_neg present, if_neg free],
      sound.grow larger rfl tables sound.indexes, Finset.mem_insert_self table db.tables, larger,
      rfl⟩

theorem execute_createIndex (db : Schema) (sound : db.Sound) (index : IndexDef)
    (known : index ∈ allIndexes) (base : ∀ table ∈ initialTables, table ∈ db.tables) :
    ∃ next, execute (.createIndex index) db = .ok next ∧ next.Sound ∧ index ∈ next.indexes ∧
      db.Extends next ∧ next.versions = db.versions := by
  have ⟨table, initial, named, column⟩ := indexed_columns index known
  have there : ∃ table ∈ db.tables, table.name = index.table := ⟨table, base table initial, named⟩
  have free : ¬ ∃ table ∈ db.tables, table.name = index.name := by
    intro ⟨other, inside, same⟩
    exact names_apart index known other (sound.tables other inside) same
  by_cases present : ∃ other ∈ db.indexes, other.name = index.name
  next =>
    have ⟨other, inside, same⟩ := present
    exact ⟨db, by rw [execute, if_neg (not_not.mpr there), if_neg free, if_pos present], sound,
      sound.index_of_name index other known inside same, .refl db, rfl⟩
  next =>
    have columns : ∃ table ∈ db.tables, table.name = index.table ∧
        ∃ column ∈ table.columns, column.name = index.column :=
      ⟨table, base table initial, named, column⟩
    have larger : db.Extends { db with indexes := insert index db.indexes } :=
      ⟨fun _ inside => inside, fun other inside => Finset.mem_insert_of_mem inside,
        List.prefix_refl _⟩
    have indexes (other : IndexDef) (inside : other ∈ insert index db.indexes) :
        other ∈ allIndexes := by
      rcases Finset.mem_insert.mp inside with rfl | older
      next => exact known
      next => exact sound.indexes other older
    have added : execute (.createIndex index) db =
        .ok { db with indexes := insert index db.indexes } := by
      rw [execute, if_neg (not_not.mpr there), if_neg free, if_neg present, if_pos columns]
    exact ⟨_, added, sound.grow larger rfl sound.tables indexes,
      Finset.mem_insert_self index db.indexes, larger, rfl⟩

theorem execute_statement (db : Schema) (sound : db.Sound) (statement : Statement)
    (known : statement.Known)
    (base : statement.index?.isSome = true → ∀ table ∈ initialTables, table ∈ db.tables) :
    ∃ next, execute statement db = .ok next ∧ next.Sound ∧ statement.Done next ∧
      db.Extends next ∧ next.versions = db.versions := by
  cases statement with
  | createTable table => exact execute_createTable db sound table known
  | createIndex index => exact execute_createIndex db sound index known (base rfl)

theorem versionOf_injective : ∀ first < 7, ∀ second < 7, versionOf first = versionOf second →
    first = second := by
  decide

theorem entry_of_version (entry other : Migration × Nat) (member : entry ∈ migrations.zipIdx)
    (member' : other ∈ migrations.zipIdx) (same : versionOf entry.2 = versionOf other.2) :
    entry = other := by
  have here : migrations[entry.2]? = some entry.1 := List.mk_mem_zipIdx_iff_getElem?.mp member
  have there : migrations[other.2]? = some other.1 := List.mk_mem_zipIdx_iff_getElem?.mp member'
  have position : entry.2 = other.2 :=
    versionOf_injective _ (List.getElem?_eq_some_iff.mp here).1 _
      (List.getElem?_eq_some_iff.mp there).1 same
  rw [position, there] at here
  exact Prod.ext (Option.some.inj here).symm position

structure Ready (db : Schema) : Prop where
  sound : db.Sound
  recorder : schemaMigrationsTable ∈ db.tables

def Finished (entry : Migration × Nat) (db : Schema) : Prop :=
  (∀ statement ∈ entry.1, statement.Done db) ∧ db.applied (versionOf entry.2) = true

theorem Finished.extend {entry : Migration × Nat} {db next : Schema}
    (finished : Finished entry db) (larger : db.Extends next) : Finished entry next :=
  ⟨fun statement member => larger.done statement (finished.1 statement member),
    larger.applied _ finished.2⟩

theorem recordVersion_of_fresh (db : Schema) (ready : db.Ready) (version appliedAt : Int64)
    (fresh : db.applied version = false) :
    recordVersion version appliedAt db =
      .ok { db with versions := db.versions ++ [(version, appliedAt)] } := by
  have recorder : ∃ table ∈ db.tables, table.name = "schema_migrations" :=
    ⟨schemaMigrationsTable, ready.recorder, rfl⟩
  rw [recordVersion, if_neg (not_not.mpr recorder), fresh]
  rfl

theorem Extends.record (db : Schema) (version appliedAt : Int64) :
    db.Extends { db with versions := db.versions ++ [(version, appliedAt)] } :=
  ⟨fun _ inside => inside, fun _ inside => inside, List.prefix_append _ _⟩

theorem Sound.record {db : Schema} (sound : db.Sound) (entry : Migration × Nat)
    (member : entry ∈ migrations.zipIdx) (fresh : db.applied (versionOf entry.2) = false)
    (done : ∀ statement ∈ entry.1, statement.Done db) (appliedAt : Int64) :
    Sound { db with versions := db.versions ++ [(versionOf entry.2, appliedAt)] } := by
  have larger := Extends.record db (versionOf entry.2) appliedAt
  refine ⟨sound.tables, sound.indexes, ?_, ?_, ?_⟩
  next =>
    have unknown : versionOf entry.2 ∉ db.versions.map Prod.fst := by
      rw [← applied_iff, fresh]
      exact Bool.false_ne_true
    rw [List.map_append, List.nodup_append]
    refine ⟨sound.once, List.nodup_singleton _, ?_⟩
    intro version older other newest same
    rw [List.map_singleton, List.mem_singleton] at newest
    rw [same, newest] at older
    exact unknown older
  next =>
    intro version inside
    rw [List.map_append, List.mem_append] at inside
    rcases inside with older | newest
    next => exact sound.known version older
    next => exact ⟨entry, member, List.mem_singleton.mp newest⟩
  next =>
    intro other there applied statement inside
    rw [applied_iff, List.map_append, List.mem_append] at applied
    rcases applied with older | newest
    next =>
      have before := sound.complete other there ((applied_iff _ db).mpr older)
      exact larger.done statement (before statement inside)
    next =>
      have same : other = entry :=
        entry_of_version other entry there member (List.mem_singleton.mp newest)
      rw [same] at inside
      exact larger.done statement (done statement inside)

theorem recordVersion_sound (db : Schema) (ready : db.Ready) (entry : Migration × Nat)
    (member : entry ∈ migrations.zipIdx) (fresh : db.applied (versionOf entry.2) = false)
    (done : ∀ statement ∈ entry.1, statement.Done db) (appliedAt : Int64) :
    ∃ next, recordVersion (versionOf entry.2) appliedAt db = .ok next ∧ next.Ready ∧
      db.Extends next ∧ next.applied (versionOf entry.2) = true :=
  ⟨_, recordVersion_of_fresh db ready _ appliedAt fresh,
    ⟨ready.sound.record entry member fresh done appliedAt, ready.recorder⟩,
    .record db _ appliedAt, by simp [applied_iff]⟩

theorem migrations_known (entry : Migration × Nat) (member : entry ∈ migrations.zipIdx) :
    ∀ statement ∈ entry.1, statement.Known := by
  have inside : entry.1 ∈ migrations := List.fst_mem_of_mem_zipIdx member
  simp only [migrations, List.mem_cons, List.not_mem_nil, or_false] at inside
  intro statement here
  rcases inside with same | same | same | same | same | same | same
  all_goals rw [same] at here
  next =>
    have ⟨table, initial, made⟩ : ∃ table ∈ initialTables, .createTable table = statement :=
      List.mem_map.mp here
    rw [← made]
    exact initialTables_subset table initial
  next =>
    have made : ∃ index, statement = .createIndex index := by
      simp only [migration002AddIndexes, List.mem_cons, List.not_mem_nil, or_false] at here
      rcases here with rfl | rfl | rfl | rfl | rfl | rfl | rfl | rfl | rfl | rfl | rfl | rfl <;>
        exact ⟨_, rfl⟩
    have ⟨index, same⟩ := made
    rw [same] at here ⊢
    exact List.mem_filterMap.mpr ⟨_, here, rfl⟩
  next =>
    rw [List.mem_singleton.mp here]
    exact initialTables_subset configTable (by simp [initialTables])
  all_goals contradiction

theorem first_migration (front back : List (Migration × Nat)) (entry : Migration × Nat)
    (split : migrations.zipIdx = front ++ entry :: back) :
    entry = (migration001InitialSchema, 0) ∨ (migration001InitialSchema, 0) ∈ front := by
  cases front with
  | nil => exact .inl (List.cons.inj split).1.symm
  | cons first front => exact .inr (List.mem_cons.mpr (.inl (List.cons.inj split).1))

theorem initial_no_index : ∀ statement ∈ migration001InitialSchema,
    statement.index?.isSome = false := by
  intro statement member
  have ⟨table, _, made⟩ : ∃ table ∈ initialTables, .createTable table = statement :=
    List.mem_map.mp member
  rw [← made]
  rfl

theorem Finished.initial {db : Schema} (finished : Finished (migration001InitialSchema, 0) db) :
    ∀ table ∈ initialTables, table ∈ db.tables := by
  intro table initial
  exact finished.1 (.createTable table) (List.mem_map.mpr ⟨table, initial, rfl⟩)

theorem statements_meet (db : Schema) (ready : db.Ready) (entry : Migration × Nat)
    (member : entry ∈ migrations.zipIdx)
    (base : ∀ next, db.Extends next → ∀ statement ∈ entry.1, statement.index?.isSome = true →
      ∀ table ∈ initialTables, table ∈ next.tables) :
    (Program.all (entry.1.map fun statement => .step (execute statement)) db).Meets
      (fun next => next.Ready ∧ db.Extends next ∧ next.versions = db.versions)
      fun final => ∀ statement ∈ entry.1, statement.Done final := by
  refine Program.meets_all (fun next => next.Ready ∧ db.Extends next ∧
    next.versions = db.versions) (fun statement => Program.step (execute statement))
    Statement.Done entry.1 ?_ db ⟨ready, .refl db, rfl⟩
  intro done statement rest parts next ⟨still, larger, same⟩ known
  have inside : statement ∈ entry.1 := by simp [parts]
  have ⟨later, executed, sound, there, grown, unchanged⟩ :=
    execute_statement next still.sound statement (migrations_known entry member _ inside)
      (base next larger statement inside)
  refine Program.meets_step _ next later executed ⟨⟨⟨sound, ?_⟩, ?_⟩, ?_⟩ there
  next => exact grown.tables _ still.recorder
  next => exact ⟨larger.trans grown, unchanged.trans same⟩
  next => exact fun before member => grown.done before (known before member)

theorem migrate_meets (clock : Int64 → Int64) (front back : List (Migration × Nat))
    (entry : Migration × Nat) (split : migrations.zipIdx = front ++ entry :: back) (db : Schema)
    (ready : db.Ready) (earlier : ∀ before ∈ front, Finished before db) :
    (migrate clock (versionOf entry.2) entry.1 db).Meets
      (fun next => next.Ready ∧ ∀ before ∈ front, Finished before next) (Finished entry) := by
  have member : entry ∈ migrations.zipIdx := by simp [split]
  have base (next : Schema) (larger : db.Extends next) (statement : Statement)
      (inside : statement ∈ entry.1) (indexed : statement.index?.isSome = true) :
      ∀ table ∈ initialTables, table ∈ next.tables := by
    rcases first_migration front back entry split with first | later
    next =>
      rw [first] at inside
      rw [initial_no_index statement inside] at indexed
      contradiction
    next => exact ((earlier _ later).extend larger).initial
  refine Program.meets_skipIf _ _ db ⟨ready, earlier⟩ ?_ ?_
  next => exact fun applied => ⟨ready.sound.complete entry member applied, applied⟩
  next =>
    intro fresh
    refine Program.meets_andThen (fun next => db.Extends next ∧
      next.versions = db.versions ∧ ∀ statement ∈ entry.1, statement.Done next) _ _ db ?_ ?_
    next =>
      refine (statements_meet db ready entry member base).weaken ?_ ?_
      next =>
        intro next ⟨still, larger, _⟩
        exact ⟨still, fun before inside => (earlier before inside).extend larger⟩
      next => exact fun next ⟨_, larger, same⟩ done => ⟨larger, same, done⟩
    next =>
      intro next ⟨still, known⟩ ⟨larger, same, done⟩
      have fresh' : next.applied (versionOf entry.2) = false := by
        rwa [Schema.applied, same]
      have ⟨later, recorded, after, grown, applied⟩ :=
        recordVersion_sound next still entry member fresh' done (clock (versionOf entry.2))
      exact Program.meets_step _ next later recorded
        ⟨after, fun before inside => (known before inside).extend grown⟩
        ⟨fun statement inside => grown.done statement (done statement inside), applied⟩

theorem runMigrations_meets (clock : Int64 → Int64) (db : Schema) (sound : db.Sound) :
    (runMigrations clock db).Meets Sound fun final =>
      schemaMigrationsTable ∈ final.tables ∧ ∀ entry ∈ migrations.zipIdx, Finished entry final := by
  have ⟨next, created, still, there, _, _⟩ :=
    execute_createTable db sound schemaMigrationsTable List.mem_cons_self
  refine Program.meets_andThen (fun next => schemaMigrationsTable ∈ next.tables) _ _ db
    (Program.meets_step _ db next created still there) ?_
  intro next still there
  have all := Program.meets_all Ready
    (fun entry => migrate clock (versionOf entry.2) entry.1) Finished migrations.zipIdx
    (fun front entry back split db ready earlier =>
      migrate_meets clock front back entry split db ready earlier) next ⟨still, there⟩
  exact all.weaken (fun _ ready => ready.sound) fun _ ready finished => ⟨ready.recorder, finished⟩

theorem all_versions :
    migrations.zipIdx.map (fun entry => versionOf entry.2) = [1, 2, 3, 4, 5, 6, 7] := by
  decide

structure Complete (db : Schema) : Prop where
  tables : db.tables = allTables.toFinset
  indexes : db.indexes = allIndexes.toFinset
  versions : (db.versions.map Prod.fst).Perm [1, 2, 3, 4, 5, 6, 7]

theorem Sound.finished {db : Schema} (sound : db.Sound)
    (recorder : schemaMigrationsTable ∈ db.tables)
    (finished : ∀ entry ∈ migrations.zipIdx, Finished entry db) : db.Complete where
  tables := by
    have initial := (finished (migration001InitialSchema, 0) (by simp [migrations])).initial
    ext table
    rw [List.mem_toFinset]
    constructor
    next => exact sound.tables table
    next =>
      intro known
      rcases List.mem_cons.mp known with rfl | base
      next => exact recorder
      next => exact initial table base
  indexes := by
    have second := finished (migration002AddIndexes, 1) (by simp [migrations])
    ext index
    rw [List.mem_toFinset]
    constructor
    next => exact sound.indexes index
    next =>
      intro known
      have ⟨statement, inside, made⟩ := List.mem_filterMap.mp known
      cases statement with
      | createTable table => cases made
      | createIndex other =>
        rw [← Option.some.inj made]
        exact second.1 _ inside
  versions := by
    rw [List.perm_ext_iff_of_nodup sound.once (by decide), ← all_versions]
    intro version
    constructor
    next =>
      intro recorded
      have ⟨entry, member, same⟩ := sound.known version recorded
      exact List.mem_map.mpr ⟨entry, member, same.symm⟩
    next =>
      intro listed
      have ⟨entry, member, same⟩ := List.mem_map.mp listed
      rw [← same, ← applied_iff]
      exact (finished entry member).2

theorem runMigrations_finished (clock : Int64 → Int64) (db : Schema)
    (recorder : schemaMigrationsTable ∈ db.tables)
    (finished : ∀ entry ∈ migrations.zipIdx, Finished entry db) :
    (runMigrations clock db).result = .ok db ∧
      ∀ state ∈ (runMigrations clock db).states, state = db := by
  have present : ∃ other ∈ db.tables, other.name = schemaMigrationsTable.name :=
    ⟨schemaMigrationsTable, recorder, rfl⟩
  have first : execute (.createTable schemaMigrationsTable) db = .ok db := by
    rw [execute, if_pos present]
  have idle : Program.all (migrations.zipIdx.map fun entry =>
      migrate clock (versionOf entry.2) entry.1) db = Program.skip db := by
    refine Program.all_skip _ db fun program member => ?_
    have ⟨entry, inside, made⟩ := List.mem_map.mp member
    rw [← made, migrate, Program.skipIf, (finished entry inside).2]
    rfl
  simp [runMigrations, Program.andThen, Program.step, first, idle, Program.skip]

theorem empty_sound : empty.Sound where
  tables := by simp [empty]
  indexes := by simp [empty]
  once := by simp [empty]
  known := by simp [empty]
  complete := by simp [empty, applied]

end Schema

theorem migrations_survive_crashes (cuts : List ((Int64 → Int64) × Nat))
    (clock first : Int64 → Int64) :
    ∃ final fresh,
      (runMigrations clock (Program.interrupted runMigrations Schema.empty cuts)).result = .ok final ∧
      (runMigrations first Schema.empty).result = .ok fresh ∧
      final.tables = fresh.tables ∧ final.indexes = fresh.indexes ∧
      (final.versions.map Prod.fst).Perm [1, 2, 3, 4, 5, 6, 7] ∧
      ∀ again, (runMigrations again final).result = .ok final ∧
        ∀ state ∈ (runMigrations again final).states, state = final := by
  have left : (Program.interrupted runMigrations Schema.empty cuts).Sound :=
    Program.interrupted_invariant runMigrations
      (fun clock db sound => (Schema.runMigrations_meets clock db sound).survives) Schema.empty
      Schema.empty_sound cuts
  have ⟨final, ended, sound, recorder, finished⟩ := (Schema.runMigrations_meets clock _ left).ends
  have ⟨fresh, undisturbed, freshSound, freshRecorder, freshFinished⟩ :=
    (Schema.runMigrations_meets first Schema.empty Schema.empty_sound).ends
  have whole := sound.finished recorder finished
  have freshWhole := freshSound.finished freshRecorder freshFinished
  exact ⟨final, fresh, ended, undisturbed, whole.tables.trans freshWhole.tables.symm,
    whole.indexes.trans freshWhole.indexes.symm, whole.versions,
    fun again => Schema.runMigrations_finished again final recorder finished⟩

end BitDrive.Core
