import BitDrive.Core.Migrations
import BitDrive.Desktop.Programs

set_option autoImplicit false

namespace BitDrive.Desktop

open BitDrive.Core ByteLayout Crash

def Migrated (schema : Schema) : Prop :=
  schemaMigrationsTable ∈ schema.tables ∧ ∀ entry ∈ migrations.zipIdx, schema.Finished entry

def Disk.Sound (disk : Disk) : Prop := ∀ path, (disk.databases path).Sound

structure Disk.Upgrades (disk after : Disk) : Prop where
  sound : disk.Sound → after.Sound
  kept : ∀ path, Migrated (disk.databases path) → after.databases path = disk.databases path

theorem Disk.Upgrades.of_same {disk after : Disk} (same : after.databases = disk.databases) :
    disk.Upgrades after := by
  constructor
  next =>
    intro sound path
    rw [same]
    exact sound path
  next =>
    intro path _
    rw [same]

theorem Disk.Upgrades.trans {first second third : Disk} (front : first.Upgrades second)
    (back : second.Upgrades third) : first.Upgrades third := by
  constructor
  next => exact fun sound => back.sound (front.sound sound)
  next =>
    intro path migrated
    have same := front.kept path migrated
    rw [← same] at migrated
    exact (back.kept path migrated).trans same

theorem Migrated.cut {schema : Schema} (migrated : Migrated schema) (clock : Int64 → Int64)
    (steps : Nat) : (runMigrations clock schema).cut schema steps = schema := by
  have idle := (Schema.runMigrations_finished clock schema migrated.1 migrated.2).2
  rcases (runMigrations clock schema).cut_mem schema steps with same | passed
  next => exact same
  next => exact idle _ passed

theorem cut_sound {schema : Schema} (sound : schema.Sound) (clock : Int64 → Int64) (steps : Nat) :
    ((runMigrations clock schema).cut schema steps).Sound := by
  rcases (runMigrations clock schema).cut_mem schema steps with same | passed
  next => rwa [same]
  next => exact (Schema.runMigrations_meets clock schema sound).survives _ passed

section

variable (schemaText : SchemaError → String)

theorem openDatabase_upgrades (path : String) (disk : Disk) (opening : Opening) :
    disk.Upgrades { disk with
      databases := (openDatabase schemaText path disk.databases opening).2 } := by
  have changes (schema : Schema)
      (sound : (disk.databases path).Sound → schema.Sound)
      (kept : Migrated (disk.databases path) → schema = disk.databases path) :
      disk.Upgrades { disk with databases := Function.update disk.databases path schema } := by
    constructor
    next =>
      intro before other
      by_cases here : other = path
      next =>
        rw [here]
        simpa only [Function.update_self] using sound (before path)
      next => simpa only [Function.update_of_ne here] using before other
    next =>
      intro other migrated
      by_cases here : other = path
      next =>
        rw [here] at migrated ⊢
        simpa only [Function.update_self] using kept migrated
      next => simp only [Function.update_of_ne here]
  cases opening with
  | noDirectory message => exact .of_same rfl
  | noConnection message => exact .of_same rfl
  | interrupted clock steps message =>
    exact changes _ (fun sound => cut_sound sound clock steps) fun done => done.cut clock steps
  | undisturbed clock =>
    simp only [openDatabase]
    cases ended : (runMigrations clock (disk.databases path)).result with
    | ok schema =>
      refine changes schema ?_ ?_
      next =>
        intro sound
        obtain ⟨final, result, holds, _⟩ :=
          (Schema.runMigrations_meets clock (disk.databases path) sound).ends
        rwa [Except.ok.inj (ended.symm.trans result)]
      next =>
        intro migrated
        have idle := (Schema.runMigrations_finished clock _ migrated.1 migrated.2).1
        exact Except.ok.inj (ended.symm.trans idle)
    | error error =>
      exact changes _ (fun sound => cut_sound sound clock _) fun done => done.cut clock _

theorem openDatabase_migrated (path : String) (disk : Disk) (opening : Opening)
    (sound : disk.Sound)
    (opened : (openDatabase schemaText path disk.databases opening).1 = .ok ()) :
    Migrated ((openDatabase schemaText path disk.databases opening).2 path) := by
  cases opening with
  | noDirectory message => cases opened
  | noConnection message => cases opened
  | interrupted clock steps message => cases opened
  | undisturbed clock =>
    obtain ⟨final, result, _, recorder, finished⟩ :=
      (Schema.runMigrations_meets clock (disk.databases path) (sound path)).ends
    simp only [openDatabase, result, Function.update_self]
    exact ⟨recorder, finished⟩

end

namespace Core

variable {S Context : Type} (crates : ConfigCrates) (schemaText : SchemaError → String)
variable (environment : Environment) (creation : Creation) (disk : Disk)

structure Fresh (core : Core S Context) (disk : Disk) : Prop where
  services : core.services = .new
  migrated : Migrated (disk.databases core.database)

theorem new_upgrades :
    disk.Upgrades (new crates schemaText environment creation disk :
      Except ProtocolError (Core S Context) × Disk).2 := by
  rw [new]
  cases loaded : (ConfigManager.loadFromPath crates creation.load.directory environment disk.file
    creation.load.write).1 with
  | error error => exact .of_same rfl
  | ok config =>
    have upgrades := openDatabase_upgrades schemaText config.get.database.path disk
      creation.opening
    cases opened : (openDatabase schemaText config.get.database.path disk.databases
      creation.opening).1 with
    | error error =>
      simp only [opened]
      exact upgrades.trans (.of_same rfl)
    | ok _ =>
      simp only [opened]
      exact upgrades.trans (.of_same rfl)

theorem new_fresh (sound : disk.Sound) (core : Core S Context)
    (created : (new crates schemaText environment creation disk).1 = .ok core) :
    core.Fresh (new crates schemaText environment creation disk :
      Except ProtocolError (Core S Context) × Disk).2 := by
  rw [new] at created ⊢
  cases loaded : (ConfigManager.loadFromPath crates creation.load.directory environment disk.file
    creation.load.write).1 with
  | error error =>
    simp only [loaded] at created
    cases created
  | ok config =>
    simp only [loaded] at created ⊢
    have migrated := openDatabase_migrated schemaText config.get.database.path disk
      creation.opening sound
    cases opened : (openDatabase schemaText config.get.database.path disk.databases
      creation.opening).1 with
    | error error =>
      simp only [opened] at created
      cases created
    | ok _ =>
      simp only [opened] at created ⊢
      cases answer : (config.getOrCreateDeviceId crates creation.draw
          (ConfigManager.loadFromPath crates creation.load.directory environment disk.file
            creation.load.write).2 creation.write).1 with
      | error error =>
        rw [answer] at created
        cases created
      | ok deviceId =>
        rw [answer] at created
        cases created
        exact ⟨rfl, migrated opened⟩

end Core

namespace Program

variable {S Context : Type} [Service S Context]
variable (crates : ConfigCrates) (schemaText : SchemaError → String) (quoted : String → String)
variable (environment : Environment) (disk : Disk)

theorem run_creates (program : Program) :
    let ended : Ended S Context := program.run crates schemaText quoted environment disk
    ended.core = none ∧ ended.disk.databases = disk.databases ∨
      ∃ (creation : Creation) (before : Disk), before.databases = disk.databases ∧
        let created := Core.new crates schemaText environment creation before
        ended.core = created.1.toOption ∧ ended.disk = created.2 := by
  intro ended
  cases program with
  | validateConfig options => exact .inl ⟨rfl, rfl⟩
  | daemon options creation orders =>
    cases loaded : (load crates environment options disk).1 with
    | error error =>
      left
      simp only [ended, run, loaded]
      exact ⟨trivial, rfl⟩
    | ok config =>
      right
      refine ⟨creation, (load crates environment options disk).2, rfl, ?_⟩
      simp only [ended, run, loaded]
      split <;> simp_all [Except.toOption]
  | list creation listed =>
    right
    refine ⟨creation, disk, rfl, ?_⟩
    simp only [ended, run]
    split <;> simp_all [Except.toOption]
  | config options shown => exact .inl ⟨rfl, rfl⟩
  | setPsk options psk write =>
    left
    simp only [ended, run]
    split
    next => exact ⟨rfl, rfl⟩
    next =>
      split
      next => exact ⟨rfl, rfl⟩
      next =>
        split
        next => exact ⟨rfl, rfl⟩
        next => exact ⟨rfl, rfl⟩

theorem run_upgrades (program : Program) :
    let ended : Ended S Context := program.run crates schemaText quoted environment disk
    disk.Upgrades ended.disk := by
  intro ended
  rcases run_creates (S := S) crates schemaText quoted environment disk program with
    ⟨_, same⟩ | ⟨creation, before, same, _, after⟩
  next => exact .of_same same
  next =>
    rw [after]
    exact Disk.Upgrades.trans (.of_same same)
      (Core.new_upgrades crates schemaText environment creation before)

theorem run_fresh (sound : disk.Sound) (program : Program) (core : Core S Context)
    (created : (program.run crates schemaText quoted environment disk).core = some core) :
    core.Fresh (program.run crates schemaText quoted environment disk : Ended S Context).disk := by
  rcases run_creates (S := S) crates schemaText quoted environment disk program with
    ⟨nothing, _⟩ | ⟨creation, before, same, made, after⟩
  next =>
    rw [nothing] at created
    cases created
  next =>
    have start : before.Sound := (Disk.Upgrades.of_same same).sound sound
    rw [after]
    apply Core.new_fresh crates schemaText environment creation before start core
    rw [made] at created
    cases result : (Core.new crates schemaText environment creation before :
        Except ProtocolError (Core S Context) × Disk).1 with
    | error error =>
      rw [result] at created
      cases created
    | ok other =>
      rw [result] at created
      rw [Option.some.inj created]

theorem serve_fails (orders : Orders) (core : Core S Context) (fresh : core.services = .new) :
    serve quoted orders core = some (.error
      ⟨["Failed to initialize daemon", "Failed to initialize services"],
        .protocol (.config "Service context not set")⟩) := by
  simp only [serve, Core.init, fresh, ServiceManager.initAll, ServiceManager.new]

end Program

namespace History

variable {S Context : Type} [Service S Context]
variable (crates : ConfigCrates) (schemaText : SchemaError → String) (quoted : String → String)

structure Sound (history : History S Context) : Prop where
  disk : history.disk.Sound
  cores : ∀ core ∈ history.cores, core.Fresh history.disk

theorem Sound.next {history : History S Context} (sound : history.Sound)
    (invocation : Invocation) :
    (history.next crates schemaText quoted invocation).Sound := by
  have upgrades := invocation.program.run_upgrades (S := S) crates schemaText quoted
    invocation.environment history.disk
  constructor
  next => exact upgrades.sound sound.disk
  next =>
    intro core member
    rcases List.mem_append.mp member with older | newest
    next =>
      obtain ⟨services, migrated⟩ := sound.cores core older
      refine ⟨services, ?_⟩
      rwa [History.next, upgrades.kept _ migrated]
    next =>
      exact invocation.program.run_fresh crates schemaText quoted invocation.environment
        history.disk sound.disk core (Option.mem_toList.mp newest)

omit [Service S Context] in
theorem start_sound (file : Option Bytes) :
    (start ⟨file, fun _ => Schema.empty⟩ : History S Context).Sound := by
  constructor
  next => exact fun _ => Schema.empty_sound
  next =>
    intro core member
    cases member

theorem Sound.all {history : History S Context} (sound : history.Sound)
    (invocations : List Invocation) :
    let after := invocations.foldl (History.next crates schemaText quoted) history
    after.Sound ∧ history.disk.Upgrades after.disk := by
  induction invocations generalizing history with
  | nil => exact ⟨sound, .of_same rfl⟩
  | cons invocation invocations ih =>
    obtain ⟨kept, upgrades⟩ := ih (sound.next crates schemaText quoted invocation)
    refine ⟨kept, .trans ?_ upgrades⟩
    exact invocation.program.run_upgrades crates schemaText quoted invocation.environment
      history.disk

end History

section

variable {S Context : Type} [Service S Context]
variable (crates : ConfigCrates) (schemaText : SchemaError → String) (quoted : String → String)

theorem daemon_fails (environment : Environment) (disk : Disk) (sound : disk.Sound) (options : Load)
    (creation : Creation) (orders : Orders) :
    let ended : Ended S Context :=
      Program.run crates schemaText quoted environment disk (.daemon options creation orders)
    ∃ failure, ended.outcome = some (.error failure) ∧
      failure.context.head? = some "Failed to initialize daemon" ∧
      ∀ core, ended.core = some core →
        failure.cause = .protocol (.config "Service context not set") := by
  intro ended
  have fresh := Program.run_fresh (S := S) crates schemaText quoted environment disk sound
    (.daemon options creation orders)
  simp only [ended, Program.run] at fresh ⊢
  cases loaded : (Program.load crates environment options disk).1 with
  | error error => exact ⟨_, rfl, rfl, fun _ nothing => nomatch nothing⟩
  | ok config =>
    simp only [loaded] at fresh ⊢
    cases created : (Core.new crates schemaText environment creation
        (Program.load crates environment options disk).2 :
        Except ProtocolError (Core S Context) × Disk).1 with
    | error error => exact ⟨_, rfl, rfl, fun _ nothing => nomatch nothing⟩
    | ok core =>
      simp only [created] at fresh ⊢
      have failed := Program.serve_fails quoted orders core (fresh core rfl).services
      exact ⟨_, failed, rfl, fun _ _ => rfl⟩

theorem daemon_never_serves (file : Option Bytes) (earlier later : List Invocation) :
    let history : History S Context :=
      earlier.foldl (History.next crates schemaText quoted) (.start ⟨file, fun _ => Schema.empty⟩)
    let after := later.foldl (History.next crates schemaText quoted) history
    (∀ environment options creation orders,
      let ended : Ended S Context := Program.run crates schemaText quoted environment history.disk
        (.daemon options creation orders)
      ∃ failure, ended.outcome = some (.error failure) ∧
        failure.context.head? = some "Failed to initialize daemon" ∧
        ∀ core, ended.core = some core →
          failure.cause = .protocol (.config "Service context not set")) ∧
    ∀ core ∈ history.cores, (∀ order, core.services.listServices order = []) ∧
      (history.disk.databases core.database).Complete ∧
      after.disk.databases core.database = history.disk.databases core.database := by
  intro history after
  have sound : history.Sound :=
    ((History.start_sound file).all crates schemaText quoted earlier).1
  obtain ⟨_, upgrades⟩ := sound.all crates schemaText quoted later
  constructor
  next =>
    intro environment options creation orders
    exact daemon_fails crates schemaText quoted environment history.disk sound.disk options
      creation orders
  next =>
    intro core member
    obtain ⟨services, migrated⟩ := sound.cores core member
    refine ⟨?_, ?_, upgrades.kept _ migrated⟩
    next =>
      intro order
      have nobody (id : String) : id ∉ order.list core.services.services.keys := by
        rw [order.mem_list, services]
        exact Finset.notMem_empty id
      exact List.eq_nil_iff_forall_not_mem.mpr nobody
    next => exact (sound.disk _).finished migrated.1 migrated.2

end

end BitDrive.Desktop
