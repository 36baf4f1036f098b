import BitDrive.Core.SavedIdentity
import BitDrive.Desktop.Programs

set_option autoImplicit false

namespace BitDrive.Desktop

open BitDrive.Core ByteLayout

def Program.Whole : Program → Prop
  | .validateConfig load => load.write.Whole
  | .daemon load creation _ => load.write.Whole ∧ creation.load.write.Whole ∧ creation.write.Whole
  | .list creation _ => creation.load.write.Whole ∧ creation.write.Whole
  | .config load _ => load.write.Whole
  | .setPsk load _ write => load.write.Whole ∧ write.Whole

section

variable (crates : ConfigCrates) (environment : Environment)

structure Agreed (file : Option Bytes) (deviceIds : List DeviceId) : Prop where
  same : ∀ first ∈ deviceIds, ∀ second ∈ deviceIds, first = second
  saved : ∀ deviceId ∈ deviceIds, ∀ config, crates.build environment file = .ok config →
    ConfigManager.cell crates ⟨config⟩ = some (some deviceId)

structure Manages (file : Option Bytes) (deviceIds : List DeviceId) (manager : ConfigManager) :
    Prop where
  built : ∃ source, crates.build environment source = .ok manager.config
  reads : crates.Reads environment file manager.config.device.deviceId
  given : ∀ deviceId ∈ deviceIds, manager.cell crates = some (some deviceId)

theorem agreed_of_manager (manager : ConfigManager) (file : Option Bytes)
    (deviceIds : List DeviceId)
    (reads : crates.Reads environment file manager.config.device.deviceId)
    (given : ∀ deviceId ∈ deviceIds, manager.cell crates = some (some deviceId)) :
    Agreed crates environment file deviceIds := by
  constructor
  next =>
    intro first one second two
    have equal := (given first one).symm.trans (given second two)
    exact Option.some.inj (Option.some.inj equal)
  next =>
    intro deviceId out config built
    rw [← given deviceId out]
    exact ConfigManager.cell_congr crates ⟨config⟩ manager (reads config built)

variable {crates environment}

theorem Manages.agreed {file : Option Bytes} {deviceIds : List DeviceId} {manager : ConfigManager}
    (manages : Manages crates environment file deviceIds manager) :
    Agreed crates environment file deviceIds :=
  agreed_of_manager crates environment manager file deviceIds manages.reads manages.given

theorem Agreed.load {file : Option Bytes} {deviceIds : List DeviceId}
    (agreed : Agreed crates environment file deviceIds)
    (keep : crates.KeepsLoaded environment) (load : Load) (whole : load.write.Whole) :
    let loaded := ConfigManager.loadFromPath crates load.directory environment file load.write
    Agreed crates environment loaded.2 deviceIds ∧
      ∀ manager, loaded.1 = .ok manager →
        Manages crates environment loaded.2 deviceIds manager := by
  intro loaded
  have loads := load_reads crates environment load.directory file load.write whole
    fun config built => keep file config built config.device.deviceId config.security.psk
  rcases loads with ⟨config, returned, built, reads⟩ | ⟨nothing, same⟩
  next =>
    have manages : Manages crates environment loaded.2 deviceIds ⟨config⟩ :=
      ⟨⟨file, built⟩, reads, fun deviceId out => agreed.saved deviceId out config built⟩
    refine ⟨manages.agreed, ?_⟩
    intro manager known
    have answered : loaded.1.toOption = some ⟨config⟩ := returned
    rw [known] at answered
    rwa [Option.some.inj answered]
  next =>
    have kept : loaded.2 = file := same
    rw [kept]
    refine ⟨agreed, ?_⟩
    intro manager known
    have answered : loaded.1.toOption = none := nothing
    rw [known] at answered
    cases answered

theorem getOrCreateDeviceId_done (manager : ConfigManager) (draw : FixedBytes 16)
    (file : Option Bytes) (write : FileWrite) (deviceId : DeviceId)
    (returned : (manager.getOrCreateDeviceId crates draw file write).1 = .ok deviceId) :
    manager.getOrCreateDeviceId crates draw file write =
      manager.getOrCreateDeviceId crates draw file .done := by
  simp only [ConfigManager.getOrCreateDeviceId] at returned ⊢
  split
  next => rfl
  next => rfl
  next stored =>
    simp only [stored] at returned
    have done : write = .done := by
      have saved := ConfigManager.save_ok_iff crates (manager.update fun config =>
        { config with device := { config.device with
          deviceId := some (crates.base64Encode draw.val) } }) file write
      simp only [ConfigManager.updateAndSave] at returned
      generalize (ConfigManager.save crates _ file write).1 = result at returned saved
      cases result with
      | error error => cases returned
      | ok _ => exact (saved.mp rfl).1
    rw [done]

theorem getOrCreateDeviceId_failed (manager : ConfigManager)
    (keep : ∀ deviceId, crates.KeepsIdOf environment
      { manager.config with device := { manager.config.device with deviceId := deviceId } })
    (draw : FixedBytes 16) (file : Option Bytes) (write : FileWrite) (whole : write.Whole)
    (error : ProtocolError)
    (failed : (manager.getOrCreateDeviceId crates draw file write).1 = .error error) :
    (manager.getOrCreateDeviceId crates draw file write).2.2 = file := by
  rcases manager.getOrCreateDeviceId_cases crates draw file write with
    ⟨_, _, same⟩ | ⟨_, _, same⟩ | ⟨_, made⟩
  next => rw [same]
  next => rw [same]
  next =>
    rw [made] at failed ⊢
    cases write with
    | done =>
      have saved := (save_reads crates environment ⟨manager.created crates draw⟩ (keep _) file).1
      rw [saved] at failed
      cases failed
    | refused message =>
      simp only [ConfigManager.save, FileWrite.run]
      split
      next => rfl
      next => rfl
    | cut count message => exact whole.elim

theorem Manages.ask {file : Option Bytes} {deviceIds : List DeviceId} {manager : ConfigManager}
    (manages : Manages crates environment file deviceIds manager)
    (keep : crates.KeepsLoaded environment) (draw : FixedBytes 16) (write : FileWrite)
    (whole : write.Whole) :
    let answer := manager.getOrCreateDeviceId crates draw file write
    Agreed crates environment answer.2.2 (deviceIds ++ answer.1.toOption.toList) := by
  obtain ⟨source, built⟩ := manages.built
  have kept (deviceId : Option String) : crates.KeepsIdOf environment
      { manager.config with device := { manager.config.device with deviceId := deviceId } } :=
    keep source manager.config built deviceId manager.config.security.psk
  intro answer
  cases answered : answer.1 with
  | error error =>
    have same : answer.2.2 = file :=
      getOrCreateDeviceId_failed manager kept draw file write whole error answered
    rw [same, Except.toOption, Option.toList_none, List.append_nil]
    exact manages.agreed
  | ok deviceId =>
    have done : answer = manager.getOrCreateDeviceId crates draw file .done :=
      getOrCreateDeviceId_done manager draw file write deviceId answered
    obtain ⟨reads, given⟩ := asked_saves crates environment manager file deviceIds draw kept
      manages.reads manages.given
    rw [← done, answered] at given
    rw [← done] at reads
    exact agreed_of_manager crates environment _ _ _ reads given

theorem Manages.setPsk {file : Option Bytes} {deviceIds : List DeviceId} {manager : ConfigManager}
    (manages : Manages crates environment file deviceIds manager)
    (keep : crates.KeepsLoaded environment) (psk : Bytes) (write : FileWrite)
    (whole : write.Whole) :
    Agreed crates environment (manager.setPsk crates psk file write).2.2 deviceIds := by
  obtain ⟨source, built⟩ := manages.built
  have reads := whole_reads crates environment
    (manager.update fun config =>
      { config with security := { config.security with psk := some (crates.base64Encode psk) } })
    (keep source manager.config built manager.config.device.deviceId
      (some (crates.base64Encode psk))) file write whole manages.reads
  exact agreed_of_manager crates environment _ _ deviceIds reads manages.given

variable (crates environment) (S Context : Type)

theorem new_agreed (keep : crates.KeepsLoaded environment) (schemaText : SchemaError → String)
    (creation : Creation) (whole : creation.load.write.Whole ∧ creation.write.Whole) (disk : Disk)
    (deviceIds : List DeviceId) (agreed : Agreed crates environment disk.file deviceIds) :
    let created : Except ProtocolError (Core S Context) × Disk :=
      Core.new crates schemaText environment creation disk
    Agreed crates environment created.2.file
      (deviceIds ++ (created.1.toOption.map Core.deviceId).toList) := by
  intro created
  obtain ⟨kept, manages⟩ := agreed.load keep creation.load whole.1
  have none : Agreed crates environment _ (deviceIds ++ []) :=
    (List.append_nil deviceIds).symm ▸ kept
  simp only [created, Core.new]
  cases loaded : (ConfigManager.loadFromPath crates creation.load.directory environment disk.file
    creation.load.write).1 with
  | error error => exact none
  | ok manager =>
    simp only []
    cases opened : (openDatabase schemaText manager.get.database.path disk.databases
      creation.opening).1 with
    | error error => exact none
    | ok _ =>
      have asked := (manages manager loaded).ask keep creation.draw creation.write whole.2
      simp only []
      cases answer : (manager.getOrCreateDeviceId crates creation.draw
          (ConfigManager.loadFromPath crates creation.load.directory environment disk.file
            creation.load.write).2 creation.write).1 with
      | error error =>
        simp only [answer] at asked
        exact asked
      | ok deviceId =>
        simp only [answer] at asked
        exact asked

variable [Service S Context]

theorem run_agreed (keep : crates.KeepsLoaded environment) (schemaText : SchemaError → String)
    (quoted : String → String) (program : Program) (whole : program.Whole) (disk : Disk)
    (deviceIds : List DeviceId) (agreed : Agreed crates environment disk.file deviceIds) :
    let ended : Ended S Context := program.run crates schemaText quoted environment disk
    Agreed crates environment ended.disk.file
      (deviceIds ++ (ended.core.map Core.deviceId).toList) := by
  have only (load : Load) (whole : load.write.Whole) :
      Agreed crates environment (Program.load crates environment load disk).2.file
        (deviceIds ++ []) := by
    rw [List.append_nil]
    exact (agreed.load keep load whole).1
  intro ended
  cases program with
  | validateConfig options => exact only options whole
  | daemon options creation orders =>
    simp only [ended, Program.run]
    cases loaded : (Program.load crates environment options disk).1 with
    | error error => exact only options whole.1
    | ok config =>
      have made := new_agreed crates environment S Context keep schemaText creation whole.2
        (Program.load crates environment options disk).2 deviceIds
        (agreed.load keep options whole.1).1
      simp only []
      cases created : (Core.new crates schemaText environment creation
          (Program.load crates environment options disk).2 :
          Except ProtocolError (Core S Context) × Disk).1 with
      | error error =>
        simp only [created] at made
        exact made
      | ok core =>
        simp only [created] at made
        exact made
  | list creation listed =>
    have made := new_agreed crates environment S Context keep schemaText creation whole disk
      deviceIds agreed
    simp only [ended, Program.run]
    cases created : (Core.new crates schemaText environment creation disk :
        Except ProtocolError (Core S Context) × Disk).1 with
    | error error =>
      simp only [created] at made
      exact made
    | ok core =>
      simp only [created] at made
      exact made
  | config options shown => exact only options whole
  | setPsk options psk write =>
    simp only [ended, Program.run]
    cases loaded : (Program.load crates environment options disk).1 with
    | error error => exact only options whole.1
    | ok manager =>
      simp only []
      cases decoded : crates.base64Decode psk with
      | error text => exact only options whole.1
      | ok psk =>
        simp only []
        split
        next => exact only options whole.1
        next =>
          have manages := (agreed.load keep options whole.1).2 manager loaded
          simp only [Option.map_none, Option.toList_none, List.append_nil]
          exact manages.setPsk keep psk write whole.2

variable (schemaText : SchemaError → String) (quoted : String → String)

theorem history_agreed (keep : crates.KeepsLoaded environment) (file : Option Bytes)
    (invocations : List Invocation)
    (calm : ∀ invocation ∈ invocations,
      invocation.environment = environment ∧ invocation.program.Whole) :
    let history : History S Context :=
      invocations.foldl (History.next crates schemaText quoted)
        (.start ⟨file, fun _ => Schema.empty⟩)
    Agreed crates environment history.disk.file (history.cores.map Core.deviceId) := by
  induction invocations using List.reverseRecOn with
  | nil =>
    constructor
    next =>
      intro first one
      cases one
    next =>
      intro deviceId out
      cases out
  | append_singleton invocations invocation ih =>
    have agreed := ih fun other member => calm other (List.mem_append_left _ member)
    obtain ⟨same, whole⟩ := calm invocation (List.mem_append_right _ (List.mem_singleton_self _))
    rw [List.foldl_append, List.foldl_cons, List.foldl_nil]
    generalize invocations.foldl (History.next crates schemaText quoted)
      (.start ⟨file, fun _ => Schema.empty⟩ : History S Context) = history at agreed ⊢
    have ran := run_agreed crates environment S Context keep schemaText quoted invocation.program
      whole history.disk (history.cores.map Core.deviceId) agreed
    simpa only [History.next, same, List.map_append, Option.toList_map] using ran

end

def calmLoad : Load := ⟨.ok (), .done⟩

def threeDaemons : List Invocation :=
  [⟨.daemon calmLoad ⟨calmLoad, .undisturbed id, firstDraw, .refused "No space left on device"⟩
      ⟨.ascending String, .ascending String, .ascending String⟩, []⟩,
    ⟨.daemon calmLoad ⟨calmLoad, .undisturbed id, secondDraw, .done⟩
      ⟨.ascending String, .ascending String, .ascending String⟩, []⟩,
    ⟨.list ⟨calmLoad, .undisturbed id, firstDraw, .done⟩ (.ok ()), []⟩]

end BitDrive.Desktop
