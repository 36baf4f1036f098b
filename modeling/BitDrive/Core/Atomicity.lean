import BitDrive.Core.DeviceIdentity

set_option autoImplicit false

namespace BitDrive.Core

open ByteLayout

theorem ServicesConfig.update?_unchanged_iff (services : ServicesConfig) (service : String)
    (settings : ServiceSettings) :
    (services.update? settings service).getD services = services ↔
      ∀ current, services.get? service = some current → current = settings := by
  cases services
  simp only [update?, get?]
  split <;> simp [eq_comm]

theorem TrustedDevice.touch_unchanged_iff (deviceId now : String) (devices : List TrustedDevice) :
    touch deviceId now devices = devices ↔
      ∀ device, devices.find? (fun other => other.deviceId = deviceId) = some device →
        device.lastSeen = now := by
  induction devices with
  | nil => simp [touch]
  | cons device devices ih =>
    by_cases same : device.deviceId = deviceId
    next =>
      cases device
      simp_all [touch, eq_comm]
    next => simp [touch, same, ih]

theorem TrustedDevice.replaced_unchanged_iff (device : TrustedDevice)
    (devices : List TrustedDevice) :
    devices.filter (fun other => other.deviceId ≠ device.deviceId) ++ [device] = devices ↔
      ∃ others, devices = others ++ [device] ∧
        ∀ other ∈ others, other.deviceId ≠ device.deviceId := by
  constructor
  next =>
    intro unchanged
    refine ⟨_, unchanged.symm, ?_⟩
    intro other member
    simpa using (List.mem_filter.mp member).2
  next =>
    rintro ⟨others, rfl, different⟩
    have kept : others.filter (fun other => other.deviceId ≠ device.deviceId) = others := by
      rw [List.filter_eq_self]
      intro other member
      simpa using different other member
    rw [List.filter_append, kept]
    simp

theorem AppConfig.psk_unchanged_iff (config : AppConfig) (psk : Option String) :
    { config with security := { config.security with psk := psk } } = config ↔
      config.security.psk = psk := by
  cases config with
  | mk bluetooth database logging security services device =>
    cases security
    simp [eq_comm]

theorem AppConfig.trustedDevices_unchanged_iff (config : AppConfig)
    (devices : List TrustedDevice) :
    { config with device := { config.device with trustedDevices := devices } } = config ↔
      devices = config.device.trustedDevices := by
  cases config with
  | mk bluetooth database logging security services device =>
    cases device
    simp

theorem AppConfig.services_unchanged_iff (config : AppConfig) (services : ServicesConfig) :
    { config with services := services } = config ↔ services = config.services := by
  cases config
  simp

inductive ConfigCall where
  | update (update : ConfigUpdate)
  | getOrCreateDeviceId (draw : FixedBytes 16)

def ConfigManager.Atomic {Value : Type} (manager : ConfigManager)
    (result : Except ProtocolError Value × ConfigManager × Option Bytes) : Prop :=
  ∀ error, result.1 = .error error → result.2.1.get = manager.get

section

variable (crates : ConfigCrates)

def AppConfig.Saves (config : AppConfig) (write : FileWrite) : Prop :=
  write = .done ∧ ∃ text, crates.toStringPretty config = .ok text

def ConfigCall.changed (config : AppConfig) : ConfigCall → AppConfig
  | .update changing => changing.changed crates config
  | .getOrCreateDeviceId draw =>
    { config with device := { config.device with
        deviceId := some (crates.base64Encode draw.val) } }

def ConfigUpdate.Idle (config : AppConfig) : ConfigUpdate → Prop
  | .setPsk psk => config.security.psk = some (crates.base64Encode psk)
  | .addTrustedDevice device =>
    ∃ others, config.device.trustedDevices = others ++ [device] ∧
      ∀ other ∈ others, other.deviceId ≠ device.deviceId
  | .removeTrustedDevice deviceId =>
    ∀ device ∈ config.device.trustedDevices, device.deviceId ≠ deviceId
  | .updateDeviceLastSeen deviceId now =>
    ∀ device, config.device.trustedDevices.find? (fun other => other.deviceId = deviceId) =
      some device → device.lastSeen = now
  | .updateServiceSettings service settings =>
    ∀ current, (ConfigManager.mk config).getServiceSettings service = some current →
      current = settings
  | .update _ _ => True
  | .save => True

def ConfigCall.Idle (config : AppConfig) : ConfigCall → Prop
  | .update changing => changing.Idle crates config
  | .getOrCreateDeviceId _ => (ConfigManager.mk config).storedDeviceId crates ≠ .ok none

def ConfigCall.Atomic (manager : ConfigManager) (file : Option Bytes) (write : FileWrite) :
    ConfigCall → Prop
  | .update changing => manager.Atomic (changing.run crates manager file write)
  | .getOrCreateDeviceId draw =>
    manager.Atomic (manager.getOrCreateDeviceId crates draw file write)

theorem ConfigManager.updateAndSave_atomic_iff (manager : ConfigManager)
    (change : AppConfig → AppConfig) (file : Option Bytes) (write : FileWrite) :
    manager.Atomic (manager.updateAndSave crates change file write) ↔
      change manager.config = manager.config ∨ (change manager.config).Saves crates write := by
  have saves := (manager.update change).save_ok_iff crates file write
  simp only [Atomic, updateAndSave, get]
  cases saved : ((manager.update change).save crates file write).1 with
  | ok _ =>
    have through : (change manager.config).Saves crates write := saves.mp saved
    simp [through]
  | error error =>
    have failed : ¬ (change manager.config).Saves crates write := by
      intro through
      cases saved.symm.trans (saves.mpr through)
    simp [failed, update]

theorem ConfigUpdate.atomic_iff (manager : ConfigManager) (file : Option Bytes)
    (write : FileWrite) (update : ConfigUpdate) :
    manager.Atomic (update.run crates manager file write) ↔
      update.Idle crates manager.config ∨
        (update.changed crates manager.config).Saves crates write := by
  cases update with
  | setPsk psk =>
    refine (manager.updateAndSave_atomic_iff crates _ file write).trans (or_congr ?_ Iff.rfl)
    exact manager.config.psk_unchanged_iff _
  | addTrustedDevice device =>
    refine (manager.updateAndSave_atomic_iff crates _ file write).trans (or_congr ?_ Iff.rfl)
    rw [AppConfig.trustedDevices_unchanged_iff]
    exact device.replaced_unchanged_iff _
  | removeTrustedDevice deviceId =>
    refine (manager.updateAndSave_atomic_iff crates _ file write).trans (or_congr ?_ Iff.rfl)
    rw [AppConfig.trustedDevices_unchanged_iff, List.filter_eq_self, Idle]
    simp only [ne_eq, decide_eq_true_eq]
  | updateDeviceLastSeen deviceId now =>
    refine (manager.updateAndSave_atomic_iff crates _ file write).trans (or_congr ?_ Iff.rfl)
    rw [AppConfig.trustedDevices_unchanged_iff]
    exact TrustedDevice.touch_unchanged_iff deviceId now _
  | updateServiceSettings service settings =>
    have unchanged := manager.config.services.update?_unchanged_iff service settings
    simp only [run, ConfigManager.updateServiceSettings, Idle, ConfigManager.getServiceSettings,
      ← unchanged, changed]
    cases manager.config.services.update? settings service with
    | none => simp [ConfigManager.Atomic]
    | some services =>
      dsimp only
      rw [manager.updateAndSave_atomic_iff, AppConfig.services_unchanged_iff, Option.getD_some]
  | update change kept =>
    have quiet : manager.Atomic
        ((ConfigUpdate.update change kept).run crates manager file write) := by
      intro error failed
      cases failed
    exact iff_of_true quiet (.inl trivial)
  | save => exact iff_of_true (fun _ _ => rfl) (.inl trivial)

theorem ConfigManager.getOrCreateDeviceId_atomic_iff (manager : ConfigManager)
    (draw : FixedBytes 16) (file : Option Bytes) (write : FileWrite) :
    manager.Atomic (manager.getOrCreateDeviceId crates draw file write) ↔
      manager.storedDeviceId crates ≠ .ok none ∨
        ((ConfigCall.getOrCreateDeviceId draw).changed crates manager.config).Saves
          crates write := by
  rw [getOrCreateDeviceId]
  cases stored : manager.storedDeviceId crates with
  | error error => simp [Atomic]
  | ok found =>
    cases found with
    | some deviceId => simp [Atomic]
    | none =>
      -- The configuration that was made up has a device id and the old one has none.
      have fresh : (ConfigCall.getOrCreateDeviceId draw).changed crates manager.config ≠
          manager.config := by
        intro same
        have answer : manager.cell crates = some (some ⟨draw.val⟩) := by
          rw [← manager.created_cell crates draw]
          exact congrArg (fun config => (ConfigManager.mk config).cell crates) same.symm
        simp only [cell, stored, Except.toOption] at answer
        cases answer
      have saves := (manager.updateAndSave_atomic_iff crates (fun config =>
        { config with device := { config.device with
            deviceId := some (crates.base64Encode draw.val) } }) file write).trans
              (or_iff_right fresh)
      rw [or_iff_right (fun different => different rfl), ConfigCall.changed, ← saves]
      simp only [Atomic]
      cases (manager.updateAndSave crates _ file write).1 with
      | error error => simp [Except.map]
      | ok _ => simp [Except.map]

theorem config_change_atomic_iff (manager : ConfigManager) (file : Option Bytes)
    (write : FileWrite) (call : ConfigCall) :
    call.Atomic crates manager file write ↔
      call.Idle crates manager.config ∨
        (call.changed crates manager.config).Saves crates write := by
  cases call with
  | update update => exact update.atomic_iff crates manager file write
  | getOrCreateDeviceId draw =>
    exact manager.getOrCreateDeviceId_atomic_iff crates draw file write

end

def defaultManager : ConfigManager := ⟨AppConfig.default⟩

theorem failed_save_keeps_change :
    ¬ (ConfigCall.getOrCreateDeviceId firstDraw).Atomic ConfigCrates.reference defaultManager none
      (.refused "No space left on device") := by
  intro atomic
  rw [ConfigCall.Atomic, ConfigManager.getOrCreateDeviceId_atomic_iff] at atomic
  rcases atomic with found | ⟨written, _⟩
  next => exact found rfl
  next => cases written

end BitDrive.Core
