import BitDrive.Core.Config
import BitDrive.Shared.Base64
import BitDrive.Shared.Run

set_option autoImplicit false

namespace BitDrive.Core

open ByteLayout

-- The configuration file, the managers of the process that is running, and the device ids that were
-- returned so far, also by earlier processes.
structure Installation where
  file : Option Bytes
  managers : List ConfigManager
  returned : List DeviceId

inductive ConfigUpdate where
  | setPsk (psk : Bytes)
  | addTrustedDevice (device : TrustedDevice)
  | removeTrustedDevice (deviceId : String)
  | updateDeviceLastSeen (deviceId now : String)
  | updateServiceSettings (service : String) (settings : ServiceSettings)
  | update (change : AppConfig → AppConfig)
      (kept : ∀ config, (change config).device.deviceId = config.device.deviceId)
  | save

inductive InstallationCall where
  | loadFromPath (directory : Except String Unit) (environment : Environment) (write : FileWrite)
  | getOrCreateDeviceId (index : Nat) (draw : FixedBytes 16) (write : FileWrite)
  | update (index : Nat) (update : ConfigUpdate) (write : FileWrite)
  | restart

section

variable (crates : ConfigCrates)

def ConfigUpdate.run (manager : ConfigManager) (file : Option Bytes) (write : FileWrite) :
    ConfigUpdate → Except ProtocolError Unit × ConfigManager × Option Bytes
  | .setPsk psk => manager.setPsk crates psk file write
  | .addTrustedDevice device => manager.addTrustedDevice crates device file write
  | .removeTrustedDevice deviceId => manager.removeTrustedDevice crates deviceId file write
  | .updateDeviceLastSeen deviceId now =>
    manager.updateDeviceLastSeen crates deviceId now file write
  | .updateServiceSettings service settings =>
    manager.updateServiceSettings crates service settings file write
  | .update change _ => (.ok (), manager.update change, file)
  | .save =>
    let saved := manager.save crates file write
    (saved.1, manager, saved.2)

namespace Installation

-- A restart loses what is in memory.
def next (state : Installation) : InstallationCall → Installation
  | .loadFromPath directory environment write =>
    let loaded := ConfigManager.loadFromPath crates directory environment state.file write
    { state with file := loaded.2, managers := state.managers ++ loaded.1.toOption.toList }
  | .getOrCreateDeviceId index draw write =>
    match state.managers[index]? with
    | none => state
    | some manager =>
      let answer := manager.getOrCreateDeviceId crates draw state.file write
      { file := answer.2.2
        managers := state.managers.set index answer.2.1
        returned := state.returned ++ answer.1.toOption.toList }
  | .update index update write =>
    match state.managers[index]? with
    | none => state
    | some manager =>
      let updated := update.run crates manager state.file write
      { state with file := updated.2.2, managers := state.managers.set index updated.2.1 }
  | .restart => { state with managers := [] }

def installed (file : Option Bytes) : Installation where
  file := file
  managers := []
  returned := []

def SameId (state : Installation) : Prop :=
  ∀ first ∈ state.returned, ∀ second ∈ state.returned, first = second

end Installation

def ConfigManager.cell (manager : ConfigManager) : Option (Option DeviceId) :=
  (manager.storedDeviceId crates).toOption

def ConfigUpdate.changed (config : AppConfig) : ConfigUpdate → AppConfig
  | .setPsk psk =>
    { config with security := { config.security with psk := some (crates.base64Encode psk) } }
  | .addTrustedDevice device =>
    { config with device := { config.device with
        trustedDevices := config.device.trustedDevices.filter
          (fun other => other.deviceId ≠ device.deviceId) ++ [device] } }
  | .removeTrustedDevice deviceId =>
    { config with device := { config.device with
        trustedDevices := config.device.trustedDevices.filter
          (fun other => other.deviceId ≠ deviceId) } }
  | .updateDeviceLastSeen deviceId now =>
    { config with device := { config.device with
        trustedDevices := TrustedDevice.touch deviceId now config.device.trustedDevices } }
  | .updateServiceSettings service settings =>
    { config with services := (config.services.update? settings service).getD config.services }
  | .update change _ => change config
  | .save => config

def ConfigUpdate.saved (config : AppConfig) : ConfigUpdate → Option AppConfig
  | .updateServiceSettings service settings =>
    (config.services.update? settings service).map fun services =>
      { config with services := services }
  | .update _ _ => none
  | other => some (other.changed crates config)

theorem ConfigUpdate.run_file (manager : ConfigManager) (file : Option Bytes)
    (write : FileWrite) (update : ConfigUpdate) :
    (update.run crates manager file write).2.2 =
      (update.saved crates manager.config).elim file fun config =>
        ((ConfigManager.mk config).save crates file write).2 := by
  cases update with
  | updateServiceSettings service settings =>
    simp only [run, ConfigManager.updateServiceSettings, saved]
    cases manager.config.services.update? settings service with
    | none => rfl
    | some services => rfl
  | _ => rfl

theorem ConfigManager.cell_congr (first second : ConfigManager)
    (same : first.config.device.deviceId = second.config.device.deviceId) :
    first.cell crates = second.cell crates := by
  simp only [cell, storedDeviceId, same]

def ConfigManager.created (manager : ConfigManager) (draw : FixedBytes 16) : AppConfig :=
  { manager.config with device := { manager.config.device with
      deviceId := some (crates.base64Encode draw.val) } }

theorem ConfigManager.created_cell (manager : ConfigManager) (draw : FixedBytes 16) :
    (ConfigManager.mk (manager.created crates draw)).cell crates = some (some ⟨draw.val⟩) := by
  simp only [cell, storedDeviceId, created, crates.base64Decode_encode, draw.property, if_true]
  rfl

theorem ConfigManager.getOrCreateDeviceId_cases (manager : ConfigManager) (draw : FixedBytes 16)
    (file : Option Bytes) (write : FileWrite) :
    let answer := manager.getOrCreateDeviceId crates draw file write
    let saved := (ConfigManager.mk (manager.created crates draw)).save crates file write
    (∃ error, manager.cell crates = none ∧ answer = (.error error, manager, file)) ∨
      (∃ deviceId, manager.cell crates = some (some deviceId) ∧
        answer = (.ok deviceId, manager, file)) ∨
      manager.cell crates = some none ∧
        answer = (saved.1.map fun _ => ⟨draw.val⟩, ⟨manager.created crates draw⟩, saved.2) := by
  intro answer saved
  simp only [answer, getOrCreateDeviceId, cell]
  cases manager.storedDeviceId crates with
  | error error => exact .inl ⟨error, rfl, rfl⟩
  | ok found =>
    cases found with
    | some deviceId => exact .inr (.inl ⟨deviceId, rfl, rfl⟩)
    | none => exact .inr (.inr ⟨rfl, rfl⟩)

theorem ConfigManager.save_ok_iff (manager : ConfigManager) (file : Option Bytes)
    (write : FileWrite) :
    (manager.save crates file write).1 = .ok () ↔
      write = .done ∧ ∃ text, crates.toStringPretty manager.config = .ok text := by
  simp only [save]
  cases crates.toStringPretty manager.config with
  | error message => simp
  | ok text => cases write <;> simp [FileWrite.run]

theorem ConfigManager.loadFromPath_unread (directory : Except String Unit)
    (environment : Environment) (file : Option Bytes) (write : FileWrite)
    (unread : ∀ config, directory = .ok () → crates.build environment file ≠ .ok config) :
    (loadFromPath crates directory environment file write).1.toOption = none ∧
      (loadFromPath crates directory environment file write).2 = file := by
  cases directory with
  | error message => exact ⟨rfl, rfl⟩
  | ok _ =>
    cases built : crates.build environment file with
    | error message => simp [loadFromPath, built, Except.toOption]
    | ok config => exact absurd built (unread config rfl)

theorem ConfigManager.loadFromPath_kept (directory : Except String Unit)
    (environment : Environment) (text : Bytes) (write : FileWrite) :
    (loadFromPath crates directory environment (some text) write).2 = some text := by
  simp only [loadFromPath]
  split
  next => rfl
  next =>
    split
    next => rfl
    next => rfl

theorem ConfigManager.loadFromPath_opened (environment : Environment) (text : Bytes)
    (write : FileWrite) (config : AppConfig)
    (built : crates.build environment (some text) = .ok config) :
    loadFromPath crates (.ok ()) environment (some text) write = (.ok ⟨config⟩, some text) := by
  simp [loadFromPath, built]

theorem ConfigManager.loadFromPath_made (environment : Environment) (write : FileWrite)
    (config : AppConfig) (built : crates.build environment none = .ok config) :
    loadFromPath crates (.ok ()) environment none write =
      (((ConfigManager.mk config).save crates none write).1.map fun _ => ⟨config⟩,
        ((ConfigManager.mk config).save crates none write).2) := by
  simp [loadFromPath, built]

end

def serviceText (service : String) (settings : ServiceSettings) : String :=
  s!"[services.{service}]\nenabled = {settings.enabled}\n\n[services.{service}.settings]\n\n"

def configText (deviceId : Option String) : String :=
  "[bluetooth]\nservice_uuid = \"B7E5E0F0-1A2B-4C3D-8E9F-A0B1C2D3E4F5\"\n" ++
  "device_name = \"BPL Desktop\"\nauto_connect = true\nreconnect_interval_sec = 30\n" ++
  "max_reconnect_attempts = 10\n\n" ++
  "[database]\npath = \"bpl.db\"\nmax_connections = 5\nbackup_enabled = true\n" ++
  "backup_interval_hours = 24\n\n" ++
  "[logging]\nlevel = \"info\"\nformat = \"json\"\noutput = \"stdout\"\n" ++
  "max_file_size_mb = 100\nmax_files = 10\n\n" ++
  "[security]\nrequire_authentication = true\nsession_timeout_sec = 3600\n" ++
  "max_failed_attempts = 5\nlockout_duration_sec = 300\n\n" ++
  serviceText "filesystem" ServicesConfig.default.filesystem ++
  serviceText "sync" ServicesConfig.default.sync ++
  serviceText "photo_backup" ServicesConfig.default.photoBackup ++
  serviceText "shell" ServicesConfig.default.shell ++
  serviceText "media_control" ServicesConfig.default.mediaControl ++
  serviceText "phone_fs" ServicesConfig.default.phoneFs ++
  serviceText "proximity" ServicesConfig.default.proximity ++
  serviceText "file_stream" ServicesConfig.default.fileStream ++
  serviceText "app_launcher" ServicesConfig.default.appLauncher ++
  serviceText "config" ServicesConfig.default.config ++
  "[device]\n" ++ deviceId.elim "" (fun text => s!"device_id = \"{text}\"\n") ++
  "trusted_devices = []\n"

def identified (deviceId : Option String) : AppConfig :=
  { AppConfig.default with device := { DeviceConfig.default with deviceId := deviceId } }

def ConfigCrates.reference : ConfigCrates where
  base64Encode := Base64.encode
  base64Decode text := (Base64.decode text).elim (.error "Invalid padding") .ok
  base64Decode_encode bytes := by rw [Base64.decode_encode, Option.elim_some]
  toStringPretty config :=
    if config = identified config.device.deviceId then
      .ok (utf8 (configText config.device.deviceId))
    else .error "not a configuration of this example"
  build environment file :=
    if environment = [] ∧ (file = none ∨ file = some (utf8 (configText none))) then
      .ok AppConfig.default
    else .error "not a file of this example"

def firstDraw : FixedBytes 16 := ⟨List.replicate 16 1, by decide⟩

def secondDraw : FixedBytes 16 := ⟨List.replicate 16 2, by decide⟩

end BitDrive.Core
