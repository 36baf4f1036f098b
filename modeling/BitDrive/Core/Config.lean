import BitDrive.Core.ServiceManager

set_option autoImplicit false

namespace BitDrive.Core

open ByteLayout

structure BluetoothConfig where
  adapterId : Option String
  serviceUuid : String
  deviceName : String
  autoConnect : Bool
  reconnectIntervalSec : UInt64
  maxReconnectAttempts : UInt32
  deriving DecidableEq

structure DatabaseConfig where
  path : String
  maxConnections : UInt32
  backupEnabled : Bool
  backupIntervalHours : UInt32
  backupDir : Option String
  deriving DecidableEq

structure LoggingConfig where
  level : String
  format : String
  output : String
  filePath : Option String
  maxFileSizeMb : UInt64
  maxFiles : UInt32
  deriving DecidableEq

structure SecurityConfig where
  psk : Option String
  requireAuthentication : Bool
  sessionTimeoutSec : UInt64
  maxFailedAttempts : UInt32
  lockoutDurationSec : UInt64
  deriving DecidableEq

-- A JSON value stands for its text.
structure JsonValue where
  text : String
  deriving DecidableEq

structure ServiceSettings where
  enabled : Bool
  settings : JsonValue
  deriving DecidableEq

structure ServicesConfig where
  filesystem : ServiceSettings
  sync : ServiceSettings
  photoBackup : ServiceSettings
  shell : ServiceSettings
  mediaControl : ServiceSettings
  phoneFs : ServiceSettings
  proximity : ServiceSettings
  fileStream : ServiceSettings
  appLauncher : ServiceSettings
  config : ServiceSettings
  deriving DecidableEq

structure TrustedDevice where
  deviceId : String
  name : String
  pairedAt : String
  lastSeen : String
  trusted : Bool
  psk : Option String
  deriving DecidableEq

structure DeviceConfig where
  deviceId : Option String
  trustedDevices : List TrustedDevice
  deriving DecidableEq

structure AppConfig where
  bluetooth : BluetoothConfig
  database : DatabaseConfig
  logging : LoggingConfig
  security : SecurityConfig
  services : ServicesConfig
  device : DeviceConfig
  deriving DecidableEq

def BluetoothConfig.default : BluetoothConfig where
  adapterId := none
  serviceUuid := "B7E5E0F0-1A2B-4C3D-8E9F-A0B1C2D3E4F5"
  deviceName := "BPL Desktop"
  autoConnect := true
  reconnectIntervalSec := 30
  maxReconnectAttempts := 10

def DatabaseConfig.default : DatabaseConfig where
  path := "bpl.db"
  maxConnections := 5
  backupEnabled := true
  backupIntervalHours := 24
  backupDir := none

def LoggingConfig.default : LoggingConfig where
  level := "info"
  format := "json"
  output := "stdout"
  filePath := none
  maxFileSizeMb := 100
  maxFiles := 10

def SecurityConfig.default : SecurityConfig where
  psk := none
  requireAuthentication := true
  sessionTimeoutSec := 3600
  maxFailedAttempts := 5
  lockoutDurationSec := 300

def ServicesConfig.default : ServicesConfig where
  filesystem := ⟨true, ⟨"\x7b\x7d"⟩⟩
  sync := ⟨true, ⟨"\x7b\x7d"⟩⟩
  photoBackup := ⟨false, ⟨"\x7b\x7d"⟩⟩
  shell := ⟨true, ⟨"\x7b\x7d"⟩⟩
  mediaControl := ⟨true, ⟨"\x7b\x7d"⟩⟩
  phoneFs := ⟨true, ⟨"\x7b\x7d"⟩⟩
  proximity := ⟨true, ⟨"\x7b\x7d"⟩⟩
  fileStream := ⟨true, ⟨"\x7b\x7d"⟩⟩
  appLauncher := ⟨true, ⟨"\x7b\x7d"⟩⟩
  config := ⟨true, ⟨"\x7b\x7d"⟩⟩

def DeviceConfig.default : DeviceConfig where
  deviceId := none
  trustedDevices := []

def AppConfig.default : AppConfig where
  bluetooth := BluetoothConfig.default
  database := DatabaseConfig.default
  logging := LoggingConfig.default
  security := SecurityConfig.default
  services := ServicesConfig.default
  device := DeviceConfig.default

abbrev Environment := List (String × String)

structure ConfigCrates where
  base64Encode : Bytes → String
  base64Decode : String → Except String Bytes
  base64Decode_encode : ∀ bytes, base64Decode (base64Encode bytes) = .ok bytes
  toStringPretty : AppConfig → Except String Bytes
  -- `Config::builder` over the file, where there is one, and the environment, then
  -- `try_deserialize`.
  build : Environment → (file : Option Bytes) → Except String AppConfig

-- How `fs::write` ends: it truncates the file before it writes, so that an error can leave a first
-- part of the text behind.
inductive FileWrite where
  | done
  | refused (message : String)
  | cut (count : Nat) (message : String)

def FileWrite.run (text : Bytes) (file : Option Bytes) :
    FileWrite → Except ProtocolError Unit × Option Bytes
  | done => (.ok (), some text)
  | refused message => (.error (.config message), file)
  | cut count message => (.error (.config message), some (text.take count))

def TrustedDevice.touch (deviceId now : String) : List TrustedDevice → List TrustedDevice
  | [] => []
  | device :: devices =>
    if device.deviceId = deviceId then { device with lastSeen := now } :: devices
    else device :: touch deviceId now devices

def ServicesConfig.update? (services : ServicesConfig) (settings : ServiceSettings) :
    String → Option ServicesConfig
  | "filesystem" => some { services with filesystem := settings }
  | "sync" => some { services with sync := settings }
  | "photo_backup" => some { services with photoBackup := settings }
  | "shell" => some { services with shell := settings }
  | "media_control" => some { services with mediaControl := settings }
  | "phone_fs" => some { services with phoneFs := settings }
  | "proximity" => some { services with proximity := settings }
  | "file_stream" => some { services with fileStream := settings }
  | "app_launcher" => some { services with appLauncher := settings }
  | "config" => some { services with config := settings }
  | _ => none

def ServicesConfig.get? (services : ServicesConfig) : String → Option ServiceSettings
  | "filesystem" => some services.filesystem
  | "sync" => some services.sync
  | "photo_backup" => some services.photoBackup
  | "shell" => some services.shell
  | "media_control" => some services.mediaControl
  | "phone_fs" => some services.phoneFs
  | "proximity" => some services.proximity
  | "file_stream" => some services.fileStream
  | "app_launcher" => some services.appLauncher
  | "config" => some services.config
  | _ => none

-- The path is that of the one file; clones share the configuration.
structure ConfigManager where
  config : AppConfig
  deriving DecidableEq

namespace ConfigManager

def get (manager : ConfigManager) : AppConfig := manager.config

def getServiceSettings (manager : ConfigManager) (service : String) : Option ServiceSettings :=
  manager.config.services.get? service

def getTrustedDevices (manager : ConfigManager) : List TrustedDevice :=
  manager.config.device.trustedDevices

def getTrustedDevice (manager : ConfigManager) (deviceId : String) : Option TrustedDevice :=
  manager.config.device.trustedDevices.find? fun device => device.deviceId = deviceId

variable (crates : ConfigCrates)

def save (manager : ConfigManager) (file : Option Bytes) (write : FileWrite) :
    Except ProtocolError Unit × Option Bytes :=
  match crates.toStringPretty manager.config with
  | .error message => (.error (.config message), file)
  | .ok text => write.run text file

def loadFromPath (directory : Except String Unit) (environment : Environment)
    (file : Option Bytes) (write : FileWrite) :
    Except ProtocolError ConfigManager × Option Bytes :=
  match directory with
  | .error message => (.error (.config message), file)
  | .ok () =>
    match crates.build environment file with
    | .error message => (.error (.config message), file)
    | .ok config =>
      let manager : ConfigManager := ⟨config⟩
      if file.isSome then (.ok manager, file)
      else
        let saved := manager.save crates file write
        (saved.1.map fun _ => manager, saved.2)

def update (manager : ConfigManager) (change : AppConfig → AppConfig) : ConfigManager :=
  ⟨change manager.config⟩

def updateAndSave (manager : ConfigManager) (change : AppConfig → AppConfig)
    (file : Option Bytes) (write : FileWrite) :
    Except ProtocolError Unit × ConfigManager × Option Bytes :=
  let changed := manager.update change
  let saved := changed.save crates file write
  (saved.1, changed, saved.2)

def storedDeviceId (manager : ConfigManager) : Except ProtocolError (Option DeviceId) :=
  match manager.config.device.deviceId with
  | none => .ok none
  | some text =>
    match crates.base64Decode text with
    | .error message => .error (.config s!"Invalid device ID: {message}")
    | .ok bytes => .ok (if bytes.length = 16 then some ⟨bytes⟩ else none)

-- `draw` is what the random number generator fills in.
def getOrCreateDeviceId (manager : ConfigManager) (draw : FixedBytes 16) (file : Option Bytes)
    (write : FileWrite) : Except ProtocolError DeviceId × ConfigManager × Option Bytes :=
  match manager.storedDeviceId crates with
  | .error error => (.error error, manager, file)
  | .ok (some deviceId) => (.ok deviceId, manager, file)
  | .ok none =>
    let created := manager.updateAndSave crates (fun config =>
      { config with device := { config.device with
          deviceId := some (crates.base64Encode draw.val) } }) file write
    (created.1.map fun _ => ⟨draw.val⟩, created.2)

def setPsk (manager : ConfigManager) (psk : Bytes) (file : Option Bytes) (write : FileWrite) :=
  manager.updateAndSave crates (fun config =>
    { config with security := { config.security with psk := some (crates.base64Encode psk) } })
    file write

def addTrustedDevice (manager : ConfigManager) (device : TrustedDevice) (file : Option Bytes)
    (write : FileWrite) :=
  manager.updateAndSave crates (fun config =>
    { config with device := { config.device with
        trustedDevices := config.device.trustedDevices.filter
          (fun other => other.deviceId ≠ device.deviceId) ++ [device] } }) file write

def removeTrustedDevice (manager : ConfigManager) (deviceId : String) (file : Option Bytes)
    (write : FileWrite) :=
  manager.updateAndSave crates (fun config =>
    { config with device := { config.device with
        trustedDevices := config.device.trustedDevices.filter
          (fun other => other.deviceId ≠ deviceId) } }) file write

def updateDeviceLastSeen (manager : ConfigManager) (deviceId now : String) (file : Option Bytes)
    (write : FileWrite) :=
  manager.updateAndSave crates (fun config =>
    { config with device := { config.device with
        trustedDevices := TrustedDevice.touch deviceId now config.device.trustedDevices } })
    file write

def updateServiceSettings (manager : ConfigManager) (service : String) (settings : ServiceSettings)
    (file : Option Bytes) (write : FileWrite) :
    Except ProtocolError Unit × ConfigManager × Option Bytes :=
  match manager.config.services.update? settings service with
  | none => (.error (.config s!"Unknown service: {service}"), manager, file)
  | some services =>
    manager.updateAndSave crates (fun config => { config with services := services }) file write

end ConfigManager

end BitDrive.Core
