import BitDrive.Core.Config
import BitDrive.Core.Schema
import Mathlib.Logic.Function.Basic

set_option autoImplicit false

namespace BitDrive.Desktop

open BitDrive.Core ByteLayout Crash

structure Disk where
  file : Option Bytes
  databases : String → Schema

structure Load where
  directory : Except String Unit
  write : FileWrite

inductive Opening where
  | noDirectory (message : String)
  | noConnection (message : String)
  | interrupted (clock : Int64 → Int64) (steps : Nat) (message : String)
  | undisturbed (clock : Int64 → Int64)

structure Creation where
  load : Load
  opening : Opening
  draw : FixedBytes 16
  write : FileWrite

section

variable (schemaText : SchemaError → String)

def openDatabase (path : String) (databases : String → Schema) :
    Opening → Except ProtocolError Unit × (String → Schema)
  | .noDirectory message => (.error (.io message), databases)
  | .noConnection message => (.error (.database message), databases)
  | .interrupted clock steps message =>
    let migrated := runMigrations clock (databases path)
    (.error (.database message),
      Function.update databases path (migrated.cut (databases path) steps))
  | .undisturbed clock =>
    let migrated := runMigrations clock (databases path)
    match migrated.result with
    | .ok schema => (.ok (), Function.update databases path schema)
    | .error error =>
      (.error (.database (schemaText error)),
        Function.update databases path (migrated.cut (databases path) migrated.states.length))

end

structure Core (S Context : Type) where
  config : ConfigManager
  database : String
  services : ServiceManager S Context
  deviceId : DeviceId

structure Failure (Cause : Type) where
  context : List String
  cause : Cause
  deriving DecidableEq

inductive Cause where
  | protocol (error : ProtocolError)
  | message (text : String)

namespace Core

variable {S Context : Type}

def new (crates : ConfigCrates) (schemaText : SchemaError → String) (environment : Environment)
    (creation : Creation) (disk : Disk) : Except ProtocolError (Core S Context) × Disk :=
  let loaded := ConfigManager.loadFromPath crates creation.load.directory environment disk.file
    creation.load.write
  let disk := { disk with file := loaded.2 }
  match loaded.1 with
  | .error error => (.error error, disk)
  | .ok config =>
    let path := config.get.database.path
    let opened := openDatabase schemaText path disk.databases creation.opening
    let disk := { disk with databases := opened.2 }
    match opened.1 with
    | .error error => (.error error, disk)
    | .ok () =>
      let answer := config.getOrCreateDeviceId crates creation.draw disk.file creation.write
      (answer.1.map fun deviceId =>
        { config := answer.2.1
          database := path
          services := .new
          deviceId := deviceId },
        { disk with file := answer.2.2 })

variable [Service S Context] (quoted : String → String) (order : Table.Order String)

def init (core : Core S Context) : Except Halt Unit × Core S Context :=
  let (result, services) := core.services.initAll quoted order
  (result, { core with services := services })

def start (core : Core S Context) : Except Halt Unit × Core S Context :=
  let (result, services) := core.services.startAll quoted order
  (result, { core with services := services })

def stop (core : Core S Context) : Except ProtocolError Unit × Core S Context :=
  let (result, services) := core.services.stopAll order
  (result, { core with services := services })

end Core

structure Orders where
  init : Table.Order String
  start : Table.Order String
  stop : Table.Order String

inductive Program where
  | validateConfig (load : Load)
  | daemon (load : Load) (creation : Creation) (orders : Orders)
  | list (creation : Creation) (listed : Except ProtocolError Unit)
  -- Whatever the action, nothing is set.
  | config (load : Load) (shown : Except String Unit)
  | setPsk (load : Load) (psk : String) (write : FileWrite)

structure Ended (S Context : Type) where
  -- Nothing for a program that hangs.
  outcome : Option (Except (Failure Cause) Unit)
  core : Option (Core S Context)
  disk : Disk

namespace Program

variable {S Context : Type} [Service S Context]
variable (crates : ConfigCrates) (schemaText : SchemaError → String) (quoted : String → String)
variable (environment : Environment)

def load (load : Load) (disk : Disk) : Except ProtocolError ConfigManager × Disk :=
  let loaded := ConfigManager.loadFromPath crates load.directory environment disk.file load.write
  (loaded.1, { disk with file := loaded.2 })

-- What the daemon does with its core. Between the start and the stop it waits for a signal.
def serve (orders : Orders) (core : Core S Context) : Option (Except (Failure Cause) Unit) :=
  match core.init quoted orders.init with
  | (.error .blocked, _) => none
  | (.error (.failed error), _) =>
    some (.error
      ⟨["Failed to initialize daemon", "Failed to initialize services"], .protocol error⟩)
  | (.ok (), core) =>
    match core.start quoted orders.start with
    | (.error .blocked, _) => none
    | (.error (.failed error), _) =>
      some (.error ⟨["Daemon failed", "Failed to start core services"], .protocol error⟩)
    | (.ok (), core) =>
      match core.stop orders.stop with
      | (.error error, _) =>
        some (.error
          ⟨["Failed to stop daemon gracefully", "Failed to stop core"], .protocol error⟩)
      | (.ok (), _) => some (.ok ())

def run (disk : Disk) : Program → Ended S Context
  | .validateConfig options =>
    let loaded := load crates environment options disk
    { outcome := some (match loaded.1 with
        | .error error => .error ⟨["Configuration validation failed"], .protocol error⟩
        | .ok _ => .ok ())
      core := none
      disk := loaded.2 }
  | .daemon options creation orders =>
    let loaded := load crates environment options disk
    match loaded.1 with
    | .error error =>
      { outcome := some (.error
          ⟨["Failed to initialize daemon", "Failed to load configuration"], .protocol error⟩)
        core := none
        disk := loaded.2 }
    | .ok _ =>
      let created := Core.new crates schemaText environment creation loaded.2
      match created.1 with
      | .error error =>
        { outcome := some (.error
            ⟨["Failed to initialize daemon", "Failed to create core"], .protocol error⟩)
          core := none
          disk := created.2 }
      | .ok core =>
        { outcome := serve quoted orders core
          core := some core
          disk := created.2 }
  | .list creation listed =>
    let created := Core.new crates schemaText environment creation disk
    match created.1 with
    | .error error =>
      { outcome := some (.error ⟨[], .protocol error⟩), core := none, disk := created.2 }
    | .ok core =>
      { outcome := some (match listed with
          | .error error => .error ⟨[], .protocol error⟩
          | .ok () => .ok ())
        core := some core
        disk := created.2 }
  | .config options shown =>
    let loaded := load crates environment options disk
    { outcome := some (match loaded.1 with
        | .error error => .error ⟨[], .protocol error⟩
        | .ok _ => match shown with
          | .error text => .error ⟨[], .message text⟩
          | .ok () => .ok ())
      core := none
      disk := loaded.2 }
  | .setPsk options psk write =>
    let loaded := load crates environment options disk
    match loaded.1 with
    | .error error =>
      { outcome := some (.error ⟨[], .protocol error⟩), core := none, disk := loaded.2 }
    | .ok manager =>
      match crates.base64Decode psk with
      | .error text =>
        { outcome := some (.error ⟨["Invalid base64 PSK"], .message text⟩)
          core := none
          disk := loaded.2 }
      | .ok decoded =>
        if decoded.length ≠ 32 then
          { outcome := some (.error ⟨[], .message "PSK must be 32 bytes (base64 encoded)"⟩)
            core := none
            disk := loaded.2 }
        else
          let stored := manager.setPsk crates decoded loaded.2.file write
          { outcome := some (match stored.1 with
              | .error error => .error ⟨[], .protocol error⟩
              | .ok () => .ok ())
            core := none
            disk := { loaded.2 with file := stored.2.2 } }

end Program

structure Invocation where
  program : Program
  environment : Environment

structure History (S Context : Type) where
  disk : Disk
  cores : List (Core S Context)

namespace History

variable {S Context : Type} [Service S Context]
variable (crates : ConfigCrates) (schemaText : SchemaError → String) (quoted : String → String)

def start (disk : Disk) : History S Context where
  disk := disk
  cores := []

def next (history : History S Context) (invocation : Invocation) : History S Context :=
  let ended : Ended S Context :=
    invocation.program.run crates schemaText quoted invocation.environment history.disk
  { disk := ended.disk, cores := history.cores ++ ended.core.toList }

end History

end BitDrive.Desktop
