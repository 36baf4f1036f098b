import BitDrive.Core.DeviceIdentity
import BitDrive.Shared.Cell
import BitDrive.Shared.Keyed

set_option autoImplicit false

namespace BitDrive.Core

open ByteLayout

inductive TrustedDeviceCall where
  | addTrustedDevice (device : TrustedDevice)
  | removeTrustedDevice (deviceId : String)
  | updateDeviceLastSeen (deviceId now : String)

namespace TrustedDeviceCall

def deviceId : TrustedDeviceCall → String
  | addTrustedDevice device => device.deviceId
  | removeTrustedDevice deviceId => deviceId
  | updateDeviceLastSeen deviceId _ => deviceId

def update : TrustedDeviceCall → ConfigUpdate
  | addTrustedDevice device => .addTrustedDevice device
  | removeTrustedDevice deviceId => .removeTrustedDevice deviceId
  | updateDeviceLastSeen deviceId now => .updateDeviceLastSeen deviceId now

def seen? (deviceId : String) : TrustedDeviceCall → Option String
  | updateDeviceLastSeen other now => if other = deviceId then some now else none
  | _ => none

def lastSeen? (deviceId : String) (calls : List TrustedDeviceCall) : Option String :=
  (calls.filterMap (seen? deviceId)).getLast?

structure LastAdded (deviceId : String) (calls : List TrustedDeviceCall) (device : TrustedDevice)
    (after : List TrustedDeviceCall) : Prop where
  same : device.deviceId = deviceId
  added : ∃ before, calls = before ++ addTrustedDevice device :: after
  kept : ∀ call ∈ after, call.deviceId = deviceId → ∃ now, call = updateDeviceLastSeen deviceId now

end TrustedDeviceCall

def TrustedDevice.seenAfter (device : TrustedDevice) (calls : List TrustedDeviceCall) :
    TrustedDevice :=
  { device with
    lastSeen := (TrustedDeviceCall.lastSeen? device.deviceId calls).getD device.lastSeen }

namespace ConfigManager

def trustedExcept (manager : ConfigManager) (deviceId : String) : List TrustedDevice :=
  manager.getTrustedDevices.filter fun device => device.deviceId ≠ deviceId

structure Tracks (manager : ConfigManager) (calls : List TrustedDeviceCall) : Prop where
  distinct : (manager.getTrustedDevices.map TrustedDevice.deviceId).Nodup
  found : ∀ deviceId device after, TrustedDeviceCall.LastAdded deviceId calls device after →
    manager.getTrustedDevice deviceId = some (device.seenAfter after)
  missing : ∀ deviceId,
    (∀ device after, ¬ TrustedDeviceCall.LastAdded deviceId calls device after) →
      manager.getTrustedDevice deviceId = none

end ConfigManager

section

variable (crates : ConfigCrates)

def ConfigManager.runTrusted (state : ConfigManager × Option Bytes)
    (request : TrustedDeviceCall × FileWrite) : ConfigManager × Option Bytes :=
  (request.1.update.run crates state.1 state.2 request.2).2

end

def TrustedDevice.seenAt (now : String) (device : TrustedDevice) : TrustedDevice :=
  { device with lastSeen := now }

namespace TrustedDeviceCall

def onTable (devices : List TrustedDevice) : TrustedDeviceCall → List TrustedDevice
  | addTrustedDevice device => Keyed.renew TrustedDevice.deviceId device devices
  | removeTrustedDevice deviceId => Keyed.without TrustedDevice.deviceId deviceId devices
  | updateDeviceLastSeen deviceId now =>
    Keyed.modify TrustedDevice.deviceId (TrustedDevice.seenAt now) deviceId devices

def effect (deviceId : String) (call : TrustedDeviceCall) : Option (Cell.Effect TrustedDevice) :=
  if call.deviceId = deviceId then
    some (match call with
      | addTrustedDevice device => .put device
      | removeTrustedDevice _ => .clear
      | updateDeviceLastSeen _ now => .alter (TrustedDevice.seenAt now))
  else none

end TrustedDeviceCall

theorem TrustedDevice.touch_eq_modify (deviceId now : String) (devices : List TrustedDevice) :
    touch deviceId now devices =
      Keyed.modify TrustedDevice.deviceId (seenAt now) deviceId devices := by
  induction devices with
  | nil => rfl
  | cons device devices ih => simp only [touch, Keyed.modify, ih, seenAt]

namespace TrustedDeviceCall

theorem distinct_onTable (devices : List TrustedDevice)
    (distinct : Keyed.Distinct TrustedDevice.deviceId devices) (call : TrustedDeviceCall) :
    Keyed.Distinct TrustedDevice.deviceId (onTable devices call) := by
  cases call with
  | addTrustedDevice device => exact Keyed.distinct_renew _ device devices distinct
  | removeTrustedDevice deviceId => exact Keyed.distinct_without _ deviceId devices distinct
  | updateDeviceLastSeen deviceId now =>
    exact Keyed.distinct_modify _ (TrustedDevice.seenAt now) (fun _ => rfl) deviceId devices
      distinct

theorem lookup_onTable (devices : List TrustedDevice) (call : TrustedDeviceCall)
    (deviceId : String) :
    Keyed.lookup TrustedDevice.deviceId (onTable devices call) deviceId =
      Cell.next (effect deviceId) (Keyed.lookup TrustedDevice.deviceId devices deviceId) call := by
  have updated : Keyed.lookup TrustedDevice.deviceId (onTable devices call) =
      Function.update (Keyed.lookup TrustedDevice.deviceId devices) call.deviceId
        (Cell.next (effect call.deviceId)
          (Keyed.lookup TrustedDevice.deviceId devices call.deviceId) call) := by
    simp only [Cell.next, effect, if_true]
    cases call with
    | addTrustedDevice device => exact Keyed.lookup_renew _ device devices
    | removeTrustedDevice deviceId => exact Keyed.lookup_without _ deviceId devices
    | updateDeviceLastSeen deviceId now =>
      exact Keyed.lookup_modify _ (TrustedDevice.seenAt now) (fun _ => rfl) deviceId devices
  rw [updated]
  by_cases same : call.deviceId = deviceId
  next => rw [same, Function.update_self]
  next =>
    rw [Function.update_of_ne (Ne.symm same)]
    simp only [Cell.next, effect, if_neg same]

theorem without_onTable (devices : List TrustedDevice) (call : TrustedDeviceCall) :
    Keyed.without TrustedDevice.deviceId call.deviceId (onTable devices call) =
      Keyed.without TrustedDevice.deviceId call.deviceId devices := by
  cases call with
  | addTrustedDevice device => exact Keyed.without_renew _ device devices
  | removeTrustedDevice deviceId => exact Keyed.without_without _ deviceId devices
  | updateDeviceLastSeen deviceId now =>
    exact Keyed.without_modify _ (TrustedDevice.seenAt now) (fun _ => rfl) deviceId devices

theorem distinct_foldl (devices : List TrustedDevice)
    (distinct : Keyed.Distinct TrustedDevice.deviceId devices) (calls : List TrustedDeviceCall) :
    Keyed.Distinct TrustedDevice.deviceId (calls.foldl onTable devices) := by
  induction calls generalizing devices with
  | nil => exact distinct
  | cons call calls ih => exact ih _ (distinct_onTable devices distinct call)

theorem lookup_foldl (devices : List TrustedDevice) (calls : List TrustedDeviceCall)
    (deviceId : String) :
    Keyed.lookup TrustedDevice.deviceId (calls.foldl onTable devices) deviceId =
      calls.foldl (Cell.next (effect deviceId))
        (Keyed.lookup TrustedDevice.deviceId devices deviceId) := by
  induction calls generalizing devices with
  | nil => rfl
  | cons call calls ih => rw [List.foldl_cons, List.foldl_cons, ih, lookup_onTable]

theorem foldl_added (devices : List TrustedDevice)
    (distinct : Keyed.Distinct TrustedDevice.deviceId devices) :
    (devices.map addTrustedDevice).foldl onTable [] = devices := by
  rw [List.foldl_map]
  exact Keyed.foldl_renew _ devices distinct

theorem effect_put_iff (deviceId : String) (call : TrustedDeviceCall) (device : TrustedDevice) :
    effect deviceId call = some (.put device) ↔
      call = addTrustedDevice device ∧ device.deviceId = deviceId := by
  by_cases same : call.deviceId = deviceId
  next =>
    cases call with
    | addTrustedDevice added =>
      simp only [effect, same, if_true, Option.some.injEq, Cell.Effect.put.injEq,
        addTrustedDevice.injEq]
      constructor
      next =>
        rintro rfl
        exact ⟨rfl, same⟩
      next => exact fun ⟨equal, _⟩ => equal
    | _ => simp [effect]
  next =>
    simp only [effect, if_neg same]
    constructor
    next => exact fun put => nomatch put
    next =>
      rintro ⟨rfl, there⟩
      exact absurd there same

theorem keeps_iff (deviceId : String) (call : TrustedDeviceCall) :
    Cell.Keeps (effect deviceId) call ↔
      (call.deviceId = deviceId → ∃ now, call = updateDeviceLastSeen deviceId now) := by
  by_cases same : call.deviceId = deviceId
  next =>
    subst same
    cases call <;> simp [Cell.Keeps, effect, deviceId]
  next =>
    have idle : effect deviceId call = none := if_neg same
    exact iff_of_true (.inl idle) fun there => absurd there same

theorem lastAdded_iff (deviceId : String) (calls : List TrustedDeviceCall) (device : TrustedDevice)
    (after : List TrustedDeviceCall) :
    LastAdded deviceId calls device after ↔
      Cell.LastPut (effect deviceId) calls device after := by
  constructor
  next =>
    intro last
    have ⟨before, split⟩ := last.added
    refine ⟨⟨before, _, split, ?_⟩, ?_⟩
    next => exact (effect_put_iff deviceId _ device).mpr ⟨rfl, last.same⟩
    next => exact fun call later => (keeps_iff deviceId call).mpr (last.kept call later)
  next =>
    intro last
    have ⟨before, call, split, puts⟩ := last.put
    obtain ⟨rfl, same⟩ := (effect_put_iff deviceId call device).mp puts
    exact ⟨same, ⟨before, split⟩, fun call later =>
      (keeps_iff deviceId call).mp (last.since call later)⟩

theorem altered_eq (deviceId : String) (device : TrustedDevice) (call : TrustedDeviceCall) :
    Cell.altered (effect deviceId) device call =
      { device with lastSeen := (call.seen? deviceId).getD device.lastSeen } := by
  by_cases same : call.deviceId = deviceId
  next =>
    subst same
    cases call with
    | addTrustedDevice added => simp only [Cell.altered, effect, if_true, seen?, Option.getD_none]
    | removeTrustedDevice removed =>
      simp only [Cell.altered, effect, if_true, seen?, Option.getD_none]
    | updateDeviceLastSeen updated now =>
      simp [Cell.altered, effect, seen?, deviceId, TrustedDevice.seenAt]
  next =>
    have unseen : call.seen? deviceId = none := by
      cases call with
      | updateDeviceLastSeen updated now => exact if_neg same
      | _ => rfl
    simp only [Cell.altered, effect, if_neg same, unseen, Option.getD_none]

theorem lastSeen?_cons (deviceId : String) (call : TrustedDeviceCall)
    (calls : List TrustedDeviceCall) (before : String) :
    (lastSeen? deviceId (call :: calls)).getD before =
      (lastSeen? deviceId calls).getD ((call.seen? deviceId).getD before) := by
  cases seen : call.seen? deviceId with
  | none => simp only [lastSeen?, List.filterMap_cons, seen, Option.getD_none]
  | some now =>
    simp only [lastSeen?, List.filterMap_cons, seen, List.getLast?_cons, Option.getD_some]

theorem changed_eq_seenAfter (device : TrustedDevice) (calls : List TrustedDeviceCall) :
    Cell.changed (effect device.deviceId) device calls = device.seenAfter calls := by
  induction calls generalizing device with
  | nil => rfl
  | cons call calls ih =>
    have rest := ih (Cell.altered (effect device.deviceId) device call)
    rw [altered_eq] at rest
    rw [Cell.changed, List.foldl_cons, altered_eq]
    refine rest.trans ?_
    simp only [TrustedDevice.seenAfter, lastSeen?_cons]

theorem lookup_eq_some_iff (history : List TrustedDeviceCall) (deviceId : String)
    (entry : TrustedDevice) :
    Keyed.lookup TrustedDevice.deviceId (history.foldl onTable []) deviceId = some entry ↔
      ∃ device after, LastAdded deviceId history device after ∧ entry = device.seenAfter after := by
  rw [lookup_foldl, Keyed.lookup_nil, Cell.foldl_eq_some_iff]
  constructor
  next =>
    intro ⟨device, after, last, entered⟩
    have added := (lastAdded_iff deviceId history device after).mpr last
    refine ⟨device, after, added, ?_⟩
    rw [entered, ← added.same, changed_eq_seenAfter]
  next =>
    intro ⟨device, after, added, entered⟩
    refine ⟨device, after, (lastAdded_iff deviceId history device after).mp added, ?_⟩
    rw [entered, ← added.same, changed_eq_seenAfter]

end TrustedDeviceCall

section

variable (crates : ConfigCrates)

namespace ConfigManager

theorem run_onTable (manager : ConfigManager) (file : Option Bytes) (write : FileWrite)
    (call : TrustedDeviceCall) :
    (call.update.run crates manager file write).2.1.getTrustedDevices =
      call.onTable manager.getTrustedDevices := by
  cases call with
  | addTrustedDevice device => rfl
  | removeTrustedDevice deviceId => rfl
  | updateDeviceLastSeen deviceId now => exact TrustedDevice.touch_eq_modify deviceId now _

theorem runTrusted_onTable (state : ConfigManager × Option Bytes)
    (requests : List (TrustedDeviceCall × FileWrite)) :
    (requests.foldl (runTrusted crates) state).1.getTrustedDevices =
      (requests.map Prod.fst).foldl TrustedDeviceCall.onTable state.1.getTrustedDevices := by
  induction requests generalizing state with
  | nil => rfl
  | cons request requests ih =>
    rw [List.foldl_cons, ih, List.map_cons, List.foldl_cons]
    congr 1
    exact state.1.run_onTable crates state.2 request.2 request.1

theorem tracks_of_history (manager : ConfigManager) (history : List TrustedDeviceCall)
    (reached : manager.getTrustedDevices = history.foldl TrustedDeviceCall.onTable []) :
    manager.Tracks history := by
  have entries (deviceId : String) : manager.getTrustedDevice deviceId =
      Keyed.lookup TrustedDevice.deviceId (history.foldl TrustedDeviceCall.onTable [])
        deviceId := by
    rw [← reached]
    rfl
  constructor
  next =>
    rw [reached]
    exact TrustedDeviceCall.distinct_foldl [] List.nodup_nil history
  next =>
    intro deviceId device after added
    rw [entries]
    exact (TrustedDeviceCall.lookup_eq_some_iff history deviceId _).mpr ⟨device, after, added, rfl⟩
  next =>
    intro deviceId never
    rw [entries, Option.eq_none_iff_forall_not_mem]
    intro entry found
    have ⟨device, after, added, _⟩ :=
      (TrustedDeviceCall.lookup_eq_some_iff history deviceId entry).mp found
    exact never device after added

theorem trusted_devices_tracked (manager : ConfigManager) (file : Option Bytes)
    (distinct : (manager.getTrustedDevices.map TrustedDevice.deviceId).Nodup)
    (requests : List (TrustedDeviceCall × FileWrite)) :
    let reached := requests.foldl (runTrusted crates) (manager, file)
    reached.1.Tracks (manager.getTrustedDevices.map .addTrustedDevice ++ requests.map Prod.fst) ∧
      ∀ request : TrustedDeviceCall × FileWrite,
        (runTrusted crates reached request).1.trustedExcept request.1.deviceId =
          reached.1.trustedExcept request.1.deviceId := by
  intro reached
  constructor
  next =>
    apply tracks_of_history
    rw [runTrusted_onTable, List.foldl_append, TrustedDeviceCall.foldl_added _ distinct]
  next =>
    intro request
    have others := TrustedDeviceCall.without_onTable reached.1.getTrustedDevices request.1
    rw [← reached.1.run_onTable crates reached.2 request.2] at others
    exact others

end ConfigManager

end

def trustedText (device : TrustedDevice) : String :=
  s!"\n[[device.trusted_devices]]\ndevice_id = \"{device.deviceId}\"\n" ++
  s!"name = \"{device.name}\"\npaired_at = \"{device.pairedAt}\"\n" ++
  s!"last_seen = \"{device.lastSeen}\"\ntrusted = {device.trusted}\n" ++
  device.psk.elim "" (fun psk => s!"psk = \"{psk}\"\n")

def pairedText (deviceId : String) : List TrustedDevice → String
  | [] => configText (some deviceId)
  | device :: devices =>
    (configText (some deviceId)).replace "trusted_devices = []\n"
      (String.join ((device :: devices).map trustedText))

def paired (deviceId : String) (devices : List TrustedDevice) : AppConfig :=
  { AppConfig.default with device := { deviceId := some deviceId, trustedDevices := devices } }

def ConfigCrates.pairing : ConfigCrates :=
  { ConfigCrates.reference with
    toStringPretty := fun config =>
      match config.device.deviceId with
      | none => ConfigCrates.reference.toStringPretty config
      | some deviceId =>
        if config = paired deviceId config.device.trustedDevices then
          .ok (utf8 (pairedText deviceId config.device.trustedDevices))
        else .error "not a configuration of this example" }

def phone : TrustedDevice where
  deviceId := "AgICAgICAgICAgICAgICAg=="
  name := "Pixel 8"
  pairedAt := "2024-05-01T08:00:00+00:00"
  lastSeen := "2024-05-01T08:00:00+00:00"
  trusted := true
  psk := none

def tablet : TrustedDevice where
  deviceId := "AwMDAwMDAwMDAwMDAwMDAw=="
  name := "Pixel Tablet"
  pairedAt := "2024-05-02T08:00:00+00:00"
  lastSeen := "2024-05-02T08:00:00+00:00"
  trusted := true
  psk := none

def pairedManager : ConfigManager := ⟨paired "AQEBAQEBAQEBAQEBAQEBAQ==" [phone]⟩

def pairedFile : Option Bytes := some (utf8 (pairedText "AQEBAQEBAQEBAQEBAQEBAQ==" [phone]))

def pairedRequests : List (TrustedDeviceCall × FileWrite) :=
  [(.addTrustedDevice tablet, .done),
    (.updateDeviceLastSeen phone.deviceId "2024-05-03T08:00:00+00:00", .done),
    (.removeTrustedDevice tablet.deviceId, .done)]

def pairedReached : ConfigManager :=
  (pairedRequests.foldl (ConfigManager.runTrusted ConfigCrates.pairing)
    (pairedManager, pairedFile)).1

theorem trusted_devices_tracked_pixels :
    pairedReached.getTrustedDevice phone.deviceId =
        some (phone.seenAt "2024-05-03T08:00:00+00:00") ∧
      pairedReached.getTrustedDevice tablet.deviceId = none := by
  have tracked := (ConfigManager.trusted_devices_tracked ConfigCrates.pairing pairedManager
    pairedFile (by decide) pairedRequests).1
  constructor
  next =>
    refine tracked.found phone.deviceId phone (pairedRequests.map Prod.fst) ⟨rfl, ⟨[], rfl⟩, ?_⟩
    simp [pairedRequests, TrustedDeviceCall.deviceId, phone, tablet]
  next =>
    apply tracked.missing
    intro device after added
    have found := (TrustedDeviceCall.lookup_eq_some_iff _ _ _).mpr ⟨device, after, added, rfl⟩
    have removed : Keyed.lookup TrustedDevice.deviceId
        ((TrustedDeviceCall.addTrustedDevice phone :: pairedRequests.map Prod.fst).foldl
          TrustedDeviceCall.onTable []) tablet.deviceId = none := by
      decide
    cases removed.symm.trans found

end BitDrive.Core
