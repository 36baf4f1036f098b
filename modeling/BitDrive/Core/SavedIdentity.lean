import BitDrive.Core.DeviceIdentity
import Mathlib.Data.String.Basic

set_option autoImplicit false

namespace BitDrive.Core

open ByteLayout

def FileWrite.Whole : FileWrite → Prop
  | done => True
  | refused _ => True
  | cut _ _ => False

section

variable (crates : ConfigCrates) (environment : Environment)

def ConfigCrates.KeepId : Prop :=
  ∀ config, ∃ text read, crates.toStringPretty config = .ok text ∧
    crates.build environment (some text) = .ok read ∧
    read.device.deviceId = config.device.deviceId

def ConfigCrates.KeepsIdOf (config : AppConfig) : Prop :=
  ∃ text read, crates.toStringPretty config = .ok text ∧
    crates.build environment (some text) = .ok read ∧
    read.device.deviceId = config.device.deviceId

def ConfigCrates.KeepsLoaded : Prop :=
  ∀ file config, crates.build environment file = .ok config → ∀ deviceId psk,
    crates.KeepsIdOf environment
      { config with
        device := { config.device with deviceId := deviceId }
        security := { config.security with psk := psk } }

theorem ConfigCrates.KeepId.keepsLoaded (keep : crates.KeepId environment) :
    crates.KeepsLoaded environment := fun _ _ _ _ _ => keep _

def ConfigCrates.Reads (file : Option Bytes) (deviceId : Option String) : Prop :=
  ∀ config, crates.build environment file = .ok config → config.device.deviceId = deviceId

theorem save_reads (manager : ConfigManager) (keep : crates.KeepsIdOf environment manager.config)
    (file : Option Bytes) :
    (manager.save crates file .done).1 = .ok () ∧
      crates.Reads environment (manager.save crates file .done).2
        manager.config.device.deviceId := by
  have ⟨text, read, printed, built, same⟩ := keep
  simp only [ConfigManager.save, printed, FileWrite.run]
  refine ⟨trivial, ?_⟩
  intro config known
  rw [built] at known
  rw [← Except.ok.inj known, same]

theorem whole_reads (manager : ConfigManager) (keep : crates.KeepsIdOf environment manager.config)
    (file : Option Bytes) (write : FileWrite) (whole : write.Whole)
    (reads : crates.Reads environment file manager.config.device.deviceId) :
    crates.Reads environment (manager.save crates file write).2
      manager.config.device.deviceId := by
  cases write with
  | done => exact (save_reads crates environment manager keep file).2
  | refused message =>
    simp only [ConfigManager.save]
    split
    next => exact reads
    next => exact reads
  | cut count message => exact whole.elim

theorem load_reads (directory : Except String Unit) (file : Option Bytes) (write : FileWrite)
    (whole : write.Whole)
    (keep : ∀ config, crates.build environment file = .ok config →
      crates.KeepsIdOf environment config) :
    let loaded := ConfigManager.loadFromPath crates directory environment file write
    (∃ config, loaded.1.toOption = some ⟨config⟩ ∧ crates.build environment file = .ok config ∧
      crates.Reads environment loaded.2 config.device.deviceId) ∨
    (loaded.1.toOption = none ∧ loaded.2 = file) := by
  intro loaded
  by_cases read : ∃ config, directory = .ok () ∧ crates.build environment file = .ok config
  next =>
    obtain ⟨config, rfl, built⟩ := read
    cases file with
    | some text =>
      have opened : loaded = (.ok ⟨config⟩, some text) :=
        ConfigManager.loadFromPath_opened crates environment text write config built
      rw [opened]
      refine .inl ⟨config, rfl, built, ?_⟩
      intro other known
      rw [Except.ok.inj (built.symm.trans known)]
    | none =>
      have made := ConfigManager.loadFromPath_made crates environment write config built
      simp only [loaded, made]
      cases write with
      | done =>
        obtain ⟨written, reads⟩ := save_reads crates environment ⟨config⟩ (keep config built) none
        exact .inl ⟨config, by rw [written]; rfl, built, reads⟩
      | refused message =>
        obtain ⟨text, _, printed, _⟩ := keep config built
        right
        simp only [ConfigManager.save, printed, FileWrite.run]
        exact ⟨rfl, trivial⟩
      | cut count message => exact whole.elim
  next =>
    have unread (config : AppConfig) (created : directory = .ok ()) :
        crates.build environment file ≠ .ok config :=
      fun built => read ⟨config, created, built⟩
    exact .inr (ConfigManager.loadFromPath_unread crates directory environment file write unread)

theorem asked_saves (manager : ConfigManager) (file : Option Bytes) (deviceIds : List DeviceId)
    (draw : FixedBytes 16)
    (keep : ∀ deviceId, crates.KeepsIdOf environment
      { manager.config with device := { manager.config.device with deviceId := deviceId } })
    (reads : crates.Reads environment file manager.config.device.deviceId)
    (given : ∀ deviceId ∈ deviceIds, manager.cell crates = some (some deviceId)) :
    let answer := manager.getOrCreateDeviceId crates draw file .done
    crates.Reads environment answer.2.2 answer.2.1.config.device.deviceId ∧
      ∀ deviceId ∈ deviceIds ++ answer.1.toOption.toList,
        answer.2.1.cell crates = some (some deviceId) := by
  intro answer
  rcases manager.getOrCreateDeviceId_cases crates draw file .done with
    ⟨error, _, failed⟩ | ⟨deviceId, stored, told⟩ | ⟨missing, made⟩
  next =>
    simp only [answer, failed, Except.toOption, Option.toList_none, List.append_nil]
    exact ⟨reads, given⟩
  next =>
    simp only [answer, told, Except.toOption, Option.toList_some]
    refine ⟨reads, ?_⟩
    intro other out
    cases List.mem_append.mp out with
    | inl before => exact given other before
    | inr last => rw [List.mem_singleton.mp last, stored]
  next =>
    -- The manager would have an id that was given out.
    have nothing : deviceIds = [] := by
      apply List.eq_nil_iff_forall_not_mem.mpr
      intro other out
      have wrong := missing.symm.trans (given other out)
      cases wrong
    obtain ⟨written, after⟩ := save_reads crates environment ⟨manager.created crates draw⟩
      (keep _) file
    simp only [answer, made, written, nothing]
    refine ⟨after, ?_⟩
    intro other out
    rw [List.mem_singleton.mp out]
    exact manager.created_cell crates draw

-- A device id that the environment sets stands over that of the file.
structure ConfigCrates.ReadsBack (preset : Option String) : Prop where
  printed : ∀ config text, crates.toStringPretty config = .ok text →
    ∃ read, crates.build environment (some text) = .ok read ∧
      read.device.deviceId = preset.or config.device.deviceId
  overrides : ∀ deviceId, preset = some deviceId → ∀ file read,
    crates.build environment file = .ok read → read.device.deviceId = some deviceId

def ConfigCrates.fileId (file : Option Bytes) : Option DeviceId :=
  file.bind fun text => (crates.build environment (some text)).toOption.bind fun config =>
    ((ConfigManager.mk config).cell crates).join

theorem ConfigCrates.KeepId.readsBack (keep : crates.KeepId environment) :
    crates.ReadsBack environment none := by
  constructor
  next =>
    intro config text printed
    obtain ⟨other, read, known, built, same⟩ := keep config
    obtain rfl : other = text := Except.ok.inj (known.symm.trans printed)
    exact ⟨read, built, same⟩
  next =>
    intro deviceId set
    cases set

variable (preset : Option String)

def AppConfig.Spares (config : AppConfig) (file : Option Bytes) (write : FileWrite) : Prop :=
  match crates.toStringPretty config, write with
  | .ok _, .done => preset = none → ∀ deviceId ∈ crates.fileId environment file,
    (ConfigManager.mk config).cell crates = some (some deviceId)
  | .ok text, .cut count _ => ∀ deviceId ∈ crates.fileId environment file,
    crates.fileId environment (some (text.take count)) = some deviceId
  | _, _ => True

instance (config : AppConfig) (file : Option Bytes) (write : FileWrite) :
    Decidable (config.Spares crates environment preset file write) := by
  unfold AppConfig.Spares
  split <;> infer_instance

def ConfigManager.Answers (manager : ConfigManager) (draw : FixedBytes 16) (file : Option Bytes)
    (write : FileWrite) : Prop :=
  match manager.cell crates with
  | none => True
  | some (some deviceId) => crates.fileId environment file = some deviceId
  | some none =>
    (manager.created crates draw).Spares crates environment preset file write ∧
      match crates.toStringPretty (manager.created crates draw), write with
      | .ok _, .done => preset = none
      | _, _ => True

def Installation.Careful (state : Installation) : InstallationCall → Prop
  | .loadFromPath _ _ _ => True
  | .getOrCreateDeviceId index draw write =>
    ∀ manager ∈ state.managers[index]?,
      manager.Answers crates environment preset draw state.file write
  | .update index update write =>
    ∀ manager ∈ state.managers[index]?, ∀ config ∈ update.saved crates manager.config,
      config.Spares crates environment preset state.file write
  | .restart => True

def Installation.Saved (state : Installation) : Prop :=
  ∀ deviceId ∈ state.returned, crates.fileId environment state.file = some deviceId

instance (manager : ConfigManager) (draw : FixedBytes 16) (file : Option Bytes)
    (write : FileWrite) :
    Decidable (manager.Answers crates environment preset draw file write) := by
  unfold ConfigManager.Answers
  repeat' first | infer_instance | split

instance (state : Installation) (call : InstallationCall) :
    Decidable (state.Careful crates environment preset call) := by
  cases call <;> unfold Installation.Careful <;> infer_instance

variable {crates environment preset}

theorem ConfigCrates.fileId_eq_some_iff (text : Bytes) (deviceId : DeviceId) :
    crates.fileId environment (some text) = some deviceId ↔
      ∃ config, crates.build environment (some text) = .ok config ∧
        (ConfigManager.mk config).cell crates = some (some deviceId) := by
  simp only [fileId, Option.bind_some]
  cases crates.build environment (some text) with
  | error message => simp [Except.toOption]
  | ok config => simp [Except.toOption, Option.join_eq_some_iff]

theorem ConfigCrates.ReadsBack.fileId_printed (back : crates.ReadsBack environment none)
    (config : AppConfig) (text : Bytes) (printed : crates.toStringPretty config = .ok text)
    (deviceId : DeviceId)
    (has : (ConfigManager.mk config).cell crates = some (some deviceId)) :
    crates.fileId environment (some text) = some deviceId := by
  obtain ⟨read, built, same⟩ := back.printed config text printed
  rw [ConfigCrates.fileId_eq_some_iff]
  refine ⟨read, built, ?_⟩
  rw [← has]
  exact ConfigManager.cell_congr crates ⟨read⟩ ⟨config⟩ same

theorem ConfigCrates.ReadsBack.fileId_preset {id : String}
    (back : crates.ReadsBack environment (some id)) (config : AppConfig) (text : Bytes)
    (printed : crates.toStringPretty config = .ok text) (file : Option Bytes) (deviceId : DeviceId)
    (has : crates.fileId environment file = some deviceId) :
    crates.fileId environment (some text) = some deviceId := by
  cases file with
  | none => cases has
  | some before =>
    obtain ⟨old, opened, stored⟩ := (crates.fileId_eq_some_iff before deviceId).mp has
    obtain ⟨read, built, same⟩ := back.printed config text printed
    rw [ConfigCrates.fileId_eq_some_iff]
    refine ⟨read, built, ?_⟩
    rw [← stored]
    apply ConfigManager.cell_congr crates ⟨read⟩ ⟨old⟩
    exact same.trans (back.overrides id rfl (some before) old opened).symm

theorem AppConfig.Spares.fileId_kept (back : crates.ReadsBack environment preset)
    {config : AppConfig} {file : Option Bytes} {write : FileWrite}
    (spares : config.Spares crates environment preset file write) (deviceId : DeviceId)
    (has : crates.fileId environment file = some deviceId) :
    crates.fileId environment ((ConfigManager.mk config).save crates file write).2 =
      some deviceId := by
  simp only [Spares] at spares
  simp only [ConfigManager.save]
  cases printed : crates.toStringPretty config with
  | error message => exact has
  | ok text =>
    simp only [printed] at spares
    cases write with
    | done =>
      cases preset with
      | none => exact back.fileId_printed config text printed deviceId (spares rfl deviceId has)
      | some id => exact back.fileId_preset config text printed file deviceId has
    | refused message => exact has
    | cut count message => exact spares deviceId has

theorem ConfigCrates.ReadsBack.fileId_created (back : crates.ReadsBack environment none)
    (manager : ConfigManager) (draw : FixedBytes 16) (file : Option Bytes) (write : FileWrite)
    (saved : ((ConfigManager.mk (manager.created crates draw)).save crates file write).1 =
      .ok ()) :
    crates.fileId environment
        ((ConfigManager.mk (manager.created crates draw)).save crates file write).2 =
      some ⟨draw.val⟩ := by
  have ⟨done, text, printed⟩ := (ConfigManager.save_ok_iff crates _ file write).mp saved
  simp only [ConfigManager.save, printed, done, FileWrite.run]
  exact back.fileId_printed _ text printed ⟨draw.val⟩ (manager.created_cell crates draw)

theorem ConfigManager.Answers.fileId_kept (back : crates.ReadsBack environment preset)
    (manager : ConfigManager) (draw : FixedBytes 16) (file : Option Bytes) (write : FileWrite)
    (answers : manager.Answers crates environment preset draw file write) :
    let answer := manager.getOrCreateDeviceId crates draw file write
    (∀ deviceId, crates.fileId environment file = some deviceId →
        crates.fileId environment answer.2.2 = some deviceId) ∧
      ∀ deviceId, answer.1 = .ok deviceId →
        crates.fileId environment answer.2.2 = some deviceId := by
  intro answer
  simp only [ConfigManager.Answers] at answers
  rcases manager.getOrCreateDeviceId_cases crates draw file write with
    ⟨error, _, failed⟩ | ⟨known, stored, told⟩ | ⟨missing, made⟩
  next =>
    simp only [answer, failed]
    refine ⟨fun deviceId has => has, ?_⟩
    intro deviceId out
    cases out
  next =>
    simp only [stored] at answers
    simp only [answer, told]
    refine ⟨fun deviceId has => has, ?_⟩
    intro deviceId out
    rw [← Except.ok.inj out]
    exact answers
  next =>
    simp only [missing] at answers
    obtain ⟨spares, unset⟩ := answers
    simp only [answer, made]
    refine ⟨spares.fileId_kept back, ?_⟩
    intro deviceId out
    cases saved : ((ConfigManager.mk (manager.created crates draw)).save crates file write).1 with
    | error error =>
      rw [saved] at out
      cases out
    | ok _ =>
      rw [saved] at out
      obtain ⟨done, text, printed⟩ := (ConfigManager.save_ok_iff crates _ file write).mp saved
      simp only [printed, done] at unset
      subst unset
      rw [← Except.ok.inj out]
      exact back.fileId_created manager draw file write saved

namespace Installation

theorem Saved.sameId {state : Installation} (saved : state.Saved crates environment) :
    state.SameId := by
  intro first one second two
  exact Option.some.inj ((saved first one).symm.trans (saved second two))

-- A load writes only where there was no file, and then no id either.
theorem Saved.load {state : Installation} (saved : state.Saved crates environment)
    (directory : Except String Unit) (present : Environment) (write : FileWrite) :
    (state.next crates (.loadFromPath directory present write)).Saved crates environment := by
  intro deviceId out
  have has : crates.fileId environment state.file = some deviceId := saved deviceId out
  simp only [next]
  cases content : state.file with
  | none =>
    rw [content] at has
    cases has
  | some text =>
    rw [ConfigManager.loadFromPath_kept, ← content]
    exact has

theorem Saved.update (back : crates.ReadsBack environment preset) {state : Installation}
    (saved : state.Saved crates environment) (index : Nat) (update : ConfigUpdate)
    (write : FileWrite)
    (careful : state.Careful crates environment preset (.update index update write)) :
    (state.next crates (.update index update write)).Saved crates environment := by
  simp only [next]
  split
  next => exact saved
  next manager known =>
    intro deviceId out
    have has : crates.fileId environment state.file = some deviceId := saved deviceId out
    have spares := careful manager known
    simp only [ConfigUpdate.run_file]
    cases changed : update.saved crates manager.config with
    | none => exact has
    | some config => exact (spares config changed).fileId_kept back deviceId has

theorem Saved.ask (back : crates.ReadsBack environment preset) {state : Installation}
    (saved : state.Saved crates environment) (index : Nat) (draw : FixedBytes 16)
    (write : FileWrite)
    (careful : state.Careful crates environment preset (.getOrCreateDeviceId index draw write)) :
    (state.next crates (.getOrCreateDeviceId index draw write)).Saved crates environment := by
  simp only [next]
  split
  next => exact saved
  next manager known =>
    have ⟨kept, answered⟩ := (careful manager known).fileId_kept back manager draw state.file write
    intro deviceId out
    rcases List.mem_append.mp out with before | last
    next => exact kept deviceId (saved deviceId before)
    next =>
      apply answered
      generalize (manager.getOrCreateDeviceId crates draw state.file write).1 = answer at last
      cases answer with
      | error error => cases last
      | ok other => rw [List.mem_singleton.mp last]

theorem Saved.next (back : crates.ReadsBack environment preset) {state : Installation}
    (saved : state.Saved crates environment) (call : InstallationCall)
    (careful : state.Careful crates environment preset call) :
    (state.next crates call).Saved crates environment := by
  cases call with
  | loadFromPath directory present write => exact saved.load directory present write
  | getOrCreateDeviceId index draw write => exact saved.ask back index draw write careful
  | update index update write => exact saved.update back index update write careful
  | restart => exact saved

theorem device_id_stable (back : crates.ReadsBack environment preset) (file : Option Bytes)
    (calls : List InstallationCall)
    (careful : Run.Each (next crates) (Careful crates environment preset) (installed file) calls)
    (before : List InstallationCall) (earlier : before <+: calls) :
    (before.foldl (Installation.next crates) (installed file)).SameId := by
  have initial : (installed file).Saved crates environment := by
    intro deviceId out
    cases out
  have reached := Run.reached_of_each (Installation.next crates)
    (fun state => state.Saved crates environment) (Careful crates environment preset)
    (fun state call saved careful => saved.next back call careful) (installed file) calls
    initial careful before earlier
  exact reached.sameId

end Installation

end

def configHead : Bytes :=
  let text := utf8 (configText none)
  text.take (text.length - 21)

def deviceLine (deviceId : String) : Bytes :=
  utf8 "device_id = \"" ++ utf8 deviceId ++ utf8 "\"\n"

def configTail : Bytes := utf8 "trusted_devices = []\n"

def readDeviceId (text : Bytes) : Option String :=
  let rest := text.drop configHead.length
  if rest.length = 21 then none
  else String.fromUTF8? ⟨((rest.drop 13).take (rest.length - 36)).toArray⟩

theorem fromUTF8?_utf8 (text : String) : String.fromUTF8? ⟨(utf8 text).toArray⟩ = some text := by
  have bytes : (⟨(utf8 text).toArray⟩ : ByteArray) = text.toByteArray := by
    simp [utf8]
  rw [bytes, String.fromUTF8?, dif_pos text.isValidUTF8]
  rfl

theorem readDeviceId_written (deviceId : Option String) :
    readDeviceId (configHead ++ deviceId.elim [] deviceLine ++ configTail) = deviceId := by
  have tail : configTail.length = 21 := by decide +kernel
  have front : (utf8 "device_id = \"").length = 13 := by decide +kernel
  have back : (utf8 "\"\n").length = 2 := by decide +kernel
  rw [List.append_assoc]
  cases deviceId with
  | none => simp [readDeviceId, tail]
  | some text =>
    have long : (deviceLine text ++ configTail).length = (utf8 text).length + 36 := by
      simp only [deviceLine, List.length_append, tail, front, back]
      omega
    have middle :
        ((deviceLine text ++ configTail).drop 13).take (utf8 text).length = utf8 text := by
      rw [deviceLine, List.append_assoc, List.append_assoc, ← front, List.drop_left,
        List.take_left]
    rw [readDeviceId, List.drop_left, Option.elim_some, if_neg (by omega), long,
      Nat.add_sub_cancel, middle, fromUTF8?_utf8]

theorem base64_decodes (bytes : Bytes) :
    (Base64.decode (Base64.encode bytes)).elim (.error "Invalid padding") .ok =
      (.ok bytes : Except String Bytes) := by
  rw [Base64.decode_encode, Option.elim_some]

def ConfigCrates.defaults : ConfigCrates where
  base64Encode := Base64.encode
  base64Decode text := (Base64.decode text).elim (.error "Invalid padding") .ok
  base64Decode_encode := base64_decodes
  toStringPretty config :=
    .ok (configHead ++ config.device.deviceId.elim [] deviceLine ++ configTail)
  build _ file := .ok (identified (file.bind readDeviceId))

theorem ConfigCrates.defaults_keepId : ConfigCrates.defaults.KeepId [] := by
  intro config
  have read := readDeviceId_written config.device.deviceId
  refine ⟨configHead ++ config.device.deviceId.elim [] deviceLine ++ configTail,
    identified config.device.deviceId, rfl, ?_, rfl⟩
  simp only [ConfigCrates.defaults, Option.bind_some, read]

-- The first save of the id fails and is made up for before the id is asked for again. A daemon
-- loads the file twice.
def twoLoads : List InstallationCall :=
  [.loadFromPath (.ok ()) [] .done,
    .loadFromPath (.ok ()) [] .done,
    .getOrCreateDeviceId 1 firstDraw (.refused "No space left on device"),
    .update 1 .save .done,
    .getOrCreateDeviceId 1 secondDraw .done,
    .update 1 (.setPsk [7]) (.refused "No space left on device"),
    .restart,
    .loadFromPath (.ok ()) [] .done,
    .loadFromPath (.ok ()) [] .done,
    .getOrCreateDeviceId 1 secondDraw .done]

theorem Installation.device_id_stable_loaded_twice :
    (twoLoads.foldl (next ConfigCrates.defaults) (installed none)).returned =
        [⟨firstDraw.val⟩, ⟨firstDraw.val⟩] ∧
      (twoLoads.foldl (next ConfigCrates.defaults) (installed none)).SameId := by
  constructor
  next => decide +kernel
  next =>
    exact device_id_stable (ConfigCrates.defaults_keepId.readsBack ConfigCrates.defaults [])
      none twoLoads (by decide +kernel) twoLoads (List.prefix_refl twoLoads)

-- The id is made up while the disk is full, returned from memory and lost in the restart.
def fullDisk : List InstallationCall :=
  [.loadFromPath (.ok ()) [] .done,
    .getOrCreateDeviceId 0 firstDraw (.refused "No space left on device"),
    .getOrCreateDeviceId 0 firstDraw .done,
    .restart,
    .loadFromPath (.ok ()) [] .done,
    .getOrCreateDeviceId 0 secondDraw .done]

theorem unsaved_id_replaced :
    ¬ (fullDisk.foldl (Installation.next ConfigCrates.defaults)
      (Installation.installed none)).SameId := by
  have returned : (fullDisk.foldl (Installation.next ConfigCrates.defaults)
      (Installation.installed none)).returned = [⟨firstDraw.val⟩, ⟨secondDraw.val⟩] := by
    decide +kernel
  intro same
  have equal := same ⟨firstDraw.val⟩ (by simp [returned]) ⟨secondDraw.val⟩ (by simp [returned])
  exact absurd equal (by decide)

end BitDrive.Core
