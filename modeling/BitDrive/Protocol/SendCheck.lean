import BitDrive.Protocol.Allocation
import BitDrive.Protocol.SendWindow

set_option autoImplicit false

namespace BitDrive

inductive ManagerCall where
  | setEventSender
  | openChannel (config : ChannelConfig)
  | closeChannel (channelId : UInt32) (reason : String)
  | handleFlowControl (update : FlowControlUpdate)
  | window (arc : Nat) (call : WindowCall)

section

variable (build : Build)

namespace Channel

def ChecksAgree (channel : Channel) (size : UInt32) : Prop :=
  channel.canSend build size = .ok true ↔
    ∃ reserved, channel.reserveWindow build size = .ok reserved

def Unsendable (channel : Channel) (size : UInt32) : Prop :=
  channel.canSend build size ≠ .ok true ∧
    ¬ ∃ reserved, channel.reserveWindow build size = .ok reserved

def Exceeds (channel : Channel) (size : UInt32) : Prop :=
  channel.sendWindow.toNat < channel.sendWindowUsed.toNat + size.toNat ∧
    (build = .release → channel.sendWindowUsed.toNat + size.toNat < 2 ^ 32)

structure Unopened (channel : Channel) : Prop where
  closed : channel.state = .closed
  bounded : channel.sendWindowUsed.toNat ≤ channel.sendWindow.toNat

theorem new_unopened (config : ChannelConfig) : (Channel.new config).Unopened :=
  ⟨rfl, Nat.zero_le _⟩

theorem Unopened.run {channel : Channel} (unopened : channel.Unopened) (call : WindowCall) :
    (call.run build channel).2.Unopened := by
  have closed := unopened.closed
  have bounded := unopened.bounded
  cases call with
  | reserveWindow size =>
    simp only [WindowCall.run]
    split
    next reserved admitted =>
      obtain ⟨changed, room, _⟩ := channel.reserveWindow_eq_ok reserved build size admitted
      rw [changed]
      constructor
      next => exact closed
      next => simpa only [UInt32.toNat_add] using room
    next => exact unopened
  | releaseWindow size =>
    have left := UInt32.toNat_saturatingSub channel.sendWindowUsed size
    constructor
    next => exact closed
    next =>
      simp only [WindowCall.run, releaseWindow, left]
      omega
  | updateSendWindow increment =>
    have raised := UInt32.toNat_saturatingAdd channel.sendWindow increment
    have small := channel.sendWindow.toNat_lt
    constructor
    next => exact closed
    next =>
      simp only [WindowCall.run, updateSendWindow, raised]
      omega

theorem Unopened.canSend {channel : Channel} (unopened : channel.Unopened) (size : UInt32) :
    channel.canSend build size = .ok false := by
  simp [Channel.canSend, unopened.closed]

theorem Unopened.not_admits_iff {channel : Channel} (unopened : channel.Unopened) (size : UInt32) :
    ¬ channel.Admits build size ↔ channel.Exceeds build size := by
  have bounded := unopened.bounded
  have window := channel.sendWindow.toNat_lt
  have one := size.toNat_lt
  simp only [Admits, Exceeds]
  cases build with
  | debug =>
    simp only [reduceCtorEq, forall_const, false_implies, and_true]
    omega
  | release =>
    simp only [reduceCtorEq, forall_const, false_implies, and_true]
    omega

theorem Unopened.unsendable_iff {channel : Channel} (unopened : channel.Unopened) (size : UInt32) :
    channel.Unsendable build size ↔ channel.Exceeds build size := by
  rw [Unsendable, unopened.canSend build size, channel.reserveWindow_ok_iff build size,
    unopened.not_admits_iff build size]
  simp

theorem Unopened.checksAgree_iff {channel : Channel} (unopened : channel.Unopened)
    (size : UInt32) : channel.ChecksAgree build size ↔ channel.Exceeds build size := by
  rw [ChecksAgree, unopened.canSend build size, channel.reserveWindow_ok_iff build size,
    ← unopened.not_admits_iff build size]
  simp

end Channel

namespace ChannelManager

def managerCall (manager : ChannelManager) : ManagerCall → ChannelManager
  | .setEventSender => manager.setEventSender
  | .openChannel config => (manager.openChannel config).2
  | .closeChannel channelId reason => (manager.closeChannel channelId reason).2
  | .handleFlowControl update => (manager.handleFlowControl update).2
  | .window arc call => manager.write arc fun channel => (call.run build channel).2

def managerCalls (manager : ChannelManager) (history : List ManagerCall) : ChannelManager :=
  history.foldl (managerCall build) manager

def AllUnopened (manager : ChannelManager) : Prop :=
  ∀ (arc : Nat) (channel : Channel), manager.arcs[arc]? = some channel → channel.Unopened

theorem AllUnopened.write {manager : ChannelManager} (all : manager.AllUnopened) (arc : Nat)
    (update : Channel → Channel)
    (kept : ∀ channel : Channel, channel.Unopened → (update channel).Unopened) :
    (manager.write arc update).AllUnopened := by
  intro index channel held
  by_cases same : arc = index
  next =>
    subst same
    rw [write_arcs, Option.map_eq_some_iff] at held
    have ⟨before, present, changed⟩ := held
    rw [← changed]
    exact kept before (all arc before present)
  next =>
    simp only [ChannelManager.write, List.getElem?_modify, if_neg same] at held
    exact all index channel (by simpa using held)

theorem AllUnopened.openChannel {manager : ChannelManager} (all : manager.AllUnopened)
    (config : ChannelConfig) : (manager.openChannel config).2.AllUnopened := by
  have opens := manager.openChannel_opens config _ rfl
  cases result : manager.openChannel config with
  | mk outcome next =>
    rw [result] at opens
    cases opens with
    | refused error taken => exact all
    | opened next small free arcs channels hint =>
      intro index channel held
      simp only [arcs] at held
      rcases List.mem_append.mp (List.mem_of_getElem? held) with earlier | last
      next =>
        have ⟨place, inside, known⟩ := List.mem_iff_getElem.mp earlier
        exact all place channel (by rw [List.getElem?_eq_getElem inside, known])
      next =>
        rw [List.mem_singleton.mp last]
        exact Channel.new_unopened _

theorem AllUnopened.closeChannel {manager : ChannelManager} (all : manager.AllUnopened)
    (channelId : UInt32) (reason : String) :
    (manager.closeChannel channelId reason).2.AllUnopened := by
  rw [ChannelManager.closeChannel]
  split
  next arc held =>
    have removed : AllUnopened { manager with
        channels := Function.update manager.channels channelId none } := all
    exact removed.write arc _ fun channel unopened => ⟨rfl, unopened.bounded⟩
  next => exact all

theorem AllUnopened.handleFlowControl {manager : ChannelManager} (all : manager.AllUnopened)
    (update : FlowControlUpdate) : (manager.handleFlowControl update).2.AllUnopened := by
  apply handleFlowControl_preserves AllUnopened manager update all
  next =>
    intro changed event holds
    exact holds
  next =>
    intro arc
    exact all.write arc (·.updateSendWindow update.windowIncrement) fun channel unopened =>
      unopened.run .release (.updateSendWindow update.windowIncrement)

theorem AllUnopened.managerCall {manager : ChannelManager} (all : manager.AllUnopened)
    (call : ManagerCall) : (manager.managerCall build call).AllUnopened := by
  cases call with
  | setEventSender => exact all
  | openChannel config => exact all.openChannel config
  | closeChannel channelId reason => exact all.closeChannel channelId reason
  | handleFlowControl update => exact all.handleFlowControl update
  | window arc call => exact all.write arc _ fun channel unopened => unopened.run build call

theorem AllUnopened.managerCalls {manager : ChannelManager} (all : manager.AllUnopened)
    (history : List ManagerCall) : (manager.managerCalls build history).AllUnopened := by
  induction history generalizing manager with
  | nil => exact all
  | cons call history ih => exact ih (all.managerCall build call)

theorem new_allUnopened : new.AllUnopened := by
  intro arc channel held
  cases held

theorem send_check_iff (history : List ManagerCall) :
    (∀ (arc : Nat) (channel : Channel) (size : UInt32),
      (new.managerCalls build history).arcs[arc]? = some channel →
      (channel.ChecksAgree build size ↔ channel.Exceeds build size)) ∧
    (∀ (config : ChannelConfig) (arc : Nat) (next : ChannelManager) (channel : Channel)
        (size : UInt32),
      (new.managerCalls build history).openChannel config = (.ok arc, next) →
      next.arcs[arc]? = some channel → channel.canSend build size ≠ .ok true) ∧
    ∀ (channelId : UInt32) (reason : String) (arc : Nat) (next : ChannelManager)
        (channel : Channel) (size : UInt32),
      (new.managerCalls build history).closeChannel channelId reason = (.ok (), next) →
      (new.managerCalls build history).channels channelId = some arc →
      next.arcs[arc]? = some channel →
      (channel.Unsendable build size ↔ channel.Exceeds build size) := by
  have all : (new.managerCalls build history).AllUnopened :=
    new_allUnopened.managerCalls build history
  constructor
  next =>
    intro arc channel size held
    exact (all arc channel held).checksAgree_iff build size
  constructor
  next =>
    intro config arc next channel size opened held
    have after := all.openChannel config
    rw [opened] at after
    rw [(after arc channel held).canSend build size]
    simp
  next =>
    intro channelId reason arc next channel size closed _ held
    have after := all.closeChannel channelId reason
    rw [closed] at after
    exact (after arc channel held).unsendable_iff build size

end ChannelManager

end

theorem opened_channel_not_sendable :
    ¬ ∀ channel ∈ (ChannelManager.new.managerCalls .release
        [.openChannel (defaultChannelConfig "test.service" .data .normal)]).arcs,
      channel.ChecksAgree .release 1 := by
  intro agree
  have same := agree _ (List.mem_singleton_self _)
  have sendable := same.mpr ⟨_, rfl⟩
  contradiction

end BitDrive
