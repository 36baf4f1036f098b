import BitDrive.Protocol.Types
import BitDrive.Shared.Unsigned
import Mathlib.Logic.Function.Basic

set_option autoImplicit false

namespace BitDrive

inductive ChannelState where
  | closed
  | opening
  | «open»
  | closing
  | error
  deriving DecidableEq, Repr

structure ChannelConfig where
  channelId : Option ChannelId
  type : Int32
  priority : Int32
  sendWindow : UInt32
  receiveWindow : UInt32
  maxFrameSize : UInt32
  serviceId : String
  metadata : String → Option String

inductive ChannelType where
  | control
  | data
  | stream
  | urgent
  deriving DecidableEq, Repr

def ChannelType.toI32 : ChannelType → Int32
  | control => 0
  | data => 1
  | stream => 2
  | urgent => 3

inductive ChannelPriority where
  | low
  | normal
  | high
  | critical
  deriving DecidableEq, Repr

def ChannelPriority.toI32 : ChannelPriority → Int32
  | low => 0
  | normal => 1
  | high => 2
  | critical => 3

def defaultChannelConfig (serviceId : String) (channelType : ChannelType)
    (priority : ChannelPriority) : ChannelConfig where
  channelId := some ⟨0⟩
  type := channelType.toI32
  priority := priority.toI32
  sendWindow := defaultWindowSize
  receiveWindow := defaultWindowSize
  maxFrameSize := 16384
  serviceId := serviceId
  metadata := fun _ => none

structure FlowControlUpdate where
  channelId : Option ChannelId
  windowIncrement : UInt32
  deriving DecidableEq, Repr

-- A missing channel id reads as 0.
def channelIdOrZero (channelId : Option ChannelId) : UInt32 :=
  channelId.elim 0 ChannelId.value

structure Channel where
  config : ChannelConfig
  state : ChannelState
  sendWindow : UInt32
  recvWindow : UInt32
  sendWindowUsed : UInt32
  recvWindowUsed : UInt32
  framesSent : UInt64
  framesReceived : UInt64
  bytesSent : UInt64
  bytesReceived : UInt64
  retransmissions : UInt64
  errors : UInt64

namespace Channel

def new (config : ChannelConfig) : Channel where
  config := config
  state := .closed
  sendWindow := config.sendWindow
  recvWindow := config.receiveWindow
  sendWindowUsed := 0
  recvWindowUsed := 0
  framesSent := 0
  framesReceived := 0
  bytesSent := 0
  bytesReceived := 0
  retransmissions := 0
  errors := 0

def canSend (channel : Channel) (build : Build) (frameSize : UInt32) :
    Outcome ProtocolError Bool :=
  -- `&&` leaves the sum alone when the channel is not open.
  if channel.state = .open then do
    let total ← build.add channel.sendWindowUsed frameSize
    return total ≤ channel.sendWindow
  else
    .ok false

def reserveWindow (channel : Channel) (build : Build) (size : UInt32) :
    Outcome ProtocolError Channel := do
  let total ← build.add channel.sendWindowUsed size
  if total > channel.sendWindow then
    .error (.err (.channelWindowExhausted (channelIdOrZero channel.config.channelId)))
  else do
    let used ← build.add channel.sendWindowUsed size
    return { channel with sendWindowUsed := used }

def releaseWindow (channel : Channel) (size : UInt32) : Channel :=
  { channel with sendWindowUsed := channel.sendWindowUsed.saturatingSub size }

def updateSendWindow (channel : Channel) (increment : UInt32) : Channel :=
  { channel with sendWindow := channel.sendWindow.saturatingAdd increment }

structure Reserved (channel : Channel) (build : Build) (size : UInt32) (next : Channel) :
    Prop where
  next_eq : next = { channel with sendWindowUsed := channel.sendWindowUsed + size }
  admitted : (channel.sendWindowUsed.toNat + size.toNat) % 2 ^ 32 ≤ channel.sendWindow.toNat
  checked : build = .debug → channel.sendWindowUsed.toNat + size.toNat < 2 ^ 32

theorem reserveWindow_of_add (channel : Channel) (build : Build) (size total : UInt32)
    (added : (build.add channel.sendWindowUsed size : Outcome ProtocolError UInt32) = .ok total) :
    channel.reserveWindow build size =
      if total > channel.sendWindow then
        .error (.err (.channelWindowExhausted (channelIdOrZero channel.config.channelId)))
      else .ok { channel with sendWindowUsed := total } := by
  simp only [reserveWindow, added, bind, Except.bind, pure, Except.pure]

theorem reserveWindow_eq_ok (channel next : Channel) (build : Build) (size : UInt32)
    (reserved : channel.reserveWindow build size = .ok next) :
    channel.Reserved build size next := by
  cases added : (build.add channel.sendWindowUsed size : Outcome ProtocolError UInt32) with
  | error abort =>
    rw [reserveWindow, added] at reserved
    cases reserved
  | ok total =>
    obtain ⟨rfl, checked⟩ := build.add_eq_ok _ _ _ added
    rw [reserveWindow_of_add channel build size _ added] at reserved
    split at reserved
    next => cases reserved
    next fits =>
      have room : channel.sendWindowUsed + size ≤ channel.sendWindow := UInt32.not_lt.mp fits
      rw [UInt32.le_iff_toNat_le, UInt32.toNat_add] at room
      exact ⟨(Except.ok.inj reserved).symm, room, checked⟩

theorem reserveWindow_of_le (channel : Channel) (build : Build) (size : UInt32)
    (admitted : (channel.sendWindowUsed.toNat + size.toNat) % 2 ^ 32 ≤ channel.sendWindow.toNat)
    (checked : build = .debug → channel.sendWindowUsed.toNat + size.toNat < 2 ^ 32) :
    channel.reserveWindow build size =
      .ok { channel with sendWindowUsed := channel.sendWindowUsed + size } := by
  have added : (build.add channel.sendWindowUsed size : Outcome ProtocolError UInt32) =
      .ok (channel.sendWindowUsed + size) := by
    cases build with
    | debug => exact Build.add_of_lt _ _ _ (checked rfl)
    | release => rfl
  have fits : ¬ channel.sendWindowUsed + size > channel.sendWindow := by
    rwa [gt_iff_lt, UInt32.not_lt, UInt32.le_iff_toNat_le, UInt32.toNat_add]
  rw [reserveWindow_of_add channel build size _ added, if_neg fits]

end Channel

inductive ChannelEvent where
  | opened (channelId : UInt32)
  | closed (channelId : UInt32)
  | flowControl (channelId newWindow : UInt32)
  | error (channelId : UInt32) (message : String)
  deriving DecidableEq, Repr

structure ChannelManager where
  arcs : List Channel
  channels : UInt32 → Option Nat
  nextChannelId : UInt32
  -- The events offered to the queue; whether it takes them is ignored.
  eventTx : Option (List ChannelEvent)

namespace ChannelManager

def new : ChannelManager where
  arcs := []
  channels := fun _ => none
  nextChannelId := 1
  eventTx := none

def setEventSender (manager : ChannelManager) : ChannelManager :=
  { manager with eventTx := some [] }

def trySend (manager : ChannelManager) (event : ChannelEvent) : ChannelManager :=
  { manager with eventTx := manager.eventTx.map (· ++ [event]) }

def write (manager : ChannelManager) (arc : Nat) (update : Channel → Channel) : ChannelManager :=
  { manager with arcs := manager.arcs.modify arc update }

def openChannel (manager : ChannelManager) (config : ChannelConfig) :
    Outcome ProtocolError Nat × ChannelManager :=
  let requestedId := channelIdOrZero config.channelId
  let channelId := if requestedId = 0 then manager.nextChannelId else requestedId
  if channelId ≥ maxChannels then
    (.error (.err (.invalidArgument "Maximum channels reached")), manager)
  else if (manager.channels channelId).isSome then
    (.error (.err (.invalidArgument s!"Channel {channelId} already exists")), manager)
  else
    let arc := manager.arcs.length
    let inserted := { manager with
      arcs := manager.arcs ++ [Channel.new { config with channelId := some ⟨channelId⟩ }]
      channels := Function.update manager.channels channelId (some arc) }
    -- Below `MAX_CHANNELS`, so that the sum does not overflow.
    (.ok arc, { inserted.trySend (.opened channelId) with
      nextChannelId := min (channelId + 1) maxChannels })

def getChannel (manager : ChannelManager) (channelId : UInt32) : Option Nat :=
  manager.channels channelId

-- The reason is only logged.
def closeChannel (manager : ChannelManager) (channelId : UInt32) (_reason : String) :
    Outcome ProtocolError Unit × ChannelManager :=
  match manager.channels channelId with
  | some arc =>
    let removed := { manager with channels := Function.update manager.channels channelId none }
    (.ok (), (removed.write arc fun channel => { channel with state := .closed }).trySend
      (.closed channelId))
  | none => (.error (.err (.channelNotFound channelId)), manager)

def handleFlowControl (manager : ChannelManager) (update : FlowControlUpdate) :
    Outcome ProtocolError Unit × ChannelManager :=
  let channelId := channelIdOrZero update.channelId
  match manager.getChannel channelId with
  | some arc =>
    let updated := manager.write arc (·.updateSendWindow update.windowIncrement)
    -- The table holds no `Arc` without a channel.
    (.ok (), updated.arcs[arc]?.elim updated fun channel =>
      updated.trySend (.flowControl channelId channel.sendWindow))
  | none => (.error (.err (.channelNotFound channelId)), manager)

@[simp] theorem trySend_arcs (manager : ChannelManager) (event : ChannelEvent) :
    (manager.trySend event).arcs = manager.arcs := rfl

@[simp] theorem trySend_channels (manager : ChannelManager) (event : ChannelEvent) :
    (manager.trySend event).channels = manager.channels := rfl

@[simp] theorem write_channels (manager : ChannelManager) (arc : Nat)
    (update : Channel → Channel) : (manager.write arc update).channels = manager.channels := rfl

@[simp] theorem write_arcs (manager : ChannelManager) (arc : Nat) (update : Channel → Channel) :
    (manager.write arc update).arcs[arc]? = manager.arcs[arc]?.map update := by
  simp [write]

theorem handleFlowControl_preserves (holds : ChannelManager → Prop)
    (manager : ChannelManager) (update : FlowControlUpdate) (start : holds manager)
    (announced : ∀ (changed : ChannelManager) (event : ChannelEvent), holds changed →
      holds (changed.trySend event))
    (widened : ∀ arc, holds (manager.write arc (·.updateSendWindow update.windowIncrement))) :
    holds (manager.handleFlowControl update).2 := by
  simp only [handleFlowControl]
  split
  next arc held =>
    cases (manager.write arc (·.updateSendWindow update.windowIncrement)).arcs[arc]? with
    | none => exact widened arc
    | some channel => exact announced _ _ (widened arc)
  next => exact start

@[simp] theorem handleFlowControl_channels (manager : ChannelManager)
    (update : FlowControlUpdate) :
    (manager.handleFlowControl update).2.channels = manager.channels :=
  handleFlowControl_preserves (fun changed => changed.channels = manager.channels) manager update
    rfl (fun _ _ same => same) fun _ => rfl

theorem handleFlowControl_arcs (manager : ChannelManager) (update : FlowControlUpdate) (arc : Nat)
    (channel : Channel) (held : manager.getChannel (channelIdOrZero update.channelId) = some arc)
    (stored : manager.arcs[arc]? = some channel) :
    (manager.handleFlowControl update).2.arcs[arc]? =
      some (channel.updateSendWindow update.windowIncrement) := by
  simp [handleFlowControl, held, stored]

end ChannelManager

end BitDrive
