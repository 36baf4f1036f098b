import BitDrive.Protocol.Allocation
import BitDrive.Protocol.Handshake

set_option autoImplicit false

namespace BitDrive

open ByteLayout

inductive TableCall where
  | openChannel (config : ChannelConfig)
  | closeChannel (channelId : UInt32) (reason : String)
  | handleFlowControl (update : FlowControlUpdate)

inductive AuthCall where
  | setPsk (psk : FixedBytes 32)
  | verifyResponse (challenge : AuthChallenge) (response : AuthResponse)
  | verifyServerResponse (challenge : AuthChallenge) (response : AuthSuccess)
  | rotateKeys (newMasterKey : FixedBytes 32)
  | clearKeys

namespace ChannelManager

def tableCall (manager : ChannelManager) : TableCall → ChannelManager
  | .openChannel config => (manager.openChannel config).2
  | .closeChannel channelId reason => (manager.closeChannel channelId reason).2
  | .handleFlowControl update => (manager.handleFlowControl update).2

def tableCalls (manager : ChannelManager) (history : List TableCall) : ChannelManager :=
  history.foldl tableCall manager

structure Tabled (manager : ChannelManager) : Prop where
  hint : 1 ≤ manager.nextChannelId
  inRange : ∀ key arc, manager.channels key = some arc → 1 ≤ key ∧ key < maxChannels
  stored : ∀ key arc, manager.channels key = some arc →
    ∃ channel, manager.arcs[arc]? = some channel ∧ channel.config.channelId = some ⟨key⟩

def KeepsLive (manager next : ChannelManager) : Prop :=
  ∀ key arc, manager.channels key = some arc →
    next.channels key = some arc ∧ next.arcs[arc]? = manager.arcs[arc]?

theorem new_tabled : new.Tabled := by
  constructor
  next => decide
  next =>
    intro key arc held
    cases held
  next =>
    intro key arc held
    cases held

theorem write_stored (manager : ChannelManager) (arc index : Nat) (update : Channel → Channel)
    (kept : ∀ channel, (update channel).config = channel.config) (channel : Channel)
    (held : manager.arcs[index]? = some channel) :
    ∃ written, (manager.write arc update).arcs[index]? = some written ∧
      written.config = channel.config := by
  by_cases same : arc = index
  next =>
    subst same
    exact ⟨update channel, by simp [held], kept channel⟩
  next => exact ⟨channel, by simp [write, same, held], rfl⟩

theorem Tabled.narrow {manager : ChannelManager} (tabled : manager.Tabled)
    (channels : UInt32 → Option Nat)
    (fewer : ∀ key arc, channels key = some arc → manager.channels key = some arc) (arc : Nat)
    (update : Channel → Channel) (kept : ∀ channel, (update channel).config = channel.config) :
    (write { manager with channels := channels } arc update).Tabled := by
  constructor
  next => exact tabled.hint
  next =>
    intro key index held
    exact tabled.inRange key index (fewer key index held)
  next =>
    intro key index held
    have ⟨channel, present, numbered⟩ := tabled.stored key index (fewer key index held)
    have ⟨written, after, same⟩ :=
      write_stored { manager with channels := channels } arc index update kept channel present
    exact ⟨written, after, by rw [same, numbered]⟩

theorem Tabled.trySend {manager : ChannelManager} (tabled : manager.Tabled) (event : ChannelEvent) :
    (manager.trySend event).Tabled :=
  ⟨tabled.hint, tabled.inRange, tabled.stored⟩

theorem Tabled.length {manager : ChannelManager} (tabled : manager.Tabled) (key : UInt32) (arc : Nat)
    (held : manager.channels key = some arc) : arc < manager.arcs.length := by
  have ⟨channel, present, _⟩ := tabled.stored key arc held
  exact (List.getElem?_eq_some_iff.mp present).1

theorem Tabled.chosen {manager : ChannelManager} (tabled : manager.Tabled) (config : ChannelConfig) :
    1 ≤ (if channelIdOrZero config.channelId = 0 then manager.nextChannelId
      else channelIdOrZero config.channelId) := by
  split
  next => exact tabled.hint
  next explicit => exact UInt32.one_le_of_ne_zero _ explicit

theorem Tabled.opened {manager next : ChannelManager} (tabled : manager.Tabled)
    (config : ChannelConfig) (channelId : UInt32) (positive : 1 ≤ channelId)
    (small : channelId < maxChannels)
    (arcs : next.arcs =
      manager.arcs ++ [Channel.new { config with channelId := some ⟨channelId⟩ }])
    (channels : next.channels =
      Function.update manager.channels channelId (some manager.arcs.length))
    (hint : next.nextChannelId = channelId + 1) : next.Tabled := by
  constructor
  next =>
    have bound : channelId.toNat < 16 := UInt32.lt_iff_toNat_lt.mp small
    simp only [hint, UInt32.le_iff_toNat_le, UInt32.toNat_add]
    simp
    omega
  next =>
    intro key arc held
    by_cases same : key = channelId
    next =>
      subst same
      exact ⟨positive, small⟩
    next =>
      rw [channels, Function.update_of_ne same] at held
      exact tabled.inRange key arc held
  next =>
    intro key arc held
    by_cases same : key = channelId
    next =>
      subst same
      rw [channels, Function.update_self] at held
      have last := Option.some.inj held
      subst last
      exact ⟨_, by rw [arcs, List.getElem?_concat_length], rfl⟩
    next =>
      rw [channels, Function.update_of_ne same] at held
      have ⟨channel, present, numbered⟩ := tabled.stored key arc held
      have inside := tabled.length key arc held
      exact ⟨channel, by rw [arcs, List.getElem?_append_left inside, present], numbered⟩

theorem Tabled.keepsLive {manager next : ChannelManager} (tabled : manager.Tabled)
    (channel : Channel) (channelId : UInt32) (free : manager.channels channelId = none)
    (arcs : next.arcs = manager.arcs ++ [channel])
    (channels : next.channels =
      Function.update manager.channels channelId (some manager.arcs.length)) :
    manager.KeepsLive next := by
  intro key arc held
  have other : key ≠ channelId := by
    intro same
    rw [same, free] at held
    cases held
  constructor
  next => rw [channels, Function.update_of_ne other, held]
  next => rw [arcs, List.getElem?_append_left (tabled.length key arc held)]

theorem Tabled.openChannel {manager : ChannelManager} (tabled : manager.Tabled)
    (config : ChannelConfig) :
    (manager.openChannel config).2.Tabled ∧ manager.KeepsLive (manager.openChannel config).2 := by
  generalize chosen : (if channelIdOrZero config.channelId = 0 then manager.nextChannelId
    else channelIdOrZero config.channelId) = channelId
  have positive := chosen ▸ tabled.chosen config
  have opens := manager.openChannel_opens config channelId chosen
  cases result : manager.openChannel config with
  | mk outcome next =>
    rw [result] at opens
    cases opens with
    | refused error taken => exact ⟨tabled, fun key arc held => ⟨held, rfl⟩⟩
    | opened next small free arcs channels hint =>
      constructor
      next => exact tabled.opened config channelId positive small arcs channels hint
      next => exact tabled.keepsLive _ channelId free arcs channels

theorem openChannel_refused (manager : ChannelManager) (config : ChannelConfig)
    (abort : Abort ProtocolError) (refused : (manager.openChannel config).1 = .error abort) :
    (manager.openChannel config).2 = manager := by
  have opens := manager.openChannel_opens config _ rfl
  cases result : manager.openChannel config with
  | mk outcome next =>
    rw [result] at opens refused
    cases opens with
    | refused error taken => rfl
    | opened next small free arcs channels hint => cases refused

theorem Tabled.closeChannel {manager : ChannelManager} (tabled : manager.Tabled)
    (channelId : UInt32) (reason : String) : (manager.closeChannel channelId reason).2.Tabled := by
  rw [ChannelManager.closeChannel]
  split
  next arc held =>
    have fewer (key : UInt32) (index : Nat)
        (left : Function.update manager.channels channelId none key = some index) :
        manager.channels key = some index := by
      by_cases same : key = channelId
      next => simp [same] at left
      next => rwa [Function.update_of_ne same] at left
    have removed := tabled.narrow _ fewer arc
      (fun channel => { channel with state := .closed }) fun _ => rfl
    exact removed.trySend (.closed channelId)
  next => exact tabled

theorem Tabled.handleFlowControl {manager : ChannelManager} (tabled : manager.Tabled)
    (update : FlowControlUpdate) : (manager.handleFlowControl update).2.Tabled := by
  apply handleFlowControl_preserves Tabled manager update tabled
  next =>
    intro changed event holds
    exact holds.trySend event
  next =>
    intro arc
    exact tabled.narrow manager.channels (fun _ _ same => same) arc
      (·.updateSendWindow update.windowIncrement) fun _ => rfl

theorem Tabled.tableCall {manager : ChannelManager} (tabled : manager.Tabled) (call : TableCall) :
    (manager.tableCall call).Tabled := by
  cases call with
  | openChannel config => exact (tabled.openChannel config).1
  | closeChannel channelId reason => exact tabled.closeChannel channelId reason
  | handleFlowControl update => exact tabled.handleFlowControl update

theorem Tabled.tableCalls {manager : ChannelManager} (tabled : manager.Tabled)
    (history : List TableCall) : (manager.tableCalls history).Tabled := by
  induction history generalizing manager with
  | nil => exact tabled
  | cons call history ih => exact ih (tabled.tableCall call)

end ChannelManager

section

variable (crypto : Crypto)

namespace AuthManager

def authCall (manager : AuthManager) : AuthCall → AuthManager
  | .setPsk psk => manager.setPsk psk
  | .verifyResponse challenge response => (manager.verifyResponse crypto challenge response).2
  | .verifyServerResponse challenge response =>
    (manager.verifyServerResponse crypto challenge response).2
  | .rotateKeys newMasterKey => (manager.rotateKeys crypto newMasterKey).2
  | .clearKeys => manager.clearKeys

def authCalls (manager : AuthManager) (history : List AuthCall) : AuthManager :=
  history.foldl (authCall crypto) manager

def Keyed (manager : AuthManager) : Prop :=
  ∀ keys, manager.sessionKeys = some keys → ∀ channelId < maxChannels,
    (keys.channelKeys channelId).isSome = true

theorem scheduled_keyed (psk : Option (FixedBytes 32)) (masterKey : FixedBytes 32) :
    Keyed ⟨psk, some (crypto.scheduledSessionKeys masterKey)⟩ := by
  intro keys installed channelId small
  have same := Option.some.inj installed
  subst same
  have keyed : channelId < 16 := small
  simp only [Crypto.scheduledSessionKeys, if_pos keyed, Option.isSome_some]

theorem rotateKeys_keyed (manager : AuthManager) (newMasterKey : FixedBytes 32) :
    (manager.rotateKeys crypto newMasterKey).2.Keyed := by
  rw [crypto.rotateKeys_eq]
  intro keys installed channelId small
  have same := Option.some.inj installed
  subst same
  exact scheduled_keyed crypto none newMasterKey _ rfl channelId small

theorem authCall_keyed (manager : AuthManager) (call : AuthCall) (keyed : manager.Keyed) :
    (manager.authCall crypto call).Keyed := by
  have ⟨psk, stored⟩ := manager
  cases call with
  | setPsk psk => exact keyed
  | verifyResponse challenge response =>
    cases psk with
    | none => exact keyed
    | some psk =>
      simp only [authCall, verifyResponse_eq]
      split
      next => exact keyed
      next => exact scheduled_keyed crypto _ _
  | verifyServerResponse challenge response =>
    cases psk with
    | none => exact keyed
    | some psk =>
      simp only [authCall, verifyServerResponse_eq]
      exact scheduled_keyed crypto _ _
  | rotateKeys newMasterKey => exact rotateKeys_keyed crypto _ newMasterKey
  | clearKeys =>
    intro keys installed
    cases installed

theorem authCalls_keyed (manager : AuthManager) (history : List AuthCall)
    (keyed : manager.Keyed) : (manager.authCalls crypto history).Keyed := by
  induction history generalizing manager with
  | nil => exact keyed
  | cons call history ih => exact ih _ (authCall_keyed crypto manager call keyed)

end AuthManager

theorem channel_table_invariant (history : List TableCall) (logins : List AuthCall) :
    let manager := ChannelManager.new.tableCalls history
    let auth := AuthManager.new.authCalls crypto logins
    (∀ key arc, manager.channels key = some arc → 1 ≤ key ∧ key < maxChannels ∧
      ∃ channel, manager.arcs[arc]? = some channel ∧ channel.config.channelId = some ⟨key⟩) ∧
    (∀ config abort, (manager.openChannel config).1 = .error abort →
      (manager.openChannel config).2 = manager) ∧
    (∀ config arc, (manager.openChannel config).1 = .ok arc →
      manager.KeepsLive (manager.openChannel config).2) ∧
    (∀ key arc, manager.channels key = some arc → auth.sessionKeys.isSome = true →
      (auth.channelKeys key).isSome = true) := by
  intro manager auth
  have tabled : manager.Tabled := ChannelManager.new_tabled.tableCalls history
  have keyed : auth.Keyed := AuthManager.authCalls_keyed crypto AuthManager.new logins fun keys installed => by
    cases installed
  refine ⟨?_, ?_, ?_, ?_⟩
  next =>
    intro key arc held
    have ⟨positive, small⟩ := tabled.inRange key arc held
    exact ⟨positive, small, tabled.stored key arc held⟩
  next =>
    intro config abort refused
    exact manager.openChannel_refused config abort refused
  next =>
    intro config arc opened
    exact (tabled.openChannel config).2
  next =>
    intro key arc held installed
    have ⟨keys, known⟩ := Option.isSome_iff_exists.mp installed
    rw [AuthManager.channelKeys, known]
    exact keyed keys known key (tabled.inRange key arc held).2

end

end BitDrive
