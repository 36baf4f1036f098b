import BitDrive.Protocol.Mux
import Mathlib.Data.List.Infix

set_option autoImplicit false

namespace BitDrive

inductive ChannelCall where
  | openChannel (config : ChannelConfig)
  | closeChannel (channelId : UInt32) (reason : String)

namespace ChannelManager

def call (manager : ChannelManager) : ChannelCall → ChannelManager
  | .openChannel config => (manager.openChannel config).2
  | .closeChannel channelId reason => (manager.closeChannel channelId reason).2

def calls (manager : ChannelManager) (history : List ChannelCall) : ChannelManager :=
  history.foldl call manager

def IsFree (manager : ChannelManager) (channelId : UInt32) : Prop :=
  1 ≤ channelId ∧ channelId < maxChannels ∧ manager.channels channelId = none

-- The `Arc` that comes back carries the id it was given.
def OpensFree (manager : ChannelManager) (config : ChannelConfig) : Prop :=
  ∃ arc channel, (manager.openChannel config).1 = .ok arc ∧
    (manager.openChannel config).2.arcs[arc]? = some channel ∧
    manager.IsFree (channelIdOrZero channel.config.channelId)

def Allocates (manager : ChannelManager) : Prop :=
  (∃ channelId, manager.IsFree channelId) →
    ∀ config : ChannelConfig, channelIdOrZero config.channelId = 0 → manager.OpensFree config

def following (manager : ChannelManager) : UInt32 :=
  manager.arcs.getLast?.elim 1 fun channel => channelIdOrZero channel.config.channelId + 1

inductive Opens (manager : ChannelManager) (config : ChannelConfig) (channelId : UInt32) :
    Outcome ProtocolError Nat × ChannelManager → Prop where
  | refused (error : ProtocolError)
      (taken : maxChannels ≤ channelId ∨ manager.channels channelId ≠ none) :
      Opens manager config channelId (.error (.err error), manager)
  | opened (next : ChannelManager) (small : channelId < maxChannels)
      (free : manager.channels channelId = none)
      (arcs : next.arcs =
        manager.arcs ++ [Channel.new { config with channelId := some ⟨channelId⟩ }])
      (channels : next.channels =
        Function.update manager.channels channelId (some manager.arcs.length))
      (hint : next.nextChannelId = channelId + 1) :
      Opens manager config channelId (.ok manager.arcs.length, next)

theorem succ_le_maxChannels (channelId : UInt32) (small : channelId < maxChannels) :
    min (channelId + 1) maxChannels = channelId + 1 := by
  have bound : channelId.toNat < 16 := UInt32.lt_iff_toNat_lt.mp small
  have sum : (channelId + 1).toNat = channelId.toNat + 1 := by
    rw [UInt32.toNat_add, Nat.mod_eq_of_lt] <;> simp
    omega
  have fits : channelId + 1 ≤ maxChannels := by
    simp only [UInt32.le_iff_toNat_le, sum]
    exact bound
  exact if_pos fits

theorem openChannel_opens (manager : ChannelManager) (config : ChannelConfig) (channelId : UInt32)
    (chosen : (if channelIdOrZero config.channelId = 0 then manager.nextChannelId
      else channelIdOrZero config.channelId) = channelId) :
    manager.Opens config channelId (manager.openChannel config) := by
  simp only [openChannel, chosen]
  split
  next large => exact .refused _ (.inl large)
  next small =>
    split
    next taken => exact .refused _ (.inr (Option.isSome_iff_ne_none.mp taken))
    next absent =>
      have below : channelId < maxChannels := UInt32.not_le.mp small
      have free : manager.channels channelId = none := by simpa using absent
      exact .opened _ below free rfl rfl (succ_le_maxChannels channelId below)

structure Hinted (manager : ChannelManager) : Prop where
  hint : manager.nextChannelId = manager.following
  positive : 1 ≤ manager.nextChannelId

theorem following_configs (manager : ChannelManager) :
    manager.following = (manager.arcs.map Channel.config).getLast?.elim 1 fun config =>
      channelIdOrZero config.channelId + 1 := by
  simp only [following, List.getLast?_map]
  cases manager.arcs.getLast? <;> rfl

theorem write_configs (manager : ChannelManager) (arc : Nat) (update : Channel → Channel)
    (kept : ∀ channel, (update channel).config = channel.config) :
    (manager.write arc update).arcs.map Channel.config = manager.arcs.map Channel.config := by
  apply List.ext_getElem?
  intro index
  by_cases same : arc = index
  next =>
    subst same
    simp only [List.getElem?_map, write_arcs, Option.map_map]
    cases manager.arcs[arc]? <;> simp [kept]
  next => simp [write, same]

theorem openChannel_hinted (manager : ChannelManager) (config : ChannelConfig)
    (hinted : manager.Hinted) : (manager.openChannel config).2.Hinted := by
  generalize chosen : (if channelIdOrZero config.channelId = 0 then manager.nextChannelId
    else channelIdOrZero config.channelId) = channelId
  have opens := manager.openChannel_opens config channelId chosen
  cases result : manager.openChannel config with
  | mk outcome next =>
    rw [result] at opens
    cases opens with
    | refused error taken => exact hinted
    | opened next small free arcs channels hint =>
      constructor
      next => rw [hint, following, arcs]; simp [Channel.new, channelIdOrZero]
      next =>
        have bound : channelId.toNat < 16 := UInt32.lt_iff_toNat_lt.mp small
        simp only [hint, UInt32.le_iff_toNat_le, UInt32.toNat_add]
        simp
        omega

theorem closeChannel_hinted (manager : ChannelManager) (channelId : UInt32) (reason : String)
    (hinted : manager.Hinted) : (manager.closeChannel channelId reason).2.Hinted := by
  rw [closeChannel]
  split
  next arc held =>
    refine ⟨?_, hinted.positive⟩
    have kept := write_configs
      { manager with channels := Function.update manager.channels channelId none } arc
      (fun channel => { channel with state := .closed }) fun _ => rfl
    rw [following_configs, trySend_arcs, kept, ← following_configs]
    exact hinted.hint
  next => exact hinted

theorem calls_hinted (manager : ChannelManager) (history : List ChannelCall)
    (hinted : manager.Hinted) : (manager.calls history).Hinted := by
  induction history generalizing manager with
  | nil => exact hinted
  | cons head tail ih =>
    apply ih
    cases head with
    | openChannel config => exact openChannel_hinted manager config hinted
    | closeChannel channelId reason => exact closeChannel_hinted manager channelId reason hinted

theorem new_hinted : new.Hinted := ⟨rfl, by decide⟩

-- An automatic open tries one id, the hint.
theorem opensFree_iff (manager : ChannelManager) (config : ChannelConfig)
    (automatic : channelIdOrZero config.channelId = 0) (hinted : manager.Hinted) :
    manager.OpensFree config ↔ manager.IsFree manager.following := by
  have opens := manager.openChannel_opens config manager.following (by
    rw [if_pos automatic, hinted.hint])
  cases result : manager.openChannel config with
  | mk outcome next =>
    rw [result] at opens
    simp only [OpensFree, result]
    cases opens with
    | refused error taken =>
      constructor
      next =>
        intro ⟨arc, channel, known, _⟩
        cases known
      next =>
        intro ⟨_, small, free⟩
        cases taken with
        | inl large => exact absurd small (UInt32.not_lt.mpr large)
        | inr held => exact absurd free held
    | opened next small free arcs channels hint =>
      have unused : manager.IsFree manager.following :=
        ⟨hinted.hint ▸ hinted.positive, small, free⟩
      refine iff_of_true ⟨_, Channel.new _, rfl, by rw [arcs, List.getElem?_concat_length], ?_⟩ unused
      exact unused

theorem allocates_iff (manager : ChannelManager) (hinted : manager.Hinted) :
    manager.Allocates ↔
      ((∃ channelId, manager.IsFree channelId) → manager.IsFree manager.following) := by
  constructor
  next =>
    intro allocates some
    let config := defaultChannelConfig "" .data .normal
    exact (opensFree_iff manager config rfl hinted).mp (allocates some config rfl)
  next =>
    intro follows some config automatic
    exact (opensFree_iff manager config automatic hinted).mpr (follows some)

theorem allocation_iff (history : List ChannelCall) :
    (∀ before, before <+: history → (new.calls before).Allocates) ↔
      ∀ before, before <+: history → (∃ channelId, (new.calls before).IsFree channelId) →
        (new.calls before).IsFree (new.calls before).following := by
  constructor
  next =>
    intro allocates before earlier
    exact (allocates_iff _ (calls_hinted new before new_hinted)).mp (allocates before earlier)
  next =>
    intro follows before earlier
    exact (allocates_iff _ (calls_hinted new before new_hinted)).mpr (follows before earlier)

-- Channel 15 is opened on a new manager; the other fourteen ids are lost to automatic opens.
theorem last_id_blocks_allocation :
    ¬ (new.calls [.openChannel { defaultChannelConfig "" .data .normal with
      channelId := some ⟨15⟩ }]).Allocates := by
  rw [allocates_iff _ (calls_hinted new _ new_hinted)]
  intro follows
  have free : (new.calls [.openChannel { defaultChannelConfig "" .data .normal with
      channelId := some ⟨15⟩ }]).IsFree 1 := ⟨by decide, by decide, rfl⟩
  exact absurd (follows ⟨1, free⟩).2.1 (by decide)

end ChannelManager

end BitDrive
