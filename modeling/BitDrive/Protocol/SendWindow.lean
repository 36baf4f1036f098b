import BitDrive.Protocol.Mux
import BitDrive.Shared.Run

set_option autoImplicit false

namespace BitDrive

inductive WindowCall where
  | reserveWindow (size : UInt32)
  | releaseWindow (size : UInt32)
  | updateSendWindow (increment : UInt32)

section

variable (build : Build)

def WindowCall.run (channel : Channel) : WindowCall → Outcome ProtocolError Unit × Channel
  | .reserveWindow size =>
    match channel.reserveWindow build size with
    | .ok reserved => (.ok (), reserved)
    | .error abort => (.error abort, channel)
  | .releaseWindow size => (.ok (), channel.releaseWindow size)
  | .updateSendWindow increment => (.ok (), channel.updateSendWindow increment)

structure WindowRun where
  channel : Channel
  outstanding : Nat

namespace WindowRun

def opened (config : ChannelConfig) : WindowRun where
  channel := Channel.new config
  outstanding := 0

def next (state : WindowRun) (call : WindowCall) : WindowRun where
  channel := (call.run build state.channel).2
  outstanding :=
    match call, (call.run build state.channel).1 with
    | .reserveWindow size, .ok () => state.outstanding + size.toNat
    | .releaseWindow size, _ => state.outstanding - size.toNat
    | _, _ => state.outstanding

structure Balanced (state : WindowRun) : Prop where
  counted : state.channel.sendWindowUsed.toNat = state.outstanding
  bounded : state.channel.sendWindowUsed.toNat ≤ state.channel.sendWindow.toNat

structure ReservesExactly (channel : Channel) (size : UInt32) : Prop where
  succeeds : ((WindowCall.reserveWindow size).run build channel).1 = .ok () ↔
    channel.sendWindowUsed.toNat + size.toNat ≤ channel.sendWindow.toNat
  adds : ((WindowCall.reserveWindow size).run build channel).1 = .ok () →
    ((WindowCall.reserveWindow size).run build channel).2.sendWindowUsed.toNat =
      channel.sendWindowUsed.toNat + size.toNat
  keeps : ((WindowCall.reserveWindow size).run build channel).1 ≠ .ok () →
    ((WindowCall.reserveWindow size).run build channel).2 = channel
  returns : ((WindowCall.reserveWindow size).run build channel).1 ≠ .error .panic

def Exact (state : WindowRun) : WindowCall → Prop
  | .reserveWindow size => ReservesExactly build state.channel size
  | _ => True

def InRange (state : WindowRun) : WindowCall → Prop
  | .reserveWindow size => state.channel.sendWindowUsed.toNat + size.toNat < 2 ^ 32
  | _ => True

end WindowRun

def Channel.Admits (channel : Channel) (size : UInt32) : Prop :=
  (channel.sendWindowUsed.toNat + size.toNat) % 2 ^ 32 ≤ channel.sendWindow.toNat ∧
    (build = .debug → channel.sendWindowUsed.toNat + size.toNat < 2 ^ 32)

theorem Channel.reserveWindow_ok_iff (channel : Channel) (size : UInt32) :
    (∃ reserved, channel.reserveWindow build size = .ok reserved) ↔
      channel.Admits build size := by
  constructor
  next =>
    intro ⟨reserved, admitted⟩
    have ⟨_, room, checked⟩ := channel.reserveWindow_eq_ok reserved build size admitted
    exact ⟨room, checked⟩
  next =>
    intro ⟨room, checked⟩
    exact ⟨_, channel.reserveWindow_of_le build size room checked⟩

theorem Channel.reserveWindow_inRange (channel : Channel) (size : UInt32)
    (small : channel.sendWindowUsed.toNat + size.toNat < 2 ^ 32) :
    channel.reserveWindow build size =
      if channel.sendWindowUsed.toNat + size.toNat ≤ channel.sendWindow.toNat then
        .ok { channel with sendWindowUsed := channel.sendWindowUsed + size }
      else
        .error (.err (.channelWindowExhausted (channelIdOrZero channel.config.channelId))) := by
  have added : (build.add channel.sendWindowUsed size : Outcome ProtocolError UInt32) =
      .ok (channel.sendWindowUsed + size) := build.add_of_lt _ _ small
  have sum := UInt32.toNat_add_of_lt channel.sendWindowUsed size small
  have fits : channel.sendWindowUsed + size > channel.sendWindow ↔
      ¬ channel.sendWindowUsed.toNat + size.toNat ≤ channel.sendWindow.toNat := by
    rw [gt_iff_lt, UInt32.lt_iff_toNat_lt, sum, Nat.not_le]
  rw [channel.reserveWindow_of_add build size _ added]
  simp only [fits, ite_not]

namespace WindowRun

theorem reservesExactly_of_lt (channel : Channel) (size : UInt32)
    (small : channel.sendWindowUsed.toNat + size.toNat < 2 ^ 32) :
    ReservesExactly build channel size := by
  have sum := UInt32.toNat_add_of_lt channel.sendWindowUsed size small
  have reserved := channel.reserveWindow_inRange build size small
  by_cases fits : channel.sendWindowUsed.toNat + size.toNat ≤ channel.sendWindow.toNat
  next =>
    rw [if_pos fits] at reserved
    constructor <;> simp [WindowCall.run, reserved, fits, sum]
  next =>
    rw [if_neg fits] at reserved
    constructor <;> simp [WindowCall.run, reserved, fits]

theorem not_reservesExactly (channel : Channel) (size : UInt32)
    (bounded : channel.sendWindowUsed.toNat ≤ channel.sendWindow.toNat)
    (large : ¬ channel.sendWindowUsed.toNat + size.toNat < 2 ^ 32) :
    ¬ ReservesExactly build channel size := by
  intro exactly
  have window := channel.sendWindow.toNat_lt
  have one := size.toNat_lt
  have refused : ((WindowCall.reserveWindow size).run build channel).1 ≠ .ok () := by
    rw [Ne, exactly.succeeds]
    omega
  cases build with
  | debug =>
    have panics : channel.reserveWindow .debug size = .error .panic := by
      simp only [Channel.reserveWindow, Build.add, if_neg large, bind, Except.bind]
    exact exactly.returns (by simp [WindowCall.run, panics])
  | release =>
    have room : (channel.sendWindowUsed.toNat + size.toNat) % 2 ^ 32 ≤
        channel.sendWindow.toNat := by
      omega
    have unchecked : Build.release = .debug →
        channel.sendWindowUsed.toNat + size.toNat < 2 ^ 32 := by
      simp
    have admitted := channel.reserveWindow_of_le .release size room unchecked
    exact refused (by simp [WindowCall.run, admitted])

theorem exact_iff (state : WindowRun) (call : WindowCall) (balanced : state.Balanced) :
    state.Exact build call ↔ state.InRange call := by
  cases call with
  | reserveWindow size =>
    constructor
    next =>
      intro exactly
      by_contra large
      exact not_reservesExactly build state.channel size balanced.bounded large exactly
    next => exact reservesExactly_of_lt build state.channel size
  | releaseWindow size => exact Iff.rfl
  | updateSendWindow increment => exact Iff.rfl

theorem opened_balanced (config : ChannelConfig) : (opened config).Balanced :=
  ⟨rfl, Nat.zero_le _⟩

theorem next_balanced (state : WindowRun) (call : WindowCall) (balanced : state.Balanced)
    (inRange : state.InRange call) : (state.next build call).Balanced := by
  have ⟨counted, bounded⟩ := balanced
  cases call with
  | reserveWindow size =>
    have reserved := state.channel.reserveWindow_inRange build size inRange
    by_cases fits : state.channel.sendWindowUsed.toNat + size.toNat ≤
        state.channel.sendWindow.toNat
    next =>
      rw [if_pos fits] at reserved
      have sum := UInt32.toNat_add_of_lt state.channel.sendWindowUsed size inRange
      constructor
      next => simp [next, WindowCall.run, reserved, sum, counted]
      next => simpa [next, WindowCall.run, reserved, sum] using fits
    next =>
      rw [if_neg fits] at reserved
      constructor
      next => simp [next, WindowCall.run, reserved, counted]
      next => simpa [next, WindowCall.run, reserved] using bounded
  | releaseWindow size =>
    have left := UInt32.toNat_saturatingSub state.channel.sendWindowUsed size
    constructor
    next => simp [next, WindowCall.run, Channel.releaseWindow, left, counted]
    next =>
      simp only [next, WindowCall.run, Channel.releaseWindow, left]
      omega
  | updateSendWindow increment =>
    have raised := UInt32.toNat_saturatingAdd state.channel.sendWindow increment
    have window := state.channel.sendWindow.toNat_lt
    constructor
    next => simp [next, WindowCall.run, Channel.updateSendWindow, counted]
    next =>
      simp only [next, WindowCall.run, Channel.updateSendWindow, raised]
      omega

theorem send_window_exact_iff (config : ChannelConfig) (calls : List WindowCall) :
    Run.Each (next build) (Exact build) (opened config) calls ∧
        (∀ before, before <+: calls → (before.foldl (next build) (opened config)).Balanced) ↔
      Run.Each (next build) InRange (opened config) calls := by
  rw [← Run.each_and_reached (next build) (Exact build) Balanced (opened config) calls
    (opened_balanced config)]
  have same (state : WindowRun) (call : WindowCall) (balanced : state.Balanced) :
      (state.Exact build call ∧ (state.next build call).Balanced) ↔ state.InRange call := by
    rw [exact_iff build state call balanced]
    exact and_iff_left_of_imp (next_balanced build state call balanced)
  exact Run.each_congr (next build) Balanced _ InRange (fun _ _ _ met => met.2) same
    (opened config) calls (opened_balanced config)

end WindowRun

end

def overflowingCalls : List WindowCall := [.reserveWindow 1, .reserveWindow 0xFFFFFFFF]

theorem overflowing_reservation_accepted :
    let config := defaultChannelConfig "test.service" .data .normal
    ¬ (Run.Each (WindowRun.next .release) (WindowRun.Exact .release) (WindowRun.opened config)
          overflowingCalls ∧
        ∀ before, before <+: overflowingCalls →
          (before.foldl (WindowRun.next .release) (WindowRun.opened config)).Balanced) ∧
      ¬ (Run.Each (WindowRun.next .debug) (WindowRun.Exact .debug) (WindowRun.opened config)
          overflowingCalls ∧
        ∀ before, before <+: overflowingCalls →
          (before.foldl (WindowRun.next .debug) (WindowRun.opened config)).Balanced) := by
  intro config
  constructor
  next =>
    intro ⟨each, _⟩
    exact absurd (each.2.1.succeeds.mp (by decide)) (by decide)
  next =>
    intro ⟨each, _⟩
    exact each.2.1.returns (by decide)

end BitDrive
