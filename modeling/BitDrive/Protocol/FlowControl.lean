import BitDrive.Protocol.Mux
import BitDrive.Shared.Credit
import Mathlib.Algebra.BigOperators.Group.Multiset.Basic
import Mathlib.Algebra.Order.Group.Nat

set_option autoImplicit false

namespace BitDrive

structure Transfer where
  manager : ChannelManager
  frames : Multiset UInt32
  updates : Multiset FlowControlUpdate
  reserved : Nat
  consumed : Nat

def Transfer.start (manager : ChannelManager) : Transfer where
  manager := manager
  frames := 0
  updates := 0
  reserved := 0
  consumed := 0

inductive FlowAction where
  | send (size : UInt32)
  | consume (size : UInt32)
  | apply (update : FlowControlUpdate)

section

variable (build : Build) (channelId : UInt32) (arc : Nat)

def Transfer.step (state : Transfer) : FlowAction → Option Transfer
  | .send size => do
    let channel ← state.manager.arcs[arc]?
    match channel.reserveWindow build size with
    | .ok reserved => some { state with
        manager := state.manager.write arc fun _ => reserved
        frames := size ::ₘ state.frames
        reserved := state.reserved + size.toNat }
    -- A frame that is refused is not sent, and a panic leaves the channel as it was.
    | .error _ => none
  | .consume size =>
    if size ∈ state.frames then
      some { state with
        frames := state.frames.erase size
        updates := ⟨some ⟨channelId⟩, size⟩ ::ₘ state.updates
        consumed := state.consumed + size.toNat }
    else none
  | .apply update =>
    if update ∈ state.updates then
      some { state with
        manager := (state.manager.handleFlowControl update).2
        updates := state.updates.erase update }
    else none

def Transfer.Step (state next : Transfer) : Prop :=
  ∃ action, state.step build channelId arc action = some next

def Transfer.Conserved (window : Nat) (state : Transfer) : Prop :=
  (state.reserved : Int) - state.consumed ≤ window ∧
    (state.frames = 0 → state.updates = 0 → ∀ channel ∈ state.manager.arcs[arc]?,
      (channel.sendWindow.toNat : Int) - channel.sendWindowUsed.toNat = window)

def Transfer.InRange (state : Transfer) : FlowAction → Prop
  | .send size => ∀ channel ∈ state.manager.arcs[arc]?,
      channel.sendWindowUsed.toNat + size.toNat < 2 ^ 32
  | .consume _ => True
  | .apply update => ∀ channel ∈ state.manager.arcs[arc]?,
      channel.sendWindow.toNat + update.windowIncrement.toNat < 2 ^ 32

def Transfer.StepInRange (state next : Transfer) : Prop :=
  ∃ action, state.step build channelId arc action = some next ∧ state.InRange arc action

structure Transfer.Represents (window : Nat) (state : Transfer) (ledger : Credit.Ledger Nat) :
    Prop where
  held : state.manager.getChannel channelId = some arc
  stored : ∃ channel, state.manager.arcs[arc]? = some channel ∧
    channel.sendWindow.toNat = min (2 ^ 32 - 1) (window + ledger.granted) ∧
    channel.sendWindowUsed.toNat = ledger.reserved % 2 ^ 32
  addressed : ∀ update ∈ state.updates, update.channelId = some ⟨channelId⟩
  unread : ledger.unread = (state.frames.map UInt32.toNat).sum
  returning : ledger.returning = (state.updates.map (·.windowIncrement.toNat)).sum
  reserved : state.reserved = ledger.reserved
  consumed : state.consumed = ledger.granted + ledger.returning

def Admits (window : Nat) (ledger : Credit.Ledger Nat) (size : Nat) : Prop :=
  (ledger.reserved + size) % 2 ^ 32 ≤ min (2 ^ 32 - 1) (window + ledger.granted) ∧
    (build = .debug → ledger.reserved % 2 ^ 32 + size < 2 ^ 32)

def Fits (window : Nat) (ledger : Credit.Ledger Nat) : Prop :=
  window + ledger.granted < 2 ^ 32 ∧ ledger.reserved < 2 ^ 32

def Simulates (window : Nat) (state next : Transfer) (action : FlowAction)
    (ledger : Credit.Ledger Nat) : Prop :=
  ∃ after, Credit.Step (Admits build window) ledger after ∧
    next.Represents channelId arc window after ∧
    (Fits window ledger → (state.InRange arc action ↔ Fits window after))

theorem Transfer.send_simulates (window : Nat) (state next : Transfer) (size : UInt32)
    (ledger : Credit.Ledger Nat) (represents : state.Represents channelId arc window ledger)
    (stepped : state.step build channelId arc (.send size) = some next) :
    Simulates build channelId arc window state next (.send size) ledger := by
  obtain ⟨channel, stored, limit, used⟩ := represents.stored
  simp only [Transfer.step, stored, Option.bind_eq_bind, Option.bind_some] at stepped
  split at stepped
  next reserved admitted =>
    obtain ⟨changed, room, checked⟩ := channel.reserveWindow_eq_ok reserved build size admitted
    have total : (ledger.reserved + size.toNat) % 2 ^ 32 =
        (channel.sendWindowUsed.toNat + size.toNat) % 2 ^ 32 := by
      rw [used, Nat.mod_add_mod]
    obtain rfl := Option.some.inj stepped
    refine ⟨_, .send ledger size.toNat ⟨?_, ?_⟩, ?_, ?_⟩
    · rwa [total, ← limit]
    · rwa [← used]
    · constructor
      case held => exact represents.held
      case stored =>
        refine ⟨reserved, ?_, ?_, ?_⟩
        · rw [ChannelManager.write_arcs, stored]
          rfl
        · rw [changed]
          exact limit
        · rw [changed]
          exact (UInt32.toNat_add _ _).trans total.symm
      case addressed => exact represents.addressed
      case unread =>
        rw [Multiset.map_cons, Multiset.sum_cons, ← represents.unread]
        exact Nat.add_comm _ _
      case returning => exact represents.returning
      case reserved => exact congrArg (· + size.toNat) represents.reserved
      case consumed => exact represents.consumed
    · intro fits
      have exactly : channel.sendWindowUsed.toNat = ledger.reserved :=
        used.trans (Nat.mod_eq_of_lt fits.2)
      have range : state.InRange arc (.send size) ↔ ledger.reserved + size.toNat < 2 ^ 32 := by
        simp [InRange, stored, exactly]
      exact range.trans ⟨fun small => ⟨fits.1, small⟩, fun after => after.2⟩
  next => cases stepped

theorem Transfer.consume_simulates (window : Nat) (state next : Transfer) (size : UInt32)
    (ledger : Credit.Ledger Nat) (represents : state.Represents channelId arc window ledger)
    (stepped : state.step build channelId arc (.consume size) = some next) :
    Simulates build channelId arc window state next (.consume size) ledger := by
  simp only [Transfer.step] at stepped
  split at stepped
  next received =>
    have sent : ledger.unread =
        ((state.frames.erase size).map UInt32.toNat).sum + size.toNat := by
      rw [represents.unread, Nat.add_comm, Multiset.sum_map_erase received]
    obtain rfl := Option.some.inj stepped
    refine ⟨_, .consume ledger _ size.toNat sent, ?_, fun fits => ⟨fun _ => fits, fun _ => trivial⟩⟩
    constructor
    case held => exact represents.held
    case stored => exact represents.stored
    case addressed =>
      intro update member
      rcases Multiset.mem_cons.mp member with rfl | earlier
      · rfl
      · exact represents.addressed update earlier
    case unread => rfl
    case returning =>
      rw [Multiset.map_cons, Multiset.sum_cons, ← represents.returning]
      exact Nat.add_comm _ _
    case reserved => exact represents.reserved
    case consumed =>
      rw [represents.consumed]
      exact Nat.add_assoc _ _ _
  next => cases stepped

theorem Transfer.apply_simulates (window : Nat) (state next : Transfer)
    (update : FlowControlUpdate) (ledger : Credit.Ledger Nat)
    (represents : state.Represents channelId arc window ledger)
    (stepped : state.step build channelId arc (.apply update) = some next) :
    Simulates build channelId arc window state next (.apply update) ledger := by
  simp only [Transfer.step] at stepped
  split at stepped
  next arrived =>
    obtain ⟨channel, stored, limit, used⟩ := represents.stored
    have addressed : channelIdOrZero update.channelId = channelId := by
      rw [represents.addressed update arrived]
      rfl
    have handled := state.manager.handleFlowControl_arcs update arc channel
      (by rw [addressed]; exact represents.held) stored
    have returned : ledger.returning =
        ((state.updates.erase update).map (·.windowIncrement.toNat)).sum +
          update.windowIncrement.toNat := by
      rw [represents.returning, Nat.add_comm, Multiset.sum_map_erase
        (f := fun update : FlowControlUpdate => update.windowIncrement.toNat) arrived]
    obtain rfl := Option.some.inj stepped
    refine ⟨_, .apply ledger _ update.windowIncrement.toNat returned, ?_, ?_⟩
    · constructor
      case held =>
        rw [ChannelManager.getChannel, ChannelManager.handleFlowControl_channels]
        exact represents.held
      case stored =>
        refine ⟨channel.updateSendWindow update.windowIncrement, handled, ?_, used⟩
        -- A window that has reached the top stays there.
        have saturated := UInt32.toNat_saturatingAdd channel.sendWindow update.windowIncrement
        rw [limit] at saturated
        simp only [Channel.updateSendWindow]
        omega
      case addressed =>
        exact fun other member => represents.addressed other (Multiset.mem_of_mem_erase member)
      case unread => exact represents.unread
      case returning => rfl
      case reserved => exact represents.reserved
      case consumed =>
        rw [represents.consumed, returned]
        simp only [Nat.add_assoc, Nat.add_comm]
    · intro fits
      have exactly : channel.sendWindow.toNat = window + ledger.granted := by
        rw [limit]
        exact Nat.min_eq_right (Nat.le_pred_of_lt fits.1)
      have range : state.InRange arc (.apply update) ↔
          window + (ledger.granted + update.windowIncrement.toNat) < 2 ^ 32 := by
        simp [InRange, stored, exactly, Nat.add_assoc]
      exact range.trans ⟨fun small => ⟨small, fits.2⟩, fun after => after.1⟩
  next => cases stepped

theorem Transfer.step_simulates (window : Nat) (state next : Transfer) (action : FlowAction)
    (ledger : Credit.Ledger Nat) (represents : state.Represents channelId arc window ledger)
    (stepped : state.step build channelId arc action = some next) :
    Simulates build channelId arc window state next action ledger := by
  cases action with
  | send size =>
    exact send_simulates build channelId arc window state next size ledger represents stepped
  | consume size =>
    exact consume_simulates build channelId arc window state next size ledger represents stepped
  | apply update =>
    exact apply_simulates build channelId arc window state next update ledger represents stepped

theorem Fits.room (window : Nat) (ledger after : Credit.Ledger Nat) (fits : Fits window after)
    (step : Credit.Step (Admits build window) ledger after) :
    Credit.Step (Credit.Ledger.Room window) ledger after := by
  cases step with
  | send size admitted =>
    have small : ledger.reserved + size < 2 ^ 32 := fits.2
    refine .send ledger size ?_
    calc ledger.reserved + size = (ledger.reserved + size) % 2 ^ 32 := (Nat.mod_eq_of_lt small).symm
      _ ≤ window + ledger.granted := admitted.1.trans (Nat.min_le_right _ _)
  | consume rest size sent => exact .consume ledger rest size sent
  | apply rest size returned => exact .apply ledger rest size returned

theorem Transfer.run_represents (window : Nat) (state last : Transfer)
    (ledger : Credit.Ledger Nat) (represents : state.Represents channelId arc window ledger)
    (accounted : ledger.Accounted)
    (run : Relation.ReflTransGen (Transfer.Step build channelId arc) state last) :
    ∃ after, last.Represents channelId arc window after ∧ after.Accounted := by
  induction run with
  | refl => exact ⟨ledger, represents, accounted⟩
  | tail _ step ih =>
    obtain ⟨action, stepped⟩ := step
    obtain ⟨before, represents, accounted⟩ := ih
    obtain ⟨after, moved, shown, _⟩ :=
      step_simulates build channelId arc window _ _ action before represents stepped
    exact ⟨after, shown, moved.accounted _ before after accounted⟩

theorem Transfer.runInRange_balanced (window : Nat) (state last : Transfer)
    (ledger : Credit.Ledger Nat) (represents : state.Represents channelId arc window ledger)
    (balanced : ledger.Balanced window) (fits : Fits window ledger)
    (run : Relation.ReflTransGen (Transfer.StepInRange build channelId arc) state last) :
    ∃ after, last.Represents channelId arc window after ∧ after.Balanced window ∧
      Fits window after := by
  induction run with
  | refl => exact ⟨ledger, represents, balanced, fits⟩
  | tail _ step ih =>
    obtain ⟨action, stepped, inRange⟩ := step
    obtain ⟨before, represents, balanced, fits⟩ := ih
    obtain ⟨after, moved, shown, range⟩ :=
      step_simulates build channelId arc window _ _ action before represents stepped
    have small := (range fits).mp inRange
    exact ⟨after, shown, (small.room build window before after moved).balanced window before after
      balanced, small⟩

theorem Transfer.Represents.all_granted (window : Nat) (state : Transfer)
    (ledger : Credit.Ledger Nat) (represents : state.Represents channelId arc window ledger)
    (accounted : ledger.Accounted) (frames : state.frames = 0) (updates : state.updates = 0) :
    ledger.granted = ledger.reserved := by
  have whole : ledger.reserved = ledger.granted + ledger.returning + ledger.unread := accounted
  have unread : ledger.unread = 0 := by simp [represents.unread, frames]
  have returning : ledger.returning = 0 := by simp [represents.returning, updates]
  omega

theorem Transfer.Represents.conserved (window : Nat) (state : Transfer)
    (ledger : Credit.Ledger Nat) (represents : state.Represents channelId arc window ledger)
    (balanced : ledger.Balanced window) (fits : Fits window ledger) :
    state.Conserved arc window := by
  obtain ⟨stored, found, limit, used⟩ := represents.stored
  have accounted : ledger.reserved = ledger.granted + ledger.returning + ledger.unread :=
    balanced.accounted
  have covered := balanced.covered
  have reserved := represents.reserved
  have consumed := represents.consumed
  constructor
  next => omega
  next =>
    intro frames updates channel member
    obtain rfl : stored = channel := Option.some.inj (found.symm.trans member)
    have granted := represents.all_granted channelId arc window state ledger balanced.accounted
      frames updates
    obtain ⟨granted_lt, reserved_lt⟩ := fits
    omega

theorem Transfer.Represents.settled (window : Nat) (state : Transfer)
    (ledger : Credit.Ledger Nat) (represents : state.Represents channelId arc window ledger)
    (accounted : ledger.Accounted) (frames : state.frames = 0) (updates : state.updates = 0)
    (conserved : state.Conserved arc window) :
    min (2 ^ 32 - 1) (window + state.reserved) = window + state.reserved % 2 ^ 32 := by
  obtain ⟨channel, found, limit, used⟩ := represents.stored
  have granted := represents.all_granted channelId arc window state ledger accounted frames updates
  have restored := conserved.2 frames updates channel found
  rw [represents.reserved]
  omega

theorem Transfer.consume_all (state : Transfer) :
    ∃ last, Relation.ReflTransGen (Transfer.Step build channelId arc) state last ∧
      last.frames = 0 ∧ last.reserved = state.reserved := by
  induction pending : state.frames using Multiset.induction_on generalizing state with
  | empty => exact ⟨state, .refl, pending, rfl⟩
  | cons size frames ih =>
    let next : Transfer := { state with
      frames := frames
      updates := ⟨some ⟨channelId⟩, size⟩ ::ₘ state.updates
      consumed := state.consumed + size.toNat }
    have stepped : state.step build channelId arc (.consume size) = some next := by
      simp [Transfer.step, pending, next]
    obtain ⟨last, run, empty, same⟩ := ih next rfl
    exact ⟨last, .head ⟨.consume size, stepped⟩ run, empty, same⟩

theorem Transfer.apply_all (state : Transfer) (received : state.frames = 0) :
    ∃ last, Relation.ReflTransGen (Transfer.Step build channelId arc) state last ∧
      last.frames = 0 ∧ last.updates = 0 ∧ last.reserved = state.reserved := by
  induction pending : state.updates using Multiset.induction_on generalizing state with
  | empty => exact ⟨state, .refl, received, pending, rfl⟩
  | cons update updates ih =>
    let next : Transfer := { state with
      manager := (state.manager.handleFlowControl update).2
      updates := updates }
    have stepped : state.step build channelId arc (.apply update) = some next := by
      simp [Transfer.step, pending, next]
    obtain ⟨last, run, none, empty, same⟩ := ih next received rfl
    exact ⟨last, .head ⟨.apply update, stepped⟩ run, none, empty, same⟩

theorem Transfer.drain (state : Transfer) :
    ∃ last, Relation.ReflTransGen (Transfer.Step build channelId arc) state last ∧
      last.frames = 0 ∧ last.updates = 0 ∧ last.reserved = state.reserved := by
  obtain ⟨middle, received, frames, reserved⟩ := state.consume_all build channelId arc
  obtain ⟨last, applied, rest⟩ := middle.apply_all build channelId arc frames
  exact ⟨last, received.trans applied, by rwa [← reserved]⟩

theorem Transfer.Represents.send_one (window : Nat) (state : Transfer)
    (ledger : Credit.Ledger Nat) (represents : state.Represents channelId arc window ledger)
    (full : 2 ^ 32 ≤ window + ledger.granted)
    (checked : build = .debug → ledger.reserved % 2 ^ 32 + 1 < 2 ^ 32) :
    ∃ next, state.step build channelId arc (.send 1) = some next ∧
      next.reserved = state.reserved + 1 := by
  obtain ⟨channel, stored, limit, used⟩ := represents.stored
  have top : channel.sendWindow.toNat = 2 ^ 32 - 1 := by omega
  have admitted := channel.reserveWindow_of_le build 1
    (by rw [top]; exact Nat.le_pred_of_lt (Nat.mod_lt _ (by decide))) (by rwa [used])
  simp only [Transfer.step, stored, Option.bind_eq_bind, Option.bind_some, admitted]
  exact ⟨_, rfl, rfl⟩

theorem Transfer.Represents.credit_lost (window : Nat) (state : Transfer)
    (ledger : Credit.Ledger Nat) (represents : state.Represents channelId arc window ledger)
    (accounted : ledger.Accounted) (beyond : 2 ^ 32 ≤ window + ledger.reserved)
    (present : build = .debug → 0 < window) :
    ∃ last, Relation.ReflTransGen (Transfer.Step build channelId arc) state last ∧
      ¬ last.Conserved arc window := by
  obtain ⟨rest, run, frames, updates, reserved⟩ := state.drain build channelId arc
  obtain ⟨resting, shown, whole⟩ :=
    run_represents build channelId arc window state rest ledger represents accounted run
  by_cases conserved : rest.Conserved arc window
  · -- The wrapped counter hides the loss, and one more byte shows it.
    have hidden := shown.settled channelId arc window rest resting whole frames updates conserved
    have same := represents.reserved
    have counted := shown.reserved
    have granted := shown.all_granted channelId arc window rest resting whole frames updates
    obtain ⟨next, sent, more⟩ := shown.send_one build channelId arc window rest resting
      (by omega) (fun debug => by have := present debug; omega)
    obtain ⟨last, drained, frames, updates, total⟩ := next.drain build channelId arc
    have run := run.trans (.head ⟨.send 1, sent⟩ drained)
    obtain ⟨after, shown, whole⟩ :=
      run_represents build channelId arc window state last ledger represents accounted run
    refine ⟨last, run, fun conserved => ?_⟩
    have visible := shown.settled channelId arc window last after whole frames updates conserved
    omega
  · exact ⟨rest, run, conserved⟩

theorem Transfer.Represents.credit_lost_of_step (window : Nat) (state next : Transfer)
    (action : FlowAction) (ledger : Credit.Ledger Nat)
    (represents : state.Represents channelId arc window ledger)
    (balanced : ledger.Balanced window) (fits : Fits window ledger)
    (stepped : state.step build channelId arc action = some next)
    (outside : ¬ state.InRange arc action) :
    ∃ last, Relation.ReflTransGen (Transfer.Step build channelId arc) next last ∧
      ¬ last.Conserved arc window := by
  obtain ⟨after, moved, shown, range⟩ :=
    step_simulates build channelId arc window state next action ledger represents stepped
  have large : ¬ Fits window after := fun small => outside ((range fits).mpr small)
  have accounted := moved.accounted _ ledger after balanced.accounted
  have whole : after.reserved = after.granted + after.returning + after.unread := accounted
  apply shown.credit_lost build channelId arc window next after accounted
  · rw [Fits] at large
    omega
  · intro debug
    have outstanding := balanced.outstanding_le
    obtain ⟨granted_lt, reserved_lt⟩ := fits
    cases moved with
    | send size admitted =>
      -- With overflow checks, a reservation out of range is not admitted.
      have small := admitted.2 debug
      rw [Nat.mod_eq_of_lt reserved_lt] at small
      exact absurd ⟨granted_lt, small⟩ large
    | consume rest size sent => exact absurd ⟨granted_lt, reserved_lt⟩ large
    | apply rest size returned =>
      by_contra empty
      exact large ⟨by show window + (ledger.granted + size) < 2 ^ 32; omega, reserved_lt⟩

end

theorem Transfer.start_represents (manager : ChannelManager) (channelId : UInt32) (arc : Nat)
    (channel : Channel) (held : manager.getChannel channelId = some arc)
    (stored : manager.arcs[arc]? = some channel) (unused : channel.sendWindowUsed = 0) :
    (Transfer.start manager).Represents channelId arc channel.sendWindow.toNat ⟨0, 0, 0, 0⟩ := by
  have bound := channel.sendWindow.toNat_lt
  constructor
  case held => exact held
  case stored => exact ⟨channel, stored, by show _ = min _ (_ + 0); omega, by rw [unused]; rfl⟩
  case addressed => exact fun update member => absurd member (Multiset.notMem_zero update)
  all_goals rfl

theorem credit_conserved_in_range (build : Build) (manager : ChannelManager) (channelId : UInt32)
    (arc : Nat) (channel : Channel) (held : manager.getChannel channelId = some arc)
    (stored : manager.arcs[arc]? = some channel) (unused : channel.sendWindowUsed = 0) :
    (∀ state, Relation.ReflTransGen (Transfer.StepInRange build channelId arc)
        (Transfer.start manager) state → state.Conserved arc channel.sendWindow.toNat) ∧
      ∀ state action next, Relation.ReflTransGen (Transfer.StepInRange build channelId arc)
        (Transfer.start manager) state →
          state.step build channelId arc action = some next → ¬ state.InRange arc action →
          ∃ last, Relation.ReflTransGen (Transfer.Step build channelId arc) next last ∧
            ¬ last.Conserved arc channel.sendWindow.toNat := by
  have start := Transfer.start_represents manager channelId arc channel held stored unused
  have balanced : Credit.Ledger.Balanced channel.sendWindow.toNat ⟨0, 0, 0, 0⟩ :=
    ⟨rfl, Nat.zero_le _⟩
  have fits : Fits channel.sendWindow.toNat ⟨0, 0, 0, 0⟩ := ⟨channel.sendWindow.toNat_lt, by decide⟩
  have reached (state : Transfer) := Transfer.runInRange_balanced build channelId arc
    channel.sendWindow.toNat (Transfer.start manager) state ⟨0, 0, 0, 0⟩ start balanced fits
  constructor
  · intro state run
    obtain ⟨ledger, represents, balanced, fits⟩ := reached state run
    exact represents.conserved channelId arc _ state ledger balanced fits
  · intro state action next run stepped outside
    obtain ⟨ledger, represents, balanced, fits⟩ := reached state run
    exact represents.credit_lost_of_step build channelId arc _ state next action ledger balanced
      fits stepped outside

def openedWith (sendWindow : UInt32) : ChannelManager :=
  (ChannelManager.new.openChannel
    { defaultChannelConfig "test.service" .data .normal with sendWindow := sendWindow }).2

theorem credit_conserved_in_range_opened :
    ∃ state, Relation.ReflTransGen (Transfer.StepInRange .release 1 0)
      (Transfer.start (openedWith 4)) state ∧ state.reserved = 3 ∧ state.Conserved 0 4 := by
  have conserved := (credit_conserved_in_range .release (openedWith 4) 1 0 _ rfl rfl rfl).1
  have run : Relation.ReflTransGen (Transfer.StepInRange .release 1 0)
      (Transfer.start (openedWith 4)) _ :=
    .head ⟨.send 3, rfl, by rintro channel ⟨⟩; decide⟩ (.head ⟨.consume 3, rfl, trivial⟩ .refl)
  exact ⟨_, run, rfl, conserved _ run⟩

theorem full_window_not_conserved :
    (∃ state, Relation.ReflTransGen (Transfer.Step .debug 1 0)
        (Transfer.start (openedWith 0xFFFFFFFF)) state ∧ ¬ state.Conserved 0 0xFFFFFFFF) ∧
      ∃ state, Relation.ReflTransGen (Transfer.Step .release 1 0)
        (Transfer.start (openedWith 0xFFFFFFFF)) state ∧ state.consumed = 0 ∧
          0xFFFFFFFF < state.reserved := by
  constructor
  · refine ⟨_, .head ⟨.send 1, rfl⟩ (.head ⟨.consume 1, rfl⟩
      (.head ⟨.apply ⟨some ⟨1⟩, 1⟩, rfl⟩ .refl)), fun conserved => ?_⟩
    have restored := conserved.2 rfl rfl _ rfl
    revert restored
    decide
  · exact ⟨_, .head ⟨.send 0xFFFFFFFF, rfl⟩ (.head ⟨.send 1, rfl⟩ .refl), rfl, by decide⟩

end BitDrive
