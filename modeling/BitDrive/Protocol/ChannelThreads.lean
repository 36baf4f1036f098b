import BitDrive.Protocol.ChannelTable
import Mathlib.Data.List.Induction

set_option autoImplicit false

namespace BitDrive

inductive Opening where
  | chosen (config : ChannelConfig) (channelId : UInt32)
  | checked (config : ChannelConfig) (channelId : UInt32)
  | inserted (channelId : UInt32)

def Opening.channelId : Opening → UInt32
  | .chosen _ channelId => channelId
  | .checked _ channelId => channelId
  | .inserted channelId => channelId

structure ChannelThreads where
  manager : ChannelManager
  opening : Nat → Option Opening

inductive ChannelStep where
  | choose (thread : Nat) (config : ChannelConfig)
  | check (thread : Nat)
  | insert (thread : Nat)
  | advance (thread : Nat)
  | closeChannel (channelId : UInt32) (reason : String)
  -- `handle_flow_control` from where it has the `Arc`.
  | widen (channelId : UInt32) (arc : Nat) (increment : UInt32)

namespace ChannelManager

def insertChannel (manager : ChannelManager) (config : ChannelConfig) (channelId : UInt32) :
    ChannelManager :=
  { manager with
    arcs := manager.arcs ++ [Channel.new { config with channelId := some ⟨channelId⟩ }]
    channels := Function.update manager.channels channelId (some manager.arcs.length) }

def advance (manager : ChannelManager) (channelId : UInt32) : ChannelManager :=
  { manager.trySend (.opened channelId) with nextChannelId := min (channelId + 1) maxChannels }

def widen (manager : ChannelManager) (channelId : UInt32) (arc : Nat) (increment : UInt32) :
    ChannelManager :=
  let updated := manager.write arc (·.updateSendWindow increment)
  updated.arcs[arc]?.elim updated fun channel =>
    updated.trySend (.flowControl channelId channel.sendWindow)

end ChannelManager

namespace ChannelThreads

def new (eventTx : Option (List ChannelEvent)) : ChannelThreads where
  manager := { ChannelManager.new with eventTx := eventTx }
  opening _ := none

def goesOn (state : ChannelThreads) (thread : Nat) (opening : Option Opening) : ChannelThreads :=
  { state with opening := Function.update state.opening thread opening }

def chooses (state : ChannelThreads) (thread : Nat) (config : ChannelConfig) : Option Opening :=
  let requestedId := channelIdOrZero config.channelId
  let channelId := if requestedId = 0 then state.manager.nextChannelId else requestedId
  (state.opening thread).or
    (if channelId ≥ maxChannels then none else some (.chosen config channelId))

def checks (state : ChannelThreads) (thread : Nat) : Option Opening :=
  match state.opening thread with
  | some (.chosen config channelId) =>
    if (state.manager.channels channelId).isSome then none else some (.checked config channelId)
  | other => other

def step (state : ChannelThreads) : ChannelStep → ChannelThreads
  | .choose thread config => state.goesOn thread (state.chooses thread config)
  | .check thread => state.goesOn thread (state.checks thread)
  | .insert thread =>
    match state.opening thread with
    | some (.checked config channelId) =>
      goesOn { state with manager := state.manager.insertChannel config channelId } thread
        (some (.inserted channelId))
    | _ => state
  | .advance thread =>
    match state.opening thread with
    | some (.inserted channelId) =>
      goesOn { state with manager := state.manager.advance channelId } thread none
    | _ => state
  | .closeChannel channelId reason =>
    { state with manager := (state.manager.closeChannel channelId reason).2 }
  | .widen channelId arc increment =>
    { state with manager := state.manager.widen channelId arc increment }

def run (eventTx : Option (List ChannelEvent)) (history : List ChannelStep) : ChannelThreads :=
  history.foldl step (new eventTx)

theorem run_concat (eventTx : Option (List ChannelEvent)) (history : List ChannelStep)
    (last : ChannelStep) : run eventTx (history ++ [last]) = (run eventTx history).step last := by
  rw [run, List.foldl_append, List.foldl_cons, List.foldl_nil, run]

theorem openChannel_uninterrupted (state : ChannelThreads) (thread : Nat) (config : ChannelConfig)
    (idle : state.opening thread = none) :
    [.choose thread config, .check thread, .insert thread, .advance thread].foldl step state =
      { state with manager := (state.manager.openChannel config).2 } := by
  have quiet : Function.update state.opening thread none = state.opening := by
    rw [← idle, Function.update_eq_self]
  generalize chosen : (if channelIdOrZero config.channelId = 0 then state.manager.nextChannelId
    else channelIdOrZero config.channelId) = channelId
  simp only [List.foldl_cons, List.foldl_nil, step, goesOn, chooses, idle, chosen, Option.none_or,
    ChannelManager.openChannel]
  by_cases large : channelId ≥ maxChannels
  next => simp only [large, if_true, quiet, checks, idle]
  next =>
    by_cases present : (state.manager.channels channelId).isSome = true
    next =>
      simp only [large, if_false, checks, present, if_true, Function.update_self,
        Function.update_idem, quiet, idle]
    next =>
      simp only [large, if_false, checks, present, Bool.false_eq_true, Function.update_self,
        Function.update_idem, quiet]
      rfl

def Waits (state : ChannelThreads) (channelId : UInt32) (thread : Nat) : Prop :=
  ∃ config, state.opening thread = some (.checked config channelId)

def Inserts (state : ChannelThreads) (channelId : UInt32) : ChannelStep → Prop
  | .insert thread => state.Waits channelId thread
  | _ => False

def Closes (channelId : UInt32) : ChannelStep → Prop
  | .closeChannel other _ => other = channelId
  | _ => False

theorem closeChannel_channels (manager : ChannelManager) (channelId : UInt32) (reason : String) :
    (manager.closeChannel channelId reason).2.channels =
      Function.update manager.channels channelId none := by
  cases held : manager.channels channelId with
  | some arc => simp [ChannelManager.closeChannel, held]
  | none =>
    have same : Function.update manager.channels channelId none = manager.channels := by
      rw [← held, Function.update_eq_self]
    simp [ChannelManager.closeChannel, held, same]

theorem closeChannel_length (manager : ChannelManager) (channelId : UInt32) (reason : String) :
    (manager.closeChannel channelId reason).2.arcs.length = manager.arcs.length := by
  rw [ChannelManager.closeChannel]
  split
  next => simp [ChannelManager.write]
  next => rfl

theorem widen_eq (manager : ChannelManager) (channelId : UInt32) (arc : Nat) (increment : UInt32) :
    (manager.widen channelId arc increment).channels = manager.channels ∧
      (manager.widen channelId arc increment).arcs.length = manager.arcs.length := by
  rw [ChannelManager.widen]
  cases (manager.write arc (·.updateSendWindow increment)).arcs[arc]? <;>
    simp [ChannelManager.write]

inductive EntryStep (state : ChannelThreads) (action : ChannelStep) (channelId : UInt32) :
    Option Nat → Prop where
  | closed (closes : Closes channelId action) : EntryStep state action channelId none
  | inserted (inserts : state.Inserts channelId action) :
      EntryStep state action channelId (some state.manager.arcs.length)
  | kept (left : ¬ Closes channelId action) (alone : ¬ state.Inserts channelId action) :
      EntryStep state action channelId (state.manager.channels channelId)

theorem step_entry (state : ChannelThreads) (action : ChannelStep) (channelId : UInt32) :
    EntryStep state action channelId ((state.step action).manager.channels channelId) := by
  cases action with
  | choose thread config => exact .kept id id
  | check thread => exact .kept id id
  | insert thread =>
    simp only [step]
    split
    next config other checked =>
      by_cases here : channelId = other
      next =>
        subst here
        simp only [goesOn, ChannelManager.insertChannel, Function.update_self]
        exact .inserted ⟨config, checked⟩
      next =>
        simp only [goesOn, ChannelManager.insertChannel, Function.update_of_ne here]
        refine .kept id fun inserts => here ?_
        obtain ⟨_, again⟩ := inserts
        exact (Opening.checked.inj (Option.some.inj (again.symm.trans checked))).2
    next others => exact .kept id fun inserts => others _ _ inserts.choose_spec
  | advance thread =>
    have same : (state.step (.advance thread)).manager.channels = state.manager.channels := by
      simp only [step]
      split <;> rfl
    rw [same]
    exact .kept id id
  | closeChannel other reason =>
    simp only [step, closeChannel_channels]
    by_cases here : channelId = other
    next =>
      subst here
      rw [Function.update_self]
      exact .closed rfl
    next =>
      rw [Function.update_of_ne here]
      exact .kept (fun same => here same.symm) id
  | widen other arc increment =>
    simp only [step, (widen_eq state.manager other arc increment).1]
    exact .kept id id

theorem step_length (state : ChannelThreads) (action : ChannelStep) :
    state.manager.arcs.length ≤ (state.step action).manager.arcs.length := by
  cases action with
  | choose thread config => exact Nat.le_refl _
  | check thread => exact Nat.le_refl _
  | insert thread =>
    simp only [step]
    split
    next => simp [goesOn, ChannelManager.insertChannel]
    next => exact Nat.le_refl _
  | advance thread =>
    simp only [step]
    split <;> exact Nat.le_refl _
  | closeChannel channelId reason =>
    simp only [step, closeChannel_length]
    exact Nat.le_refl _
  | widen channelId arc increment =>
    simp only [step, (widen_eq state.manager channelId arc increment).2]
    exact Nat.le_refl _

theorem goesOn_waits (state : ChannelThreads) (thread other : Nat) (opening : Option Opening)
    (channelId : UInt32) :
    (state.goesOn thread opening).Waits channelId other ↔
      if other = thread then ∃ config, opening = some (.checked config channelId)
      else state.Waits channelId other := by
  by_cases here : other = thread
  next =>
    subst here
    simp [Waits, goesOn]
  next => simp [Waits, goesOn, here]

theorem step_waits (state : ChannelThreads) (action : ChannelStep) (channelId : UInt32)
    (thread : Nat) :
    (state.step action).Waits channelId thread ↔
      (action = .check thread ∧ state.manager.channels channelId = none ∧
          ∃ config, state.opening thread = some (.chosen config channelId)) ∨
        state.Waits channelId thread ∧ action ≠ .insert thread := by
  cases action with
  | choose other config =>
    rw [step, goesOn_waits]
    split
    next here =>
      subst here
      cases busy : state.opening thread with
      | none =>
        simp only [chooses, busy, Option.none_or, Waits]
        split <;> simp
      | some opening => simp [chooses, busy, Waits]
    next => simp
  | check other =>
    rw [step, goesOn_waits]
    split
    next here =>
      subst here
      cases busy : state.opening thread with
      | none => simp [checks, busy, Waits]
      | some opening =>
        cases opening with
        | chosen config chosen =>
          simp only [checks, busy, Waits]
          constructor
          next =>
            rintro ⟨_, made⟩
            split at made
            next => cases made
            next free =>
              obtain ⟨rfl, rfl⟩ := Opening.checked.inj (Option.some.inj made)
              exact .inl ⟨trivial, Option.not_isSome_iff_eq_none.mp free, config, rfl⟩
          next =>
            rintro (⟨_, free, _, same⟩ | ⟨⟨_, same⟩, _⟩)
            next =>
              obtain ⟨rfl, rfl⟩ := Opening.chosen.inj (Option.some.inj same)
              exact ⟨config, if_neg (by simp [free])⟩
            next => cases same
        | checked config checked => simp [checks, busy, Waits]
        | inserted inserted => simp [checks, busy, Waits]
    next apart => simp [show other ≠ thread from fun same => apart same.symm]
  | insert other =>
    simp only [step]
    split
    next config chosen busy =>
      rw [goesOn_waits]
      split
      next here => simp [here]
      next apart =>
        have different : other ≠ thread := fun same => apart same.symm
        simp [different, Waits]
    next others =>
      have waiting : state.Waits channelId thread → other ≠ thread := by
        rintro ⟨config, busy⟩ rfl
        exact others config channelId busy
      simpa using waiting
  | advance other =>
    simp only [step]
    split
    next chosen busy =>
      rw [goesOn_waits]
      split
      next here =>
        subst here
        simp [Waits, busy]
      next => simp [Waits]
    next => simp
  | closeChannel other reason => simp [step, Waits]
  | widen other arc increment => simp [step, Waits]

theorem run_waits (state : ChannelThreads) (later : List ChannelStep) (channelId : UInt32)
    (thread : Nat) (waits : state.Waits channelId thread) (idle : .insert thread ∉ later) :
    (later.foldl step state).Waits channelId thread := by
  induction later generalizing state with
  | nil => exact waits
  | cons action later ih =>
    obtain ⟨other, rest⟩ := List.ne_and_not_mem_of_not_mem_cons idle
    exact ih (state.step action) ((step_waits state action channelId thread).mpr
      (.inr ⟨waits, other.symm⟩)) rest

theorem run_length (state : ChannelThreads) (later : List ChannelStep) :
    state.manager.arcs.length ≤ (later.foldl step state).manager.arcs.length := by
  induction later generalizing state with
  | nil => exact Nat.le_refl _
  | cons action later ih => exact (step_length state action).trans (ih (state.step action))

theorem run_kept (state : ChannelThreads) (later : List ChannelStep) (channelId : UInt32)
    (arc : Nat) (held : state.manager.channels channelId = some arc)
    (left : ∀ action ∈ later, ¬ Closes channelId action)
    (alone : ∀ thread, state.Waits channelId thread → .insert thread ∉ later) :
    (later.foldl step state).manager.channels channelId = some arc := by
  induction later generalizing state with
  | nil => exact held
  | cons action later ih =>
    obtain ⟨here, rest⟩ := List.forall_mem_cons.mp left
    have stays : (state.step action).manager.channels channelId = some arc := by
      have entry := step_entry state action channelId
      generalize (state.step action).manager.channels channelId = found at entry ⊢
      cases entry with
      | closed closes => exact absurd closes here
      | inserted inserts =>
        cases action with
        | insert thread => exact absurd List.mem_cons_self (alone thread inserts)
        | _ => cases inserts
      | kept => exact held
    refine ih (state.step action) stays rest fun thread waits member => ?_
    -- Who looks now finds the id taken.
    rcases (step_waits state action channelId thread).mp waits with ⟨_, free, _⟩ | ⟨earlier, _⟩
    next =>
      rw [held] at free
      cases free
    next => exact alone thread earlier (List.mem_cons_of_mem action member)

theorem run_lost (state : ChannelThreads) (later : List ChannelStep) (channelId : UInt32)
    (arc : Nat) (old : arc < state.manager.arcs.length)
    (lost : state.manager.channels channelId ≠ some arc) :
    (later.foldl step state).manager.channels channelId ≠ some arc := by
  induction later generalizing state with
  | nil => exact lost
  | cons action later ih =>
    refine ih (state.step action) (Nat.lt_of_lt_of_le old (step_length state action)) ?_
    have entry := step_entry state action channelId
    generalize (state.step action).manager.channels channelId = found at entry ⊢
    cases entry with
    | closed => exact (Option.some_ne_none arc).symm
    | inserted => exact fun same => absurd (Option.some.inj same).symm (Nat.ne_of_lt old)
    | kept => exact lost

theorem opened_channel_kept_iff (eventTx : Option (List ChannelEvent))
    (before later : List ChannelStep) (thread : Nat) (config : ChannelConfig) (channelId : UInt32)
    (checked : (run eventTx before).opening thread = some (.checked config channelId)) :
    (run eventTx (before ++ .insert thread :: later)).manager.getChannel channelId =
        some (run eventTx before).manager.arcs.length ↔
      (∀ reason, .closeChannel channelId reason ∉ later) ∧
        ∀ other, other ≠ thread → (run eventTx before).Waits channelId other →
          .insert other ∉ later := by
  generalize opened : (run eventTx before).step (.insert thread) = state
  have resumed (rest : List ChannelStep) :
      run eventTx (before ++ .insert thread :: rest) = rest.foldl step state := by
    rw [run, List.foldl_append, List.foldl_cons]
    exact congrArg (rest.foldl step) opened
  have inserted : state.manager.channels channelId =
      some (run eventTx before).manager.arcs.length := by
    rw [← opened]
    simp only [step, checked, goesOn, ChannelManager.insertChannel, Function.update_self]
  have longer : (run eventTx before).manager.arcs.length < state.manager.arcs.length := by
    rw [← opened]
    simp [step, checked, goesOn, ChannelManager.insertChannel]
  have waiting (other : Nat) : state.Waits channelId other ↔
      other ≠ thread ∧ (run eventTx before).Waits channelId other := by
    rw [← opened, step_waits]
    simp [and_comm, eq_comm]
  rw [resumed, ChannelManager.getChannel]
  constructor
  next =>
    intro held
    constructor
    next =>
      intro reason member
      obtain ⟨front, back, rfl⟩ := List.append_of_mem member
      rw [List.foldl_append, List.foldl_cons] at held
      have gone : ((front.foldl step state).step
          (.closeChannel channelId reason)).manager.channels channelId = none := by
        simp only [step, closeChannel_channels, Function.update_self]
      refine run_lost _ back channelId _ ?_ ?_ held
      next => exact (longer.trans_le (run_length state front)).trans_le (step_length _ _)
      next =>
        rw [gone]
        exact (Option.some_ne_none _).symm
    next =>
      intro other apart waits member
      obtain ⟨front, back, rfl, first⟩ := List.eq_append_cons_of_mem member
      rw [List.foldl_append, List.foldl_cons] at held
      obtain ⟨again, found⟩ :=
        run_waits state front channelId other ((waiting other).mpr ⟨apart, waits⟩) first
      have grown := longer.trans_le (run_length state front)
      refine run_lost _ back channelId _ (grown.trans_le (step_length _ _)) ?_ held
      simp only [step, found, goesOn, ChannelManager.insertChannel, Function.update_self]
      exact fun same => absurd (Option.some.inj same).symm (Nat.ne_of_lt grown)
  next =>
    rintro ⟨left, alone⟩
    refine run_kept state later channelId _ inserted (fun action member closes => ?_) ?_
    next =>
      cases action with
      | closeChannel other reason =>
        obtain rfl : other = channelId := closes
        exact left reason member
      | _ => cases closes
    next =>
      intro other waits
      obtain ⟨apart, earlier⟩ := (waiting other).mp waits
      exact alone other apart earlier

theorem opened_channel_kept_iff_both :
    let config := defaultChannelConfig "sync" .data .normal
    let before := [.choose 0 config, .check 0, .choose 1 config, .check 1]
    (run none (before ++ [.insert 0, .insert 1])).manager.getChannel 1 ≠ some 0 := by
  intro config before kept
  have checked : (run none before).opening 0 = some (.checked config 1) := rfl
  have alone := ((opened_channel_kept_iff none before [.insert 1] 0 config 1 checked).mp kept).2
  exact alone 1 (by decide) ⟨config, rfl⟩ List.mem_cons_self

structure Tabled (state : ChannelThreads) : Prop where
  manager : state.manager.Tabled
  opening : ∀ thread opening, state.opening thread = some opening →
    1 ≤ opening.channelId ∧ opening.channelId < maxChannels

theorem Tabled.goesOn {state : ChannelThreads} (tabled : state.Tabled) (thread : Nat)
    (opening : Option Opening)
    (chosen : ∀ next, opening = some next → 1 ≤ next.channelId ∧ next.channelId < maxChannels)
    (manager : ChannelManager) (kept : manager.Tabled) :
    (ChannelThreads.goesOn { state with manager := manager } thread opening).Tabled where
  manager := kept
  opening := by
    intro other next busy
    by_cases here : other = thread
    next =>
      subst here
      exact chosen next (by simpa [ChannelThreads.goesOn] using busy)
    next => exact tabled.opening other next (by simpa [ChannelThreads.goesOn, here] using busy)

theorem insertChannel_tabled (manager : ChannelManager) (tabled : manager.Tabled)
    (config : ChannelConfig) (channelId : UInt32) (positive : 1 ≤ channelId)
    (small : channelId < maxChannels) : (manager.insertChannel config channelId).Tabled := by
  have opened : ChannelManager.Tabled
      { manager.insertChannel config channelId with nextChannelId := channelId + 1 } :=
    tabled.opened config channelId positive small rfl rfl rfl
  exact ⟨tabled.hint, opened.inRange, opened.stored⟩

theorem advance_tabled (manager : ChannelManager) (tabled : manager.Tabled) (channelId : UInt32)
    (small : channelId < maxChannels) : (manager.advance channelId).Tabled where
  hint := by
    have bound : channelId.toNat < 16 := UInt32.lt_iff_toNat_lt.mp small
    simp only [ChannelManager.advance, ChannelManager.succ_le_maxChannels channelId small,
      UInt32.le_iff_toNat_le, UInt32.toNat_add]
    simp
    omega
  inRange := tabled.inRange
  stored := tabled.stored

theorem widen_tabled (manager : ChannelManager) (tabled : manager.Tabled) (channelId : UInt32)
    (arc : Nat) (increment : UInt32) : (manager.widen channelId arc increment).Tabled := by
  have widened := tabled.narrow manager.channels (fun _ _ same => same) arc
    (·.updateSendWindow increment) fun _ => rfl
  rw [ChannelManager.widen]
  cases (manager.write arc (·.updateSendWindow increment)).arcs[arc]? with
  | none => exact widened
  | some channel => exact widened.trySend _

theorem step_tabled (state : ChannelThreads) (tabled : state.Tabled) (action : ChannelStep) :
    (state.step action).Tabled := by
  cases action with
  | choose thread config =>
    refine tabled.goesOn thread _ (fun next chosen => ?_) state.manager tabled.manager
    rcases Option.or_eq_some_iff.mp chosen with busy | ⟨_, made⟩
    next => exact tabled.opening thread next busy
    next =>
      have positive := tabled.manager.chosen config
      generalize (if channelIdOrZero config.channelId = 0 then state.manager.nextChannelId
        else channelIdOrZero config.channelId) = channelId at made positive
      split at made
      next => cases made
      next small =>
        obtain rfl := Option.some.inj made
        exact ⟨positive, UInt32.not_le.mp small⟩
  | check thread =>
    refine tabled.goesOn thread _ (fun next checked => ?_) state.manager tabled.manager
    rw [checks] at checked
    split at checked
    next config channelId busy =>
      split at checked
      next => cases checked
      next =>
        obtain rfl := Option.some.inj checked
        exact tabled.opening thread (.chosen config channelId) busy
    next => exact tabled.opening thread next checked
  | insert thread =>
    simp only [step]
    split
    next config channelId busy =>
      obtain ⟨positive, small⟩ := tabled.opening thread _ busy
      refine tabled.goesOn thread _ (fun next inserted => ?_) _
        (insertChannel_tabled _ tabled.manager config channelId positive small)
      obtain rfl := Option.some.inj inserted
      exact ⟨positive, small⟩
    next => exact tabled
  | advance thread =>
    simp only [step]
    split
    next channelId busy =>
      obtain ⟨_, small⟩ := tabled.opening thread _ busy
      exact tabled.goesOn thread none (by simp) _ (advance_tabled _ tabled.manager channelId small)
    next => exact tabled
  | closeChannel channelId reason =>
    exact ⟨tabled.manager.closeChannel channelId reason, tabled.opening⟩
  | widen channelId arc increment =>
    exact ⟨widen_tabled _ tabled.manager channelId arc increment, tabled.opening⟩

theorem run_tabled (eventTx : Option (List ChannelEvent)) (history : List ChannelStep) :
    (run eventTx history).Tabled := by
  induction history using List.reverseRecOn with
  | nil =>
    refine ⟨⟨ChannelManager.new_tabled.hint, ?_, ?_⟩, ?_⟩
    next => exact ChannelManager.new_tabled.inRange
    next => exact ChannelManager.new_tabled.stored
    next =>
      intro thread opening busy
      cases busy
  | append_singleton history action ih =>
    rw [run_concat]
    exact step_tabled _ ih action

theorem threads_keep_table (eventTx : Option (List ChannelEvent)) (history : List ChannelStep) :
    let manager := (run eventTx history).manager
    1 ≤ manager.nextChannelId ∧
      ∀ key arc, manager.channels key = some arc → 1 ≤ key ∧ key < maxChannels ∧
        (∃ channel, manager.arcs[arc]? = some channel ∧ channel.config.channelId = some ⟨key⟩) ∧
        ∀ other, manager.channels other = some arc → other = key := by
  have tabled := (run_tabled eventTx history).manager
  refine ⟨tabled.hint, fun key arc held => ?_⟩
  obtain ⟨positive, small⟩ := tabled.inRange key arc held
  obtain ⟨channel, stored, named⟩ := tabled.stored key arc held
  refine ⟨positive, small, ⟨channel, stored, named⟩, fun other again => ?_⟩
  obtain ⟨same, present, numbered⟩ := tabled.stored other arc again
  obtain rfl := Option.some.inj (stored.symm.trans present)
  exact congrArg ChannelId.value (Option.some.inj (numbered.symm.trans named))

end ChannelThreads

end BitDrive
