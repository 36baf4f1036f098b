import Mathlib.Data.List.DropRight

set_option autoImplicit false

namespace BitDrive.Core

variable {Event : Type}

structure EventBus where
  maxHistory : Nat

structure SharedEvents (Event : Type) where
  eventHistory : List Event
  sent : List Event

namespace EventBus

-- `drain(0..excess)`, and the broadcast, whose outcome is ignored.
def publish (bus : EventBus) (shared : SharedEvents Event) (event : Event) : SharedEvents Event :=
  let history := shared.eventHistory ++ [event]
  let excess := history.length - bus.maxHistory
  { eventHistory := if excess > 0 then history.drop excess else history
    sent := shared.sent ++ [event] }

def history (_ : EventBus) (shared : SharedEvents Event) : List Event := shared.eventHistory

def clearHistory (_ : EventBus) (shared : SharedEvents Event) : SharedEvents Event :=
  { shared with eventHistory := [] }

def historySize (_ : EventBus) (shared : SharedEvents Event) : Nat := shared.eventHistory.length

def clone (bus : EventBus) : EventBus := { maxHistory := bus.maxHistory }

end EventBus

structure EventBuses (Event : Type) where
  buses : List EventBus
  shared : SharedEvents Event

inductive BusCall (Event : Type) where
  | publish (handle : Nat) (event : Event)
  | clearHistory (handle : Nat)
  | clone (handle : Nat)

def EventBuses.start (maxHistory : Nat) : EventBuses Event where
  buses := [{ maxHistory := maxHistory }]
  shared := { eventHistory := [], sent := [] }

def EventBuses.call (state : EventBuses Event) (request : BusCall Event) : EventBuses Event :=
  match request with
  | .publish handle event =>
    match state.buses[handle]? with
    | some bus => { state with shared := bus.publish state.shared event }
    | none => state
  | .clearHistory handle =>
    match state.buses[handle]? with
    | some bus => { state with shared := bus.clearHistory state.shared }
    | none => state
  | .clone handle =>
    match state.buses[handle]? with
    | some bus => { state with buses := state.buses ++ [bus.clone] }
    | none => state

structure EventLog (Event : Type) where
  handles : Nat
  published : List Event

def EventLog.start : EventLog Event where
  handles := 1
  published := []

def EventLog.call (log : EventLog Event) : BusCall Event → EventLog Event
  | .publish handle event =>
    if handle < log.handles then { log with published := log.published ++ [event] } else log
  | .clearHistory handle => if handle < log.handles then { log with published := [] } else log
  | .clone handle => if handle < log.handles then { log with handles := log.handles + 1 } else log

theorem trim_eq (history : List Event) (bound : Nat) :
    (if history.length - bound > 0 then history.drop (history.length - bound) else history) =
      history.rtake bound := by
  split
  next => rfl
  next within =>
    have short : history.length - bound = 0 := by omega
    rw [List.rtake, short, List.drop_zero]

theorem rtake_push (published : List Event) (event : Event) (bound : Nat) :
    (published.rtake bound ++ [event]).rtake bound = (published ++ [event]).rtake bound := by
  cases bound with
  | zero => simp
  | succ bound =>
    rw [List.rtake_concat_succ, List.rtake_concat_succ]
    congr 1
    simp only [List.rtake, List.length_drop, List.drop_drop]
    congr 1
    omega

theorem publish_rtake (bus : EventBus) (shared : SharedEvents Event) (event : Event)
    (published : List Event) (window : shared.eventHistory = published.rtake bus.maxHistory) :
    (bus.publish shared event).eventHistory = (published ++ [event]).rtake bus.maxHistory := by
  rw [EventBus.publish, trim_eq, window, rtake_push]

structure EventBuses.Shows (maxHistory : Nat) (state : EventBuses Event) (log : EventLog Event) :
    Prop where
  handles : state.buses.length = log.handles
  bound : ∀ bus ∈ state.buses, bus.maxHistory = maxHistory
  window : state.shared.eventHistory = log.published.rtake maxHistory

theorem EventBuses.Shows.handled {maxHistory : Nat} {state : EventBuses Event}
    {log : EventLog Event} (shows : state.Shows maxHistory log) (handle : Nat) :
    (∃ bus, state.buses[handle]? = some bus ∧ bus.maxHistory = maxHistory ∧
      handle < log.handles) ∨
    state.buses[handle]? = none ∧ ¬ handle < log.handles := by
  rw [← shows.handles]
  cases found : state.buses[handle]? with
  | none => exact .inr ⟨rfl, by simpa using found⟩
  | some bus =>
    obtain ⟨inside, _⟩ := List.getElem?_eq_some_iff.mp found
    exact .inl ⟨bus, rfl, shows.bound bus (List.mem_of_getElem? found), inside⟩

theorem EventBuses.Shows.call {maxHistory : Nat} {state : EventBuses Event} {log : EventLog Event}
    (shows : state.Shows maxHistory log) (request : BusCall Event) :
    (state.call request).Shows maxHistory (log.call request) := by
  cases request with
  | publish handle event =>
    rcases shows.handled handle with ⟨bus, found, same, inside⟩ | ⟨found, outside⟩
    next =>
      simp only [EventBuses.call, found, EventLog.call, inside, if_true]
      have window : state.shared.eventHistory = log.published.rtake bus.maxHistory := by
        rw [same]
        exact shows.window
      refine ⟨shows.handles, shows.bound, ?_⟩
      rw [← same]
      exact publish_rtake bus state.shared event log.published window
    next => simpa only [EventBuses.call, found, EventLog.call, outside, if_false] using shows
  | clearHistory handle =>
    rcases shows.handled handle with ⟨bus, found, _, inside⟩ | ⟨found, outside⟩
    next =>
      simp only [EventBuses.call, found, EventLog.call, inside, if_true]
      exact ⟨shows.handles, shows.bound, (List.rtake_nil maxHistory).symm⟩
    next => simpa only [EventBuses.call, found, EventLog.call, outside, if_false] using shows
  | clone handle =>
    rcases shows.handled handle with ⟨bus, found, same, inside⟩ | ⟨found, outside⟩
    next =>
      simp only [EventBuses.call, found, EventLog.call, inside, if_true]
      refine ⟨?_, ?_, shows.window⟩
      next => simp [shows.handles]
      next =>
        intro other member
        rcases List.mem_append.mp member with older | newest
        next => exact shows.bound other older
        next =>
          rw [List.mem_singleton.mp newest]
          exact same
    next => simpa only [EventBuses.call, found, EventLog.call, outside, if_false] using shows

theorem EventBuses.Shows.calls {maxHistory : Nat} {state : EventBuses Event} {log : EventLog Event}
    (shows : state.Shows maxHistory log) (requests : List (BusCall Event)) :
    (requests.foldl EventBuses.call state).Shows maxHistory
      (requests.foldl EventLog.call log) := by
  induction requests generalizing state log with
  | nil => exact shows
  | cons request requests ih => exact ih (shows.call request)

theorem EventBuses.start_shows (maxHistory : Nat) :
    (EventBuses.start maxHistory : EventBuses Event).Shows maxHistory EventLog.start where
  handles := rfl
  bound := by simp [EventBuses.start]
  window := (List.rtake_nil maxHistory).symm

theorem event_history_window (maxHistory : Nat) (requests : List (BusCall Event)) :
    let state := requests.foldl EventBuses.call (EventBuses.start maxHistory)
    let published := (requests.foldl EventLog.call EventLog.start).published
    ∀ bus ∈ state.buses,
      bus.history state.shared = published.rtake (min published.length maxHistory) ∧
        bus.historySize state.shared = (bus.history state.shared).length ∧
        bus.historySize state.shared = min published.length maxHistory := by
  intro state published bus _
  have ends : state.shared.eventHistory = published.rtake maxHistory :=
    ((EventBuses.start_shows maxHistory).calls requests).window
  have window : state.shared.eventHistory = published.rtake (min published.length maxHistory) := by
    rw [ends, List.rtake, List.rtake]
    congr 1
    omega
  refine ⟨window, rfl, ?_⟩
  rw [EventBus.historySize, window, List.rtake, List.length_drop]
  omega

end BitDrive.Core
