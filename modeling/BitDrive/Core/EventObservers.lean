import BitDrive.Core.EventHistory
import BitDrive.Shared.Announce
import BitDrive.Shared.Broadcast

set_option autoImplicit false

namespace BitDrive.Core

variable {Event : Type}

namespace EventBus

-- `publish` up to where it releases the history, and from there on.
def record (bus : EventBus) (shared : SharedEvents Event) (event : Event) : SharedEvents Event :=
  let history := shared.eventHistory ++ [event]
  let excess := history.length - bus.maxHistory
  { shared with eventHistory := if excess > 0 then history.drop excess else history }

def send (_ : EventBus) (shared : SharedEvents Event) (event : Event) : SharedEvents Event :=
  { shared with sent := shared.sent ++ [event] }

theorem publish_eq (bus : EventBus) (shared : SharedEvents Event) (event : Event) :
    bus.publish shared event = bus.send (bus.record shared event) event := rfl

def subscribe (_ : EventBus) (shared : SharedEvents Event) : Nat := shared.sent.length

inductive Received (Event : Type) where
  | event (event : Event)
  | lagged (missed : Nat)
  | empty

-- The channel keeps as many events as its capacity. A receiver that has fallen behind them is told
-- how many it missed, and goes on with the oldest of them.
def receive (_ : EventBus) (capacity : Nat) (receiver : Nat) (shared : SharedEvents Event) :
    Received Event × Nat :=
  if receiver + capacity < shared.sent.length then
    (.lagged (shared.sent.length - capacity - receiver), shared.sent.length - capacity)
  else
    match shared.sent[receiver]? with
    | some event => (.event event, receiver + 1)
    | none => (.empty, receiver)

end EventBus

structure Publishers (Event : Type) where
  shared : SharedEvents Event
  publishing : Nat → Option Event

inductive BusAction (Event : Type) where
  | record (thread : Nat) (event : Event)
  | send (thread : Nat)
  | clearHistory

namespace Publishers

def new : Publishers Event where
  shared := { eventHistory := [], sent := [] }
  publishing _ := none

def step (bus : EventBus) (state : Publishers Event) : BusAction Event → Publishers Event
  | .record thread event =>
    match state.publishing thread with
    | none =>
      { shared := bus.record state.shared event
        publishing := Function.update state.publishing thread (some event) }
    | some _ => state
  | .send thread =>
    match state.publishing thread with
    | some event =>
      { shared := bus.send state.shared event
        publishing := Function.update state.publishing thread none }
    | none => state
  | .clearHistory => { state with shared := bus.clearHistory state.shared }

def run (bus : EventBus) (actions : List (BusAction Event)) : Publishers Event :=
  actions.foldl (step bus) new

def label : BusAction Event → Announce.Step Event Nat
  | .record thread event => .write thread event
  | .send thread => .announce thread
  | .clearHistory => .clear

def publications (bus : EventBus) (actions : List (BusAction Event)) : Announce.State Event Nat :=
  Announce.run bus.maxHistory (actions.map label)

structure Shows (state : Publishers Event) (publications : Announce.State Event Nat) : Prop where
  history : state.shared.eventHistory = publications.log.drop publications.gone
  sent : state.shared.sent = publications.values publications.announced
  publishing : ∀ thread, state.publishing thread =
    (publications.hand thread).bind (publications.log[·]?)

theorem record_history (bus : EventBus) (shared : SharedEvents Event) (event : Event)
    (log : List Event) (gone : Nat) (inside : gone ≤ log.length)
    (window : shared.eventHistory = log.drop gone) :
    (bus.record shared event).eventHistory =
      (log ++ [event]).drop (max gone (log.length + 1 - bus.maxHistory)) := by
  have longer : shared.eventHistory ++ [event] = (log ++ [event]).drop gone := by
    rw [window, List.drop_append_of_le_length inside]
  simp only [EventBus.record, longer, List.length_drop, List.length_append, List.length_singleton,
    List.drop_drop]
  split
  next => exact congrArg (List.drop · _) (by omega)
  next => exact congrArg (List.drop · _) (by omega)

theorem Shows.publishing_eq {state : Publishers Event} {publications : Announce.State Event Nat}
    (shows : state.Shows publications) (sound : Announce.Sound publications) (thread place : Nat)
    (held : publications.hand thread = some place) :
    ∃ event, publications.log[place]? = some event ∧ state.publishing thread = some event := by
  have inside := (sound.hand thread place held).1
  refine ⟨publications.log[place], List.getElem?_eq_getElem inside, ?_⟩
  rw [shows.publishing, held, Option.bind_some, List.getElem?_eq_getElem inside]

theorem Shows.record {state : Publishers Event} {publications : Announce.State Event Nat}
    (shows : state.Shows publications) (sound : Announce.Sound publications) (bus : EventBus)
    (thread : Nat) (event : Event) :
    (state.step bus (.record thread event)).Shows
      (Announce.step bus.maxHistory publications (.write thread event)) := by
  cases held : publications.hand thread with
  | some place =>
    obtain ⟨_, _, busy⟩ := shows.publishing_eq sound thread place held
    simpa only [step, Announce.step, held, busy] using shows
  | none =>
    have idle : state.publishing thread = none := by
      rw [shows.publishing, held, Option.bind_none]
    simp only [step, Announce.step, held, idle]
    have earlier (place : Nat) (inside : place < publications.log.length) :
        (publications.log ++ [event])[place]? = publications.log[place]? :=
      List.getElem?_append_left inside
    constructor
    next => exact record_history bus state.shared event _ _ sound.gone shows.history
    next =>
      refine shows.sent.trans (List.filterMap_congr fun place member => ?_)
      exact (earlier place (sound.inside place member)).symm
    next =>
      intro other
      by_cases here : other = thread
      next =>
        subst here
        simp only [Function.update_self, Option.bind_some, List.getElem?_concat_length]
      next =>
        simp only [Function.update_of_ne here, shows.publishing other]
        cases found : publications.hand other with
        | none => rfl
        | some place => exact (earlier place (sound.hand other place found).1).symm

theorem Shows.send {state : Publishers Event} {publications : Announce.State Event Nat}
    (shows : state.Shows publications) (sound : Announce.Sound publications) (bus : EventBus)
    (thread : Nat) :
    (state.step bus (.send thread)).Shows
      (Announce.step bus.maxHistory publications (.announce thread)) := by
  cases held : publications.hand thread with
  | none =>
    have idle : state.publishing thread = none := by
      rw [shows.publishing, held, Option.bind_none]
    simpa only [step, Announce.step, held, idle] using shows
  | some place =>
    obtain ⟨event, recorded, busy⟩ := shows.publishing_eq sound thread place held
    simp only [step, Announce.step, held, busy]
    constructor
    next => exact shows.history
    next =>
      simp only [EventBus.send, Announce.State.values, List.filterMap_append, shows.sent]
      simp [recorded]
    next =>
      intro other
      by_cases here : other = thread
      next =>
        subst here
        simp only [Function.update_self, Option.bind_none]
      next =>
        simp only [Function.update_of_ne here, shows.publishing other]

theorem Shows.step {state : Publishers Event} {publications : Announce.State Event Nat}
    (shows : state.Shows publications) (sound : Announce.Sound publications) (bus : EventBus)
    (action : BusAction Event) :
    (state.step bus action).Shows (Announce.step bus.maxHistory publications (label action)) := by
  cases action with
  | record thread event => exact shows.record sound bus thread event
  | send thread => exact shows.send sound bus thread
  | clearHistory =>
    refine ⟨?_, shows.sent, shows.publishing⟩
    exact (List.drop_length).symm

theorem run_shows (bus : EventBus) (actions : List (BusAction Event)) :
    (run bus actions).Shows (publications bus actions) := by
  induction actions using List.reverseRecOn with
  | nil => exact ⟨rfl, rfl, fun _ => rfl⟩
  | append_singleton actions action ih =>
    have concrete : run bus (actions ++ [action]) = (run bus actions).step bus action := by
      rw [run, List.foldl_append, List.foldl_cons, List.foldl_nil, run]
    have abstract : publications bus (actions ++ [action]) =
        Announce.step bus.maxHistory (publications bus actions) (label action) := by
      rw [publications, List.map_append, Announce.run_append]
      rfl
    rw [concrete, abstract]
    exact ih.step (Announce.run_sound bus.maxHistory _) bus action

theorem history_eq (bus : EventBus) (actions : List (BusAction Event)) :
    bus.history (run bus actions).shared =
      (publications bus actions).values (publications bus actions).kept := by
  have sound : Announce.Sound (publications bus actions) := Announce.run_sound bus.maxHistory _
  rw [EventBus.history, (run_shows bus actions).history, Announce.values_kept _ sound]

end Publishers

inductive ObserverStep (Event : Type) where
  | publish (action : BusAction Event)
  | receive

def ObserverStep.actions (steps : List (ObserverStep Event)) : List (BusAction Event) :=
  steps.filterMap fun made =>
    match made with
    | .publish action => some action
    | .receive => none

structure Observer (Event : Type) where
  publishers : Publishers Event
  receiver : Nat
  received : List Event
  places : List Nat

namespace Observer

open Publishers

variable (bus : EventBus) (capacity : Nat)

def subscribed (actions : List (BusAction Event)) : Observer Event where
  publishers := run bus actions
  receiver := bus.subscribe (run bus actions).shared
  received := []
  places := []

def step (observer : Observer Event) : ObserverStep Event → Observer Event
  | .publish action => { observer with publishers := observer.publishers.step bus action }
  | .receive =>
    match bus.receive capacity observer.receiver observer.publishers.shared with
    | (.event event, next) =>
      { observer with
        receiver := next
        received := observer.received ++ [event]
        places := observer.places ++ [observer.receiver] }
    | (.lagged _, next) | (.empty, next) => { observer with receiver := next }

def watch (before : List (BusAction Event)) (after : List (ObserverStep Event)) : Observer Event :=
  after.foldl (step bus capacity) (subscribed bus before)

def feed (observer : Observer Event) : Broadcast.Feed Event where
  sent := observer.publishers.shared.sent
  next := observer.receiver
  got := observer.places

theorem publish_feed (observer : Observer Event) (action : BusAction Event) :
    Broadcast.Step capacity observer.feed (observer.step bus capacity (.publish action)).feed := by
  cases action with
  | record thread event =>
    simp only [feed, step, Publishers.step]
    split
    next => exact .idle
    next => exact .idle
  | send thread =>
    simp only [feed, step, Publishers.step]
    split
    next event _ => exact .sent event
    next => exact .idle
  | clearHistory => exact .idle

theorem receive_cases (observer : Observer Event) :
    (observer.receiver + capacity < observer.publishers.shared.sent.length ∧
      observer.step bus capacity .receive =
        { observer with receiver := observer.publishers.shared.sent.length - capacity }) ∨
    (∃ event, observer.publishers.shared.sent.length ≤ observer.receiver + capacity ∧
      observer.publishers.shared.sent[observer.receiver]? = some event ∧
      observer.step bus capacity .receive =
        { observer with
          receiver := observer.receiver + 1
          received := observer.received ++ [event]
          places := observer.places ++ [observer.receiver] }) ∨
    observer.step bus capacity .receive = observer := by
  by_cases behind : observer.receiver + capacity < observer.publishers.shared.sent.length
  next => exact .inl ⟨behind, by simp only [step, EventBus.receive, if_pos behind]⟩
  next =>
    right
    cases found : observer.publishers.shared.sent[observer.receiver]? with
    | some event =>
      refine .inl ⟨event, Nat.le_of_not_lt behind, rfl, ?_⟩
      simp only [step, EventBus.receive, if_neg behind, found]
    | none =>
      right
      simp only [step, EventBus.receive, if_neg behind, found]

theorem step_feed (observer : Observer Event) (made : ObserverStep Event) :
    Broadcast.Step capacity observer.feed (observer.step bus capacity made).feed := by
  cases made with
  | publish action => exact observer.publish_feed bus capacity action
  | receive =>
    rcases observer.receive_cases bus capacity with
      ⟨behind, made⟩ | ⟨event, kept, found, made⟩ | made
    next =>
      rw [made]
      exact .lagged behind
    next =>
      rw [made]
      exact .received (List.getElem?_eq_some_iff.mp found).1 kept
    next =>
      rw [made]
      exact .idle

theorem watch_publishers (before : List (BusAction Event)) (after : List (ObserverStep Event)) :
    (watch bus capacity before after).publishers =
      run bus (before ++ ObserverStep.actions after) := by
  induction after using List.reverseRecOn with
  | nil =>
    rw [ObserverStep.actions, List.filterMap_nil, List.append_nil]
    rfl
  | append_singleton after made ih =>
    rw [watch, List.foldl_append, ← watch, List.foldl_cons, List.foldl_nil]
    cases made with
    | publish action =>
      simp only [step, ih, ObserverStep.actions, List.filterMap_append, List.filterMap_cons,
        List.filterMap_nil, ← List.append_assoc, run, List.foldl_append, List.foldl_cons,
        List.foldl_nil]
    | receive =>
      have same : ((watch bus capacity before after).step bus capacity .receive).publishers =
          (watch bus capacity before after).publishers := by
        rcases (watch bus capacity before after).receive_cases bus capacity with
          ⟨_, made⟩ | ⟨_, _, _, made⟩ | made <;> rw [made]
      rw [same, ih]
      simp only [ObserverStep.actions, List.filterMap_append, List.filterMap_cons,
        List.filterMap_nil, List.append_nil]

theorem watch_sound (before : List (BusAction Event)) (after : List (ObserverStep Event)) :
    (watch bus capacity before after).feed.Sound :=
  Broadcast.run_sound (step bus capacity) feed (step_feed bus capacity) (subscribed bus before)
    (Broadcast.start_sound _) after

theorem watch_received (before : List (BusAction Event)) (after : List (ObserverStep Event)) :
    (watch bus capacity before after).received =
      (watch bus capacity before after).places.filterMap
        ((watch bus capacity before after).publishers.shared.sent[·]?) := by
  induction after using List.reverseRecOn with
  | nil => rfl
  | append_singleton after made ih =>
    have sound := watch_sound bus capacity before after
    rw [watch, List.foldl_append, ← watch, List.foldl_cons, List.foldl_nil]
    generalize watch bus capacity before after = observer at ih sound ⊢
    cases made with
    | publish action =>
      have sent : observer.publishers.shared.sent <+:
          (observer.publishers.step bus action).shared.sent :=
        (observer.publish_feed bus capacity action).grows
      refine ih.trans (List.filterMap_congr fun place member => ?_)
      have inside : place < observer.publishers.shared.sent.length :=
        Nat.lt_of_lt_of_le (sound.got place member) sound.next
      obtain ⟨more, grown⟩ := sent
      rw [step, ← grown, List.getElem?_append_left inside]
    | receive =>
      rcases observer.receive_cases bus capacity with ⟨_, made⟩ | ⟨event, _, found, made⟩ | made
      next => rwa [made]
      next =>
        rw [made, List.filterMap_append, ← ih]
        simp only [List.filterMap_cons, found, List.filterMap_nil]
      next => rwa [made]

theorem sent_getElem? (actions : List (BusAction Event)) (place : Nat) :
    (run bus actions).shared.sent[place]? = (publications bus actions).announced[place]?.bind
      ((publications bus actions).log[·]?) := by
  have sound : Announce.Sound (publications bus actions) := Announce.run_sound bus.maxHistory _
  rw [(run_shows bus actions).sent, Announce.values_getElem? _ _ sound.inside]

theorem sent_length (actions : List (BusAction Event)) :
    (run bus actions).shared.sent.length = (publications bus actions).announced.length := by
  have sound : Announce.Sound (publications bus actions) := Announce.run_sound bus.maxHistory _
  rw [(run_shows bus actions).sent]
  exact Announce.values_length _ _ sound.inside

def Overtaken (before : List (BusAction Event)) (after : List (ObserverStep Event)) (place : Nat) :
    Prop :=
  ∃ front, front <+: after ∧ (watch bus capacity before front).feed.Behind capacity place

def Misses (before : List (BusAction Event)) (after : List (ObserverStep Event))
    (taken : List (BusAction Event)) (place publication : Nat) : Prop :=
  ¬ (watch bus capacity before after).feed.Shown capacity place ∧
    publication ∉ (publications bus taken).kept

theorem not_shown_iff (before : List (BusAction Event)) (after : List (ObserverStep Event))
    (place publication : Nat)
    (announced : (publications bus (before ++ ObserverStep.actions after)).announced[place]? =
      some publication) :
    ¬ (watch bus capacity before after).feed.Shown capacity place ↔
      publication ∈ (publications bus before).announced ∨
        Overtaken bus capacity before after place := by
  have inside : place < (watch bus capacity before after).feed.sent.length := by
    rw [feed, watch_publishers, sent_length]
    exact (List.getElem?_eq_some_iff.mp announced).1
  have shown := Broadcast.shown_iff (step bus capacity) feed (step_feed bus capacity)
    (subscribed bus before) (run bus before).shared.sent rfl after place inside
  have grows : Announce.Grows (publications bus before)
      (publications bus (before ++ ObserverStep.actions after)) := by
    rw [publications, publications, List.map_append]
    exact Announce.run_grows bus.maxHistory _ _
  have early := Announce.early_iff grows (Announce.run_sound bus.maxHistory _).once place
    publication announced
  rw [← early, ← sent_length, watch, shown, not_and_or, Nat.not_le]
  refine or_congr_right ?_
  simp only [Overtaken, watch, not_forall, not_not, exists_prop]

theorem observer_misses_iff :
    (∀ actions : List (BusAction Event), bus.history (run bus actions).shared =
      (publications bus actions).values (publications bus actions).kept) ∧
    (∀ (before : List (BusAction Event)) (after : List (ObserverStep Event)),
      let observer := watch bus capacity before after
      let all := publications bus (before ++ ObserverStep.actions after)
      observer.received = all.values (observer.places.filterMap (all.announced[·]?)) ∧
        observer.places.Pairwise (· < ·)) ∧
    (∀ (first : List (BusAction Event)) (second third : List (ObserverStep Event))
        (place publication : Nat),
      let taken := first ++ ObserverStep.actions second
      (publications bus (first ++ ObserverStep.actions (second ++ third))).announced[place]? =
        some publication →
      (Misses bus capacity first (second ++ third) taken place publication ↔
        publication ∈ (publications bus first).announced ∧
            publication < (publications bus taken).gone ∨
          Overtaken bus capacity first (second ++ third) place ∧
            (publication < (publications bus taken).gone ∨
              (publications bus taken).log.length ≤ publication))) ∧
    ∀ (first second : List (BusAction Event)) (third : List (ObserverStep Event))
        (place publication : Nat),
      (publications bus (first ++ second ++ ObserverStep.actions third)).announced[place]? =
        some publication →
      (Misses bus capacity (first ++ second) third first place publication ↔
        (publication ∈ (publications bus (first ++ second)).announced ∨
            Overtaken bus capacity (first ++ second) third place) ∧
          (publication < (publications bus first).gone ∨
            (publications bus first).log.length ≤ publication)) := by
  refine ⟨history_eq bus, ?_, ?_, ?_⟩
  next =>
    intro before after observer all
    refine ⟨?_, (watch_sound bus capacity before after).ordered⟩
    have received := watch_received bus capacity before after
    rw [watch_publishers] at received
    rw [Announce.State.values, List.filterMap_filterMap]
    refine received.trans (List.filterMap_congr fun place _ => ?_)
    exact sent_getElem? bus _ place
  next =>
    intro first second third place publication taken announced
    rw [Misses, not_shown_iff bus capacity first (second ++ third) place publication announced,
      or_and_right]
    refine or_congr (and_congr_right fun early => ?_) (and_congr_right fun _ => ?_)
    next =>
      simp only [publications, taken, List.map_append] at early ⊢
      exact Announce.early_not_kept_iff bus.maxHistory _ _ publication early
    next => exact Announce.not_mem_kept_iff _ publication
  next =>
    intro first second third place publication announced
    rw [Misses, not_shown_iff bus capacity _ third place publication announced,
      Announce.not_mem_kept_iff]

example : (watch ⟨10⟩ 1 [] [.publish (.record 0 "first"), .publish (.send 0),
    .publish (.record 0 "second"), .publish (.send 0), .receive, .receive, .receive]).received =
    ["second"] := rfl

end Observer

end BitDrive.Core
