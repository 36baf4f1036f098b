import BitDrive.Core.ServiceManager
import BitDrive.Shared.Checkout

set_option autoImplicit false

namespace BitDrive.Core

inductive Work where
  | request (request : ServiceRequest)
  | event (event : ServiceEvent)

def Work.run {S Context : Type} [Service S Context] (boxed : Boxed S) : Work → Boxed S
  | .request sent => { boxed with service := (Service.handleRequest boxed.service sent).2 }
  | .event sent => { boxed with service := (Service.handleEvent boxed.service sent).2 }

@[simp] theorem Work.run_address {S Context : Type} [Service S Context] (boxed : Boxed S)
    (work : Work) : (work.run boxed).address = boxed.address := by
  cases work <;> rfl

structure Call (S : Type) where
  serviceId : String
  boxed : Boxed S
  work : Work

structure Concurrent (S Context : Type) where
  manager : ServiceManager S Context
  calls : List (Call S)
  registered : String → Option Nat

inductive Action (S : Type) where
  | registerService (boxed : Boxed S)
  | unregisterService (serviceId : String)
  | handleRequest (request : ServiceRequest)
  | broadcastTurn (event : ServiceEvent) (serviceId : String)
  | finish (index : Nat)

inductive Reply where
  | dispatched (address : Nat)
  | answered (response : ServiceResponse)

namespace Concurrent

variable {S Context : Type}

def start (manager : ServiceManager S Context) : Concurrent S Context where
  manager := manager
  calls := []
  registered serviceId := (manager.services.lookup serviceId).map Boxed.address

def begin (state : Concurrent S Context) (serviceId : String) (work : Work) :
    Concurrent S Context :=
  match state.manager.take serviceId with
  | (some boxed, taken) =>
    { state with manager := taken, calls := state.calls ++ [⟨serviceId, boxed, work⟩] }
  | (none, taken) => { state with manager := taken }

def reply (state : Concurrent S Context) (request : ServiceRequest) : Reply :=
  match state.manager.take request.serviceId with
  | (some boxed, _) => .dispatched boxed.address
  | (none, _) => .answered (ServiceManager.notFound request)

def unregister (state : Concurrent S Context) (serviceId : String) : Concurrent S Context :=
  match state.manager.unregisterService serviceId with
  | (.ok (), manager) =>
    { state with
      manager := manager
      registered := Function.update state.registered serviceId none }
  | (.error _, manager) => { state with manager := manager }

def view (state : Concurrent S Context) : Checkout.State String Nat where
  table serviceId := (state.manager.services.lookup serviceId).map Boxed.address
  out := state.calls.map fun call => (call.serviceId, call.boxed.address)
  owner := state.registered

theorem view_take (manager : ServiceManager S Context) (serviceId : String) :
    (fun other => ((manager.take serviceId).2.services.lookup other).map Boxed.address) =
      Function.update (fun other => (manager.services.lookup other).map Boxed.address)
        serviceId none := by
  have changed := Table.lookup_erase manager.services serviceId
  exact (congrArg (Option.map Boxed.address ∘ ·) changed).trans (Function.comp_update _ _ _ _)

theorem view_putBack (manager : ServiceManager S Context) (serviceId : String)
    (boxed : Boxed S) :
    (fun other => ((manager.putBack serviceId boxed).services.lookup other).map Boxed.address) =
      Function.update (fun other => (manager.services.lookup other).map Boxed.address)
        serviceId (some boxed.address) := by
  have changed := Table.lookup_insert manager.services serviceId boxed
  exact (congrArg (Option.map Boxed.address ∘ ·) changed).trans (Function.comp_update _ _ _ _)

theorem take_none (manager : ServiceManager S Context) (serviceId : String)
    (absent : manager.services.lookup serviceId = none) :
    manager.take serviceId = (none, manager) := by
  have same : manager.services.erase serviceId = manager.services := by
    apply Finmap.ext_lookup
    intro other
    by_cases equal : other = serviceId
    next =>
      subst equal
      simp [absent]
    next => exact Finmap.lookup_erase_ne equal
  simp [ServiceManager.take, same, absent]

theorem take_some (manager : ServiceManager S Context) (serviceId : String) (boxed : Boxed S)
    (present : manager.services.lookup serviceId = some boxed) :
    manager.take serviceId = (some boxed, (manager.take serviceId).2) := by
  simp [ServiceManager.take, present]

theorem view_begin (state : Concurrent S Context) (serviceId : String) (work : Work) :
    (state.begin serviceId work).view = state.view.take serviceId := by
  cases present : state.manager.services.lookup serviceId with
  | none =>
    rw [begin, take_none _ _ present]
    simp [Checkout.State.take, view, present]
  | some boxed =>
    rw [begin, take_some _ _ _ present]
    have table : state.view.table serviceId = some boxed.address := by simp [view, present]
    simp only [Checkout.State.take, table]
    ext1
    next => exact view_take state.manager serviceId
    next => simp [view]
    next => rfl

theorem view_unregister (state : Concurrent S Context) (serviceId : String) :
    (state.unregister serviceId).view = state.view.remove serviceId := by
  cases present : state.manager.services.lookup serviceId with
  | none =>
    rw [unregister, ServiceManager.unregisterService, take_none _ _ present]
    simp [Checkout.State.remove, view, present]
  | some boxed =>
    have table : state.view.table serviceId = some boxed.address := by simp [view, present]
    rw [unregister, ServiceManager.unregisterService, take_some _ _ _ present]
    simp only [Checkout.State.remove, table]
    ext1
    next => exact view_take state.manager serviceId
    next => rfl
    next => rfl

def Absent (state : Concurrent S Context) : Prop :=
  ∀ serviceId, state.registered serviceId = none → serviceId ∉ state.manager.services

theorem reply_eq_dispatched (state : Concurrent S Context) (request : ServiceRequest)
    (address : Nat) :
    state.reply request = .dispatched address ↔
      state.view.table request.serviceId = some address := by
  cases present : state.manager.services.lookup request.serviceId <;>
    simp [reply, ServiceManager.take, view, present]

theorem absent_iff (state : Concurrent S Context) : state.Absent ↔ state.view.Owned := by
  simp [Absent, Checkout.State.Owned, view, Finmap.lookup_eq_none]

theorem start_settled (manager : ServiceManager S Context) : (start manager).view.Settled := by
  intro serviceId
  simp [Checkout.State.copies, Checkout.State.away, start, view]

variable [Service S Context]

def finish (state : Concurrent S Context) (index : Nat) : Concurrent S Context :=
  match state.calls[index]? with
  | some call =>
    { state with
      manager := state.manager.putBack call.serviceId (call.work.run call.boxed)
      calls := state.calls.eraseIdx index }
  | none => state

def register (state : Concurrent S Context) (boxed : Boxed S) : Concurrent S Context :=
  match state.manager.registerService boxed with
  | (.ok (), manager) =>
    { state with
      manager := manager
      registered := Function.update state.registered (Service.serviceId boxed.service)
        (some boxed.address) }
  | (.error _, manager) => { state with manager := manager }

def step (state : Concurrent S Context) : Action S → Concurrent S Context
  | .registerService boxed => state.register boxed
  | .unregisterService serviceId => state.unregister serviceId
  | .handleRequest request => state.begin request.serviceId (.request request)
  | .broadcastTurn event serviceId => state.begin serviceId (.event event)
  | .finish index => state.finish index

def Dispatches (state : Concurrent S Context) : Action S → Prop
  | .handleRequest request => ∀ address, state.registered request.serviceId = some address →
    state.reply request = .dispatched address
  | _ => True

def Overwrites (state : Concurrent S Context) : Action S → Prop
  | .registerService boxed => (state.manager.registerService boxed).1 = .ok () ∧
    Service.serviceId boxed.service ∈ state.manager.services
  | .finish index => ∃ call, state.calls[index]? = some call ∧
    call.serviceId ∈ state.manager.services
  | _ => False

structure Safe (state : Concurrent S Context) (action : Action S) : Prop where
  dispatches : state.Dispatches action
  keeps : ¬ state.Overwrites action
  absent : (state.step action).Absent

def Waits (state : Concurrent S Context) : Action S → Prop
  | .handleRequest request => ∀ call ∈ state.calls, call.serviceId ≠ request.serviceId
  | .registerService boxed =>
    ∀ call ∈ state.calls, call.serviceId ≠ Service.serviceId boxed.service
  | _ => True

def label : Action S → Checkout.Action String Nat
  | .registerService boxed => .insert (Service.serviceId boxed.service) boxed.address
  | .unregisterService serviceId => .remove serviceId
  | .handleRequest request => .request request.serviceId
  | .broadcastTurn _ serviceId => .turn serviceId
  | .finish index => .finish index

theorem view_finish (state : Concurrent S Context) (index : Nat) :
    (state.finish index).view = state.view.finish index := by
  have out : state.view.out[index]? =
      state.calls[index]?.map fun call => (call.serviceId, call.boxed.address) := by
    simp [view]
  cases found : state.calls[index]? with
  | none => simp [finish, Checkout.State.finish, out, found]
  | some call =>
    simp only [finish, Checkout.State.finish, out, found, Option.map_some]
    ext1
    next =>
      have stored := view_putBack state.manager call.serviceId (call.work.run call.boxed)
      rwa [Work.run_address] at stored
    next => simp [view, List.eraseIdx_map]
    next => rfl

theorem view_register (state : Concurrent S Context) (boxed : Boxed S) :
    (state.register boxed).view =
      state.view.insert (Service.serviceId boxed.service) boxed.address := by
  cases present : state.manager.services.lookup (Service.serviceId boxed.service) with
  | none =>
    have absent : Service.serviceId boxed.service ∉ state.manager.services :=
      Finmap.lookup_eq_none.mp present
    have table : state.view.table (Service.serviceId boxed.service) = none := by
      simp [view, present]
    simp only [register, ServiceManager.registerService, if_neg absent, Checkout.State.insert,
      table]
    ext1
    next => exact view_putBack state.manager _ boxed
    next => rfl
    next => rfl
  | some held =>
    have member : Service.serviceId boxed.service ∈ state.manager.services :=
      Finmap.mem_of_lookup_eq_some present
    simp [register, ServiceManager.registerService, member, Checkout.State.insert, view, present]

theorem view_step (state : Concurrent S Context) (action : Action S) :
    (state.step action).view = state.view.step (label action) := by
  cases action with
  | registerService boxed => exact state.view_register boxed
  | unregisterService serviceId => exact state.view_unregister serviceId
  | handleRequest request => exact state.view_begin request.serviceId (.request request)
  | broadcastTurn event serviceId => exact state.view_begin serviceId (.event event)
  | finish index => exact state.view_finish index

theorem keeps_iff (state : Concurrent S Context) (action : Action S) :
    state.Dispatches action ∧ ¬ state.Overwrites action ↔ state.view.Keeps (label action) := by
  cases action with
  | registerService boxed =>
    refine iff_of_true ⟨trivial, ?_⟩ trivial
    intro ⟨stored, member⟩
    simp [ServiceManager.registerService, member] at stored
  | unregisterService serviceId => exact iff_of_true ⟨trivial, id⟩ trivial
  | broadcastTurn event serviceId => exact iff_of_true ⟨trivial, id⟩ trivial
  | handleRequest request =>
    simp only [Dispatches, Overwrites, reply_eq_dispatched, not_false_eq_true, and_true]
    rfl
  | finish index =>
    simp [Dispatches, Overwrites, label, Checkout.State.Keeps, view, Finmap.lookup_eq_none]

theorem safe_iff (state : Concurrent S Context) (action : Action S) :
    state.Safe action ↔ state.view.Safe (label action) := by
  rw [Checkout.State.Safe, ← keeps_iff, ← view_step, ← absent_iff]
  constructor
  next => exact fun safe => ⟨⟨safe.dispatches, safe.keeps⟩, safe.absent⟩
  next => exact fun ⟨⟨dispatches, keeps⟩, absent⟩ => ⟨dispatches, keeps, absent⟩

theorem waits_iff (state : Concurrent S Context) (action : Action S) :
    state.Waits action ↔ state.view.Waits (label action) := by
  cases action <;> simp [Waits, label, Checkout.State.Waits, view]

theorem begin_finish_none (state : Concurrent S Context) (serviceId : String) (work : Work)
    (idle : state.calls = []) (absent : state.manager.services.lookup serviceId = none) :
    (state.begin serviceId work).finish 0 = state := by
  have none : state.calls[0]? = none := by simp [idle]
  rw [begin, take_none _ _ absent]
  simp only [finish, none]

theorem begin_finish_some (state : Concurrent S Context) (serviceId : String) (work : Work)
    (idle : state.calls = []) (boxed : Boxed S)
    (present : state.manager.services.lookup serviceId = some boxed) :
    (state.begin serviceId work).finish 0 =
      { state with
        manager := (state.manager.take serviceId).2.putBack serviceId (work.run boxed) } := by
  rw [begin, take_some _ _ _ present]
  simp [finish, idle]

theorem handleRequest_steps (manager : ServiceManager S Context) (request : ServiceRequest) :
    ([.handleRequest request, .finish 0].foldl step (start manager)).manager =
      (manager.handleRequest request).2 := by
  simp only [List.foldl_cons, List.foldl_nil, step]
  cases present : manager.services.lookup request.serviceId with
  | none =>
    rw [begin_finish_none (start manager) _ _ rfl present, ServiceManager.handleRequest,
      take_none _ _ present]
    rfl
  | some boxed =>
    rw [begin_finish_some (start manager) _ _ rfl boxed present, ServiceManager.handleRequest,
      take_some _ _ _ present]
    rfl

theorem broadcastEvent_steps (order : Table.Order String) (manager : ServiceManager S Context)
    (event : ServiceEvent) :
    (((order.list manager.services.keys).flatMap fun serviceId =>
        [.broadcastTurn event serviceId, .finish 0]).foldl step (start manager)).manager =
      (manager.broadcastEvent order event).2 := by
  let work (_ : String) (boxed : Boxed S) : Except ProtocolError (Option (Boxed S)) :=
    .ok (some ((Work.event event).run boxed))
  have turns (serviceIds : List String) (state : Concurrent S Context) (idle : state.calls = []) :
      ((serviceIds.flatMap fun serviceId =>
          [.broadcastTurn event serviceId, .finish 0]).foldl step state).manager =
        { state.manager with
          services := (Table.visit work serviceIds state.manager.services).2 } := by
    induction serviceIds generalizing state with
    | nil => rfl
    | cons serviceId serviceIds ih =>
      simp only [List.flatMap_cons, List.foldl_append, List.foldl_cons, List.foldl_nil, step]
      cases present : state.manager.services.lookup serviceId with
      | none =>
        rw [begin_finish_none state serviceId _ idle present, Table.visit, present]
        exact ih state idle
      | some boxed =>
        rw [begin_finish_some state serviceId _ idle boxed present, Table.visit, present]
        exact ih _ idle
  exact turns _ (start manager) rfl

theorem concurrent_calls_iff (manager : ServiceManager S Context) (actions : List (Action S)) :
    (∀ finishing : List Nat,
        Run.Each step Safe (start manager) (actions ++ finishing.map Action.finish)) ↔
      Run.Each step Waits (start manager) actions := by
  have labels (finishing : List Nat) :
      (actions ++ finishing.map Action.finish).map label =
        actions.map label ++ finishing.map Checkout.Action.finish := by
    simp [label]
  have safe (inputs : List (Action S)) :=
    Run.each_map step Checkout.State.step view label view_step Safe Checkout.State.Safe safe_iff
      (start manager) inputs
  have waits :=
    Run.each_map step Checkout.State.step view label view_step Waits Checkout.State.Waits waits_iff
      (start manager) actions
  simp only [safe, waits, labels]
  exact (Checkout.State.waits_iff_safe _ _ (start_settled manager)).symm

def testRequest : ServiceRequest where
  serviceId := "test.service"
  channelId := 1
  requestId := 7
  payload := []
  metadata := fun _ => none

theorem second_request_not_found :
    ¬ Run.Each step Safe (start testManager)
      [.handleRequest testRequest, .handleRequest testRequest] := by
  intro ⟨_, second, _⟩
  have found := (reply_eq_dispatched _ testRequest 0).mp (second.dispatches 0 rfl)
  exact absurd found (by decide)

end Concurrent

end BitDrive.Core
