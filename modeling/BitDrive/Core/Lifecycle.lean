import BitDrive.Core.ServiceManager
import Mathlib.Data.String.Basic

set_option autoImplicit false

namespace BitDrive.Core

inductive Operation (Context : Type) where
  | setContext (context : Context)
  | initAll
  | startAll
  | stopAll
  | handleRequest (request : ServiceRequest)
  | broadcastEvent (event : ServiceEvent)

namespace ServiceManager

variable {S Context : Type}

@[simp] theorem toFinset_listServices (manager : ServiceManager S Context)
    (order : Table.Order String) :
    (manager.listServices order).toFinset = manager.services.keys :=
  order.toFinset_list manager.services.keys

theorem keys_visit_iff {ε : Type} (manager : ServiceManager S Context)
    (order : Table.Order String) (work : String → Boxed S → Except ε (Option (Boxed S))) :
    (manager.visit order work).2.services.keys = manager.services.keys ↔
      ∀ serviceId boxed, manager.services.lookup serviceId = some boxed →
        ∃ worked, work serviceId boxed = .ok (some worked) := by
  have visited := Table.keys_visit_iff work (order.list manager.services.keys)
    (order.nodup manager.services.keys) manager.services
  simp only [order.mem_list, Finmap.mem_keys] at visited
  constructor
  next =>
    intro same serviceId boxed present
    exact visited.mp same serviceId (Finmap.mem_of_lookup_eq_some present) boxed present
  next =>
    intro all
    exact visited.mpr fun serviceId _ boxed present => all serviceId boxed present

def halt (quoted : String → String) (call : String) (id : String) :
    Except ProtocolError Unit → Halt
  | .ok () => .blocked
  | .error failure => .failed (.config s!"Failed to {call} {id}: {failure.display quoted}")

theorem callLocked_eq (quoted : String → String) (call : String) (id : String)
    (called : Except ProtocolError Unit × S) :
    callLocked quoted call id called = .error (halt quoted call id called.1) := by
  obtain ⟨result, service⟩ := called
  cases result <;> rfl

theorem visit_callLocked (quoted : String → String) (call : String) (order : Table.Order String)
    (manager : ServiceManager S Context) (called : Boxed S → Except ProtocolError Unit × S) :
    let visited := manager.visit order fun id boxed => callLocked quoted call id (called boxed)
    manager.services = ∅ ∧ visited = (.ok (), manager) ∨
      ∃ id rest boxed, manager.listServices order = id :: rest ∧
        manager.services.lookup id = some boxed ∧
        visited = (.error (halt quoted call id (called boxed).1), (manager.take id).2) := by
  intro visited
  cases listed : order.list manager.services.keys with
  | nil =>
    left
    have nobody : manager.services.keys = ∅ := by
      rw [← order.toFinset_list manager.services.keys, listed]
      rfl
    refine ⟨Table.eq_empty_of_keys manager.services nobody, ?_⟩
    simp only [visited, visit, listed, Table.visit]
  | cons id rest =>
    right
    have member : id ∈ manager.services := by
      rw [← Finmap.mem_keys, ← order.mem_list, listed]
      exact List.mem_cons_self
    obtain ⟨boxed, present⟩ := Finmap.mem_iff.mp member
    have halted := Table.visit_of_fails (fun id boxed => callLocked quoted call id (called boxed))
      (fun id boxed => halt quoted call id (called boxed).1)
      (fun id boxed => callLocked_eq quoted call id (called boxed)) id rest manager.services boxed
      present
    refine ⟨id, rest, boxed, listed, present, ?_⟩
    simp only [visited, visit, listed, halted, take]

theorem keys_putBack_take (manager : ServiceManager S Context) (serviceId : String)
    (boxed : Boxed S) (present : serviceId ∈ manager.services) :
    ((manager.take serviceId).2.putBack serviceId boxed).services.keys =
      manager.services.keys := by
  simp [take, putBack, Table.keys_insert, Finset.insert_erase (Finmap.mem_keys.mpr present)]

variable [Service S Context]

-- Nothing comes after a call that does not return.
def returned : Except Halt Unit × ServiceManager S Context → Option (ServiceManager S Context)
  | (.error .blocked, _) => none
  | (.error (.failed _), manager) => some manager
  | (.ok (), manager) => some manager

def run (quoted : String → String) (order : Table.Order String)
    (manager : ServiceManager S Context) :
    Operation Context → Option (ServiceManager S Context)
  | .setContext context => some (manager.setContext context)
  | .initAll => returned (manager.initAll quoted order)
  | .startAll => returned (manager.startAll quoted order)
  | .stopAll => some (manager.stopAll order).2
  | .handleRequest request => some (manager.handleRequest request).2
  | .broadcastEvent event => some (manager.broadcastEvent order event).2

def Returns (manager : ServiceManager S Context) : Operation Context → Prop
  | .initAll => manager.context = none ∨ manager.services = ∅
  | .startAll | .stopAll => manager.services = ∅
  | .setContext _ | .handleRequest _ | .broadcastEvent _ => True

def KeepsKeys (manager : ServiceManager S Context) (later : Option (ServiceManager S Context)) :
    Prop :=
  ∃ after, later = some after ∧ after.services.keys = manager.services.keys

omit [Service S Context] in
theorem not_keepsKeys_halted (manager : ServiceManager S Context) (id : String) (boxed : Boxed S)
    (present : manager.services.lookup id = some boxed) (halted : Halt) :
    ¬ manager.KeepsKeys (returned (.error halted, (manager.take id).2)) := by
  rintro ⟨after, comes, same⟩
  cases halted with
  | blocked => cases comes
  | failed error =>
    rw [returned, Option.some.injEq] at comes
    have member : id ∈ manager.services.keys :=
      Finmap.mem_keys.mpr (Finmap.mem_of_lookup_eq_some present)
    rw [← same, ← comes] at member
    simp [take] at member

omit [Service S Context] in
theorem visit_callLocked_kept_iff (quoted : String → String) (call : String)
    (order : Table.Order String) (manager : ServiceManager S Context)
    (called : Boxed S → Except ProtocolError Unit × S) :
    manager.KeepsKeys (returned (manager.visit order fun id boxed =>
        callLocked quoted call id (called boxed))) ↔
      manager.services = ∅ := by
  rcases visit_callLocked quoted call order manager called with
    ⟨nobody, idle⟩ | ⟨id, rest, boxed, _, present, halted⟩
  next =>
    rw [idle]
    exact iff_of_true ⟨manager, rfl, rfl⟩ nobody
  next =>
    rw [halted]
    refine iff_of_false (manager.not_keepsKeys_halted id boxed present _) ?_
    intro nobody
    rw [nobody, Finmap.lookup_empty] at present
    cases present

theorem initAll_kept_iff (quoted : String → String) (order : Table.Order String)
    (manager : ServiceManager S Context) :
    manager.KeepsKeys (returned (manager.initAll quoted order)) ↔ manager.Returns .initAll := by
  cases given : manager.context with
  | none =>
    simp only [initAll, given]
    exact iff_of_true ⟨manager, rfl, rfl⟩ (.inl given)
  | some context =>
    have kept := manager.visit_callLocked_kept_iff quoted "init" order
      fun boxed => Service.init boxed.service context
    simp only [initAll, given]
    rw [kept, Returns, given]
    simp

theorem startAll_kept_iff (quoted : String → String) (order : Table.Order String)
    (manager : ServiceManager S Context) :
    manager.KeepsKeys (returned (manager.startAll quoted order)) ↔ manager.Returns .startAll :=
  visit_callLocked_kept_iff quoted "start" order { manager with running := true }
    fun boxed => Service.start boxed.service

theorem stopAll_keys_iff (order : Table.Order String) (manager : ServiceManager S Context) :
    (manager.stopAll order).2.services.keys = manager.services.keys ↔ manager.services = ∅ := by
  let work (_ : String) (_ : Boxed S) : Except ProtocolError (Option (Boxed S)) := .ok none
  have visited := keys_visit_iff { manager with running := false } order work
  refine visited.trans ?_
  simp only [work, Except.ok.injEq, reduceCtorEq, exists_false, imp_false]
  constructor
  next =>
    intro absent
    apply Finmap.ext_lookup
    intro serviceId
    rw [Finmap.lookup_empty]
    exact Option.eq_none_iff_forall_ne_some.mpr (absent serviceId)
  next =>
    intro empty
    simp [empty]

theorem handleRequest_keys (manager : ServiceManager S Context) (request : ServiceRequest) :
    (manager.handleRequest request).2.services.keys = manager.services.keys := by
  cases found : manager.services.lookup request.serviceId with
  | none =>
    have absent : request.serviceId ∉ manager.services.keys :=
      fun member => Finmap.lookup_eq_none.mp found (Finmap.mem_keys.mp member)
    simp [handleRequest, take, found, Finset.erase_eq_of_notMem absent]
  | some boxed =>
    have restored := manager.keys_putBack_take request.serviceId
      { boxed with service := (Service.handleRequest boxed.service request).2 }
      (Finmap.mem_of_lookup_eq_some found)
    simpa [handleRequest, take, found] using restored

theorem broadcastEvent_keys (order : Table.Order String) (manager : ServiceManager S Context)
    (event : ServiceEvent) :
    (manager.broadcastEvent order event).2.services.keys = manager.services.keys := by
  simp [broadcastEvent, keys_visit_iff]

theorem services_kept_iff (quoted : String → String) (order before after : Table.Order String)
    (manager : ServiceManager S Context) (operation : Operation Context) :
    (∃ later, manager.run quoted order operation = some later ∧
        (later.listServices after).toFinset = (manager.listServices before).toFinset) ↔
      manager.Returns operation := by
  simp only [toFinset_listServices]
  cases operation with
  | setContext context => exact iff_of_true ⟨_, rfl, rfl⟩ trivial
  | initAll => exact manager.initAll_kept_iff quoted order
  | startAll => exact manager.startAll_kept_iff quoted order
  | stopAll => simpa [run, Returns] using manager.stopAll_keys_iff order
  | handleRequest request => exact iff_of_true ⟨_, rfl, manager.handleRequest_keys request⟩ trivial
  | broadcastEvent event =>
    exact iff_of_true ⟨_, rfl, manager.broadcastEvent_keys order event⟩ trivial

theorem stopped_service_lost :
    ¬ ∃ later, testManager.run id (.ascending String) .stopAll = some later ∧
      (later.listServices (.ascending String)).toFinset =
        (testManager.listServices (.ascending String)).toFinset := by
  simp only [toFinset_listServices]
  rintro ⟨later, stopped, same⟩
  rw [← Option.some.inj stopped] at same
  have empty : testManager.services = ∅ :=
    (testManager.stopAll_keys_iff (.ascending String)).mp same
  exact absurd empty (by decide)

end ServiceManager

end BitDrive.Core
