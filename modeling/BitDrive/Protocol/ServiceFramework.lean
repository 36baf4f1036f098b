import BitDrive.Protocol.Capability
import BitDrive.Protocol.ErrorText
import BitDrive.Shared.CheckThenAct
import BitDrive.Shared.Table

set_option autoImplicit false

namespace BitDrive.Framework

open ByteLayout

structure ServiceRequest where
  serviceId : String
  channelId : UInt32
  requestId : UInt64
  payload : Bytes
  metadata : String → Option String

structure ServiceResponse where
  requestId : UInt64
  result : ResultCode
  payload : Bytes
  errorMessage : String
  metadata : String → Option String

inductive ServiceEvent where
  | sessionOpened
  | sessionClosed
  | channelOpened (channelId : UInt32)
  | channelClosed (channelId : UInt32)
  | capabilityNegotiated (capabilities : List NegotiatedCapability)
  | peerConfigChanged (config : String)

class Service (S : Type) (Context : outParam Type) where
  serviceId : S → String
  init : S → Context → Except ProtocolError Unit × S
  start : S → Except ProtocolError Unit × S
  stop : S → Except ProtocolError Unit × S
  handleRequest : S → ServiceRequest → Except ProtocolError ServiceResponse × S
  handleEvent : S → ServiceEvent → Except ProtocolError Unit × S

structure ServiceManager (S Context : Type) where
  services : Table String S
  context : Option Context

namespace ServiceManager

variable {S Context : Type}

def new : ServiceManager S Context where
  services := ∅
  context := none

def setContext (manager : ServiceManager S Context) (context : Context) :
    ServiceManager S Context :=
  { manager with context := some context }

def unregisterService (manager : ServiceManager S Context) (serviceId : String) :
    Except ProtocolError Unit × ServiceManager S Context :=
  if serviceId ∈ manager.services then
    (.ok (), { manager with services := manager.services.erase serviceId })
  else (.error (.serviceNotRegistered serviceId), manager)

def listServices (manager : ServiceManager S Context) (order : Table.Order String) : List String :=
  order.list manager.services.keys

-- The loops over `iter_mut`, under one lock.
def each (manager : ServiceManager S Context) (order : Table.Order String)
    (change : String → S → Except ProtocolError Unit × S) :
    Except ProtocolError Unit × ServiceManager S Context :=
  let walked := Table.each change (manager.listServices order) manager.services
  (walked.1, { manager with services := walked.2 })

variable [Service S Context]

-- `register_service` up to its first unlock, and from its second lock on.
def registered (manager : ServiceManager S Context) (service : S) : Except ProtocolError Unit :=
  let serviceId := Service.serviceId service
  if serviceId ∈ manager.services then .error (.serviceAlreadyRegistered serviceId) else .ok ()

def insert (manager : ServiceManager S Context) (service : S) : ServiceManager S Context :=
  { manager with services := manager.services.insert (Service.serviceId service) service }

def initAll (quoted : String → String) (order : Table.Order String)
    (manager : ServiceManager S Context) :
    Except ProtocolError Unit × ServiceManager S Context :=
  match manager.context with
  | none => (.error (.config "Service context not set"), manager)
  | some context =>
    manager.each order fun id service =>
      let (result, service) := Service.init service context
      (result.mapError fun failure =>
        .config s!"Failed to init {id}: {failure.display quoted}", service)

def startAll (quoted : String → String) (order : Table.Order String)
    (manager : ServiceManager S Context) :
    Except ProtocolError Unit × ServiceManager S Context :=
  manager.each order fun id service =>
    let (result, service) := Service.start service
    (result.mapError fun failure =>
      .config s!"Failed to start {id}: {failure.display quoted}", service)

-- What fails is only logged.
def stopAll (order : Table.Order String) (manager : ServiceManager S Context) :
    Except ProtocolError Unit × ServiceManager S Context :=
  manager.each order fun _ service => (.ok (), (Service.stop service).2)

def broadcastEvent (order : Table.Order String) (manager : ServiceManager S Context)
    (event : ServiceEvent) : Except ProtocolError Unit × ServiceManager S Context :=
  manager.each order fun _ service => (.ok (), (Service.handleEvent service event).2)

def notFound (request : ServiceRequest) : ServiceResponse where
  requestId := request.requestId
  result := .errorNotFound
  payload := []
  errorMessage := s!"Service not found: {request.serviceId}"
  metadata := fun _ => none

def handleRequest (manager : ServiceManager S Context) (request : ServiceRequest) :
    Except ProtocolError ServiceResponse × ServiceManager S Context :=
  match manager.services.lookup request.serviceId with
  | some service =>
    let (result, service) := Service.handleRequest service request
    (result, { manager with services := manager.services.insert request.serviceId service })
  | none => (.ok (notFound request), manager)

end ServiceManager

inductive ServiceManager.Reached {S Context : Type} [Service S Context] (quoted : String → String)
    (manager : ServiceManager S Context) (order : Table.Order String) :
    Except ProtocolError Unit → List String → Prop where
  | all
      (accepted : ∀ serviceId ∈ manager.listServices order, ∀ service,
        manager.services.lookup serviceId = some service → (Service.start service).1 = .ok ()) :
      Reached quoted manager order (.ok ()) (manager.listServices order)
  | upTo (front back : List String) (serviceId : String) (service : S) (cause : ProtocolError)
      (split : manager.listServices order = front ++ serviceId :: back)
      (present : manager.services.lookup serviceId = some service)
      (refused : (Service.start service).1 = .error cause)
      (accepted : ∀ other ∈ front, ∀ service, manager.services.lookup other = some service →
        (Service.start service).1 = .ok ()) :
      Reached quoted manager order
        (.error (.config s!"Failed to start {serviceId}: {cause.display quoted}"))
        (front ++ [serviceId])

namespace ServiceManager

variable {S Context : Type}

theorem each_accepting (order : Table.Order String) (manager : ServiceManager S Context)
    (change : S → S) :
    (manager.each order fun _ service => (.ok (), change service)).1 = .ok () ∧
      ∀ serviceId,
        (manager.each order fun _ service => (.ok (), change service)).2.services.lookup serviceId =
          (manager.services.lookup serviceId).map change := by
  have walked := Table.each_walked
    (fun _ (service : S) => ((.ok () : Except ProtocolError Unit), change service))
    (manager.listServices order) (order.nodup manager.services.keys) manager.services
  rw [each]
  dsimp only
  generalize Table.each _ (manager.listServices order) manager.services = result at walked ⊢
  cases walked with
  | done left accepted changed =>
    refine ⟨rfl, fun serviceId => ?_⟩
    rw [changed]
    split
    next => rfl
    next outside =>
      have absent : serviceId ∉ manager.services := by
        simpa [listServices, order.mem_list, Finmap.mem_keys] using outside
      rw [Finmap.lookup_eq_none.mpr absent, Option.map_none]
  | failed front back serviceId service failure left split present refused accepted changed =>
    cases refused

variable [Service S Context] (quoted : String → String)

theorem mapError_ok_iff {ε φ : Type} (change : ε → φ) (result : Except ε Unit) :
    result.mapError change = .ok () ↔ result = .ok () := by
  cases result <;> simp [Except.mapError]

theorem startAll_reached (order : Table.Order String) (manager : ServiceManager S Context) :
    ∃ reached, manager.Reached quoted order (manager.startAll quoted order).1 reached ∧
      ∀ serviceId, (manager.startAll quoted order).2.services.lookup serviceId =
        (manager.services.lookup serviceId).map fun service =>
          if serviceId ∈ reached then (Service.start service).2 else service := by
  have touched (reached : List String) (serviceId : String) :
      (if serviceId ∈ reached then
          (manager.services.lookup serviceId).map fun service => (Service.start service).2
        else manager.services.lookup serviceId) =
      (manager.services.lookup serviceId).map fun service =>
        if serviceId ∈ reached then (Service.start service).2 else service := by
    split <;> simp
  rw [startAll, each]
  dsimp only
  generalize walk : Table.each _ (manager.listServices order) manager.services = result
  have walked := Table.each_walked (fun id (service : S) =>
    ((Service.start service).1.mapError fun failure =>
      ProtocolError.config s!"Failed to start {id}: {failure.display quoted}",
      (Service.start service).2)) (manager.listServices order)
    (order.nodup manager.services.keys) manager.services
  rw [walk] at walked
  cases walked with
  | done left accepted changed =>
    refine ⟨manager.listServices order, .all ?_, fun serviceId => ?_⟩
    next =>
      intro serviceId member service present
      exact (mapError_ok_iff _ _).mp (accepted serviceId member service present)
    next => rw [changed, touched]
  | failed front back serviceId service failure left split present refused accepted changed =>
    cases cause : (Service.start service).1 with
    | ok => simp [cause, Except.mapError] at refused
    | error cause' =>
      rw [cause] at refused
      obtain rfl := Except.error.inj refused
      refine ⟨front ++ [serviceId],
        .upTo front back serviceId service cause' split present cause ?_, fun other => ?_⟩
      next =>
        intro other member service present
        exact (mapError_ok_iff _ _).mp (accepted other member service present)
      next => rw [changed, touched]

theorem start_stop_all (order later : Table.Order String) (manager : ServiceManager S Context) :
    let started := manager.startAll quoted order
    ∃ reached, manager.Reached quoted order started.1 reached ∧
      (started.2.stopAll later).1 = .ok () ∧
      ∀ serviceId, (started.2.stopAll later).2.services.lookup serviceId =
        (manager.services.lookup serviceId).map fun service =>
          (Service.stop
            (if serviceId ∈ reached then (Service.start service).2 else service)).2 := by
  intro started
  obtain ⟨reached, reaches, left⟩ := startAll_reached quoted order manager
  obtain ⟨quiet, stopped⟩ :=
    each_accepting later started.2 fun service => (Service.stop service).2
  refine ⟨reached, reaches, quiet, fun serviceId => ?_⟩
  have found := left serviceId
  rw [stopAll, stopped, found, Option.map_map]
  rfl

end ServiceManager

structure Shared (S Context : Type) where
  manager : ServiceManager S Context
  checked : Nat → Option S

inductive Action (S Context : Type) where
  | setContext (context : Context)
  | check (thread : Nat) (service : S)
  | insert (thread : Nat)
  | unregisterService (serviceId : String)
  | initAll (order : Table.Order String)
  | startAll (order : Table.Order String)
  | stopAll (order : Table.Order String)
  | handleRequest (request : ServiceRequest)
  | broadcastEvent (order : Table.Order String) (event : ServiceEvent)

namespace Shared

variable {S Context : Type}

def new : Shared S Context where
  manager := .new
  checked _ := none

theorem map_update {κ α β : Type} [DecidableEq κ] (change : α → β) (held : κ → Option α)
    (name : κ) (value : Option α) :
    (fun other => (Function.update held name value other).map change) =
      Function.update (fun other => (held other).map change) name (value.map change) :=
  Function.comp_update (Option.map change) held name value

theorem held_of_keys (manager other : ServiceManager S Context)
    (same : other.services.keys = manager.services.keys) (serviceId : String) :
    (other.services.lookup serviceId).map (fun _ => ()) =
      (manager.services.lookup serviceId).map fun _ => () := by
  have present := (Table.keys_eq_iff other.services manager.services).mp same serviceId
  cases found : manager.services.lookup serviceId <;>
    cases known : other.services.lookup serviceId <;> simp_all

theorem keys_each (manager : ServiceManager S Context) (order : Table.Order String)
    (change : String → S → Except ProtocolError Unit × S) :
    (manager.each order change).2.services.keys = manager.services.keys :=
  Table.keys_each change _ (order.nodup manager.services.keys) manager.services

variable [Service S Context] (quoted : String → String)

def step (state : Shared S Context) : Action S Context → Shared S Context
  | .setContext context => { state with manager := state.manager.setContext context }
  | .check thread service =>
    match state.checked thread, state.manager.registered service with
    | none, .ok () => { state with checked := Function.update state.checked thread (some service) }
    -- Refused, or the thread is in a registration already.
    | _, _ => state
  | .insert thread =>
    match state.checked thread with
    | some service =>
      { manager := state.manager.insert service
        checked := Function.update state.checked thread none }
    | none => state
  | .unregisterService serviceId =>
    { state with manager := (state.manager.unregisterService serviceId).2 }
  | .initAll order => { state with manager := (state.manager.initAll quoted order).2 }
  | .startAll order => { state with manager := (state.manager.startAll quoted order).2 }
  | .stopAll order => { state with manager := (state.manager.stopAll order).2 }
  | .handleRequest request => { state with manager := (state.manager.handleRequest request).2 }
  | .broadcastEvent order event =>
    { state with manager := (state.manager.broadcastEvent order event).2 }

def run (history : List (Action S Context)) : Shared S Context := history.foldl (step quoted) new

def view (state : Shared S Context) : CheckThenAct.State String Unit Nat where
  held serviceId := (state.manager.services.lookup serviceId).map fun _ => ()
  pending thread := (state.checked thread).map fun service => (Service.serviceId service, ())

def label : Action S Context → CheckThenAct.Step String Unit Nat
  | .check thread service => .look thread (Service.serviceId service) ()
  | .insert thread => .act thread
  | .unregisterService serviceId => .erase fun other => other = serviceId
  | _ => .erase fun _ => false

theorem keys_initAll (order : Table.Order String) (manager : ServiceManager S Context) :
    (manager.initAll quoted order).2.services.keys = manager.services.keys := by
  rw [ServiceManager.initAll]
  split
  next => rfl
  next => exact keys_each manager order _

theorem keys_handleRequest (manager : ServiceManager S Context) (request : ServiceRequest) :
    (manager.handleRequest request).2.services.keys = manager.services.keys := by
  rw [ServiceManager.handleRequest]
  split
  next service found =>
    have member := Finmap.mem_keys.mpr (Finmap.mem_of_lookup_eq_some found)
    rw [Table.keys_insert, Finset.insert_eq_of_mem member]
  next => rfl

theorem view_idle (state : Shared S Context) (manager : ServiceManager S Context)
    (same : manager.services.keys = state.manager.services.keys) :
    ({ state with manager := manager } : Shared S Context).view =
      CheckThenAct.step state.view (.erase fun _ => false) := by
  simp [view, CheckThenAct.step, held_of_keys state.manager manager same]

theorem view_check (state : Shared S Context) (thread : Nat) (service : S) :
    (state.step quoted (.check thread service)).view =
      CheckThenAct.step state.view (.look thread (Service.serviceId service) ()) := by
  cases busy : state.checked thread with
  | some other => simp [step, view, CheckThenAct.step, busy]
  | none =>
    cases found : state.manager.services.lookup (Service.serviceId service) with
    | some other =>
      have taken := Finmap.mem_of_lookup_eq_some found
      simp [step, view, CheckThenAct.step, busy, found, ServiceManager.registered, taken]
    | none =>
      have absent := Finmap.lookup_eq_none.mp found
      simp only [step, view, CheckThenAct.step, busy, found, ServiceManager.registered, absent,
        if_false, Option.map_none, and_self, if_true]
      ext1
      next => rfl
      next => exact map_update _ state.checked thread (some service)

theorem view_insert (state : Shared S Context) (thread : Nat) :
    (state.step quoted (.insert thread)).view = CheckThenAct.step state.view (.act thread) := by
  cases waiting : state.checked thread with
  | none => simp [step, view, CheckThenAct.step, waiting]
  | some service =>
    simp only [step, view, CheckThenAct.step, waiting, Option.map_some, ServiceManager.insert]
    ext1
    next =>
      have inserted :=
        Table.lookup_insert state.manager.services (Service.serviceId service) service
      simp only [funext_iff] at inserted
      simp only [inserted]
      exact map_update _ _ _ (some service)
    next => exact map_update _ state.checked thread none

theorem view_unregister (state : Shared S Context) (serviceId : String) :
    (state.step quoted (.unregisterService serviceId)).view =
      CheckThenAct.step state.view (.erase fun other => other = serviceId) := by
  simp only [step, view, CheckThenAct.step, ServiceManager.unregisterService]
  ext1
  next =>
    funext other
    by_cases here : other = serviceId
    next =>
      subst here
      by_cases present : other ∈ state.manager.services
      next => simp [present]
      next => simp [present, Finmap.lookup_eq_none.mpr present]
    next => split <;> simp [here]
  next => rfl

theorem view_step (state : Shared S Context) (action : Action S Context) :
    (state.step quoted action).view = CheckThenAct.step state.view (label action) := by
  cases action with
  | setContext context => exact view_idle state _ rfl
  | check thread service => exact view_check quoted state thread service
  | insert thread => exact view_insert quoted state thread
  | unregisterService serviceId => exact view_unregister quoted state serviceId
  | initAll order => exact view_idle state _ (keys_initAll quoted order state.manager)
  | startAll order => exact view_idle state _ (keys_each state.manager order _)
  | stopAll order => exact view_idle state _ (keys_each state.manager order _)
  | handleRequest request => exact view_idle state _ (keys_handleRequest state.manager request)
  | broadcastEvent order event => exact view_idle state _ (keys_each state.manager order _)

theorem view_run (history : List (Action S Context)) :
    (run quoted history).view =
      CheckThenAct.run (new : Shared S Context).view (history.map label) := by
  induction history using List.reverseRecOn with
  | nil => rfl
  | append_singleton history action ih =>
    rw [List.map_append, List.map_singleton, CheckThenAct.run_concat, ← ih, ← view_step quoted]
    exact congrArg view (List.foldl_concat _ _ _ _)

theorem mem_services_iff (state : Shared S Context) (serviceId : String) :
    serviceId ∈ state.manager.services ↔ state.view.held serviceId ≠ none := by
  rw [← Finmap.lookup_isSome]
  cases found : state.manager.services.lookup serviceId <;> simp [view, found]

theorem pending_eq_some (state : Shared S Context) (thread : Nat) (serviceId : String) :
    state.view.pending thread = some (serviceId, ()) ↔
      ∃ service, state.checked thread = some service ∧ Service.serviceId service = serviceId := by
  cases waiting : state.checked thread <;> simp [view, waiting]

def Inserts (state : Shared S Context) (serviceId : String) : Action S Context → Prop
  | .insert thread =>
    ∃ service, state.checked thread = some service ∧ Service.serviceId service = serviceId
  | _ => False

theorem inserts_iff (state : Shared S Context) (serviceId : String) (action : Action S Context) :
    state.Inserts serviceId action ↔
      ∃ value, CheckThenAct.Fills state.view serviceId value (label action) := by
  cases action with
  | insert thread =>
    have waiting := pending_eq_some state thread serviceId
    simpa [Inserts, label, CheckThenAct.Fills, Unique.exists_iff] using waiting.symm
  | _ => simp [Inserts, label, CheckThenAct.Fills]

theorem erases_label_iff (serviceId : String) (action : Action S Context) :
    CheckThenAct.Erases serviceId (label action) ↔ action = .unregisterService serviceId := by
  cases action with
  | unregisterService other => simp [label, CheckThenAct.Erases, eq_comm]
  | _ => simp [label, CheckThenAct.Erases]

theorem kept_iff (serviceId : String) (actions : List (Action S Context)) :
    (∀ later ∈ actions.map label, ¬ CheckThenAct.Erases serviceId later) ↔
      .unregisterService serviceId ∉ actions := by
  simp only [List.forall_mem_map, erases_label_iff]
  constructor
  next => exact fun others member => others _ member rfl
  next =>
    rintro absent action member rfl
    exact absent member

theorem split_map (actions : List (Action S Context))
    (meets : List (CheckThenAct.Step String Unit Nat) → CheckThenAct.Step String Unit Nat →
      List (CheckThenAct.Step String Unit Nat) → Prop) :
    (∃ front step back, actions.map label = front ++ step :: back ∧ meets front step back) ↔
      ∃ front action back, actions = front ++ action :: back ∧
        meets (front.map label) (label action) (back.map label) := by
  constructor
  next =>
    rintro ⟨front, step, back, split, met⟩
    obtain ⟨before, rest, rfl, rfl, same⟩ := List.map_eq_append_iff.mp split
    obtain ⟨action, after, rfl, rfl, rfl⟩ := List.map_eq_cons_iff.mp same
    exact ⟨before, action, after, rfl, met⟩
  next =>
    rintro ⟨front, action, back, rfl, met⟩
    exact ⟨front.map label, label action, back.map label, by simp, met⟩

theorem registered_iff (history : List (Action S Context)) (serviceId : String) :
    serviceId ∈ (run quoted history).manager.services ↔
      ∃ before action after, history = before ++ action :: after ∧
        (run quoted before).Inserts serviceId action ∧ .unregisterService serviceId ∉ after := by
  rw [mem_services_iff, view_run, CheckThenAct.taken_iff _ _ serviceId rfl]
  rw [split_map history fun before fill after =>
    (∃ value, CheckThenAct.Fills (CheckThenAct.run (new : Shared S Context).view before)
      serviceId value fill) ∧ ∀ later ∈ after, ¬ CheckThenAct.Erases serviceId later]
  simp only [← view_run quoted, ← inserts_iff, kept_iff]

theorem checked_step (state : Shared S Context) (action : Action S Context) (thread : Nat)
    (service : S) (checked : (state.step quoted action).checked thread = some service) :
    (action = .check thread service ∧ state.checked thread = none ∧
      Service.serviceId service ∉ state.manager.services) ∨
    (state.checked thread = some service ∧ action ≠ .insert thread) := by
  cases action with
  | check other checking =>
    simp only [step] at checked
    split at checked
    next free passed =>
      by_cases here : thread = other
      next =>
        subst here
        simp only [Function.update_self] at checked
        obtain rfl := Option.some.inj checked
        rw [ServiceManager.registered] at passed
        split at passed
        next => cases passed
        next absent => exact .inl ⟨rfl, free, absent⟩
      next =>
        simp only [Function.update_of_ne here] at checked
        exact .inr ⟨checked, by simp⟩
    next => exact .inr ⟨checked, by simp⟩
  | insert other =>
    simp only [step] at checked
    split at checked
    next waiting found =>
      by_cases here : thread = other
      next =>
        subst here
        simp at checked
      next =>
        simp only [Function.update_of_ne here] at checked
        have apart : other ≠ thread := fun same => here same.symm
        exact .inr ⟨checked, by simpa using apart⟩
    next idle =>
      refine .inr ⟨checked, ?_⟩
      intro same
      rw [Action.insert.inj same, checked] at idle
      cases idle
  | _ => exact .inr ⟨checked, by simp⟩

theorem checked_split (history : List (Action S Context)) (thread : Nat) (service : S)
    (checked : (run quoted history).checked thread = some service) :
    ∃ before middle, history = before ++ .check thread service :: middle ∧
      (run quoted before).checked thread = none ∧
      Service.serviceId service ∉ (run quoted before).manager.services ∧
      .insert thread ∉ middle := by
  induction history using List.reverseRecOn with
  | nil => cases checked
  | append_singleton history action ih =>
    have concat : run quoted (history ++ [action]) = (run quoted history).step quoted action :=
      List.foldl_concat _ _ _ _
    rw [concat] at checked
    rcases checked_step quoted _ action thread service checked with
      ⟨rfl, idle, absent⟩ | ⟨earlier, other⟩
    next => exact ⟨history, [], rfl, idle, absent, by simp⟩
    next =>
      obtain ⟨before, middle, split, idle, absent, waits⟩ := ih earlier
      refine ⟨before, middle ++ [action], by rw [split]; simp, idle, absent, ?_⟩
      intro member
      rcases List.mem_append.mp member with older | newest
      next => exact waits older
      next => exact other (List.mem_singleton.mp newest).symm

theorem registration_displaces_iff (history : List (Action S Context)) (thread : Nat) (service : S)
    (checked : (run quoted history).checked thread = some service) :
    Service.serviceId service ∈ (run quoted history).manager.services ↔
      ∃ before middle front action back,
        history = before ++ .check thread service :: middle ∧
        (run quoted before).checked thread = none ∧ .insert thread ∉ middle ∧
        middle = front ++ action :: back ∧
        (run quoted (before ++ .check thread service :: front)).Inserts
          (Service.serviceId service) action ∧
        .unregisterService (Service.serviceId service) ∉ back := by
  constructor
  next =>
    obtain ⟨before, middle, split, idle, absent, waits⟩ :=
      checked_split quoted history thread service checked
    intro displaced
    have found : CheckThenAct.LastLook (new : Shared S Context).view (history.map label) thread
        (Service.serviceId service) () (before.map label) (middle.map label) := by
      refine ⟨by rw [split, List.map_append, List.map_cons]; rfl, ?_, ?_, ?_⟩
      next =>
        rw [← view_run quoted]
        simp [view, idle]
      next =>
        rw [← view_run quoted]
        exact not_not.mp (mt (mem_services_iff _ _).mpr absent)
      next =>
        rw [List.mem_map]
        rintro ⟨action, member, acts⟩
        cases action with
        | insert other =>
          obtain rfl := CheckThenAct.Step.act.inj acts
          exact waits member
        | _ => cases acts
    rw [mem_services_iff, view_run, found.taken_iff, split_map middle fun front fill back =>
      (∃ value, CheckThenAct.Fills (CheckThenAct.run (new : Shared S Context).view
          (before.map label ++ .look thread (Service.serviceId service) () :: front))
        (Service.serviceId service) value fill) ∧
        ∀ later ∈ back, ¬ CheckThenAct.Erases (Service.serviceId service) later] at displaced
    obtain ⟨front, action, back, parts, fills, kept⟩ := displaced
    refine ⟨before, middle, front, action, back, split, idle, waits, parts, ?_,
      (kept_iff _ back).mp kept⟩
    rw [inserts_iff, view_run, List.map_append, List.map_cons]
    exact fills
  next =>
    rintro ⟨before, middle, front, action, back, rfl, _, _, rfl, inserts, kept⟩
    rw [registered_iff]
    exact ⟨before ++ .check thread service :: front, action, back, by simp, inserts, kept⟩

end Shared

structure TestService where
  serviceId : String
  deriving DecidableEq

instance : Service TestService Unit where
  serviceId := TestService.serviceId
  init service _ := (.ok (), service)
  start service := (.ok (), service)
  stop service := (.ok (), service)
  handleRequest service request :=
    (.ok ⟨request.requestId, .success, [0x4F, 0x4B], "", fun _ => none⟩, service)
  handleEvent service _ := (.ok (), service)

def bothChecked : List (Action TestService Unit) :=
  [.check 0 ⟨"test.service"⟩, .check 1 ⟨"test.service"⟩, .insert 0]

theorem registration_displaces_iff_both :
    "test.service" ∈ (Shared.run id bothChecked).manager.services :=
  (Shared.registration_displaces_iff id bothChecked 1 ⟨"test.service"⟩ (by decide)).mpr
    ⟨[.check 0 ⟨"test.service"⟩], [.insert 0], [], .insert 0, [], rfl, rfl, by simp, rfl,
      ⟨⟨"test.service"⟩, by decide, rfl⟩, by simp⟩

end BitDrive.Framework
