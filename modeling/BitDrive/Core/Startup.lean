import BitDrive.Core.Lifecycle

set_option autoImplicit false

namespace BitDrive.Core

structure Watched (S : Type) where
  service : S
  started : Bool
  deriving DecidableEq

section

variable {S Context : Type} [Service S Context]

instance : Service (Watched S) Context where
  serviceId watched := Service.serviceId watched.service
  init watched context :=
    let (result, service) := Service.init watched.service context
    (result, { watched with service := service })
  start watched :=
    match Service.start watched.service with
    | (.ok (), service) => (.ok (), ⟨service, true⟩)
    | (.error failure, service) => (.error failure, { watched with service := service })
  stop watched :=
    let (result, service) := Service.stop watched.service
    (result, ⟨service, false⟩)
  handleRequest watched request :=
    let (result, service) := Service.handleRequest watched.service request
    (result, { watched with service := service })
  handleEvent watched event :=
    let (result, service) := Service.handleEvent watched.service event
    (result, { watched with service := service })

end

namespace ServiceManager

variable {S Context : Type}

structure AllStarted (before after : ServiceManager (Watched S) Context) : Prop where
  running : after.isRunning = true
  started : ∀ serviceId ∈ before.services, ∃ boxed,
    after.services.lookup serviceId = some boxed ∧ boxed.service.started = true

structure NoneStarted (before after : ServiceManager (Watched S) Context) : Prop where
  running : after.isRunning = false
  started : ∀ serviceId boxed, after.services.lookup serviceId = some boxed →
    boxed.service.started = true →
    ∃ old, before.services.lookup serviceId = some old ∧ old.service.started = true

variable [Service S Context] (quoted : String → String) (order : Table.Order String)

def AllOrNothing (manager : ServiceManager (Watched S) Context) : Prop :=
  match manager.startAll quoted order with
  | (.ok (), after) => manager.AllStarted after
  | (.error (.failed _), after) => manager.NoneStarted after
  -- The call returns neither `Ok` nor `Err`.
  | (.error .blocked, _) => False

theorem startAll_outcome (manager : ServiceManager S Context) :
    let running := { manager with running := true }
    manager.services = ∅ ∧ manager.startAll quoted order = (.ok (), running) ∨
      ∃ id rest boxed, manager.listServices order = id :: rest ∧
        manager.services.lookup id = some boxed ∧
        manager.startAll quoted order =
          (.error (halt quoted "start" id (Service.start boxed.service).1),
            (running.take id).2) :=
  visit_callLocked quoted "start" order { manager with running := true } fun boxed =>
    Service.start boxed.service

theorem not_allOrNothing_halted (manager : ServiceManager (Watched S) Context) (id : String)
    (halted : Halt)
    (result : manager.startAll quoted order =
      (.error halted, ({ manager with running := true }.take id).2)) :
    ¬ manager.AllOrNothing quoted order := by
  rw [AllOrNothing, result]
  cases halted with
  | blocked => exact not_false
  | failed error =>
    intro nothing
    have lowered : true = false := nothing.running
    cases lowered

theorem start_all_or_nothing_iff (manager : ServiceManager (Watched S) Context) :
    manager.AllOrNothing quoted order ↔ manager.services = ∅ := by
  rcases startAll_outcome quoted order manager with
    ⟨nobody, done⟩ | ⟨id, rest, boxed, _, present, halted⟩
  next =>
    refine iff_of_true ?_ nobody
    rw [AllOrNothing, done]
    refine ⟨rfl, ?_⟩
    intro serviceId member
    rw [nobody] at member
    exact absurd member Finmap.notMem_empty
  next =>
    refine iff_of_false (not_allOrNothing_halted quoted order manager id _ halted) ?_
    intro nobody
    rw [nobody, Finmap.lookup_empty] at present
    cases present

end ServiceManager

structure FragileService where
  serviceId : String
  fails : Bool
  deriving DecidableEq

instance : Service FragileService Unit where
  serviceId := FragileService.serviceId
  init service _ := (.ok (), service)
  start service := (if service.fails then .error (.config "no adapter") else .ok (), service)
  stop service := (.ok (), service)
  handleRequest service request := (.ok (.success request.requestId []), service)
  handleEvent service _ := (.ok (), service)

def fragile : ServiceManager (Watched FragileService) Unit :=
  (ServiceManager.new.registerService ⟨0, ⟨⟨"bpl.sync", true⟩, false⟩⟩).2

theorem failed_start_leaves_running : ¬ fragile.AllOrNothing id (.ascending String) := by
  rcases ServiceManager.startAll_outcome id (.ascending String) fragile with
    ⟨nobody, _⟩ | ⟨serviceId, rest, boxed, _, _, halted⟩
  next => exact absurd nobody (by decide)
  next => exact ServiceManager.not_allOrNothing_halted id _ fragile serviceId _ halted

end BitDrive.Core
