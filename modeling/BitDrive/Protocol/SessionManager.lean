import BitDrive.Protocol.KeepaliveTasks
import BitDrive.Shared.ByteLayout
import BitDrive.Shared.Since
import Mathlib.Data.List.Induction

set_option autoImplicit false

namespace BitDrive

open ByteLayout

def SessionStep.isElapse : SessionStep → Bool
  | .elapse _ => true
  | _ => false

structure SessionManagerConfig where
  sessionTimeout : Nat

-- A session is known by its place among all that were created.
structure SessionManager where
  config : SessionManagerConfig
  now : Nat
  arcs : List SessionTasks
  sessions : Bytes → Option Nat
  creating : List Nat
  -- All that was sent. The channel itself keeps the latest 100 for its receivers.
  events : List SessionEvent

inductive ManagerStep where
  | elapse (units : Nat)
  | create (draw : FixedBytes 16)
  | announce (session : Nat)
  | remove (sessionId : Bytes)
  | use (session : Nat) (step : SessionStep)

namespace SessionManager

def new (config : SessionManagerConfig) (now : Nat) : SessionManager where
  config := config
  now := now
  arcs := []
  sessions _ := none
  creating := []
  events := []

def getSession (manager : SessionManager) (sessionId : Bytes) : Option Nat :=
  manager.sessions sessionId

def newSession (manager : SessionManager) (draw : FixedBytes 16) : LiveSession where
  txSequence := 0
  config := { sessionId := draw.val, sessionTimeout := manager.config.sessionTimeout }
  state := .opening
  lastActivity := manager.now
  events := []

-- `create_session` up to the insertion, which replaces a session of the same id.
def insertSession (manager : SessionManager) (draw : FixedBytes 16) : SessionManager :=
  { manager with
    arcs := manager.arcs ++ [.opened (manager.newSession draw) manager.now]
    sessions := Function.update manager.sessions draw.val (some manager.arcs.length)
    creating := manager.creating ++ [manager.arcs.length] }

def sendOpened (manager : SessionManager) (session : Nat) : SessionManager :=
  if session ∈ manager.creating then
    match manager.arcs[session]? with
    | some tasks =>
      { manager with
        creating := manager.creating.erase session
        events := manager.events ++
          [{ sessionId := tasks.session.config.sessionId
             eventType := .opened
             timestamp := manager.now
             message := "Session opened"
             details := [] }] }
    | none => manager
  else manager

def removeSession (manager : SessionManager) (sessionId : Bytes) : SessionManager :=
  { manager with sessions := Function.update manager.sessions sessionId none }

def useSession (manager : SessionManager) (session : Nat) (step : SessionStep) : SessionManager :=
  match manager.arcs[session]? with
  | some tasks =>
    let later := tasks.step step
    { manager with
      arcs := manager.arcs.set session later
      events := manager.events ++ later.session.events.drop tasks.session.events.length }
  | none => manager

def step (manager : SessionManager) : ManagerStep → SessionManager
  | .elapse units =>
    { manager with
      now := manager.now + units
      arcs := manager.arcs.map fun tasks => tasks.step (.elapse units) }
  | .create draw => manager.insertSession draw
  | .announce session => manager.sendOpened session
  | .remove sessionId => manager.removeSession sessionId
  | .use session step =>
    -- Time goes on for all sessions at once.
    if step.isElapse then manager else manager.useSession session step

def run (manager : SessionManager) (steps : List ManagerStep) : SessionManager :=
  steps.foldl step manager

theorem run_append (manager : SessionManager) (front back : List ManagerStep) :
    manager.run (front ++ back) = (manager.run front).run back := List.foldl_append

end SessionManager

def ManagerStep.seenBy (index : Nat) : ManagerStep → Option SessionStep
  | .elapse units => some (.elapse units)
  | .use session step => if session = index ∧ step.isElapse = false then some step else none
  | _ => none

def ManagerStep.Touches (sessionId : Bytes) : ManagerStep → Prop
  | .create draw => draw.val = sessionId
  | .remove removed => removed = sessionId
  | _ => False

namespace SessionManager

theorem step_seen (manager : SessionManager) (step : ManagerStep) (index : Nat)
    (tasks : SessionTasks) (there : manager.arcs[index]? = some tasks) :
    (manager.step step).arcs[index]? = some ((step.seenBy index).elim tasks tasks.step) := by
  have inside : index < manager.arcs.length := (List.getElem?_eq_some_iff.mp there).1
  have used (session : Nat) (step : SessionStep) :
      (manager.useSession session step).arcs[index]? =
        some (if session = index then tasks.step step else tasks) := by
    rw [useSession]
    by_cases here : session = index
    next =>
      subst here
      simp only [there, if_true]
      exact List.getElem?_set_self inside
    next =>
      rw [if_neg here]
      cases found : manager.arcs[session]? with
      | none => exact there
      | some other => rwa [List.getElem?_set_ne here]
  cases step with
  | elapse units => simp [SessionManager.step, ManagerStep.seenBy, there]
  | create draw =>
    simp only [SessionManager.step, insertSession, ManagerStep.seenBy, Option.elim_none]
    rwa [List.getElem?_append_left inside]
  | announce session =>
    simp only [SessionManager.step, sendOpened, ManagerStep.seenBy, Option.elim_none]
    split
    next =>
      split
      next => exact there
      next => exact there
    next => exact there
  | remove sessionId => exact there
  | use session step =>
    cases timed : step.isElapse with
    | true => simpa [SessionManager.step, ManagerStep.seenBy, timed] using there
    | false =>
      simp only [SessionManager.step, ManagerStep.seenBy, timed, and_true, Bool.false_eq_true,
        if_false, used]
      by_cases here : session = index <;> simp [here]

theorem run_seen (manager : SessionManager) (steps : List ManagerStep) (index : Nat)
    (tasks : SessionTasks) (there : manager.arcs[index]? = some tasks) :
    (manager.run steps).arcs[index]? =
      some (tasks.run (steps.filterMap (ManagerStep.seenBy index))) := by
  induction steps generalizing manager tasks with
  | nil => exact there
  | cons step steps ih =>
    have next := ih (manager.step step) _ (manager.step_seen step index tasks there)
    cases seen : step.seenBy index with
    | none =>
      rw [List.filterMap_cons_none seen]
      rwa [seen, Option.elim_none] at next
    | some made =>
      rw [List.filterMap_cons_some seen]
      rwa [seen, Option.elim_some] at next

theorem step_sessions (manager : SessionManager) (step : ManagerStep) (sessionId : Bytes)
    (apart : ¬ step.Touches sessionId) :
    (manager.step step).sessions sessionId = manager.sessions sessionId := by
  cases step with
  | elapse units => rfl
  | create draw => exact Function.update_of_ne (fun same => apart same.symm) _ _
  | announce session =>
    simp only [SessionManager.step, sendOpened]
    split
    next =>
      split
      next => rfl
      next => rfl
    next => rfl
  | remove removed => exact Function.update_of_ne (fun same => apart same.symm) _ _
  | use session step =>
    simp only [SessionManager.step, useSession]
    split
    next => rfl
    next =>
      split
      next => rfl
      next => rfl

def LastCreated (start : SessionManager) (sessionId : Bytes) (index : Nat)
    (steps : List ManagerStep) : Prop :=
  Since (fun before step => (start.run before).arcs.length = index ∧
    ∃ draw, step = .create draw ∧ draw.val = sessionId) (fun step => ¬ step.Touches sessionId) steps

theorem getSession_iff (config : SessionManagerConfig) (now : Nat) (sessionId : Bytes)
    (index : Nat) (steps : List ManagerStep) :
    ((new config now).run steps).getSession sessionId = some index ↔
      LastCreated (new config now) sessionId index steps := by
  induction steps using List.reverseRecOn with
  | nil => exact iff_of_false nofun (not_since_nil _ _)
  | append_singleton steps step ih =>
    rw [LastCreated, since_concat, ← LastCreated, ← ih, run_append]
    generalize (new config now).run steps = manager
    change (manager.step step).sessions sessionId = some index ↔ _
    by_cases touches : step.Touches sessionId
    next =>
      cases step with
      | create draw =>
        have same : draw.val = sessionId := touches
        subst same
        simp [SessionManager.step, insertSession, ManagerStep.Touches]
      | remove removed =>
        have same : removed = sessionId := touches
        subst same
        simp [SessionManager.step, removeSession, ManagerStep.Touches]
      | elapse units => exact touches.elim
      | announce session => exact touches.elim
      | use session step => exact touches.elim
    next =>
      rw [manager.step_sessions step sessionId touches]
      constructor
      next => exact fun found => .inl ⟨found, touches⟩
      next =>
        rintro (⟨found, _⟩ | ⟨_, draw, rfl, same⟩)
        next => exact found
        next => exact absurd same touches

end SessionManager

structure SessionEvent.Of (config : SessionConfig) (event : SessionEvent) : Prop where
  sessionId : event.sessionId = config.sessionId
  later : event.eventType ≠ .opened

structure LiveSession.Sends (session later : LiveSession) (sent : List SessionEvent) : Prop where
  config : later.config = session.config
  events : later.events = session.events ++ sent
  own : ∀ event ∈ sent, event.Of session.config

theorem LiveSession.Sends.nothing {session later : LiveSession}
    (config : later.config = session.config) (events : later.events = session.events) :
    session.Sends later [] :=
  ⟨config, by rw [events, List.append_nil], nofun⟩

theorem LiveSession.report_sends (session : LiveSession) (eventType : SessionEventType) (now : Nat)
    (message : String) (later : eventType ≠ .opened) :
    ∃ sent, session.Sends (session.report eventType now message) sent := by
  refine ⟨_, rfl, rfl, ?_⟩
  intro event member
  rw [List.mem_singleton.mp member]
  exact ⟨rfl, later⟩

theorem TaskMoves.sends {session later : LiveSession} {now : Nat} {before after : Stage}
    (moves : TaskMoves session now before after later) : ∃ sent, session.Sends later sent := by
  cases moves with
  | reported => exact session.report_sends .keepaliveTimeout now "Keepalive timeout" nofun
  | _ => exact ⟨[], .nothing rfl rfl⟩

theorem SessionTasks.step_sends (tasks : SessionTasks) (step : SessionStep) :
    ∃ sent, tasks.session.Sends (tasks.step step).session sent := by
  cases step with
  | announceClosed message =>
    exact tasks.session.report_sends .closed tasks.now message nofun
  | proceed index due =>
    simp only [SessionTasks.step, SessionTasks.proceed]
    split
    next => exact ⟨[], .nothing rfl rfl⟩
    next task found =>
      exact (task.proceed_moves tasks.session tasks.now due).1.sends
  | store task =>
    simp only [SessionTasks.step]
    split
    next => exact ⟨[], .nothing rfl rfl⟩
    next => exact ⟨[], .nothing rfl rfl⟩
  | takeHandle =>
    simp only [SessionTasks.step]
    split
    next => exact ⟨[], .nothing rfl rfl⟩
    next => exact ⟨[], .nothing rfl rfl⟩
  | _ => exact ⟨[], .nothing rfl rfl⟩

namespace SessionManager

def sessionId? (manager : SessionManager) (index : Nat) : Option Bytes :=
  manager.arcs[index]?.map fun tasks => tasks.session.config.sessionId

def eventsOf (manager : SessionManager) (sessionId : Bytes) : List SessionEvent :=
  manager.events.filter fun event => event.sessionId = sessionId ∧ event.eventType ≠ .opened

structure Tells (manager : SessionManager) : Prop where
  known : ∀ event ∈ manager.events, ∃ index, manager.sessionId? index = some event.sessionId
  told : ∀ index tasks, manager.arcs[index]? = some tasks →
    (∀ other, manager.sessionId? other = some tasks.session.config.sessionId → other = index) →
    manager.eventsOf tasks.session.config.sessionId = tasks.session.events

theorem new_tells (config : SessionManagerConfig) (now : Nat) : (new config now).Tells where
  known := nofun
  told := nofun

theorem sessionId?_of_some {manager : SessionManager} {index : Nat} {tasks : SessionTasks}
    (there : manager.arcs[index]? = some tasks) :
    manager.sessionId? index = some tasks.session.config.sessionId := by
  rw [sessionId?, there, Option.map_some]

theorem lt_of_sessionId? {manager : SessionManager} {index : Nat} {sessionId : Bytes}
    (there : manager.sessionId? index = some sessionId) : index < manager.arcs.length := by
  obtain ⟨tasks, found, _⟩ := Option.map_eq_some_iff.mp there
  exact (List.getElem?_eq_some_iff.mp found).1

theorem Tells.create {manager : SessionManager} (tells : manager.Tells) (draw : FixedBytes 16) :
    (manager.insertSession draw).Tells := by
  have older (index : Nat) (sessionId : Bytes)
      (there : manager.sessionId? index = some sessionId) :
      (manager.insertSession draw).sessionId? index = some sessionId := by
    rw [sessionId?, insertSession, List.getElem?_append_left (lt_of_sessionId? there)]
    exact there
  constructor
  next =>
    intro event member
    obtain ⟨index, there⟩ := tells.known event member
    exact ⟨index, older index _ there⟩
  next =>
    intro index tasks there alone
    rcases Nat.lt_or_ge index manager.arcs.length with inside | beyond
    next =>
      rw [insertSession, List.getElem?_append_left inside] at there
      exact tells.told index tasks there fun other same => alone other (older other _ same)
    next =>
      -- Nobody sent anything under the new id.
      have fresh (event : SessionEvent) (member : event ∈ manager.events) :
          event.sessionId ≠ tasks.session.config.sessionId := by
        intro same
        obtain ⟨other, known⟩ := tells.known event member
        rw [same] at known
        have here := alone other (older other _ known)
        have before := lt_of_sessionId? known
        omega
      rw [insertSession, List.getElem?_append_right beyond] at there
      obtain rfl := List.mem_singleton.mp (List.mem_of_getElem? there)
      exact List.filter_eq_nil_iff.mpr fun event member => by
        simpa using fun same => absurd same (fresh event member)

theorem Tells.announce {manager : SessionManager} (tells : manager.Tells) (session : Nat) :
    (manager.sendOpened session).Tells := by
  rw [sendOpened]
  split
  next =>
    split
    next tasks found =>
      constructor
      next =>
        intro event member
        rcases List.mem_append.mp member with older | newest
        next => exact tells.known event older
        next =>
          rw [List.mem_singleton.mp newest]
          exact ⟨session, sessionId?_of_some found⟩
      next =>
        intro index other there alone
        have told := tells.told index other there alone
        simpa [eventsOf, List.filter_append] using told
    next => exact tells
  next => exact tells

theorem Tells.replace {manager : SessionManager} (tells : manager.Tells) (session : Nat)
    (tasks later : SessionTasks) (found : manager.arcs[session]? = some tasks)
    (sent : List SessionEvent) (sends : tasks.session.Sends later.session sent) :
    Tells { manager with
      arcs := manager.arcs.set session later
      events := manager.events ++ sent } := by
  obtain ⟨config, events, own⟩ := sends
  have inside : session < manager.arcs.length := (List.getElem?_eq_some_iff.mp found).1
  have same (index : Nat) :
      ((manager.arcs.set session later)[index]?.map fun tasks => tasks.session.config.sessionId) =
        manager.sessionId? index := by
    by_cases here : session = index
    next =>
      subst here
      rw [List.getElem?_set_self inside, Option.map_some, config, sessionId?_of_some found]
    next => rw [List.getElem?_set_ne here, sessionId?]
  constructor
  next =>
    intro event member
    rcases List.mem_append.mp member with older | newest
    next =>
      obtain ⟨index, there⟩ := tells.known event older
      exact ⟨index, (same index).trans there⟩
    next => exact ⟨session, by rw [sessionId?, same, sessionId?_of_some found,
        (own event newest).sessionId]⟩
  next =>
    intro index other there alone
    simp only [sessionId?, same] at alone
    have told (tasks : SessionTasks) (there : manager.arcs[index]? = some tasks)
        (equal : other.session.config = tasks.session.config) :
        manager.eventsOf other.session.config.sessionId = tasks.session.events := by
      rw [equal] at alone ⊢
      exact tells.told index tasks there alone
    rw [eventsOf, List.filter_append, ← eventsOf]
    by_cases here : session = index
    next =>
      subst here
      rw [List.getElem?_set_self inside, Option.some.injEq] at there
      subst there
      have all : ∀ event ∈ sent, event.sessionId = later.session.config.sessionId ∧
          event.eventType ≠ .opened := by
        intro event member
        rw [config]
        exact ⟨(own event member).sessionId, (own event member).later⟩
      rw [told tasks found config, events, List.filter_eq_self.mpr (by simpa using all)]
    next =>
      rw [List.getElem?_set_ne here] at there
      have none_of : ∀ event ∈ sent, event.sessionId ≠ other.session.config.sessionId := by
        intro event member bears
        rw [(own event member).sessionId] at bears
        exact here (alone session ((sessionId?_of_some found).trans (congrArg some bears)))
      have nothing : sent.filter (fun event =>
          event.sessionId = other.session.config.sessionId ∧ event.eventType ≠ .opened) = [] :=
        List.filter_eq_nil_iff.mpr fun event member => by simp [none_of event member]
      rw [told other there rfl, nothing, List.append_nil]

theorem Tells.use {manager : SessionManager} (tells : manager.Tells) (session : Nat)
    (step : SessionStep) : (manager.useSession session step).Tells := by
  rw [useSession]
  cases found : manager.arcs[session]? with
  | none => exact tells
  | some tasks =>
    obtain ⟨sent, sends⟩ := tasks.step_sends step
    have after := tells.replace session tasks (tasks.step step) found sent sends
    simpa only [sends.events, List.drop_left] using after

theorem Tells.elapse {manager : SessionManager} (tells : manager.Tells) (units : Nat) :
    (manager.step (.elapse units)).Tells := by
  have same (index : Nat) :
      (manager.step (.elapse units)).sessionId? index = manager.sessionId? index := by
    simp only [sessionId?, step, List.getElem?_map, Option.map_map]
    rfl
  constructor
  next =>
    intro event member
    obtain ⟨index, there⟩ := tells.known event member
    exact ⟨index, (same index).trans there⟩
  next =>
    intro index tasks there alone
    simp only [step, List.getElem?_map, Option.map_eq_some_iff] at there
    obtain ⟨before, found, rfl⟩ := there
    exact tells.told index before found fun other bears => alone other ((same other).trans bears)

theorem Tells.step {manager : SessionManager} (tells : manager.Tells) (step : ManagerStep) :
    (manager.step step).Tells := by
  cases step with
  | elapse units => exact tells.elapse units
  | create draw => exact tells.create draw
  | announce session => exact tells.announce session
  | remove sessionId => exact ⟨tells.known, tells.told⟩
  | use session step =>
    simp only [SessionManager.step]
    split
    next => exact tells
    next => exact tells.use session step

theorem run_tells (config : SessionManagerConfig) (now : Nat) (steps : List ManagerStep) :
    ((new config now).run steps).Tells := by
  induction steps using List.reverseRecOn with
  | nil => exact new_tells config now
  | append_singleton steps step ih =>
    rw [run_append]
    exact ih.step step

theorem session_manager_history (config : SessionManagerConfig) (now : Nat)
    (steps : List ManagerStep) :
    let start := new config now
    let final := start.run steps
    (∀ before draw after, steps = before ++ .create draw :: after →
      let manager := start.run before
      let index := manager.arcs.length
      final.arcs[index]? = some ((SessionTasks.opened (manager.newSession draw) manager.now).run
        (after.filterMap (ManagerStep.seenBy index)))) ∧
    (∀ sessionId index, final.getSession sessionId = some index ↔
      LastCreated start sessionId index steps) ∧
    ∀ index tasks, final.arcs[index]? = some tasks →
      (∀ other, final.sessionId? other = some tasks.session.config.sessionId → other = index) →
      final.eventsOf tasks.session.config.sessionId = tasks.session.events := by
  intro start final
  refine ⟨?_, fun sessionId index => getSession_iff config now sessionId index steps,
    (run_tells config now steps).told⟩
  rintro before draw after rfl manager index
  have created : (manager.step (.create draw)).arcs[index]? =
      some (.opened (manager.newSession draw) manager.now) := by
    simp [step, insertSession, index]
  have later := (manager.step (.create draw)).run_seen after index _ created
  rw [← later]
  simp only [final, run_append]
  rfl

end SessionManager

end BitDrive
