import BitDrive.Protocol.Keepalive
import Mathlib.Logic.Function.Iterate

set_option autoImplicit false

namespace BitDrive

inductive Stage where
  | waiting
  | checking
  | sending
  | expiring
  | reporting
  | ended
  deriving DecidableEq

structure KeepaliveTask where
  stage : Stage
  missed : Nat
  aborted : Bool
  deriving DecidableEq

namespace LiveSession

-- The two accesses of `handle_timeout`.
def expire (session : LiveSession) : LiveSession :=
  { session with state := .closing }

def report (session : LiveSession) (eventType : SessionEventType) (now : Nat) (message : String) :
    LiveSession :=
  { session with
    events := session.events ++
      [{ sessionId := session.config.sessionId
         eventType := eventType
         timestamp := now
         message := message
         details := [] }] }

end LiveSession

namespace KeepaliveTask

def spawned : KeepaliveTask where
  stage := .waiting
  missed := 0
  aborted := false

-- A task that is aborted ends where it has to wait, which it need not if a tick is due already.
def proceed (task : KeepaliveTask) (session : LiveSession) (now : Nat) (due : Bool) :
    KeepaliveTask × LiveSession :=
  match task.stage with
  | .waiting =>
    if (task.aborted && !due) || session.state ≠ .active then
      ({ task with stage := .ended }, session)
    else ({ task with stage := .checking }, session)
  | .checking =>
    if session.isAlive now then ({ task with stage := .sending, missed := 0 }, session)
    else if MAX_MISSED ≤ task.missed + 1 then
      ({ task with stage := .expiring, missed := task.missed + 1 }, session)
    else ({ task with stage := .sending, missed := task.missed + 1 }, session)
  | .sending =>
    match session.sendKeepalive with
    | (.ok _, session) => ({ task with stage := .waiting }, session)
    | (.error _, session) =>
      if MAX_MISSED ≤ task.missed + 1 then
        ({ task with stage := .expiring, missed := task.missed + 1 }, session)
      else ({ task with stage := .waiting, missed := task.missed + 1 }, session)
  | .expiring => ({ task with stage := .reporting }, session.expire)
  | .reporting =>
    ({ task with stage := .ended }, session.report .keepaliveTimeout now "Keepalive timeout")
  | .ended => (task, session)

end KeepaliveTask

theorem KeepaliveTask.turn_eq_tick (task : KeepaliveTask) (session : LiveSession) (tick : Tick)
    (waiting : task.stage = .waiting) :
    let step := fun (reached : KeepaliveTask × LiveSession) =>
      reached.1.proceed reached.2 tick.now true
    let ticked := session.keepaliveTick task.missed tick
    ∃ count later, Nat.iterate step count (task, session.found tick) = (later, ticked.2) ∧
      (∀ missed, ticked.1 = .next missed → later = { task with missed := missed }) ∧
      ((∀ missed, ticked.1 ≠ .next missed) → later.stage = .ended) := by
  obtain ⟨stage, missed, aborted⟩ := task
  obtain rfl : stage = .waiting := waiting
  by_cases active : (session.found tick).state = .active
  next =>
    cases alive : (session.found tick).isAlive tick.now with
    | true =>
      refine ⟨3, ⟨.waiting, 0, aborted⟩, ?_, ?_, ?_⟩
      all_goals
        simp [Function.iterate_succ_apply, proceed, LiveSession.keepaliveTick, active, alive,
          LiveSession.sendKeepalive]
    | false =>
      by_cases last : MAX_MISSED ≤ missed + 1
      next =>
        refine ⟨4, ⟨.ended, missed + 1, aborted⟩, ?_, ?_, ?_⟩
        all_goals
          simp [Function.iterate_succ_apply, proceed, LiveSession.keepaliveTick, active, alive,
            last, LiveSession.handleTimeout, LiveSession.expire, LiveSession.report]
      next =>
        refine ⟨3, ⟨.waiting, missed + 1, aborted⟩, ?_, ?_, ?_⟩
        all_goals
          simp [Function.iterate_succ_apply, proceed, LiveSession.keepaliveTick, active, alive,
            last, LiveSession.sendKeepalive]
  next =>
    refine ⟨1, ⟨.ended, missed, aborted⟩, ?_, ?_, ?_⟩
    next => simp [proceed, LiveSession.keepaliveTick, active]
    next => simp [LiveSession.keepaliveTick, active]
    next => simp

structure SessionTasks where
  session : LiveSession
  now : Nat
  tasks : List KeepaliveTask
  keepaliveHandle : Option Nat
  starting : List Nat
  keepalives : Nat

inductive SessionStep where
  | elapse (units : Nat)
  | setState (state : SessionState)
  | touch
  | nextTxSequence
  | spawn
  | store (task : Nat)
  | takeHandle
  | announceClosed (message : String)
  | proceed (task : Nat) (due : Bool)

def stopKeepalive : List SessionStep := [.takeHandle]

namespace SessionTasks

def opened (session : LiveSession) (now : Nat) : SessionTasks where
  session := session
  now := now
  tasks := []
  keepaliveHandle := none
  starting := []
  keepalives := 0

def abortTask (running : SessionTasks) (index : Nat) : SessionTasks :=
  { running with
    tasks := running.tasks.modify index fun task => { task with aborted := true } }

def proceed (running : SessionTasks) (index : Nat) (due : Bool) : SessionTasks :=
  match running.tasks[index]? with
  | none => running
  | some task =>
    let moved := task.proceed running.session running.now due
    { running with
      session := moved.2
      tasks := running.tasks.set index moved.1
      keepalives := running.keepalives + if task.stage = .sending then 1 else 0 }

def step (running : SessionTasks) : SessionStep → SessionTasks
  | .elapse units => { running with now := running.now + units }
  | .setState state => { running with session := { running.session with state := state } }
  | .touch => { running with session := { running.session with lastActivity := running.now } }
  | .nextTxSequence =>
    { running with
      session := { running.session with
        toSession := running.session.toSession.nextTxSequence.2 } }
  | .spawn =>
    { running with
      tasks := running.tasks ++ [.spawned]
      starting := running.starting ++ [running.tasks.length] }
  | .store task =>
    -- Nobody has the handle of a task that is not being started.
    if task ∈ running.starting then
      { running with keepaliveHandle := some task, starting := running.starting.erase task }
    else running
  | .takeHandle =>
    match running.keepaliveHandle with
    | none => running
    | some task => { running.abortTask task with keepaliveHandle := none }
  | .announceClosed message =>
    { running with session := running.session.report .closed running.now message }
  | .proceed task due => running.proceed task due

def run (running : SessionTasks) (steps : List SessionStep) : SessionTasks :=
  steps.foldl step running

@[simp] theorem run_nil (running : SessionTasks) : running.run [] = running := rfl

@[simp] theorem run_cons (running : SessionTasks) (step : SessionStep) (steps : List SessionStep) :
    running.run (step :: steps) = (running.step step).run steps := rfl

theorem run_append (running : SessionTasks) (front back : List SessionStep) :
    running.run (front ++ back) = (running.run front).run back := by
  simp [run, List.foldl_append]

end SessionTasks

namespace Stage

def rank : Stage → Nat
  | .waiting => 1
  | .checking => 4
  | .sending => 3
  | .expiring => 2
  | .reporting => 1
  | .ended => 0

def maySend : Stage → Bool
  | .checking | .sending => true
  | _ => false

def mayReport : Stage → Bool
  | .checking | .sending | .expiring | .reporting => true
  | _ => false

end Stage

def SessionEvent.isTimeout (event : SessionEvent) : Bool := event.eventType = .keepaliveTimeout

def LiveSession.timeouts (session : LiveSession) : Nat := session.events.countP (·.isTimeout)

inductive TaskMoves (session : LiveSession) (now : Nat) : Stage → Stage → LiveSession → Prop where
  | left : TaskMoves session now .waiting .ended session
  | looked (active : session.state = .active) : TaskMoves session now .waiting .checking session
  | checked : TaskMoves session now .checking .sending session
  | missed : TaskMoves session now .checking .expiring session
  | sent : TaskMoves session now .sending .waiting session.sendKeepalive.2
  | expired : TaskMoves session now .expiring .reporting session.expire
  | reported : TaskMoves session now .reporting .ended
      (session.report .keepaliveTimeout now "Keepalive timeout")
  | gone : TaskMoves session now .ended .ended session

theorem KeepaliveTask.proceed_moves (task : KeepaliveTask) (session : LiveSession) (now : Nat)
    (due : Bool) :
    TaskMoves session now task.stage (task.proceed session now due).1.stage
        (task.proceed session now due).2 ∧
      (task.proceed session now due).1.aborted = task.aborted := by
  cases stage : task.stage with
  | waiting =>
    simp only [proceed, stage]
    split
    next => exact ⟨.left, rfl⟩
    next stays =>
      have active : session.state = .active := by
        by_contra elsewhere
        simp [elsewhere] at stays
      exact ⟨.looked active, rfl⟩
  | checking =>
    simp only [proceed, stage]
    split
    next => exact ⟨.checked, rfl⟩
    next =>
      split
      next => exact ⟨.missed, rfl⟩
      next => exact ⟨.checked, rfl⟩
  | sending =>
    simp only [proceed, stage, LiveSession.sendKeepalive]
    exact ⟨.sent, trivial⟩
  | expiring =>
    simp only [proceed, stage]
    exact ⟨.expired, trivial⟩
  | reporting =>
    simp only [proceed, stage]
    exact ⟨.reported, trivial⟩
  | ended =>
    simp only [proceed, stage]
    exact ⟨.gone, trivial⟩

structure WindsDown (before after : Stage) (sessionBefore sessionAfter : LiveSession) : Prop where
  state : sessionAfter.state ≠ .active
  rank : after.rank ≤ before.rank - 1
  sends : after.maySend.toNat + (if before = .sending then 1 else 0) ≤ before.maySend.toNat
  reports : after.mayReport.toNat + sessionAfter.timeouts ≤
    before.mayReport.toNat + sessionBefore.timeouts

theorem TaskMoves.windsDown {session later : LiveSession} {now : Nat} {before after : Stage}
    (moves : TaskMoves session now before after later) (inactive : session.state ≠ .active) :
    WindsDown before after session later := by
  cases moves with
  | left => exact ⟨inactive, by decide, by decide, by simp [Stage.mayReport]⟩
  | looked active => contradiction
  | checked => exact ⟨inactive, by decide, by decide, by simp [Stage.mayReport]⟩
  | missed => exact ⟨inactive, by decide, by decide, by simp [Stage.mayReport]⟩
  | sent =>
    exact ⟨inactive, by decide, by decide,
      by simp [Stage.mayReport, LiveSession.timeouts, LiveSession.sendKeepalive]⟩
  | expired =>
    exact ⟨by simp [LiveSession.expire], by decide, by decide,
      by simp [Stage.mayReport, LiveSession.timeouts, LiveSession.expire]⟩
  | reported =>
    refine ⟨inactive, by decide, by decide, ?_⟩
    simp only [Stage.mayReport, LiveSession.timeouts, LiveSession.report, List.countP_append,
      List.countP_singleton, SessionEvent.isTimeout, Bool.toNat_true, Bool.toNat_false,
      decide_true, if_true, Nat.zero_add]
    omega
  | gone => exact ⟨inactive, by decide, by decide, by simp⟩

namespace SessionTasks

def stages (running : SessionTasks) : List Stage := running.tasks.map (·.stage)

def sendsLeft (running : SessionTasks) : Nat := running.stages.countP Stage.maySend

def reportsLeft (running : SessionTasks) : Nat := running.stages.countP Stage.mayReport

theorem abortTask_stages (running : SessionTasks) (index : Nat) :
    (running.abortTask index).stages = running.stages := by
  apply List.ext_getElem?
  intro other
  simp only [stages, abortTask, List.getElem?_map, List.getElem?_modify]
  split
  next => cases running.tasks[other]? <;> rfl
  next => cases running.tasks[other]? <;> rfl

theorem proceed_some (running : SessionTasks) (index : Nat) (due : Bool) (task : KeepaliveTask)
    (found : running.tasks[index]? = some task) :
    running.proceed index due =
      { running with
        session := (task.proceed running.session running.now due).2
        tasks := running.tasks.set index (task.proceed running.session running.now due).1
        keepalives := running.keepalives + if task.stage = .sending then 1 else 0 } := by
  simp only [proceed, found]

theorem proceed_none (running : SessionTasks) (index : Nat) (due : Bool)
    (absent : running.tasks[index]? = none) : running.proceed index due = running := by
  simp only [proceed, absent]

end SessionTasks

theorem countP_set_some {α : Type} (select : α → Bool) (values : List α) (index : Nat)
    (old new : α) (found : values[index]? = some old) :
    (values.set index new).countP select + (select old).toNat =
      values.countP select + (select new).toNat := by
  obtain ⟨inside, rfl⟩ := List.getElem?_eq_some_iff.mp found
  have counted : (select values[index]).toNat ≤ values.countP select := by
    cases selected : select values[index] with
    | false => exact Nat.zero_le _
    | true =>
      exact List.countP_pos_iff.mpr ⟨values[index], List.getElem_mem inside, selected⟩
  rw [List.countP_set inside]
  cases selected : select values[index] with
  | false => cases select new <;> simp
  | true =>
    have positive : 1 ≤ values.countP select := by simpa [selected] using counted
    cases select new <;> simp [Nat.sub_add_cancel positive]

def SessionStep.proceeds (index : Nat) : SessionStep → Bool
  | .proceed task _ => task = index
  | _ => false

namespace SessionTasks

structure Dwindles (step : SessionStep) (before after : SessionTasks) : Prop where
  state : after.session.state ≠ .active
  sends : after.sendsLeft + after.keepalives ≤ before.sendsLeft + before.keepalives
  reports : after.reportsLeft + after.session.timeouts ≤
    before.reportsLeft + before.session.timeouts
  ranks : ∀ index stage, before.stages[index]? = some stage →
    ∃ later, after.stages[index]? = some later ∧
      later.rank ≤ stage.rank - (step.proceeds index).toNat

theorem dwindles_of_stages (step : SessionStep) (before after : SessionTasks)
    (state : after.session.state ≠ .active) (stages : after.stages = before.stages)
    (keepalives : after.keepalives = before.keepalives)
    (timeouts : after.session.timeouts = before.session.timeouts)
    (elsewhere : ∀ index, step.proceeds index = false) : Dwindles step before after where
  state := state
  sends := by rw [sendsLeft, stages, keepalives, sendsLeft]
  reports := by rw [reportsLeft, stages, timeouts, reportsLeft]
  ranks := by
    intro index stage found
    exact ⟨stage, stages ▸ found, by simp [elsewhere]⟩

theorem step_dwindles (running : SessionTasks) (step : SessionStep)
    (inactive : running.session.state ≠ .active) (kept : step ≠ .setState .active) :
    Dwindles step running (running.step step) := by
  cases step with
  | elapse units => exact dwindles_of_stages _ _ _ inactive rfl rfl rfl fun _ => rfl
  | setState state =>
    have other : state ≠ .active := fun active => kept (congrArg _ active)
    exact dwindles_of_stages _ _ _ other rfl rfl rfl fun _ => rfl
  | touch => exact dwindles_of_stages _ _ _ inactive rfl rfl rfl fun _ => rfl
  | nextTxSequence => exact dwindles_of_stages _ _ _ inactive rfl rfl rfl fun _ => rfl
  | spawn =>
    have stages : (running.step .spawn).stages = running.stages ++ [.waiting] := by
      simp [SessionTasks.stages, SessionTasks.step, KeepaliveTask.spawned]
    refine ⟨inactive, ?_, ?_, ?_⟩
    next =>
      rw [sendsLeft, stages, List.countP_append]
      exact Nat.le_refl _
    next =>
      rw [reportsLeft, stages, List.countP_append]
      exact Nat.le_refl _
    next =>
      intro index stage found
      refine ⟨stage, ?_, Nat.le_refl _⟩
      rw [stages, List.getElem?_append_left (List.getElem?_eq_some_iff.mp found).1, found]
  | store task =>
    rw [SessionTasks.step]
    split
    next => exact dwindles_of_stages _ _ _ inactive rfl rfl rfl fun _ => rfl
    next => exact dwindles_of_stages _ _ _ inactive rfl rfl rfl fun _ => rfl
  | takeHandle =>
    rw [SessionTasks.step]
    split
    next => exact dwindles_of_stages _ _ _ inactive rfl rfl rfl fun _ => rfl
    next task handle =>
      exact dwindles_of_stages _ _ _ inactive (running.abortTask_stages task) rfl rfl fun _ => rfl
  | announceClosed message =>
    refine dwindles_of_stages _ _ _ inactive rfl rfl ?_ fun _ => rfl
    simp [SessionTasks.step, LiveSession.timeouts, LiveSession.report, SessionEvent.isTimeout]
  | proceed task due =>
    rw [SessionTasks.step]
    cases found : running.tasks[task]? with
    | none =>
      rw [running.proceed_none task due found]
      refine ⟨inactive, Nat.le_refl _, Nat.le_refl _, ?_⟩
      intro index stage present
      refine ⟨stage, present, ?_⟩
      have other : task ≠ index := by
        rintro rfl
        simp [stages, found] at present
      simp [SessionStep.proceeds, other]
    | some old =>
      obtain ⟨moves, _⟩ := old.proceed_moves running.session running.now due
      obtain ⟨state, rank, sends, reports⟩ := moves.windsDown inactive
      rw [running.proceed_some task due old found]
      generalize old.proceed running.session running.now due = moved at *
      have standing : running.stages[task]? = some old.stage := by simp [stages, found]
      have count (select : Stage → Bool) :=
        countP_set_some select running.stages task old.stage moved.1.stage standing
      refine ⟨state, ?_, ?_, ?_⟩
      next =>
        have counted := count Stage.maySend
        simp only [sendsLeft, stages, List.map_set] at counted ⊢
        omega
      next =>
        have counted := count Stage.mayReport
        simp only [reportsLeft, stages, List.map_set] at counted ⊢
        omega
      next =>
        intro index stage present
        by_cases same : task = index
        next =>
          subst same
          obtain rfl := Option.some.inj (standing.symm.trans present)
          refine ⟨moved.1.stage, ?_, by simpa [SessionStep.proceeds] using rank⟩
          simp only [stages, List.map_set]
          exact List.getElem?_set_self (List.getElem?_eq_some_iff.mp standing).1
        next =>
          refine ⟨stage, ?_, by simp [SessionStep.proceeds, same]⟩
          simp only [stages, List.map_set]
          exact (List.getElem?_set_ne same).trans present

theorem run_dwindles (running : SessionTasks) (steps : List SessionStep)
    (inactive : running.session.state ≠ .active) (kept : .setState .active ∉ steps) :
    (running.run steps).session.state ≠ .active ∧
      (running.run steps).sendsLeft + (running.run steps).keepalives ≤
        running.sendsLeft + running.keepalives ∧
      (running.run steps).reportsLeft + (running.run steps).session.timeouts ≤
        running.reportsLeft + running.session.timeouts ∧
      ∀ index stage, running.stages[index]? = some stage →
        ∃ later, (running.run steps).stages[index]? = some later ∧
          later.rank ≤ stage.rank - steps.countP (·.proceeds index) := by
  induction steps generalizing running with
  | nil =>
    exact ⟨inactive, Nat.le_refl _, Nat.le_refl _, fun _ stage found => ⟨stage, found, by simp⟩⟩
  | cons step steps ih =>
    have other : step ≠ .setState .active := fun same => kept (same ▸ List.mem_cons_self)
    have rest : .setState .active ∉ steps := fun inside => kept (List.mem_cons_of_mem _ inside)
    obtain ⟨state, sends, reports, ranks⟩ := running.step_dwindles step inactive other
    obtain ⟨final, sent, reported, ended⟩ := ih (running.step step) state rest
    refine ⟨final, Nat.le_trans sent sends, Nat.le_trans reported reports, ?_⟩
    intro index stage found
    obtain ⟨middle, there, lower⟩ := ranks index stage found
    obtain ⟨later, last, lowest⟩ := ended index middle there
    refine ⟨later, last, Nat.le_trans lowest ?_⟩
    rw [List.countP_cons]
    cases proceeding : step.proceeds index <;> simp [proceeding] at lower ⊢ <;> omega

theorem rank_zero (stage : Stage) (none : stage.rank ≤ 0) : stage = .ended := by
  cases stage <;> simp_all [Stage.rank]

theorem closed_session_falls_silent (running : SessionTasks) (steps : List SessionStep)
    (inactive : running.session.state ≠ .active) (kept : .setState .active ∉ steps) :
    (running.run steps).session.state ≠ .active ∧
      (running.run steps).keepalives ≤ running.keepalives + running.sendsLeft ∧
      (running.run steps).session.timeouts ≤ running.session.timeouts + running.reportsLeft ∧
      ∀ (index : Nat) (task : KeepaliveTask), running.tasks[index]? = some task →
        task.stage.rank ≤ steps.countP (·.proceeds index) →
        ∃ ended, (running.run steps).tasks[index]? = some ended ∧ ended.stage = .ended := by
  obtain ⟨state, sends, reports, ranks⟩ := running.run_dwindles steps inactive kept
  refine ⟨state, by omega, by omega, ?_⟩
  intro index task found enough
  obtain ⟨later, there, lower⟩ := ranks index task.stage (by simp [stages, found])
  simp only [stages, List.getElem?_map, Option.map_eq_some_iff] at there
  obtain ⟨ended, there, rfl⟩ := there
  exact ⟨ended, there, rank_zero ended.stage (by omega)⟩

-- Closed between two steps of a tick: the keepalive that is under way still goes out.
def hangUp : List SessionStep :=
  [.takeHandle, .proceed 0 false, .proceed 0 false, .announceClosed "bye", .proceed 0 false]

def closing : SessionTasks where
  session :=
    { txSequence := 0
      config := ⟨[7], 30⟩
      state := .closing
      lastActivity := 5
      events := [] }
  now := 9
  tasks := [⟨.checking, 0, false⟩]
  keepaliveHandle := some 0
  starting := []
  keepalives := 3

theorem closed_session_falls_silent_bye :
    (closing.run hangUp).keepalives ≤ closing.keepalives + closing.sendsLeft :=
  (closed_session_falls_silent closing hangUp (by decide) (by simp [hangUp])).2.1

def aborted (running : SessionTasks) (index : Nat) : Option Bool :=
  running.tasks[index]?.map (·.aborted)

structure Owned (running : SessionTasks) : Prop where
  distinct : running.starting.Nodup
  starting : ∀ index ∈ running.starting, running.aborted index = some false
  handle : ∀ index, running.keepaliveHandle = some index →
    running.aborted index = some false ∧ index ∉ running.starting

structure CutOff (running : SessionTasks) (index : Nat) : Prop where
  alive : running.aborted index = some false
  handle : running.keepaliveHandle ≠ some index
  starting : index ∉ running.starting

def Replaces (running : SessionTasks) (step : SessionStep) (index : Nat) : Prop :=
  ∃ task, step = .store task ∧ task ∈ running.starting ∧ running.keepaliveHandle = some index

theorem proceed_aborted (running : SessionTasks) (task : Nat) (due : Bool) (index : Nat) :
    (running.proceed task due).aborted index = running.aborted index := by
  cases found : running.tasks[task]? with
  | none => rw [running.proceed_none task due found]
  | some old =>
    obtain ⟨_, same⟩ := old.proceed_moves running.session running.now due
    rw [running.proceed_some task due old found]
    simp only [aborted, List.getElem?_set]
    split
    next here =>
      subst here
      have inside := (List.getElem?_eq_some_iff.mp found).1
      rw [if_pos inside, found, Option.map_some, Option.map_some, same]
    next => rfl

theorem abortTask_aborted (running : SessionTasks) (task index : Nat) :
    (running.abortTask task).aborted index =
      if task = index then (running.aborted index).map fun _ => true else running.aborted index := by
  simp only [aborted, abortTask, List.getElem?_modify]
  split
  next => cases running.tasks[index]? <;> rfl
  next => cases running.tasks[index]? <;> rfl

theorem spawn_aborted (running : SessionTasks) (index : Nat) :
    (running.step .spawn).aborted index =
      if index = running.tasks.length then some false else running.aborted index := by
  simp only [aborted, step]
  rcases Nat.lt_trichotomy index running.tasks.length with below | rfl | above
  next => rw [List.getElem?_append_left below, if_neg (Nat.ne_of_lt below)]
  next => simp [KeepaliveTask.spawned]
  next =>
    rw [if_neg (Nat.ne_of_gt above), List.getElem?_eq_none (by simp; omega),
      List.getElem?_eq_none (Nat.le_of_lt above)]

theorem aborted_lt (running : SessionTasks) (index : Nat) (flag : Bool)
    (known : running.aborted index = some flag) : index < running.tasks.length := by
  rw [aborted, Option.map_eq_some_iff] at known
  obtain ⟨task, found, _⟩ := known
  exact (List.getElem?_eq_some_iff.mp found).1

theorem cutOff_same (running later : SessionTasks) (step : SessionStep) (owned : running.Owned)
    (aborted : ∀ index, later.aborted index = running.aborted index)
    (handle : later.keepaliveHandle = running.keepaliveHandle)
    (starting : later.starting = running.starting) (other : ∀ task, step ≠ .store task) :
    later.Owned ∧ ∀ index, later.CutOff index ↔
      running.CutOff index ∨ running.Replaces step index := by
  constructor
  next =>
    constructor
    next => exact starting ▸ owned.distinct
    next =>
      intro index inside
      rw [aborted]
      exact owned.starting index (starting ▸ inside)
    next =>
      intro index held
      rw [aborted, starting]
      exact owned.handle index (handle ▸ held)
  next =>
    intro index
    have never : ¬ running.Replaces step index := by
      rintro ⟨task, same, _⟩
      exact other task same
    rw [or_iff_left never]
    constructor
    next =>
      rintro ⟨alive, free, outside⟩
      exact ⟨aborted index ▸ alive, handle ▸ free, starting ▸ outside⟩
    next =>
      rintro ⟨alive, free, outside⟩
      exact ⟨(aborted index).trans alive, handle ▸ free, starting ▸ outside⟩

theorem spawn_cutOff (running : SessionTasks) (owned : running.Owned) :
    (running.step .spawn).Owned ∧ ∀ index, (running.step .spawn).CutOff index ↔
      running.CutOff index ∨ running.Replaces .spawn index := by
  have known (index : Nat) (flag : Bool) (found : running.aborted index = some flag) :
      (running.step .spawn).aborted index = some flag ∧ index ≠ running.tasks.length := by
    have older := Nat.ne_of_lt (running.aborted_lt index flag found)
    rw [spawn_aborted, if_neg older]
    exact ⟨found, older⟩
  have fresh : running.tasks.length ∉ running.starting := by
    intro inside
    exact (known _ _ (owned.starting _ inside)).2 rfl
  refine ⟨⟨?_, ?_, ?_⟩, ?_⟩
  next => exact List.nodup_append.mpr ⟨owned.distinct, List.Pairwise.cons (by simp) .nil, by
    intro index inside other last
    rw [List.mem_singleton.mp last]
    exact (known _ _ (owned.starting index inside)).2⟩
  next =>
    intro index inside
    rcases List.mem_append.mp inside with old | new
    next => exact (known _ _ (owned.starting index old)).1
    next => rw [List.mem_singleton.mp new, spawn_aborted, if_pos rfl]
  next =>
    intro index held
    obtain ⟨alive, outside⟩ := owned.handle index held
    obtain ⟨still, older⟩ := known _ _ alive
    refine ⟨still, ?_⟩
    simp [step, outside, older]
  next =>
    intro index
    have never : ¬ running.Replaces .spawn index := by
      rintro ⟨task, same, _⟩
      contradiction
    rw [or_iff_left never]
    constructor
    next =>
      rintro ⟨alive, free, outside⟩
      have older : index ≠ running.tasks.length := by
        rintro rfl
        simp [step] at outside
      rw [spawn_aborted, if_neg older] at alive
      exact ⟨alive, free, fun inside => outside (List.mem_append_left _ inside)⟩
    next =>
      rintro ⟨alive, free, outside⟩
      obtain ⟨still, older⟩ := known _ _ alive
      exact ⟨still, free, by simp [step, outside, older]⟩

theorem store_cutOff (running : SessionTasks) (task : Nat) (owned : running.Owned) :
    (running.step (.store task)).Owned ∧ ∀ index, (running.step (.store task)).CutOff index ↔
      running.CutOff index ∨ running.Replaces (.store task) index := by
  by_cases inside : task ∈ running.starting
  next =>
    have stored : running.step (.store task) =
        { running with
          keepaliveHandle := some task
          starting := running.starting.erase task } := by rw [step, if_pos inside]
    have left (index : Nat) :
        index ∈ running.starting.erase task ↔ index ≠ task ∧ index ∈ running.starting :=
      owned.distinct.mem_erase_iff
    rw [stored]
    refine ⟨⟨owned.distinct.erase task, ?_, ?_⟩, ?_⟩
    next =>
      intro index waiting
      exact owned.starting index ((left index).mp waiting).2
    next =>
      intro index held
      obtain rfl := Option.some.inj held
      exact ⟨owned.starting task inside, fun waiting => ((left task).mp waiting).1 rfl⟩
    next =>
      intro index
      constructor
      next =>
        rintro ⟨alive, free, outside⟩
        have other : index ≠ task := fun same => free (same ▸ rfl)
        have never : index ∉ running.starting := fun waiting =>
          outside ((left index).mpr ⟨other, waiting⟩)
        by_cases held : running.keepaliveHandle = some index
        next => exact .inr ⟨task, rfl, inside, held⟩
        next => exact .inl ⟨alive, held, never⟩
      next =>
        rintro (⟨alive, free, outside⟩ | ⟨_, _, _, held⟩)
        next =>
          have other : index ≠ task := fun same => outside (same ▸ inside)
          exact ⟨alive, fun same => other (Option.some.inj same).symm,
            fun waiting => outside ((left index).mp waiting).2⟩
        next =>
          obtain ⟨alive, outside⟩ := owned.handle index held
          have other : index ≠ task := fun same => outside (same ▸ inside)
          exact ⟨alive, fun same => other (Option.some.inj same).symm,
            fun waiting => outside ((left index).mp waiting).2⟩
  next =>
    have idle : running.step (.store task) = running := by rw [step, if_neg inside]
    rw [idle]
    refine ⟨owned, fun index => ?_⟩
    have never : ¬ running.Replaces (.store task) index := by
      rintro ⟨other, same, starting, _⟩
      obtain rfl := SessionStep.store.inj same
      exact inside starting
    rw [or_iff_left never]

theorem takeHandle_cutOff (running : SessionTasks) (owned : running.Owned) :
    (running.step .takeHandle).Owned ∧ ∀ index, (running.step .takeHandle).CutOff index ↔
      running.CutOff index ∨ running.Replaces .takeHandle index := by
  cases held : running.keepaliveHandle with
  | none =>
    have idle : running.step .takeHandle = running := by simp only [step, held]
    rw [idle]
    exact running.cutOff_same running .takeHandle owned (fun _ => rfl) rfl rfl (by simp)
  | some task =>
    have taken : running.step .takeHandle =
        { running.abortTask task with keepaliveHandle := none } := by simp only [step, held]
    obtain ⟨_, apart⟩ := owned.handle task held
    have flags (index : Nat) : (running.step .takeHandle).aborted index =
        if task = index then (running.aborted index).map fun _ => true
        else running.aborted index := by
      rw [taken]
      exact running.abortTask_aborted task index
    have starting : (running.step .takeHandle).starting = running.starting := by rw [taken]; rfl
    have free : (running.step .takeHandle).keepaliveHandle = none := by rw [taken]
    refine ⟨⟨starting ▸ owned.distinct, ?_, ?_⟩, ?_⟩
    next =>
      intro index inside
      rw [starting] at inside
      have other : task ≠ index := fun same => apart (same ▸ inside)
      rw [flags, if_neg other]
      exact owned.starting index inside
    next =>
      intro index still
      rw [free] at still
      contradiction
    next =>
      intro index
      have never : ¬ running.Replaces .takeHandle index := by
        rintro ⟨task, same, _⟩
        contradiction
      rw [or_iff_left never]
      constructor
      next =>
        rintro ⟨alive, _, outside⟩
        have other : task ≠ index := by
          rintro rfl
          rw [flags, if_pos rfl] at alive
          simp at alive
        rw [flags, if_neg other] at alive
        refine ⟨alive, ?_, starting ▸ outside⟩
        rw [held]
        exact fun same => other (Option.some.inj same)
      next =>
        rintro ⟨alive, elsewhere, outside⟩
        have other : task ≠ index := by
          rintro rfl
          exact elsewhere held
        exact ⟨by rw [flags, if_neg other]; exact alive, by simp [free], starting ▸ outside⟩

theorem step_cutOff (running : SessionTasks) (step : SessionStep) (owned : running.Owned) :
    (running.step step).Owned ∧ ∀ index, (running.step step).CutOff index ↔
      running.CutOff index ∨ running.Replaces step index := by
  cases step with
  | elapse units => exact cutOff_same _ _ _ owned (fun _ => rfl) rfl rfl (by simp)
  | setState state => exact cutOff_same _ _ _ owned (fun _ => rfl) rfl rfl (by simp)
  | touch => exact cutOff_same _ _ _ owned (fun _ => rfl) rfl rfl (by simp)
  | nextTxSequence => exact cutOff_same _ _ _ owned (fun _ => rfl) rfl rfl (by simp)
  | announceClosed message => exact cutOff_same _ _ _ owned (fun _ => rfl) rfl rfl (by simp)
  | proceed task due =>
    have kept : (running.proceed task due).keepaliveHandle = running.keepaliveHandle ∧
        (running.proceed task due).starting = running.starting := by
      rw [SessionTasks.proceed]
      split <;> exact ⟨rfl, rfl⟩
    exact cutOff_same _ _ _ owned (running.proceed_aborted task due) kept.1 kept.2 (by simp)
  | spawn => exact running.spawn_cutOff owned
  | store task => exact running.store_cutOff task owned
  | takeHandle => exact running.takeHandle_cutOff owned

theorem run_owned (running : SessionTasks) (steps : List SessionStep) (owned : running.Owned) :
    (running.run steps).Owned := by
  induction steps generalizing running with
  | nil => exact owned
  | cons step steps ih => exact ih _ (running.step_cutOff step owned).1

theorem run_cutOff (running : SessionTasks) (steps : List SessionStep) (owned : running.Owned)
    (index : Nat) :
    (running.run steps).CutOff index ↔ running.CutOff index ∨
      ∃ before step after, steps = before ++ step :: after ∧
        (running.run before).Replaces step index := by
  induction steps generalizing running with
  | nil => simp
  | cons step steps ih =>
    obtain ⟨after, cut⟩ := running.step_cutOff step owned
    rw [run_cons, ih _ after, cut, or_assoc]
    apply or_congr_right
    constructor
    next =>
      rintro (here | ⟨before, later, rest, rfl, replaced⟩)
      next => exact ⟨[], step, steps, rfl, here⟩
      next => exact ⟨step :: before, later, rest, rfl, replaced⟩
    next =>
      rintro ⟨before, later, rest, split, replaced⟩
      cases before with
      | nil =>
        obtain ⟨rfl, rfl⟩ := List.cons.inj split
        exact .inl replaced
      | cons first before =>
        obtain ⟨rfl, rfl⟩ := List.cons.inj split
        exact .inr ⟨before, later, rest, rfl, replaced⟩

theorem opened_owned (session : LiveSession) (now : Nat) : (opened session now).Owned where
  distinct := .nil
  starting index inside := by simp [opened] at inside
  handle index held := by simp [opened] at held

-- With no start under way, the handle is all that a stop has to go by.
theorem cutOff_iff (running : SessionTasks) (owned : running.Owned)
    (settled : running.starting = []) (index : Nat) :
    running.CutOff index ↔ (running.run stopKeepalive).aborted index = some false := by
  have taken := (running.takeHandle_cutOff owned).2 index
  have never : ¬ running.Replaces .takeHandle index := by
    rintro ⟨task, same, _⟩
    contradiction
  rw [or_iff_left never] at taken
  have emptied : (running.step .takeHandle).keepaliveHandle = none ∧
      (running.step .takeHandle).starting = [] := by
    rw [step]
    split
    next none => exact ⟨none, settled⟩
    next => exact ⟨rfl, settled⟩
  rw [← taken]
  constructor
  next => exact fun cut => cut.alive
  next => exact fun alive => ⟨alive, by simp [emptied.1], by simp [emptied.2]⟩

theorem stopKeepalive_stages (running : SessionTasks) :
    (running.run stopKeepalive).stages = running.stages := by
  rw [stopKeepalive, run_cons, run_nil, step]
  split
  next => rfl
  next task held => exact running.abortTask_stages task

theorem all_stopped_iff (running : SessionTasks) (owned : running.Owned)
    (settled : running.starting = []) :
    (∀ task ∈ (running.run stopKeepalive).tasks, task.stage = .ended ∨ task.aborted = true) ↔
      ∀ index, running.CutOff index → running.stages[index]? = some .ended := by
  have cut (index : Nat) := running.cutOff_iff owned settled index
  simp only [cut, ← running.stopKeepalive_stages]
  generalize running.run stopKeepalive = stopped
  constructor
  next =>
    intro all index alive
    rw [aborted, Option.map_eq_some_iff] at alive
    obtain ⟨task, found, untouched⟩ := alive
    rcases all task (List.mem_of_getElem? found) with ended | reached
    next => rw [stages, List.getElem?_map, found, Option.map_some, ended]
    next =>
      rw [reached] at untouched
      contradiction
  next =>
    intro ended task inside
    obtain ⟨index, found⟩ := List.getElem?_of_mem inside
    cases flag : task.aborted with
    | true => exact .inr rfl
    | false =>
      have finished := ended index (by rw [aborted, found, Option.map_some, flag])
      rw [stages, List.getElem?_map, found, Option.map_some, Option.some.injEq] at finished
      exact .inl finished

def startedAgain : List SessionStep :=
  [.spawn, .store 0, .proceed 0 true, .setState .active, .spawn, .proceed 1 true, .store 1,
    .spawn, .store 2]

example : ((opened closing.session 0).run (startedAgain ++ stopKeepalive)).tasks =
    [⟨.ended, 0, false⟩, ⟨.checking, 0, false⟩, ⟨.waiting, 0, true⟩] := by decide

end SessionTasks

end BitDrive
