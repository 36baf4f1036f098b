import BitDrive.Shared.TaskPool

set_option autoImplicit false

namespace BitDrive.Android

open TaskPool

inductive ServerSocket where
  | listening
  | closed
  deriving DecidableEq

structure BluetoothManager where
  serverSocket : Option ServerSocket
  deriving DecidableEq

structure BluetoothForegroundService where
  bluetoothManager : BluetoothManager
  isServerRunning : Bool
  deriving DecidableEq

-- What runs without a break. `startServer` suspends in the manager and goes on with the outcome as
-- `serverStarted`.
inductive Coroutine where
  | startServer
  | serverStarted (success : Bool)
  | onDeviceConnected
  | onDeviceDisconnected
  deriving DecidableEq

inductive ServiceInput where
  | startServer
  | stopServer
  | onConnected
  | onDisconnected
  | onError
  deriving DecidableEq

namespace BluetoothManager

def closeServerSocket (manager : BluetoothManager) : BluetoothManager :=
  { manager with serverSocket := manager.serverSocket.map fun _ => .closed }

-- `listens` is whether the adapter opens a socket; otherwise it raises an `IOException`. The accept
-- loop of the socket raises `onConnected` and `onError`, which are inputs here.
def startServer (manager : BluetoothManager) (listens : Bool) : Bool × BluetoothManager :=
  let manager := manager.closeServerSocket
  if listens then (true, { manager with serverSocket := some .listening })
  else (false, manager)

end BluetoothManager

namespace BluetoothForegroundService

def startServer (service : BluetoothForegroundService) :
    BluetoothForegroundService × List Coroutine :=
  (service, [.startServer])

def onConnected (service : BluetoothForegroundService) :
    BluetoothForegroundService × List Coroutine :=
  (service, [.onDeviceConnected])

def onDisconnected (service : BluetoothForegroundService) :
    BluetoothForegroundService × List Coroutine :=
  (service, [.onDeviceDisconnected])

def onError (service : BluetoothForegroundService) :
    BluetoothForegroundService × List Coroutine :=
  (service, [])

-- `bluetoothManager.close()`, with the service as its listener.
def close (service : BluetoothForegroundService) :
    BluetoothForegroundService × List Coroutine :=
  { service with bluetoothManager := service.bluetoothManager.closeServerSocket }.onDisconnected

def stopServer (service : BluetoothForegroundService) :
    BluetoothForegroundService × List Coroutine :=
  { service with isServerRunning := false }.close

def onDeviceConnected (service : BluetoothForegroundService) :
    BluetoothForegroundService × List Coroutine :=
  ({ service with isServerRunning := false }, [])

def onDeviceDisconnected (service : BluetoothForegroundService) :
    BluetoothForegroundService × List Coroutine :=
  { service with isServerRunning := true }.startServer

def handle (service : BluetoothForegroundService) :
    ServiceInput → BluetoothForegroundService × List Coroutine
  | .startServer => service.startServer
  | .stopServer => service.stopServer
  | .onConnected => service.onConnected
  | .onDisconnected => service.onDisconnected
  | .onError => service.onError

def execute (service : BluetoothForegroundService) (coroutine : Coroutine) (listens : Bool) :
    BluetoothForegroundService × List Coroutine :=
  match coroutine with
  | .startServer =>
    let (success, manager) := service.bluetoothManager.startServer listens
    ({ service with bluetoothManager := manager }, [.serverStarted success])
  | .serverStarted success => ({ service with isServerRunning := success }, [])
  | .onDeviceConnected => service.onDeviceConnected
  | .onDeviceDisconnected => service.onDeviceDisconnected

def machine : Machine BluetoothForegroundService ServiceInput Coroutine Bool where
  handle := handle
  execute := execute

def onCreate (isBluetoothEnabled : Bool) : Pool BluetoothForegroundService Coroutine :=
  let service : BluetoothForegroundService :=
    { bluetoothManager := { serverSocket := none }, isServerRunning := false }
  if isBluetoothEnabled then ⟨service.startServer.1, service.startServer.2⟩ else ⟨service, []⟩

def listening (service : BluetoothForegroundService) : Bool :=
  service.bluetoothManager.serverSocket = some .listening

structure Stopped (service : BluetoothForegroundService) : Prop where
  notRunning : service.isServerRunning = false
  notListening : service.listening = false

end BluetoothForegroundService

namespace Coroutine

def attempt : Coroutine × Bool → Option Bool
  | (.startServer, listens) => some listens
  | _ => none

def ending : Coroutine × Bool → Option Bool
  | (.serverStarted success, _) => some success
  | (.onDeviceConnected, _) => some false
  | _ => none

def weight : Coroutine → Nat
  | startServer => 2
  | serverStarted _ => 1
  | onDeviceConnected => 1
  | onDeviceDisconnected => 3

end Coroutine

namespace BluetoothForegroundService

open Machine

theorem machine_lightens : Lightens Coroutine.weight machine := by
  intro service coroutine listens
  cases coroutine with
  | startServer => cases listens <;> exact Nat.one_lt_two
  | serverStarted success => exact Nat.zero_lt_one
  | onDeviceConnected => exact Nat.zero_lt_one
  | onDeviceDisconnected => exact Nat.lt_succ_self 2

@[simp] theorem listening_startServer (pool : Pool BluetoothForegroundService Coroutine)
    (listens : Bool) : (machine.executed pool .startServer listens).state.listening = listens := by
  cases listens with
  | true => rfl
  | false =>
    have closed : (machine.executed pool .startServer false).state.bluetoothManager.serverSocket =
        pool.state.bluetoothManager.serverSocket.map fun _ => .closed := rfl
    rw [listening, closed]
    cases pool.state.bluetoothManager.serverSocket <;> rfl

theorem listening_of_runs (pool final : Pool BluetoothForegroundService Coroutine)
    (schedule : List (Coroutine × Bool)) (ran : machine.runs pool schedule = some final) :
    final.state.listening =
      (schedule.filterMap Coroutine.attempt).getLast?.getD pool.state.listening := by
  induction schedule generalizing pool with
  | nil =>
    obtain rfl : pool = final := Option.some.inj ran
    rfl
  | cons first schedule ih =>
    obtain ⟨coroutine, listens⟩ := first
    have ⟨_, later⟩ := (runs_cons pool final coroutine listens schedule).mp ran
    rw [ih _ later]
    cases coroutine with
    | startServer => simp [Coroutine.attempt, List.getLast?_cons]
    | serverStarted success => rfl
    | onDeviceConnected => rfl
    | onDeviceDisconnected => rfl

theorem attempt_mem_ending (pool final : Pool BluetoothForegroundService Coroutine)
    (schedule : List (Coroutine × Bool)) (launched : Coroutine.startServer ∈ pool.tasks)
    (ran : machine.runs pool schedule = some final) (drained : final.tasks = []) :
    ∃ listens, listens ∈ schedule.filterMap Coroutine.attempt ∧
      listens ∈ schedule.filterMap Coroutine.ending := by
  have ⟨before, listens, after, turn, split, later⟩ :=
    exists_turn pool final schedule .startServer launched ran drained
  have started : Coroutine.serverStarted listens ∈
      (machine.executed turn .startServer listens).tasks := by
    refine List.mem_append_right _ ?_
    cases listens <;> exact List.mem_singleton_self _
  have ⟨between, answer, rest, _, ended, _⟩ :=
    exists_turn _ final after (.serverStarted listens) started later drained
  refine ⟨listens, ?_, ?_⟩
  next =>
    rw [split, List.mem_filterMap]
    exact ⟨(.startServer, listens), by simp, rfl⟩
  next =>
    rw [split, ended, List.mem_filterMap]
    exact ⟨(.serverStarted listens, answer), by simp, rfl⟩

theorem isServerRunning_of_drained (pool final : Pool BluetoothForegroundService Coroutine)
    (schedule : List (Coroutine × Bool)) (ran : machine.runs pool schedule = some final)
    (drained : final.tasks = []) :
    final.state.isServerRunning =
      (schedule.filterMap Coroutine.ending).getLast?.getD pool.state.isServerRunning := by
  induction schedule generalizing pool with
  | nil =>
    obtain rfl : pool = final := Option.some.inj ran
    rfl
  | cons first schedule ih =>
    obtain ⟨coroutine, listens⟩ := first
    have ⟨_, later⟩ := (runs_cons pool final coroutine listens schedule).mp ran
    rw [ih _ later]
    cases coroutine with
    | startServer => cases listens <;> rfl
    | serverStarted success => simp [Coroutine.ending, List.getLast?_cons]; rfl
    | onDeviceConnected => simp [Coroutine.ending, List.getLast?_cons]; rfl
    | onDeviceDisconnected =>
      have ⟨_, _, ended⟩ := attempt_mem_ending _ final schedule
        (List.mem_append_right _ (List.mem_singleton_self _)) later drained
      have ⟨last, found⟩ := Option.isSome_iff_exists.mp
        (List.getLast?_isSome.mpr (List.ne_nil_of_mem ended))
      have silent : ((.onDeviceDisconnected, listens) :: schedule).filterMap Coroutine.ending =
          schedule.filterMap Coroutine.ending := rfl
      rw [silent, found]
      rfl

structure RunsOut (isBluetoothEnabled : Bool) (history : List (Action ServiceInput Coroutine Bool))
    (schedule : List (Coroutine × Bool))
    (final : Pool BluetoothForegroundService Coroutine) : Prop where
  ran : machine.actions (onCreate isBluetoothEnabled)
    (history ++ .event .stopServer :: schedule.map fun step => .run step.1 step.2) = some final
  drained : final.tasks = []

-- `STOP_SERVER` itself launches the restart.
theorem RunsOut.after_stop {isBluetoothEnabled : Bool}
    {history : List (Action ServiceInput Coroutine Bool)} {schedule : List (Coroutine × Bool)}
    {final : Pool BluetoothForegroundService Coroutine}
    (out : RunsOut isBluetoothEnabled history schedule final) :
    ∃ pool, Coroutine.onDeviceDisconnected ∈ pool.tasks ∧
      machine.runs pool schedule = some final := by
  have ran := out.ran
  rw [actions_append] at ran
  have ⟨reached, _, later⟩ := Option.bind_eq_some_iff.mp ran
  exact ⟨machine.handled reached .stopServer,
    List.mem_append_right _ (List.mem_singleton_self _), later⟩

theorem RunsOut.final_eq {isBluetoothEnabled : Bool}
    {history : List (Action ServiceInput Coroutine Bool)} {schedule : List (Coroutine × Bool)}
    {final : Pool BluetoothForegroundService Coroutine}
    (out : RunsOut isBluetoothEnabled history schedule final) :
    (schedule.filterMap Coroutine.attempt).getLast? = some final.state.listening ∧
      (schedule.filterMap Coroutine.ending).getLast? = some final.state.isServerRunning := by
  have ⟨pool, launched, ran⟩ := out.after_stop
  have ⟨before, answer, after, turn, split, later⟩ :=
    exists_turn pool final schedule .onDeviceDisconnected launched ran out.drained
  have ⟨listens, attempted, ended⟩ := attempt_mem_ending _ final after
    (List.mem_append_right _ (List.mem_singleton_self _)) later out.drained
  have within : after <:+ schedule :=
    ⟨before ++ [(.onDeviceDisconnected, answer)], by rw [split]; simp⟩
  have ⟨attempt, lastAttempt⟩ := Option.isSome_iff_exists.mp
    (List.getLast?_isSome.mpr
      (List.ne_nil_of_mem ((within.filterMap Coroutine.attempt).subset attempted)))
  have ⟨ending, lastEnding⟩ := Option.isSome_iff_exists.mp
    (List.getLast?_isSome.mpr
      (List.ne_nil_of_mem ((within.filterMap Coroutine.ending).subset ended)))
  rw [listening_of_runs pool final schedule ran, lastAttempt,
    isServerRunning_of_drained pool final schedule ran out.drained, lastEnding]
  exact ⟨rfl, rfl⟩

theorem stopped_iff (isBluetoothEnabled : Bool)
    (history : List (Action ServiceInput Coroutine Bool)) (schedule : List (Coroutine × Bool))
    (final : Pool BluetoothForegroundService Coroutine)
    (out : RunsOut isBluetoothEnabled history schedule final) :
    final.state.Stopped ↔
      (schedule.filterMap Coroutine.attempt).getLast? = some false ∧
        (schedule.filterMap Coroutine.ending).getLast? = some false := by
  have ⟨lastAttempt, lastEnding⟩ := out.final_eq
  rw [lastAttempt, lastEnding, Option.some.injEq, Option.some.injEq]
  constructor
  next => exact fun stopped => ⟨stopped.notListening, stopped.notRunning⟩
  next => exact fun ⟨notListening, notRunning⟩ => ⟨notRunning, notListening⟩

def openServer : List (Action ServiceInput Coroutine Bool) :=
  [.event .startServer, .run .startServer true, .run (.serverStarted true) true]

theorem stopped_iff_adapter_off :
    Stopped { bluetoothManager := { serverSocket := some .closed }, isServerRunning := false } := by
  let schedule : List (Coroutine × Bool) :=
    [(.onDeviceDisconnected, false), (.startServer, false), (.serverStarted false, false)]
  have out : RunsOut false openServer schedule
      ⟨{ bluetoothManager := { serverSocket := some .closed }, isServerRunning := false }, []⟩ :=
    ⟨rfl, rfl⟩
  exact (stopped_iff false openServer schedule _ out).mpr ⟨rfl, rfl⟩

theorem stop_server_listens_again :
    RunsOut false openServer
      [(.onDeviceDisconnected, true), (.startServer, true), (.serverStarted true, true)]
      ⟨{ bluetoothManager := { serverSocket := some .listening }, isServerRunning := true }, []⟩ ∧
    ¬ Stopped
      { bluetoothManager := { serverSocket := some .listening }, isServerRunning := true } := by
  refine ⟨⟨rfl, rfl⟩, fun stopped => ?_⟩
  have running : true = false := stopped.notRunning
  contradiction

theorem restarts (isBluetoothEnabled : Bool)
    (history : List (Action ServiceInput Coroutine Bool))
    (reached : Pool BluetoothForegroundService Coroutine)
    (ran : machine.actions (onCreate isBluetoothEnabled) history = some reached) :
    ∃ schedule final, RunsOut isBluetoothEnabled history schedule final ∧
      final.state.listening = true ∧ ∀ step ∈ schedule, step.2 = true := by
  have ⟨schedule, final, later, drained, answers⟩ :=
    exists_drained Coroutine.weight machine_lightens true (machine.handled reached .stopServer)
  have out : RunsOut isBluetoothEnabled history schedule final :=
    ⟨by rw [actions_append, ran]; exact later, drained⟩
  refine ⟨schedule, final, out, ?_, answers⟩
  have ⟨⟨coroutine, listens⟩, member, attempted⟩ :=
    List.mem_filterMap.mp (List.mem_of_getLast? out.final_eq.1)
  cases coroutine with
  | startServer => exact (Option.some.inj attempted).symm.trans (answers _ member)
  | serverStarted success => cases attempted
  | onDeviceConnected => cases attempted
  | onDeviceDisconnected => cases attempted

end BluetoothForegroundService

end BitDrive.Android
