import BitDrive.Protocol.Types
import BitDrive.Shared.Mailbox
import BitDrive.Shared.Since
import Mathlib.Data.List.Induction

set_option autoImplicit false

namespace BitDrive

-- Of what belongs to Windows, only whether the server has it.
structure RfcommServer (Stream : Type) where
  provider : Bool
  listener : Bool
  running : Bool
  connections : Mailbox Stream

abbrev WindowsCall (α : Type) := Except String α

namespace RfcommServer

variable {Stream : Type}

def new : RfcommServer Stream where
  provider := false
  listener := false
  running := false
  connections := { capacity := 100, waiting := [], senders := 1 }

-- The handler has a sender. It goes with the listener, also when a later call fails.
def start (server : RfcommServer Stream) (calls : WindowsCall Unit) :
    Except ProtocolError Unit × RfcommServer Stream :=
  if server.running then (.error (.config "Server already running"), server)
  else
    match calls with
    | .error message => (.error (.bluetooth message), server)
    | .ok () =>
      (.ok (), { server with
        provider := true
        listener := true
        running := true
        connections :=
          if server.listener then server.connections else server.connections.join })

-- The provider is taken before it is asked to stop.
def stop (server : RfcommServer Stream) (stopAdvertising : WindowsCall Unit) :
    Except ProtocolError Unit × RfcommServer Stream :=
  if server.running then
    match server.provider, stopAdvertising with
    | true, .error message => (.error (.bluetooth message), { server with provider := false })
    | _, _ =>
      (.ok (), { server with
        provider := false
        listener := false
        running := false
        connections :=
          if server.listener then server.connections.leave else server.connections })
  else (.ok (), server)

-- Whether the connection is let in is not looked at.
def connectionReceived (server : RfcommServer Stream) (socket : WindowsCall Stream) :
    RfcommServer Stream :=
  match socket with
  | .ok stream => { server with connections := (server.connections.trySend stream).2 }
  | .error _ => server

def accept (server : RfcommServer Stream) :
    Option (Except ProtocolError Stream) × RfcommServer Stream :=
  let received := server.connections.receive
  let server := { server with connections := received.2 }
  match received.1 with
  | .value stream => (some (.ok stream), server)
  | .closed => (some (.error (.bluetooth "Server stopped")), server)
  | .pending => (none, server)

theorem accept_fixed (server : RfcommServer Stream) :
    server.accept.2 = { server with connections := server.connections.receive.2 } := by
  simp only [accept]
  split <;> rfl

end RfcommServer

inductive ServerAction (Stream : Type) where
  | start (calls : WindowsCall Unit)
  | stop (stopAdvertising : WindowsCall Unit)
  | connectionReceived (socket : WindowsCall Stream)
  | accept

structure ServerRun (Stream : Type) where
  server : RfcommServer Stream
  traffic : Mailbox.Traffic Stream
  errors : List ProtocolError

namespace ServerRun

variable {Stream : Type}

def start : ServerRun Stream where
  server := .new
  traffic := .none
  errors := []

def step (run : ServerRun Stream) : ServerAction Stream → ServerRun Stream
  | .start calls => { run with server := (run.server.start calls).2 }
  | .stop stopAdvertising => { run with server := (run.server.stop stopAdvertising).2 }
  | .connectionReceived socket =>
    { run with
      server := run.server.connectionReceived socket
      traffic := match socket with
        | .ok stream => run.traffic.send run.server.connections stream
        | .error _ => run.traffic }
  | .accept =>
    { server := run.server.accept.2
      traffic := run.traffic.receive run.server.connections
      errors := match run.server.accept.1 with
        | some (.error error) => run.errors ++ [error]
        | _ => run.errors }

def after (actions : List (ServerAction Stream)) : ServerRun Stream := actions.foldl step start

structure Sound (run : ServerRun Stream) : Prop where
  capacity : run.server.connections.capacity = 100
  carries : run.server.connections.Carries run.traffic
  listening : run.server.listener = run.server.running
  provided : run.server.provider = true → run.server.running = true
  senders : run.server.connections.senders = 1 + run.server.listener.toNat
  silent : run.errors = []

theorem start_sound : (start : ServerRun Stream).Sound where
  capacity := rfl
  carries := ⟨rfl, Nat.zero_le 100⟩
  listening := rfl
  provided := nofun
  senders := rfl
  silent := rfl

theorem Sound.of_server {run : ServerRun Stream} (sound : run.Sound)
    (server : RfcommServer Stream)
    (capacity : server.connections.capacity = run.server.connections.capacity)
    (waiting : server.connections.waiting = run.server.connections.waiting)
    (listening : server.listener = server.running)
    (provided : server.provider = true → server.running = true)
    (senders : server.connections.senders = 1 + server.listener.toNat) :
    Sound { run with server := server } where
  capacity := capacity.trans sound.capacity
  carries := by
    obtain ⟨order, bound⟩ := sound.carries
    rw [← waiting] at order bound
    exact ⟨order, capacity.symm ▸ bound⟩
  listening := listening
  provided := provided
  senders := senders
  silent := sound.silent

theorem Sound.started {run : ServerRun Stream} (sound : run.Sound) (calls : WindowsCall Unit) :
    Sound { run with server := (run.server.start calls).2 } := by
  have senders := sound.senders
  cases up : run.server.running with
  | true =>
    simp only [RfcommServer.start, up, if_true]
    exact sound
  | false =>
    have quiet : run.server.listener = false := sound.listening.trans up
    cases calls with
    | error message =>
      simp only [RfcommServer.start, up, Bool.false_eq_true, if_false]
      exact sound
    | ok _ =>
      simp only [RfcommServer.start, up, quiet, Bool.false_eq_true, if_false]
      rw [quiet] at senders
      exact sound.of_server _ rfl rfl rfl (fun _ => rfl) (congrArg (· + 1) senders)

theorem Sound.stopped {run : ServerRun Stream} (sound : run.Sound)
    (stopAdvertising : WindowsCall Unit) :
    Sound { run with server := (run.server.stop stopAdvertising).2 } := by
  have senders := sound.senders
  cases up : run.server.running with
  | false =>
    simp only [RfcommServer.stop, up, Bool.false_eq_true, if_false]
    exact sound
  | true =>
    have listens : run.server.listener = true := sound.listening.trans up
    rw [listens] at senders
    have down : Sound { run with server := { run.server with
        provider := false
        listener := false
        running := false
        connections := run.server.connections.leave } } := by
      refine sound.of_server _ rfl rfl rfl nofun ?_
      simp only [Mailbox.leave, senders]
      rfl
    simp only [RfcommServer.stop, up, if_true, listens]
    split
    next => exact sound.of_server _ rfl rfl rfl nofun senders
    next => exact down

theorem Sound.step {run : ServerRun Stream} (sound : run.Sound) (action : ServerAction Stream) :
    (run.step action).Sound := by
  cases action with
  | start calls => exact sound.started calls
  | stop stopAdvertising => exact sound.stopped stopAdvertising
  | connectionReceived socket =>
    cases socket with
    | error message => exact sound
    | ok stream =>
      have carries := sound.carries.send stream
      obtain ⟨capacity, senders⟩ := run.server.connections.trySend_fixed stream
      exact ⟨capacity.trans sound.capacity, carries, sound.listening, sound.provided,
        senders.trans sound.senders, sound.silent⟩
  | accept =>
    obtain ⟨capacity, senders⟩ := run.server.connections.receive_fixed
    have opened := run.server.connections.receive_open (by
      rw [sound.senders]
      omega)
    have fields := run.server.accept_fixed
    have silent : ∀ error, run.server.accept.1 ≠ some (.error error) := by
      intro error returned
      simp only [RfcommServer.accept] at returned
      split at returned
      next => cases returned
      next closed => exact opened closed
      next => cases returned
    simp only [ServerRun.step, fields]
    exact ⟨capacity.trans sound.capacity, sound.carries.receive, sound.listening, sound.provided,
      senders.trans sound.senders, sound.silent⟩

theorem after_append (actions : List (ServerAction Stream)) (action : ServerAction Stream) :
    after (actions ++ [action]) = (after actions).step action := by
  rw [after, List.foldl_append]
  rfl

theorem after_sound (actions : List (ServerAction Stream)) : (after actions).Sound := by
  induction actions using List.reverseRecOn with
  | nil => exact start_sound
  | append_singleton actions action ih =>
    rw [after_append]
    exact ih.step action

def isStop : ServerAction Stream → Bool
  | .stop _ => true
  | _ => false

def StopRefused (actions : List (ServerAction Stream)) : Prop :=
  Since (fun before action => (after before).server.provider = true ∧
    ∃ message, action = .stop (.error message)) (fun action => isStop action = false) actions

theorem refused_iff (actions : List (ServerAction Stream)) :
    ((after actions).server.running = true ∧ (after actions).server.provider = false) ↔
      StopRefused actions := by
  induction actions using List.reverseRecOn with
  | nil => exact iff_of_false (fun up => nomatch up.1) (not_since_nil _ _)
  | append_singleton actions action ih =>
    rw [StopRefused, since_concat, ← StopRefused, ← ih, after_append]
    have provided := (after_sound actions).provided
    generalize after actions = run at provided ⊢
    cases action with
    | start calls =>
      cases up : run.server.running <;> cases calls <;>
        simp [step, RfcommServer.start, isStop, up]
    | stop stopAdvertising =>
      cases up : run.server.running with
      | false =>
        have nobody : run.server.provider = false := by
          cases held : run.server.provider with
          | false => rfl
          | true => exact absurd (provided held) (by simp [up])
        simp [step, RfcommServer.stop, isStop, up, nobody]
      | true =>
        cases held : run.server.provider <;> cases stopAdvertising <;>
          simp [step, RfcommServer.stop, isStop, up, held]
    | connectionReceived socket =>
      cases socket <;> simp [step, RfcommServer.connectionReceived, isStop]
    | accept =>
      have fields := run.server.accept_fixed
      simp [step, isStop, fields]

theorem stop_twice (server : RfcommServer Stream) (first second : WindowsCall Unit) :
    ((server.stop first).2.stop second).2.running = false := by
  cases up : server.running with
  | false => simp [RfcommServer.stop, up]
  | true =>
    cases held : server.provider <;> cases first <;> simp [RfcommServer.stop, up, held]

theorem rfcomm_server_history (actions : List (ServerAction Stream)) :
    let run := after actions
    run.traffic.received ++ run.server.connections.waiting = run.traffic.sent ∧
      run.server.connections.waiting.length ≤ 100 ∧
      (∀ stream, let next := run.step (.connectionReceived (.ok stream))
        next.traffic.sent = run.traffic.sent ++ [stream] ∧
            next.traffic.refused = run.traffic.refused ∨
          next.traffic.sent = run.traffic.sent ∧
            next.traffic.refused = run.traffic.refused ++ [stream] ∧
            run.traffic.sent.length = run.traffic.received.length + 100) ∧
      run.errors = [] ∧
      (run.server.running = true ∧ run.server.provider = false ↔ StopRefused actions) ∧
      ∀ first second, ((run.server.stop first).2.stop second).2.running = false := by
  intro run
  have sound : run.Sound := after_sound actions
  have bound := sound.carries.bound
  rw [sound.capacity] at bound
  refine ⟨sound.carries.order, bound, fun stream => ?_, sound.silent, refused_iff actions,
    stop_twice run.server⟩
  have cases_sent := sound.carries.send_cases stream
  rwa [sound.capacity] at cases_sent

end ServerRun

end BitDrive
