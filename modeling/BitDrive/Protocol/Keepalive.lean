import BitDrive.Protocol.Nonce
import BitDrive.Shared.Streak

set_option autoImplicit false

namespace BitDrive

inductive SessionState where
  | closed
  | opening
  | negotiatingCapabilities
  | authenticating
  | active
  | closing
  | reconnecting
  deriving DecidableEq

inductive SessionEventType where
  | opened
  | closed
  | error
  | keepaliveTimeout
  | capabilitiesNegotiated
  | authComplete
  | reconnecting
  | reconnected
  deriving DecidableEq

structure SessionEvent where
  sessionId : List UInt8
  eventType : SessionEventType
  timestamp : Nat
  message : String
  details : List UInt8
  deriving DecidableEq

-- Durations and instants are natural numbers of one unit.
structure SessionConfig where
  sessionId : List UInt8
  sessionTimeout : Nat

structure LiveSession extends Session where
  config : SessionConfig
  state : SessionState
  lastActivity : Nat
  events : List SessionEvent

def MAX_MISSED : Nat := 3

structure Tick where
  state : SessionState
  lastActivity : Nat
  now : Nat

inductive TickResult where
  | next (missed : Nat)
  | left
  | timedOut
  deriving DecidableEq

namespace LiveSession

def isAlive (session : LiveSession) (now : Nat) : Bool :=
  now - session.lastActivity < session.config.sessionTimeout

-- There is no transport yet that could refuse the frame.
def sendKeepalive (session : LiveSession) : Except ProtocolError Unit × LiveSession :=
  (.ok (), { session with toSession := session.toSession.nextTxSequence.2 })

def handleTimeout (session : LiveSession) (now : Nat) : LiveSession :=
  { session with
    state := .closing
    events := session.events ++
      [{ sessionId := session.config.sessionId
         eventType := .keepaliveTimeout
         timestamp := now
         message := "Keepalive timeout"
         details := [] }] }

def found (session : LiveSession) (tick : Tick) : LiveSession :=
  { session with state := tick.state, lastActivity := tick.lastActivity }

def keepaliveTick (session : LiveSession) (missed : Nat) (tick : Tick) :
    TickResult × LiveSession :=
  let session := session.found tick
  if session.state ≠ .active then (.left, session)
  else
    let missed := if session.isAlive tick.now then 0 else missed + 1
    if !session.isAlive tick.now && MAX_MISSED ≤ missed then
      (.timedOut, session.handleTimeout tick.now)
    else
      match session.sendKeepalive with
      | (.ok _, session) => (.next missed, session)
      | (.error _, session) =>
        if MAX_MISSED ≤ missed + 1 then (.timedOut, session.handleTimeout tick.now)
        else (.next (missed + 1), session)

def keepaliveLoop (session : LiveSession) (missed : Nat) :
    List Tick → List TickResult × LiveSession
  | [] => ([], session)
  | tick :: ticks =>
    match session.keepaliveTick missed tick with
    | (.next missed, session) =>
      let rest := session.keepaliveLoop missed ticks
      (.next missed :: rest.1, rest.2)
    | (result, session) => ([result], session)

def CalledAt (session : LiveSession) (ticks : List Tick) (position : Nat) : Prop :=
  (session.keepaliveLoop 0 ticks).1[position]? = some .timedOut

end LiveSession

structure Observed where
  active : Bool
  alive : Bool
  sent : Bool

def Observed.missed (observed : Observed) : Bool := !observed.alive || !observed.sent

namespace LiveSession

def observed (session : LiveSession) (tick : Tick) : Observed where
  active := (session.found tick).state = .active
  alive := (session.found tick).isAlive tick.now
  sent := (session.found tick).sendKeepalive.1.toBool

def observe (session : LiveSession) : List Tick → List Observed
  | [] => []
  | tick :: ticks =>
    session.observed tick :: (session.found tick).sendKeepalive.2.observe ticks

end LiveSession

def TimeoutRule (session : LiveSession) (ticks : List Tick) : Prop :=
  ∀ position, session.CalledAt ticks position ↔
    Streak.FirstAt Observed.missed MAX_MISSED ((session.observe ticks).takeWhile Observed.active)
      position

namespace LiveSession

theorem observed_missed (session : LiveSession) (tick : Tick) :
    (session.observed tick).missed = !(session.found tick).isAlive tick.now :=
  Bool.or_false _

theorem keepaliveTick_left (session : LiveSession) (missed : Nat) (tick : Tick)
    (elsewhere : (session.observed tick).active = false) :
    session.keepaliveTick missed tick = (.left, session.found tick) := by
  have other : (session.found tick).state ≠ .active := by simpa [observed] using elsewhere
  simp only [keepaliveTick, if_pos other]

theorem keepaliveTick_row (session : LiveSession) (row : List Observed) (tick : Tick)
    (active : (session.observed tick).active = true) :
    let later := Streak.next Observed.missed row (session.observed tick)
    (MAX_MISSED ≤ later.length → (session.keepaliveTick row.length tick).1 = .timedOut) ∧
      (later.length < MAX_MISSED → session.keepaliveTick row.length tick =
        (.next later.length, (session.found tick).sendKeepalive.2)) := by
  intro later
  have state : (session.found tick).state = .active := by simpa [observed] using active
  have missed := session.observed_missed tick
  cases alive : (session.found tick).isAlive tick.now with
  | true =>
    have empty : later = [] := by simp [later, Streak.next, missed, alive]
    rw [empty]
    refine ⟨fun long => absurd long (by decide), fun _ => ?_⟩
    simp [keepaliveTick, state, alive, sendKeepalive]
  | false =>
    have longer : later.length = row.length + 1 := by simp [later, Streak.next, missed, alive]
    rw [longer]
    constructor
    next =>
      intro long
      simp [keepaliveTick, state, alive, long]
    next =>
      intro short
      simp [keepaliveTick, state, alive, Nat.not_le_of_lt short, sendKeepalive]

def CallsAgree (session : LiveSession) (row : List Observed) (ticks : List Tick) : Prop :=
  ∀ position, (session.keepaliveLoop row.length ticks).1[position]? = some .timedOut ↔
    Streak.Completes Observed.missed MAX_MISSED row
      ((session.observe ticks).takeWhile Observed.active) position

-- By induction on the ticks; the row of missed ticks and the counter go together.
theorem keepaliveLoop_agrees (session : LiveSession) (row : List Observed) (ticks : List Tick)
    (short : row.length < MAX_MISSED) : session.CallsAgree row ticks := by
  induction ticks generalizing session row with
  | nil =>
    intro position
    simp [keepaliveLoop, observe, Streak.Completes]
  | cons tick ticks ih =>
    intro position
    rw [observe, List.takeWhile_cons]
    cases active : (session.observed tick).active with
    | false =>
      have left : (session.keepaliveLoop row.length (tick :: ticks)).1 = [.left] := by
        rw [keepaliveLoop, session.keepaliveTick_left row.length tick active]
      rw [left]
      refine iff_of_false ?_ ?_
      next => cases position <;> simp
      next => simp [Streak.Completes]
    | true =>
      rw [if_pos rfl]
      obtain ⟨full, partly⟩ := session.keepaliveTick_row row tick active
      by_cases long :
          MAX_MISSED ≤ (Streak.next Observed.missed row (session.observed tick)).length
      next =>
        have called : (session.keepaliveLoop row.length (tick :: ticks)).1 = [.timedOut] := by
          have result := full long
          rw [keepaliveLoop]
          rcases ended : session.keepaliveTick row.length tick with ⟨_ | _ | _, later⟩
          next => simp [ended] at result
          next => simp [ended] at result
          next => rfl
        rw [called]
        cases position with
        | zero =>
          rw [Streak.completes_zero _ _ row _ _ short]
          exact iff_of_true rfl long
        | succ position =>
          rw [Streak.completes_succ _ _ row _ _ position short]
          refine iff_of_false (by simp) fun later => ?_
          exact Nat.not_le_of_lt (later.2.2 0 (Nat.zero_le position)) long
      next =>
        have still := Nat.lt_of_not_le long
        have rest := ih (session.found tick).sendKeepalive.2 _ still
        rw [keepaliveLoop, partly still]
        cases position with
        | zero =>
          rw [Streak.completes_zero _ _ row _ _ short]
          exact iff_of_false (by simp) long
        | succ position =>
          rw [Streak.completes_succ _ _ row _ _ position short]
          exact rest position

end LiveSession

theorem keepalive_timeout_rule (session : LiveSession) (ticks : List Tick) :
    TimeoutRule session ticks := by
  intro position
  rw [Streak.firstAt_iff _ MAX_MISSED (Nat.succ_pos 2)]
  exact session.keepaliveLoop_agrees [] ticks (Nat.succ_pos 2) position

def defaultSession : LiveSession where
  txSequence := 0
  config := { sessionId := [], sessionTimeout := 90000 }
  state := .active
  lastActivity := 0
  events := []

example : (defaultSession.keepaliveLoop 0
    [⟨.active, 0, 90000⟩, ⟨.active, 0, 90000⟩, ⟨.active, 95000, 99000⟩, ⟨.active, 95000, 185000⟩,
      ⟨.active, 95000, 190000⟩, ⟨.active, 95000, 195000⟩]).1 =
    [.next 1, .next 2, .next 0, .next 1, .next 2, .timedOut] := rfl

end BitDrive
