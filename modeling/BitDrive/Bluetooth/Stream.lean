import BitDrive.Protocol.Types
import BitDrive.Shared.Run

set_option autoImplicit false

namespace BitDrive

open ByteLayout

-- `incoming` is what the peer sends. The stream may end after it or wait for more.
structure StreamSocket where
  incoming : Bytes
  ended : Bool
  outOfBounds : String

structure DataReader extends StreamSocket where
  unconsumed : Bytes

structure StreamConfig where
  bufferSize : Nat := 8192

structure RfcommStream where
  reader : DataReader
  config : StreamConfig
  readBuffer : Bytes
  closed : Bool

structure ReadBuf where
  filled : Bytes
  capacity : Nat
  within : filled.length ≤ capacity

namespace ReadBuf

def remaining (buf : ReadBuf) : Nat := buf.capacity - buf.filled.length

def putSlice (buf : ReadBuf) (slice : Bytes) (fits : slice.length ≤ buf.remaining) : ReadBuf where
  filled := buf.filled ++ slice
  capacity := buf.capacity
  within := by
    have within := buf.within
    rw [remaining] at fits
    rw [List.length_append]
    omega

@[simp] theorem filled_putSlice (buf : ReadBuf) (slice : Bytes)
    (fits : slice.length ≤ buf.remaining) :
    (buf.putSlice slice fits).filled = buf.filled ++ slice := rfl

theorem take_fits (buf : ReadBuf) (bytes : Bytes) :
    (bytes.take (min buf.remaining bytes.length)).length ≤ buf.remaining := by
  rw [List.length_take]
  omega

end ReadBuf

namespace DataReader

def createDataReader (socket : StreamSocket) : DataReader := { socket with unconsumed := [] }

def load (reader : DataReader) (loaded : Nat) : DataReader :=
  { reader with
    unconsumed := reader.unconsumed ++ reader.incoming.take loaded
    incoming := reader.incoming.drop loaded }

def readBytes (reader : DataReader) (count : Nat) : Option (Bytes × DataReader) :=
  if count ≤ reader.unconsumed.length then
    some (reader.unconsumed.take count, { reader with unconsumed := reader.unconsumed.drop count })
  else none

def AtEnd (reader : DataReader) : Prop := reader.incoming = [] ∧ reader.ended = true

structure Loads (reader : DataReader) (count loaded : UInt32) : Prop where
  bounded : loaded ≤ count
  sent : loaded.toNat ≤ reader.incoming.length
  some : loaded = 0 → count = 0 ∨ reader.AtEnd

end DataReader

-- How `LoadAsync` answers a call, for each count that the call can ask for.
abbrev LoadAsync := UInt32 → Except String UInt32

namespace RfcommStream

def fromSocket (socket : StreamSocket) : RfcommStream where
  reader := .createDataReader socket
  config := {}
  readBuffer := []
  closed := false

def read (stream : RfcommStream) (loadAsync : LoadAsync) (buf : Bytes) :
    Except ProtocolError Nat × Bytes × RfcommStream :=
  if stream.closed then (.error (.io "Stream closed"), buf, stream)
  else
    let targetLen := UInt32.ofNat buf.length
    match loadAsync targetLen with
    | .error message => (.error (.bluetooth message), buf, stream)
    | .ok loaded =>
      let reader := stream.reader.load loaded.toNat
      if loaded = 0 then (.ok 0, buf, { stream with reader := reader, closed := true })
      else
        match reader.readBytes loaded.toNat with
        | none =>
          (.error (.bluetooth reader.outOfBounds), buf, { stream with reader := reader })
        | some (tempBuf, reader) =>
          (.ok loaded.toNat, tempBuf ++ buf.drop loaded.toNat, { stream with reader := reader })

-- An error is of kind `Other` and carries the text alone.
def pollRead (stream : RfcommStream) (loadAsync : LoadAsync) (buf : ReadBuf) :
    Except String Unit × ReadBuf × RfcommStream :=
  if stream.readBuffer ≠ [] then
    let len := min buf.remaining stream.readBuffer.length
    (.ok (), buf.putSlice (stream.readBuffer.take len) (buf.take_fits stream.readBuffer),
      { stream with readBuffer := stream.readBuffer.drop len })
  else
    let targetLen := UInt32.ofNat (min buf.remaining stream.config.bufferSize)
    match loadAsync targetLen with
    | .error message => (.error message, buf, stream)
    | .ok loaded =>
      let reader := stream.reader.load loaded.toNat
      if loaded = 0 then (.ok (), buf, { stream with reader := reader, closed := true })
      else
        match reader.readBytes loaded.toNat with
        | none => (.error reader.outOfBounds, buf, { stream with reader := reader })
        | some (tempBuf, reader) =>
          let len := min buf.remaining tempBuf.length
          (.ok (), buf.putSlice (tempBuf.take len) (buf.take_fits tempBuf),
            { stream with
              reader := reader
              readBuffer := stream.readBuffer ++ tempBuf.drop len })

end RfcommStream

inductive ReadCall where
  | read (loadAsync : LoadAsync) (buf : Bytes)
  | pollRead (loadAsync : LoadAsync) (buf : ReadBuf)

def ReadCall.loadAsync : ReadCall → LoadAsync
  | read loadAsync _ => loadAsync
  | pollRead loadAsync _ => loadAsync

structure Reading where
  stream : RfcommStream
  handed : Bytes

namespace Reading

def next (state : Reading) : ReadCall → Reading
  | .read loadAsync buf =>
    match state.stream.read loadAsync buf with
    | (.ok count, buf, stream) => { stream := stream, handed := state.handed ++ buf.take count }
    | (.error _, _, stream) => { state with stream := stream }
  | .pollRead loadAsync buf =>
    match state.stream.pollRead loadAsync buf with
    | (_, after, stream) =>
      { stream := stream, handed := state.handed ++ after.filled.drop buf.filled.length }

def Allowed (state : Reading) (call : ReadCall) : Prop :=
  ∀ count loaded, call.loadAsync count = .ok loaded → state.stream.reader.Loads count loaded

structure InOrder (sent : Bytes) (state : Reading) : Prop where
  complete : state.handed ++ state.stream.reader.incoming = sent
  unbuffered : state.stream.readBuffer = []
  consumed : state.stream.reader.unconsumed = []
  configured : state.stream.config = {}

structure Faithful (sent : Bytes) (state : Reading) : Prop extends InOrder sent state where
  ended : state.stream.closed = true → state.stream.reader.AtEnd

def loaded (state : Reading) : Except String UInt32 → Reading
  | .error _ => state
  | .ok loaded =>
    if loaded = 0 then { state with stream := { state.stream with closed := true } }
    else
      { stream := { state.stream with
          reader := { state.stream.reader with
            incoming := state.stream.reader.incoming.drop loaded.toNat } }
        handed := state.handed ++ state.stream.reader.incoming.take loaded.toNat }

theorem readBytes_load (reader : DataReader) (consumed : reader.unconsumed = []) (count : Nat)
    (sent : count ≤ reader.incoming.length) :
    (reader.load count).readBytes count =
      some (reader.incoming.take count,
        { reader with incoming := reader.incoming.drop count }) := by
  have all : (reader.incoming.take count).length = count := List.length_take_of_le sent
  have inside : count ≤ (reader.load count).unconsumed.length := by
    rw [DataReader.load, consumed, List.nil_append]
    exact Nat.le_of_eq all.symm
  rw [DataReader.readBytes, if_pos inside]
  simp only [DataReader.load, consumed, List.nil_append, List.take_take, Nat.min_self,
    List.drop_take, Nat.sub_self, List.take_zero]

theorem load_zero (reader : DataReader) : reader.load 0 = reader := by
  simp [DataReader.load]

variable {sent : Bytes} {state : Reading}

theorem next_read (inOrder : InOrder sent state) (loadAsync : LoadAsync) (buf : Bytes)
    (allowed : state.Allowed (.read loadAsync buf)) :
    state.next (.read loadAsync buf) =
      if state.stream.closed then state
      else state.loaded (loadAsync (.ofNat buf.length)) := by
  by_cases closed : state.stream.closed = true
  next => simp [next, RfcommStream.read, closed]
  next =>
    rw [if_neg closed]
    cases answer : loadAsync (.ofNat buf.length) with
    | error message => simp [next, RfcommStream.read, closed, answer, Reading.loaded]
    | ok loaded =>
      have loads := allowed _ loaded answer
      by_cases none : loaded = 0
      next => simp [next, RfcommStream.read, closed, answer, none, Reading.loaded, load_zero]
      next =>
        have fits : (state.stream.reader.incoming.take loaded.toNat).length = loaded.toNat :=
          List.length_take_of_le loads.sent
        have front : (state.stream.reader.incoming.take loaded.toNat ++
            buf.drop loaded.toNat).take loaded.toNat =
              state.stream.reader.incoming.take loaded.toNat := by
          rw [List.take_append_of_le_length (Nat.le_of_eq fits.symm), List.take_take, Nat.min_self]
        simp [next, RfcommStream.read, closed, answer, none, Reading.loaded,
          readBytes_load _ inOrder.consumed _ loads.sent, front]

theorem next_pollRead (inOrder : InOrder sent state) (loadAsync : LoadAsync) (buf : ReadBuf)
    (allowed : state.Allowed (.pollRead loadAsync buf)) :
    state.next (.pollRead loadAsync buf) =
      state.loaded (loadAsync (.ofNat (min buf.remaining 8192))) := by
  have size : state.stream.config.bufferSize = 8192 := by rw [inOrder.configured]
  cases answer : loadAsync (.ofNat (min buf.remaining 8192)) with
  | error message =>
    simp [next, RfcommStream.pollRead, inOrder.unbuffered, size, answer, Reading.loaded]
  | ok loaded =>
    have loads := allowed _ loaded answer
    by_cases none : loaded = 0
    next =>
      simp [next, RfcommStream.pollRead, inOrder.unbuffered, size, answer, none, Reading.loaded,
        load_zero]
    next =>
      -- No more is loaded than there is room for, so that nothing is left for the next call.
      have room : loaded.toNat ≤ buf.remaining := by
        have bounded := UInt32.le_iff_toNat_le.mp loads.bounded
        have small : (UInt32.ofNat (min buf.remaining 8192)).toNat ≤ min buf.remaining 8192 :=
          Nat.mod_le _ _
        omega
      simp [next, RfcommStream.pollRead, inOrder.unbuffered, size, answer, none, Reading.loaded,
        readBytes_load _ inOrder.consumed _ loads.sent, Nat.min_eq_left loads.sent,
        Nat.min_eq_right room, List.take_take]

def asked (call : ReadCall) : UInt32 :=
  match call with
  | .read _ buf => .ofNat buf.length
  | .pollRead _ buf => .ofNat (min buf.remaining 8192)

theorem next_cases (inOrder : InOrder sent state) (call : ReadCall)
    (allowed : state.Allowed call) :
    state.next call = state ∧ state.stream.closed = true ∨
      state.next call = state.loaded (call.loadAsync (asked call)) := by
  cases call with
  | read loadAsync buf =>
    rw [next_read inOrder loadAsync buf allowed]
    split
    next closed => exact .inl ⟨rfl, closed⟩
    next => exact .inr rfl
  | pollRead loadAsync buf => exact .inr (next_pollRead inOrder loadAsync buf allowed)

theorem loaded_inOrder (inOrder : InOrder sent state) (answer : Except String UInt32) :
    InOrder sent (state.loaded answer) := by
  cases answer with
  | error message => exact inOrder
  | ok loaded =>
    rw [Reading.loaded]
    split
    next => exact { inOrder with }
    next =>
      exact { inOrder with
        complete := by
          rw [List.append_assoc, List.take_append_drop]
          exact inOrder.complete }

theorem next_inOrder (inOrder : InOrder sent state) (call : ReadCall)
    (allowed : state.Allowed call) : InOrder sent (state.next call) := by
  rcases next_cases inOrder call allowed with ⟨same, _⟩ | same
  next => rwa [same]
  next =>
    rw [same]
    exact loaded_inOrder inOrder _

def HasNoRoom : ReadCall → Prop
  | .read _ buf => buf.length % 2 ^ 32 = 0
  | .pollRead _ buf => buf.remaining = 0

instance : DecidablePred HasNoRoom
  | .read _ _ => inferInstanceAs (Decidable (_ = _))
  | .pollRead _ _ => inferInstanceAs (Decidable (_ = _))

theorem asked_eq_zero (call : ReadCall) : asked call = 0 ↔ HasNoRoom call := by
  cases call with
  | read loadAsync buf =>
    rw [← UInt32.toNat_inj]
    exact Iff.rfl
  | pollRead loadAsync buf =>
    rw [← UInt32.toNat_inj]
    have small : (UInt32.ofNat (min buf.remaining 8192)).toNat = min buf.remaining 8192 :=
      Nat.mod_eq_of_lt (by omega)
    rw [asked, small, HasNoRoom, UInt32.toNat_zero]
    omega

def RoomToEnd (state : Reading) (call : ReadCall) : Prop :=
  HasNoRoom call → (∃ loaded, call.loadAsync 0 = .ok loaded) → state.stream.reader.AtEnd

theorem loaded_ended (faithful : Faithful sent state) (call : ReadCall)
    (allowed : state.Allowed call) (room : state.RoomToEnd call)
    (closed : (state.loaded (call.loadAsync (asked call))).stream.closed = true) :
    (state.loaded (call.loadAsync (asked call))).stream.reader.AtEnd := by
  revert closed
  cases answer : call.loadAsync (asked call) with
  | error message => exact faithful.ended
  | ok loaded =>
    have loads := allowed _ loaded answer
    rw [Reading.loaded]
    split
    next none =>
      intro _
      rcases loads.some none with nothing | ended
      next =>
        rw [nothing] at answer
        exact room ((asked_eq_zero call).mp nothing) ⟨loaded, answer⟩
      next => exact ended
    next some =>
      intro closed
      have empty := (faithful.ended closed).1
      have sent := loads.sent
      rw [empty, List.length_nil] at sent
      exact absurd (UInt32.toNat_inj.mp (Nat.le_zero.mp sent)) some

theorem next_faithful_iff (faithful : Faithful sent state) (call : ReadCall)
    (allowed : state.Allowed call) :
    Faithful sent (state.next call) ↔ state.RoomToEnd call := by
  have inOrder := faithful.toInOrder
  constructor
  next =>
    intro after noRoom ⟨loaded, answer⟩
    have none : loaded = 0 := by
      have bounded := UInt32.le_iff_toNat_le.mp (allowed 0 loaded answer).bounded
      rw [← UInt32.toNat_inj]
      exact Nat.le_zero.mp bounded
    rcases next_cases inOrder call allowed with ⟨_, closed⟩ | same
    next => exact faithful.ended closed
    next =>
      rw [(asked_eq_zero call).mpr noRoom, answer, none] at same
      have ended := after.ended
      rw [same] at ended
      exact ended rfl
  next =>
    intro room
    refine ⟨next_inOrder inOrder call allowed, ?_⟩
    rcases next_cases inOrder call allowed with ⟨same, _⟩ | same
    next =>
      rw [same]
      exact faithful.ended
    next =>
      rw [same]
      exact loaded_ended faithful call allowed room

def start (socket : StreamSocket) : Reading := { stream := .fromSocket socket, handed := [] }

theorem stream_faithful_iff (socket : StreamSocket) (calls : List ReadCall)
    (allowed : Run.Each next Allowed (start socket) calls) :
    (∀ before, before <+: calls → InOrder socket.incoming (before.foldl next (start socket))) ∧
    ((∀ before, before <+: calls → Faithful socket.incoming (before.foldl next (start socket))) ↔
      Run.Each next RoomToEnd (start socket) calls) := by
  have initial : Faithful socket.incoming (start socket) :=
    ⟨⟨rfl, rfl, rfl, rfl⟩, fun closed => nomatch closed⟩
  constructor
  next =>
    exact Run.reached_of_each next (InOrder socket.incoming) Allowed
      (fun _ call inOrder => next_inOrder inOrder call) _ calls initial.toInOrder allowed
  next =>
    exact Run.reached_iff_of_each next (Faithful socket.incoming) RoomToEnd Allowed
      (fun _ call faithful => next_faithful_iff faithful call) _ calls initial allowed

def trickle : LoadAsync := fun count => .ok (if count = 0 then 0 else 1)

theorem trickle_allowed (state : Reading) (more : state.stream.reader.incoming ≠ [])
    (call : ReadCall) (answered : call.loadAsync = trickle) : state.Allowed call := by
  intro count loaded answer
  rw [answered] at answer
  have yields := Except.ok.inj answer
  have long := List.length_pos_of_ne_nil more
  by_cases nothing : count = 0
  next =>
    obtain rfl : 0 = loaded := by simpa [nothing] using yields
    exact ⟨by simp [nothing], by simp, fun _ => .inl nothing⟩
  next =>
    obtain rfl : 1 = loaded := by simpa [nothing] using yields
    have positive : 0 < count.toNat :=
      Nat.pos_of_ne_zero fun zero => nothing (UInt32.toNat_inj.mp zero)
    refine ⟨UInt32.le_iff_toNat_le.mpr positive, long, fun zero => ?_⟩
    exact absurd zero (by decide)

def greeting : StreamSocket where
  incoming := [72, 105]
  ended := true
  outOfBounds := "The operation attempted to access data outside the valid range"

def mixedReads : List ReadCall := [.pollRead trickle ⟨[], 4, by decide⟩, .read trickle [0, 0]]

theorem stream_faithful_iff_mixed :
    Faithful [72, 105] (mixedReads.foldl next (start greeting)) := by
  have allowed : Run.Each next Allowed (start greeting) mixedReads :=
    ⟨trickle_allowed _ (by decide) _ rfl, trickle_allowed _ (by decide) _ rfl, trivial⟩
  refine (stream_faithful_iff greeting mixedReads allowed).2.mpr ?_ _ (List.prefix_refl _)
  refine ⟨fun noRoom => ?_, fun noRoom => ?_, trivial⟩
  next => exact absurd noRoom (by decide)
  next => exact absurd noRoom (by decide)

theorem empty_read_closes :
    Run.Each next Allowed (start greeting) [.read trickle []] ∧
    ¬ Faithful [72, 105] ([ReadCall.read trickle []].foldl next (start greeting)) := by
  constructor
  next => exact ⟨trickle_allowed _ (by decide) _ rfl, trivial⟩
  next =>
    intro faithful
    have ended := (faithful.ended rfl).1
    contradiction

end Reading

end BitDrive
