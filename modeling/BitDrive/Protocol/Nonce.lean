import BitDrive.Protocol.Codec
import BitDrive.Protocol.KeySchedule
import BitDrive.Shared.Trace

set_option autoImplicit false

namespace BitDrive

open ByteLayout

structure Session where
  txSequence : UInt64

def Session.nextTxSequence (session : Session) : UInt64 × Session :=
  (session.txSequence, { session with txSequence := session.txSequence + 1 })

inductive Party where
  | client
  | server
  deriving DecidableEq

inductive Counter where
  | frameCodec
  | session
  deriving DecidableEq

structure Endpoint where
  codec : ProtocolCodec
  session : Session
  auth : AuthManager

def Endpoint.nextTxSequence (endpoint : Endpoint) : Counter → UInt64 × Endpoint
  | .frameCodec =>
    let numbered := endpoint.codec.frameCodec.nextTxSequence
    (numbered.1, { endpoint with codec := { endpoint.codec with frameCodec := numbered.2 } })
  | .session =>
    let numbered := endpoint.session.nextTxSequence
    (numbered.1, { endpoint with session := numbered.2 })

inductive SessionAction where
  | encrypt (party : Party) (channelId : UInt32) (data : Bytes)
  -- A frame that takes a number and is not encrypted.
  | number (party : Party)
  -- The connection is made anew; the `AuthManager` keeps its keys.
  | reset (party : Party)

structure EncryptCall where
  data : Bytes
  keys : ChannelKeys
  sequence : UInt64

def EncryptCall.pair (call : EncryptCall) : FixedBytes 32 × FixedBytes 12 :=
  (call.keys.encryptionKey, channelNonce call.keys call.sequence)

theorem EncryptCall.seals (crypto : Crypto) (call : EncryptCall) :
    encryptWithChannelKeys crypto call.data call.keys call.sequence = (do
      let ciphertext ← mapErr .encryption
        (crypto.aesGcmEncrypt call.pair.1 call.pair.2 call.data)
      if ciphertext.length < 16 then .error .panic
      else .ok (ciphertext.splitAt (ciphertext.length - 16))) := rfl

def SessionAction.run (counter : Party → Counter) (endpoints : Party → Endpoint) :
    SessionAction → Option EncryptCall × (Party → Endpoint)
  | .encrypt party channelId data =>
    let numbered := (endpoints party).nextTxSequence (counter party)
    (((endpoints party).auth.channelKeys channelId).map fun keys => ⟨data, keys, numbered.1⟩,
      Function.update endpoints party numbered.2)
  | .number party =>
    (none, Function.update endpoints party ((endpoints party).nextTxSequence (counter party)).2)
  | .reset party =>
    (none, Function.update endpoints party
      { endpoints party with codec := (endpoints party).codec.reset })

def NoncesUnique (calls : List EncryptCall) : Prop :=
  calls.Pairwise fun earlier later => earlier.data ≠ later.data → earlier.pair ≠ later.pair

def SessionAction.count (counter : Counter) (party : Party) (count : Nat) : SessionAction → Nat
  | .encrypt other _ _ => if other = party then count + 1 else count
  | .number other => if other = party then count + 1 else count
  | .reset other => if other = party ∧ counter = .frameCodec then 0 else count

def framesNumbered (counter : Counter) (party : Party) (actions : List SessionAction) : Nat :=
  actions.foldl (SessionAction.count counter party) 0

def Endpoint.number (endpoint : Endpoint) (counter : Counter) : UInt64 :=
  (endpoint.nextTxSequence counter).1

theorem Endpoint.number_next (endpoint : Endpoint) (counter : Counter) (count : Nat)
    (start : endpoint.number counter = UInt64.ofNat count) :
    (endpoint.nextTxSequence counter).2.number counter = UInt64.ofNat (count + 1) := by
  have next : (endpoint.nextTxSequence counter).2.number counter = endpoint.number counter + 1 := by
    cases counter <;> rfl
  rw [next, start, UInt64.ofNat_add]
  rfl

theorem Endpoint.auth_next (endpoint : Endpoint) (counter : Counter) :
    (endpoint.nextTxSequence counter).2.auth = endpoint.auth := by
  cases counter <;> rfl

theorem Endpoint.number_reset (endpoint : Endpoint) (counter : Counter) :
    Endpoint.number { endpoint with codec := endpoint.codec.reset } counter =
      if counter = .frameCodec then 0 else endpoint.number counter := by
  cases counter <;> rfl

theorem SessionAction.run_endpoint (counter : Party → Counter) (endpoints : Party → Endpoint)
    (party : Party) (count : Nat) (action : SessionAction)
    (start : (endpoints party).number (counter party) = UInt64.ofNat count) :
    ((action.run counter endpoints).2 party).number (counter party) =
        UInt64.ofNat (action.count (counter party) party count) ∧
      ((action.run counter endpoints).2 party).auth = (endpoints party).auth := by
  have next := (endpoints party).number_next (counter party) count start
  cases action with
  | encrypt other channelId data =>
    by_cases same : other = party
    · subst same
      simpa [run, SessionAction.count, Endpoint.auth_next] using next
    · simpa [run, SessionAction.count, same, Function.update_of_ne (Ne.symm same)] using start
  | number other =>
    by_cases same : other = party
    · subst same
      simpa [run, SessionAction.count, Endpoint.auth_next] using next
    · simpa [run, SessionAction.count, same, Function.update_of_ne (Ne.symm same)] using start
  | reset other =>
    by_cases same : other = party
    · subst same
      by_cases rewound : counter other = .frameCodec <;>
        simp [run, SessionAction.count, Endpoint.number_reset, rewound, start]
    · simpa [run, SessionAction.count, same, Function.update_of_ne (Ne.symm same)] using start

theorem final_endpoint (counter : Party → Counter) (endpoints : Party → Endpoint) (party : Party)
    (count : Nat) (actions : List SessionAction)
    (start : (endpoints party).number (counter party) = UInt64.ofNat count) :
    (Trace.final (SessionAction.run counter) endpoints actions party).number (counter party) =
        UInt64.ofNat (actions.foldl (SessionAction.count (counter party) party) count) ∧
      (Trace.final (SessionAction.run counter) endpoints actions party).auth =
        (endpoints party).auth := by
  induction actions generalizing endpoints count with
  | nil => exact ⟨start, rfl⟩
  | cons action actions ih =>
    obtain ⟨number, auth⟩ := action.run_endpoint counter endpoints party count start
    obtain ⟨numbers, auths⟩ := ih _ _ number
    exact ⟨numbers, auths.trans auth⟩

theorem SessionAction.run_emits (counter : Party → Counter) (endpoints : Party → Endpoint)
    (action : SessionAction) (call : EncryptCall) :
    (action.run counter endpoints).1 = some call ↔
      ∃ party channelId data keys, action = .encrypt party channelId data ∧
        (endpoints party).auth.channelKeys channelId = some keys ∧
        call = ⟨data, keys, (endpoints party).number (counter party)⟩ := by
  rcases action with ⟨party, channelId, data⟩ | party | party
  · simp only [run, Option.map_eq_some_iff]
    constructor
    · rintro ⟨keys, held, rfl⟩
      exact ⟨party, channelId, data, keys, rfl, held, rfl⟩
    · rintro ⟨_, _, _, keys, same, held, rfl⟩
      obtain ⟨rfl, rfl, rfl⟩ := SessionAction.encrypt.inj same
      exact ⟨keys, held, rfl⟩
  · simp [run]
  · simp [run]

theorem channelNonce_sequence (keys : ChannelKeys) (left right : UInt64)
    (same : channelNonce keys left = channelNonce keys right) : left = right := by
  have bytes := congrArg Subtype.val same
  have width : (Layout.u64.put left).length = (Layout.u64.put right).length :=
    (Layout.u64.put_length left).trans (Layout.u64.put_length right).symm
  exact Layout.u64.put_injective _ _ (List.append_inj bytes width).1

theorem channelInput_injective (masterKey : FixedBytes 32) (left right : UInt32)
    (leftBound : left < 16) (rightBound : right < 16)
    (same : channelInput masterKey left = channelInput masterKey right) : left = right := by
  have labels : ∀ first second : Fin 16,
      utf8 s!"bpl-channel-{UInt32.ofNat first.val}" = utf8 s!"bpl-channel-{UInt32.ofNat second.val}" →
      first = second := by
    decide +kernel
  have equal := labels ⟨left.toNat, leftBound⟩ ⟨right.toNat, rightBound⟩
    (by simpa [channelInput] using congrArg HkdfInput.info same)
  exact UInt32.toNat.inj (Fin.mk.inj equal)

section

variable (crypto : Crypto)

def sessionStart (keys : Party → SessionKeys) (party : Party) : Endpoint where
  codec := ProtocolCodec.new
  session := ⟨0⟩
  auth := ⟨none, some (keys party)⟩

def channelInputs (psk : FixedBytes 32) (challenge : AuthChallenge)
    (actions : List SessionAction) : Set HkdfInput :=
  { input | ∃ party channelId data, .encrypt party channelId data ∈ actions ∧ channelId < 16 ∧
    input = channelInput (crypto.okm (masterInput psk challenge.salt) 32) channelId }

theorem scheduled_pair_eq (masterKey : FixedBytes 32) (inputs : Set HkdfInput)
    (collisionFree : crypto.CollisionFreeOn inputs) (left right : UInt32)
    (leftBound : left < 16) (rightBound : right < 16)
    (leftUsed : channelInput masterKey left ∈ inputs)
    (rightUsed : channelInput masterKey right ∈ inputs) (data data' : Bytes)
    (sequence sequence' : UInt64) :
    EncryptCall.pair ⟨data, crypto.scheduledChannelKeys masterKey left, sequence⟩ =
        EncryptCall.pair ⟨data', crypto.scheduledChannelKeys masterKey right, sequence'⟩ ↔
      left = right ∧ sequence = sequence' := by
  constructor
  · intro same
    have channel : left = right := channelInput_injective masterKey left right leftBound rightBound
      (collisionFree leftUsed rightUsed (congrArg Prod.fst same))
    subst channel
    exact ⟨rfl, channelNonce_sequence _ sequence sequence' (congrArg Prod.snd same)⟩
  · rintro ⟨rfl, rfl⟩
    rfl

theorem session_emits (psk : FixedBytes 32) (salt : Bytes) (counter : Party → Counter)
    (past : List SessionAction) (action : SessionAction) (call : EncryptCall) :
    (action.run counter (Trace.final (SessionAction.run counter)
        (sessionStart fun _ => crypto.sessionKeysFor psk salt) past)).1 = some call ↔
      ∃ party channelId data, action = .encrypt party channelId data ∧ channelId < 16 ∧
        call = ⟨data, crypto.scheduledChannelKeys (crypto.okm (masterInput psk salt) 32) channelId,
          UInt64.ofNat (framesNumbered (counter party) party past)⟩ := by
  have state (party : Party) := final_endpoint counter
    (sessionStart fun _ => crypto.sessionKeysFor psk salt) party 0 past
    (by cases known : counter party <;> rfl)
  simp only [SessionAction.run_emits, (state _).1, (state _).2]
  constructor
  · rintro ⟨party, channelId, data, keys, rfl, held, rfl⟩
    simp only [sessionStart, AuthManager.channelKeys, Option.bind_some, Crypto.sessionKeysFor,
      Crypto.scheduledSessionKeys, Option.ite_none_right_eq_some, Option.some.injEq] at held
    obtain ⟨bound, rfl⟩ := held
    exact ⟨party, channelId, data, rfl, bound, rfl⟩
  · rintro ⟨party, channelId, data, rfl, bound, rfl⟩
    exact ⟨party, channelId, data, _, rfl, if_pos bound, rfl⟩

theorem ofNat_eq_iff (left right : Nat) :
    UInt64.ofNat left = UInt64.ofNat right ↔ left % 2 ^ 64 = right % 2 ^ 64 := by
  rw [← UInt64.toNat_inj]
  simp

theorem nonces_unique_iff (psk : FixedBytes 32) (challenge : AuthChallenge)
    (clientNonce : Party → Bytes) (keys : Party → SessionKeys)
    (derived : ∀ party, deriveSessionKeys crypto psk challenge (clientNonce party) =
      .ok (keys party))
    (counter : Party → Counter) (actions : List SessionAction)
    (collisionFree : crypto.CollisionFreeOn (channelInputs crypto psk challenge actions)) :
    NoncesUnique (Trace.outputs (SessionAction.run counter) (sessionStart keys) actions) ↔
      ∀ before party channelId data middle party' data' after,
        actions = before ++ .encrypt party channelId data ::
          (middle ++ .encrypt party' channelId data' :: after) →
        channelId < 16 → data ≠ data' →
        framesNumbered (counter party) party before % 2 ^ 64 ≠
          framesNumbered (counter party') party'
            (before ++ .encrypt party channelId data :: middle) % 2 ^ 64 := by
  obtain rfl : keys = fun _ => crypto.sessionKeysFor psk challenge.salt := by
    funext party
    have same := derived party
    rw [crypto.deriveSessionKeys_eq] at same
    exact (Except.ok.inj same).symm
  rw [NoncesUnique, Trace.pairwise_outputs_iff]
  simp only [session_emits]
  constructor
  · intro unique before party channelId data middle party' data' after split bound different same
    have number := (ofNat_eq_iff _ _).mpr same
    refine unique before _ middle _ after split _ _ ⟨party, channelId, data, rfl, bound, rfl⟩
      ⟨party', channelId, data', rfl, bound, rfl⟩ different ?_
    rw [number]
    rfl
  · intro distinct before first middle second after split earlier later emitted followed different same
    obtain ⟨party, channelId, data, rfl, bound, rfl⟩ := emitted
    obtain ⟨party', other, data', rfl, bound', rfl⟩ := followed
    obtain ⟨rfl, number⟩ := (scheduled_pair_eq crypto _ _ collisionFree channelId other bound bound'
      ⟨party, channelId, data, by simp [split], bound, rfl⟩
      ⟨party', other, data', by simp [split], bound', rfl⟩ _ _ _ _).mp same
    exact distinct before party channelId data middle party' data' after split bound different
      ((ofNat_eq_iff _ _).mp number)

end

def testChallenge : AuthChallenge :=
  AuthManager.generateChallenge (FixedBytes.replicate 32 7) (FixedBytes.replicate 32 1)

theorem nonces_unique_iff_apart :
    ∃ keys, deriveSessionKeys Crypto.reference ⟨List.replicate 32 42, by decide⟩ testChallenge [] =
        .ok keys ∧
      (NoncesUnique (Trace.outputs (SessionAction.run fun _ => .frameCodec)
          (sessionStart fun _ => keys)
          [.encrypt .client 1 [0x61], .number .server, .encrypt .server 1 [0x62]]) ↔
        ∀ before party channelId data middle party' data' after,
          ([.encrypt .client 1 [0x61], .number .server, .encrypt .server 1 [0x62]] :
              List SessionAction) =
            before ++ .encrypt party channelId data ::
              (middle ++ .encrypt party' channelId data' :: after) →
          channelId < 16 → data ≠ data' →
          framesNumbered .frameCodec party before % 2 ^ 64 ≠
            framesNumbered .frameCodec party'
              (before ++ .encrypt party channelId data :: middle) % 2 ^ 64) := by
  have derived := Crypto.reference.deriveSessionKeys_eq ⟨List.replicate 32 42, by decide⟩
    testChallenge []
  refine ⟨_, derived, nonces_unique_iff Crypto.reference _ testChallenge (fun _ => []) _
    (fun _ => derived) (fun _ => .frameCodec) _ ?_⟩
  have only (party : Party) (channelId : UInt32) (data : Bytes)
      (member : SessionAction.encrypt party channelId data ∈
        [.encrypt .client 1 [0x61], .number .server, .encrypt .server 1 [0x62]]) :
      channelId = 1 := by
    simp only [List.mem_cons, SessionAction.encrypt.injEq, List.not_mem_nil, or_false,
      reduceCtorEq, false_or] at member
    rcases member with ⟨_, same, _⟩ | ⟨_, same, _⟩ <;> exact same
  rintro _ ⟨_, channelId, _, member, _, rfl⟩ _ ⟨_, other, _, member', _, rfl⟩ _
  rw [only _ _ _ member, only _ _ _ member']

theorem first_frames_share_nonce :
    ∃ keys, deriveSessionKeys Crypto.reference ⟨List.replicate 32 42, by decide⟩ testChallenge [] =
        .ok keys ∧
      ¬ NoncesUnique (Trace.outputs (SessionAction.run fun _ => .frameCodec)
        (sessionStart fun _ => keys) [.encrypt .client 1 [0x61], .encrypt .server 1 [0x62]]) := by
  refine ⟨_, Crypto.reference.deriveSessionKeys_eq _ _ _, ?_⟩
  rw [NoncesUnique, Trace.pairwise_outputs_iff]
  simp only [session_emits]
  intro unique
  exact unique [] _ [] _ [] rfl _ _ ⟨.client, 1, [0x61], rfl, by decide, rfl⟩
    ⟨.server, 1, [0x62], rfl, by decide, rfl⟩ (by decide) rfl

end BitDrive
