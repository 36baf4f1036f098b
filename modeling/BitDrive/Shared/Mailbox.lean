import Mathlib.Data.List.Basic

set_option autoImplicit false

structure Mailbox (α : Type) where
  capacity : Nat
  waiting : List α
  senders : Nat

namespace Mailbox

variable {α : Type}

inductive Received (α : Type) where
  | value (value : α)
  | closed
  | pending

def trySend (box : Mailbox α) (value : α) : Bool × Mailbox α :=
  if box.waiting.length < box.capacity then
    (true, { box with waiting := box.waiting ++ [value] })
  else (false, box)

def receive (box : Mailbox α) : Received α × Mailbox α :=
  match box.waiting with
  | value :: waiting => (.value value, { box with waiting := waiting })
  | [] => (if box.senders = 0 then .closed else .pending, box)

def join (box : Mailbox α) : Mailbox α := { box with senders := box.senders + 1 }

def leave (box : Mailbox α) : Mailbox α := { box with senders := box.senders - 1 }

structure Traffic (α : Type) where
  sent : List α
  refused : List α
  received : List α

def Traffic.none : Traffic α where
  sent := []
  refused := []
  received := []

structure Carries (box : Mailbox α) (traffic : Traffic α) : Prop where
  order : traffic.received ++ box.waiting = traffic.sent
  bound : box.waiting.length ≤ box.capacity

def Traffic.send (traffic : Traffic α) (box : Mailbox α) (value : α) : Traffic α :=
  if (box.trySend value).1 then { traffic with sent := traffic.sent ++ [value] }
  else { traffic with refused := traffic.refused ++ [value] }

def Traffic.receive (traffic : Traffic α) (box : Mailbox α) : Traffic α :=
  match box.receive.1 with
  | .value value => { traffic with received := traffic.received ++ [value] }
  | _ => traffic

theorem trySend_fixed (box : Mailbox α) (value : α) :
    (box.trySend value).2.capacity = box.capacity ∧
      (box.trySend value).2.senders = box.senders := by
  rw [trySend]
  split
  next => exact ⟨rfl, rfl⟩
  next => exact ⟨rfl, rfl⟩

theorem receive_fixed (box : Mailbox α) :
    box.receive.2.capacity = box.capacity ∧ box.receive.2.senders = box.senders := by
  rw [receive]
  split
  next => exact ⟨rfl, rfl⟩
  next => exact ⟨rfl, rfl⟩

theorem Carries.send {box : Mailbox α} {traffic : Traffic α} (carries : box.Carries traffic)
    (value : α) : (box.trySend value).2.Carries (traffic.send box value) := by
  obtain ⟨order, bound⟩ := carries
  simp only [Traffic.send, trySend]
  split
  next room =>
    constructor
    next => simp [← order]
    next =>
      simp only [List.length_append, List.length_singleton]
      omega
  next => exact ⟨order, bound⟩

theorem Carries.receive {box : Mailbox α} {traffic : Traffic α} (carries : box.Carries traffic) :
    box.receive.2.Carries (traffic.receive box) := by
  obtain ⟨order, bound⟩ := carries
  cases held : box.waiting with
  | nil =>
    simp only [Mailbox.receive, Traffic.receive, held]
    by_cases alone : box.senders = 0
    next =>
      simp only [alone, if_true]
      exact ⟨order, bound⟩
    next =>
      simp only [alone, if_false]
      exact ⟨order, bound⟩
  | cons value waiting =>
    rw [held] at order bound
    simp only [Mailbox.receive, Traffic.receive, held]
    constructor
    next => simpa using order
    next =>
      simp only [List.length_cons] at bound ⊢
      omega

theorem Carries.send_cases {box : Mailbox α} {traffic : Traffic α} (carries : box.Carries traffic)
    (value : α) :
    (traffic.send box value).sent = traffic.sent ++ [value] ∧
        (traffic.send box value).refused = traffic.refused ∨
      (traffic.send box value).sent = traffic.sent ∧
        (traffic.send box value).refused = traffic.refused ++ [value] ∧
        traffic.sent.length = traffic.received.length + box.capacity := by
  by_cases room : box.waiting.length < box.capacity
  next =>
    left
    simp only [Traffic.send, trySend, room, if_true]
    exact ⟨trivial, trivial⟩
  next =>
    right
    have full : traffic.sent.length = traffic.received.length + box.capacity := by
      have bound := carries.bound
      rw [← carries.order, List.length_append]
      omega
    simp only [Traffic.send, trySend, room, if_false, Bool.false_eq_true]
    exact ⟨trivial, trivial, full⟩

theorem receive_open (box : Mailbox α) (held : 0 < box.senders) : box.receive.1 ≠ .closed := by
  simp only [receive]
  split
  next => simp
  next =>
    rw [if_neg (by omega)]
    simp

end Mailbox
