import Mathlib.Algebra.GroupWithZero.Nat
import Mathlib.Data.List.Basic

set_option autoImplicit false

namespace Chunked

inductive Step (σ ε α τ : Type) where
  | wait
  | fail (error : ε) (state : σ) (rest : List τ)
  | item (value : α) (state : σ) (rest : List τ)

structure Decoder (σ ε α τ : Type) where
  step : σ → List τ → Step σ ε α τ
  empty : ∀ state, step state [] = .wait
  progress : ∀ state buffer value next rest,
    step state buffer = .item value next rest → rest.length < buffer.length

variable {σ ε α τ : Type}

namespace Decoder

def drain (decoder : Decoder σ ε α τ) (state : σ) (buffer : List τ) :
    Except ε (List α) × σ × List τ :=
  match _known : decoder.step state buffer with
  | .wait => (.ok [], state, buffer)
  | .fail error next rest => (.error error, next, rest)
  | .item value next rest =>
    let drained := drain decoder next rest
    (drained.1.map (value :: ·), drained.2)
termination_by buffer.length
decreasing_by exact decoder.progress _ _ _ _ _ _known

def feedAll (decoder : Decoder σ ε α τ) :
    σ → List τ → List (List τ) → Except ε (List α) × σ × List τ
  | state, buffer, [] => (.ok [], state, buffer)
  | state, buffer, chunk :: chunks =>
    match decoder.drain state (buffer ++ chunk) with
    | (.error error, next, rest) => (.error error, next, rest)
    | (.ok values, next, rest) =>
      let fed := feedAll decoder next rest chunks
      (fed.1.map (values ++ ·), fed.2)

structure Token (decoder : Decoder σ ε α τ) (state : σ) (bytes : List τ) (value : α) (next : σ) :
    Prop where
  whole : ∀ rest, decoder.step state (bytes ++ rest) = .item value next rest
  part : ∀ part missing, part ++ missing = bytes → missing ≠ [] → decoder.step state part = .wait

inductive Stream (decoder : Decoder σ ε α τ) : σ → List τ → List α → σ → Prop where
  | nil (state : σ) : Stream decoder state [] [] state
  | cons {state next last : σ} {bytes rest : List τ} {value : α} {values : List α}
      (head : decoder.Token state bytes value next) (tail : Stream decoder next rest values last) :
      Stream decoder state (bytes ++ rest) (value :: values) last

theorem drain_wait (decoder : Decoder σ ε α τ) (state : σ) (buffer : List τ)
    (wait : decoder.step state buffer = .wait) :
    decoder.drain state buffer = (.ok [], state, buffer) := by
  rw [drain]
  split <;> simp_all

theorem drain_fail (decoder : Decoder σ ε α τ) (state next : σ) (buffer rest : List τ) (error : ε)
    (failed : decoder.step state buffer = .fail error next rest) :
    decoder.drain state buffer = (.error error, next, rest) := by
  rw [drain]
  split <;> simp_all

theorem drain_item (decoder : Decoder σ ε α τ) (state next : σ) (buffer rest : List τ) (value : α)
    (item : decoder.step state buffer = .item value next rest) :
    decoder.drain state buffer =
      ((decoder.drain next rest).1.map (value :: ·), (decoder.drain next rest).2) := by
  rw [drain]
  split <;> simp_all

theorem drain_invariant (decoder : Decoder σ ε α τ) (holds : σ → Prop)
    (taking : ∀ state buffer value next rest, decoder.step state buffer = .item value next rest →
      holds state → holds next)
    (failing : ∀ state buffer error next rest, decoder.step state buffer = .fail error next rest →
      holds state → holds next)
    (state : σ) (buffer : List τ) (initial : holds state) :
    holds (decoder.drain state buffer).2.1 := by
  induction size : buffer.length using Nat.strongRecOn generalizing state buffer with
  | ind size ih =>
    cases taken : decoder.step state buffer with
    | wait => rwa [decoder.drain_wait state buffer taken]
    | fail error next rest =>
      rw [decoder.drain_fail state next buffer rest error taken]
      exact failing state buffer error next rest taken initial
    | item value next rest =>
      have shorter := decoder.progress state buffer value next rest taken
      rw [decoder.drain_item state next buffer rest value taken]
      exact ih rest.length (size ▸ shorter) next rest
        (taking state buffer value next rest taken initial) rfl

inductive Reaches (decoder : Decoder σ ε α τ) : σ → List τ → σ → List τ → Prop where
  | here (state : σ) (buffer : List τ) : Reaches decoder state buffer state buffer
  | item {state next last : σ} {buffer rest left : List τ} {value : α}
      (taken : decoder.step state buffer = .item value next rest)
      (more : Reaches decoder next rest last left) : Reaches decoder state buffer last left

theorem Reaches.drain_fail {decoder : Decoder σ ε α τ} {state middle last : σ}
    {buffer rest left : List τ} {error : ε} (reached : decoder.Reaches state buffer middle rest)
    (failed : decoder.step middle rest = .fail error last left) :
    decoder.drain state buffer = (.error error, last, left) := by
  induction reached with
  | here state buffer => exact decoder.drain_fail state last buffer left error failed
  | item taken more ih =>
    simp only [decoder.drain_item _ _ _ _ _ taken, ih failed]
    rfl

theorem drain_error (decoder : Decoder σ ε α τ) (state last : σ) (buffer left : List τ) (error : ε)
    (drained : decoder.drain state buffer = (.error error, last, left)) :
    ∃ middle rest, decoder.Reaches state buffer middle rest ∧
      decoder.step middle rest = .fail error last left := by
  induction size : buffer.length using Nat.strongRecOn generalizing state buffer with
  | ind size ih =>
    cases taken : decoder.step state buffer with
    | wait =>
      have settled := decoder.drain_wait state buffer taken
      simp [settled] at drained
    | fail found next rest =>
      have failed := decoder.drain_fail state next buffer rest found taken
      have same : found = error ∧ next = last ∧ rest = left := by
        simpa [failed] using drained
      have ⟨sameError, sameState, sameRest⟩ := same
      subst sameError sameState sameRest
      exact ⟨state, buffer, .here state buffer, taken⟩
    | item value next rest =>
      have shorter := decoder.progress state buffer value next rest taken
      have unfolded := decoder.drain_item state next buffer rest value taken
      have inner : decoder.drain next rest = (.error error, last, left) := by
        cases known : decoder.drain next rest with
        | mk result final =>
          cases result with
          | error other => simpa [unfolded, known, Except.map] using drained
          | ok values => simp [unfolded, known, Except.map] at drained
      have ⟨middle, stuck, reached, failed⟩ := ih rest.length (size ▸ shorter) next rest inner rfl
      exact ⟨middle, stuck, .item taken reached, failed⟩

theorem Stream.wait_nil {decoder : Decoder σ ε α τ} {state last : σ} {bytes : List τ}
    {values : List α} (stream : decoder.Stream state bytes values last)
    (wait : decoder.step state bytes = .wait) : bytes = [] ∧ values = [] ∧ last = state := by
  cases stream with
  | nil => exact ⟨rfl, rfl, rfl⟩
  | cons head tail => rw [head.whole] at wait; contradiction

theorem Stream.concat {decoder : Decoder σ ε α τ} {state last next : σ} {bytes more : List τ}
    {values : List α} {value : α} (stream : decoder.Stream state bytes values last)
    (token : decoder.Token last more value next) :
    decoder.Stream state (bytes ++ more) (values ++ [value]) next := by
  induction stream with
  | nil state => simpa using Stream.cons token (.nil next)
  | cons head tail ih =>
    rw [List.append_assoc]
    exact .cons head (ih token)

theorem Stream.invariant {decoder : Decoder σ ε α τ} {state last : σ} {bytes : List τ}
    {values : List α} (stream : decoder.Stream state bytes values last) (holds : σ → Prop)
    (taking : ∀ state buffer value next rest, decoder.step state buffer = .item value next rest →
      holds state → holds next) (initial : holds state) : holds last := by
  induction stream with
  | nil => exact initial
  | cons head tail ih => exact ih (taking _ _ _ _ _ (head.whole []) initial)

structure Unnoticed (decoder : Decoder σ ε α τ) (change : σ → σ) : Prop where
  wait : ∀ state buffer, decoder.step state buffer = .wait →
    decoder.step (change state) buffer = .wait
  item : ∀ state buffer value next rest, decoder.step state buffer = .item value next rest →
    decoder.step (change state) buffer = .item value (change next) rest

theorem Unnoticed.stream {decoder : Decoder σ ε α τ} {change : σ → σ}
    (unnoticed : decoder.Unnoticed change) {state last : σ} {bytes : List τ} {values : List α}
    (stream : decoder.Stream state bytes values last) :
    decoder.Stream (change state) bytes values (change last) := by
  induction stream with
  | nil state => exact .nil (change state)
  | @cons state next last bytes rest value values head tail ih =>
    have token : decoder.Token (change state) bytes value (change next) := by
      constructor
      next =>
        intro rest
        exact unnoticed.item state _ value next rest (head.whole rest)
      next =>
        intro part missing split absent
        exact unnoticed.wait state part (head.part part missing split absent)
    exact .cons token ih

theorem Stream.drain {decoder : Decoder σ ε α τ} {state last : σ} {bytes : List τ}
    {values : List α} (stream : decoder.Stream state bytes values last) (front back : List τ)
    (cut : front ++ back = bytes) :
    ∃ taken left middle rest, decoder.drain state front = (.ok taken, middle, rest) ∧
      values = taken ++ left ∧ decoder.Stream middle (rest ++ back) left last ∧
      decoder.step middle rest = .wait := by
  induction stream generalizing front with
  | nil state =>
    obtain ⟨rfl, rfl⟩ := List.append_eq_nil_iff.mp cut
    exact ⟨[], [], state, [], decoder.drain_wait state [] (decoder.empty state), rfl, .nil state,
      decoder.empty state⟩
  | @cons state next last bytes rest value values head tail ih =>
    by_cases short : ∃ missing, front ++ missing = bytes ∧ missing ≠ []
    · obtain ⟨missing, split, absent⟩ := short
      have wait := head.part front missing split absent
      refine ⟨[], value :: values, state, front, decoder.drain_wait state front wait, rfl, ?_, wait⟩
      rw [cut]
      exact .cons head tail
    · obtain ⟨after, rfl, follow⟩ : ∃ after, front = bytes ++ after ∧ rest = after ++ back := by
        rcases List.append_eq_append_iff.mp cut with ⟨missing, split, follow⟩ | ⟨after, split, follow⟩
        · have none : missing = [] := by
            by_contra absent
            exact short ⟨missing, split.symm, absent⟩
          subst none
          exact ⟨[], by simpa using split.symm, by simpa using follow.symm⟩
        · exact ⟨after, split, follow⟩
      obtain ⟨taken, left, middle, remain, drained, all, stream, wait⟩ := ih after follow.symm
      refine ⟨value :: taken, left, middle, remain, ?_, by rw [all, List.cons_append], stream, wait⟩
      rw [decoder.drain_item state next _ after value (head.whole after), drained]
      rfl

theorem feedAll_stream (decoder : Decoder σ ε α τ) (state last : σ) (values : List α)
    (buffer : List τ) (chunks : List (List τ))
    (stream : decoder.Stream state (buffer ++ chunks.flatten) values last)
    (wait : decoder.step state buffer = .wait) :
    decoder.feedAll state buffer chunks = (.ok values, last, []) := by
  induction chunks generalizing state buffer values with
  | nil =>
    rw [List.flatten_nil, List.append_nil] at stream
    obtain ⟨rfl, rfl, rfl⟩ := stream.wait_nil wait
    rfl
  | cons chunk chunks ih =>
    obtain ⟨taken, left, middle, rest, drained, rfl, tail, settled⟩ :=
      stream.drain (buffer ++ chunk) chunks.flatten (by simp)
    have fed := ih middle left rest tail settled
    simp only [feedAll, drained, fed]
    rfl

theorem drain_cost (decoder : Decoder σ ε α τ) (cost : α → Nat) (held : σ → Nat)
    (paid : ∀ state buffer value next rest, decoder.step state buffer = .item value next rest →
      cost value + held next + rest.length ≤ held state + buffer.length)
    (state last : σ) (buffer rest : List τ) (values : List α)
    (drained : decoder.drain state buffer = (.ok values, last, rest)) :
    (values.map cost).sum + held last + rest.length ≤ held state + buffer.length := by
  induction size : buffer.length using Nat.strongRecOn generalizing state buffer values with
  | ind size ih =>
    cases taken : decoder.step state buffer with
    | wait =>
      rw [decoder.drain_wait state buffer taken] at drained
      obtain ⟨⟨⟩, rfl, rfl⟩ : [] = values ∧ state = last ∧ buffer = rest := by simpa using drained
      simp [size]
    | fail error next left =>
      rw [decoder.drain_fail state next buffer left error taken] at drained
      cases drained
    | item value next left =>
      rw [decoder.drain_item state next buffer left value taken] at drained
      cases inner : decoder.drain next left with
      | mk result final =>
        cases result with
        | error error => simp [inner, Except.map] at drained
        | ok more =>
          obtain ⟨rfl, rfl⟩ : value :: more = values ∧ final = (last, rest) := by
            simpa [inner, Except.map] using drained
          have shorter := decoder.progress state buffer value next left taken
          have step := paid state buffer value next left taken
          have tail := ih left.length (by omega) next left more inner rfl
          simp only [List.map_cons, List.sum_cons]
          omega

theorem feedAll_cost (decoder : Decoder σ ε α τ) (cost : α → Nat) (held : σ → Nat)
    (paid : ∀ state buffer value next rest, decoder.step state buffer = .item value next rest →
      cost value + held next + rest.length ≤ held state + buffer.length)
    (state last : σ) (buffer rest : List τ) (chunks : List (List τ)) (values : List α)
    (fed : decoder.feedAll state buffer chunks = (.ok values, last, rest)) :
    (values.map cost).sum + held last + rest.length ≤
      held state + buffer.length + chunks.flatten.length := by
  induction chunks generalizing state buffer values with
  | nil =>
    obtain ⟨⟨⟩, rfl, rfl⟩ : [] = values ∧ state = last ∧ buffer = rest := by
      simpa [feedAll] using fed
    simp
  | cons chunk chunks ih =>
    cases first : decoder.drain state (buffer ++ chunk) with
    | mk result middle =>
      obtain ⟨next, left⟩ := middle
      cases result with
      | error error => simp [feedAll, first] at fed
      | ok values₁ =>
        cases more : decoder.feedAll next left chunks with
        | mk result final =>
          cases result with
          | error error => simp [feedAll, first, more, Except.map] at fed
          | ok values₂ =>
            obtain ⟨rfl, rfl⟩ : values₁ ++ values₂ = values ∧ final = (last, rest) := by
              simpa [feedAll, first, more, Except.map] using fed
            have front := drain_cost decoder cost held paid state next _ left values₁ first
            have back := ih next left values₂ more
            simp only [List.map_append, List.sum_append, List.length_append, List.flatten_cons]
              at front back ⊢
            omega

end Decoder

end Chunked
