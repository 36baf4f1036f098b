import BitDrive.Shared.Chunked

set_option autoImplicit false

namespace Chunked

inductive Event (α : Type) where
  | item (value : α)
  | failure

variable {σ ε α β τ : Type}

namespace Decoder

/-- Items and failures stay as they are when input is added behind them, and they are decided by
the input they take away. A failure that takes none away leaves everything as it was. -/
structure Stable (decoder : Decoder σ ε α τ) : Prop where
  item : ∀ state buffer value next rest, decoder.step state buffer = .item value next rest →
    ∀ more, decoder.step state (buffer ++ more) = .item value next (rest ++ more)
  fail : ∀ state buffer error next rest, decoder.step state buffer = .fail error next rest →
    ∀ more, decoder.step state (buffer ++ more) = .fail error next (rest ++ more)
  item_exact : ∀ state buffer value next rest, decoder.step state buffer = .item value next rest →
    ∃ front, buffer = front ++ rest ∧ decoder.step state front = .item value next []
  fail_exact : ∀ state buffer error next rest, decoder.step state buffer = .fail error next rest →
    (∃ front, front ≠ [] ∧ buffer = front ++ rest ∧
        decoder.step state front = .fail error next []) ∨
      next = state ∧ rest = buffer

def events (decoder : Decoder σ ε α τ) (state : σ) (buffer : List τ) : List (Event α) :=
  match _known : decoder.step state buffer with
  | .wait => []
  | .fail _ next rest =>
    if _shorter : rest.length < buffer.length then .failure :: events decoder next rest
    else [.failure]
  | .item value next rest => .item value :: events decoder next rest
termination_by buffer.length
decreasing_by
  · exact _shorter
  · exact decoder.progress _ _ _ _ _ _known

theorem events_wait (decoder : Decoder σ ε α τ) (state : σ) (buffer : List τ)
    (wait : decoder.step state buffer = .wait) : decoder.events state buffer = [] := by
  rw [events]
  split <;> simp_all

theorem events_item (decoder : Decoder σ ε α τ) (state next : σ) (buffer rest : List τ) (value : α)
    (item : decoder.step state buffer = .item value next rest) :
    decoder.events state buffer = .item value :: decoder.events next rest := by
  rw [events]
  split <;> simp_all

theorem events_failed (decoder : Decoder σ ε α τ) (state next : σ) (buffer rest : List τ)
    (error : ε) (failed : decoder.step state buffer = .fail error next rest)
    (shorter : rest.length < buffer.length) :
    decoder.events state buffer = .failure :: decoder.events next rest := by
  rw [events]
  split <;> simp_all

theorem events_stuck (decoder : Decoder σ ε α τ) (state next : σ) (buffer rest : List τ)
    (error : ε) (failed : decoder.step state buffer = .fail error next rest)
    (longer : ¬ rest.length < buffer.length) : decoder.events state buffer = [.failure] := by
  rw [events]
  split
  next wait =>
    rw [failed] at wait
    contradiction
  next taken =>
    rw [failed] at taken
    cases taken
    rw [dif_neg longer]
  next item =>
    rw [failed] at item
    contradiction

theorem events_nil (decoder : Decoder σ ε α τ) (state : σ) : decoder.events state [] = [] :=
  decoder.events_wait state [] (decoder.empty state)

/-- What one call does with the events of its buffer, whatever input follows. -/
inductive Drains (decoder : Decoder σ ε α τ) (state : σ) (buffer : List τ) :
    Except ε (List α) × σ × List τ → Prop where
  | done (values : List α) (next : σ) (rest : List τ) (wait : decoder.step next rest = .wait)
      (passed : ∀ more, decoder.events state (buffer ++ more) =
        values.map .item ++ decoder.events next (rest ++ more)) :
      Drains decoder state buffer (.ok values, next, rest)
  | failed (values : List α) (error : ε) (next : σ) (rest : List τ)
      (passed : ∀ more, decoder.events state (buffer ++ more) =
        values.map .item ++ .failure :: decoder.events next (rest ++ more)) :
      Drains decoder state buffer (.error error, next, rest)
  | stuck (values : List α) (error : ε) (next : σ) (rest : List τ)
      (passed : ∀ more, decoder.events state (buffer ++ more) = values.map .item ++ [.failure])
      (again : ∀ more, decoder.events next (rest ++ more) = [.failure]) :
      Drains decoder state buffer (.error error, next, rest)

theorem Drains.item {decoder : Decoder σ ε α τ} {state next : σ} {buffer rest : List τ} {value : α}
    {result : Except ε (List α) × σ × List τ} (drains : decoder.Drains next rest result)
    (first : ∀ more, decoder.events state (buffer ++ more) =
      .item value :: decoder.events next (rest ++ more)) :
    decoder.Drains state buffer (result.1.map (value :: ·), result.2) := by
  cases drains with
  | done values last left wait passed =>
    have whole (more : List τ) : decoder.events state (buffer ++ more) =
        (value :: values).map .item ++ decoder.events last (left ++ more) := by
      simp only [first, passed, List.map_cons, List.cons_append]
    exact .done (value :: values) last left wait whole
  | failed values error last left passed =>
    have whole (more : List τ) : decoder.events state (buffer ++ more) =
        (value :: values).map .item ++ .failure :: decoder.events last (left ++ more) := by
      simp only [first, passed, List.map_cons, List.cons_append]
    exact .failed (value :: values) error last left whole
  | stuck values error last left passed again =>
    have whole (more : List τ) : decoder.events state (buffer ++ more) =
        (value :: values).map .item ++ [.failure] := by
      simp only [first, passed, List.map_cons, List.cons_append]
    exact .stuck (value :: values) error last left whole again

theorem drain_drains (decoder : Decoder σ ε α τ) (stable : decoder.Stable) (state : σ)
    (buffer : List τ) : decoder.Drains state buffer (decoder.drain state buffer) := by
  induction size : buffer.length using Nat.strongRecOn generalizing state buffer with
  | ind size ih =>
    cases taken : decoder.step state buffer with
    | wait =>
      rw [decoder.drain_wait state buffer taken]
      exact .done [] state buffer taken fun more => rfl
    | fail error next rest =>
      rw [decoder.drain_fail state next buffer rest error taken]
      have later := stable.fail state buffer error next rest taken
      rcases stable.fail_exact state buffer error next rest taken with
        ⟨front, present, whole, _⟩ | ⟨state_same, rest_same⟩
      next =>
        have shorter : rest.length < buffer.length := by
          have positive := List.length_pos_iff.mpr present
          simp only [whole, List.length_append]
          omega
        have passed (more : List τ) : decoder.events state (buffer ++ more) =
            .failure :: decoder.events next (rest ++ more) :=
          decoder.events_failed state next _ _ error (later more) (by simpa using shorter)
        exact .failed [] error next rest passed
      next =>
        have still (more : List τ) : decoder.events state (buffer ++ more) = [.failure] :=
          decoder.events_stuck state next _ _ error (later more) (by simp [rest_same])
        simp only [state_same, rest_same]
        exact .stuck [] error state buffer still still
    | item value next rest =>
      have shorter := decoder.progress state buffer value next rest taken
      rw [decoder.drain_item state next buffer rest value taken]
      have first (more : List τ) : decoder.events state (buffer ++ more) =
          .item value :: decoder.events next (rest ++ more) :=
        decoder.events_item state next _ _ value
          (stable.item state buffer value next rest taken more)
      exact (ih rest.length (size ▸ shorter) next rest rfl).item first

theorem events_prefix (decoder : Decoder σ ε α τ) (stable : decoder.Stable) (state : σ)
    (buffer more : List τ) :
    decoder.events state buffer <+: decoder.events state (buffer ++ more) := by
  induction size : buffer.length using Nat.strongRecOn generalizing state buffer with
  | ind size ih =>
    cases taken : decoder.step state buffer with
    | wait =>
      rw [decoder.events_wait state buffer taken]
      exact List.nil_prefix
    | fail error next rest =>
      have later := stable.fail state buffer error next rest taken more
      by_cases shorter : rest.length < buffer.length
      next =>
        rw [decoder.events_failed state next _ _ error taken shorter,
          decoder.events_failed state next _ _ error later (by simpa using shorter)]
        exact (List.prefix_cons_inj _).mpr (ih rest.length (size ▸ shorter) next rest rfl)
      next =>
        have same : decoder.events state (buffer ++ more) = decoder.events state buffer := by
          rw [decoder.events_stuck state next _ _ error taken shorter,
            decoder.events_stuck state next _ _ error later (by simpa using shorter)]
        exact same ▸ List.prefix_refl _
    | item value next rest =>
      have shorter := decoder.progress state buffer value next rest taken
      rw [decoder.events_item state next _ _ value taken,
        decoder.events_item state next _ _ value (stable.item _ _ _ _ _ taken more)]
      exact (List.prefix_cons_inj _).mpr (ih rest.length (size ▸ shorter) next rest rfl)

theorem events_cut (decoder : Decoder σ ε α τ) (stable : decoder.Stable) (state : σ)
    (buffer : List τ) (before after : List (Event α)) (value : α)
    (shown : decoder.events state buffer = before ++ .item value :: after) :
    ∃ front back, buffer = front ++ back ∧
      decoder.events state front = before ++ [.item value] := by
  induction size : buffer.length using Nat.strongRecOn generalizing state buffer before with
  | ind size ih =>
    cases taken : decoder.step state buffer with
    | wait =>
      rw [decoder.events_wait state buffer taken] at shown
      exact absurd shown.symm (by simp)
    | fail error next rest =>
      rcases stable.fail_exact state buffer error next rest taken with
        ⟨head, present, whole, failed⟩ | ⟨_, rest_same⟩
      next =>
        have shorter (front : List τ) : front.length < (head ++ front).length := by
          have positive := List.length_pos_iff.mpr present
          rw [List.length_append]
          omega
        have size_rest : rest.length < buffer.length := whole ▸ shorter rest
        rw [decoder.events_failed state next _ _ error taken size_rest] at shown
        cases before with
        | nil => simp at shown
        | cons first before =>
          have ⟨same, later⟩ := List.cons.inj shown
          have ⟨front, back, split, cut⟩ := ih rest.length (size ▸ size_rest) next rest before later rfl
          have failing := decoder.events_failed state next _ _ error
            (stable.fail _ _ _ _ _ failed front) (shorter front)
          simp only [List.nil_append, cut, same] at failing
          exact ⟨head ++ front, back, by simp only [whole, split, List.append_assoc], failing⟩
      next =>
        rw [decoder.events_stuck state next _ _ error taken (by rw [rest_same]; omega)] at shown
        cases before <;> simp at shown
    | item taken_value next rest =>
      have ⟨head, whole, item⟩ := stable.item_exact state buffer taken_value next rest taken
      have size_rest := decoder.progress state buffer taken_value next rest taken
      rw [decoder.events_item state next _ _ _ taken] at shown
      cases before with
      | nil =>
        have ⟨same, _⟩ := List.cons.inj shown
        have alone := decoder.events_item state next _ _ _ item
        simp only [decoder.events_nil, same] at alone
        exact ⟨head, rest, whole, alone⟩
      | cons first before =>
        have ⟨same, later⟩ := List.cons.inj shown
        have ⟨front, back, split, cut⟩ := ih rest.length (size ▸ size_rest) next rest before later rfl
        have taking := decoder.events_item state next _ _ _ (stable.item _ _ _ _ _ item front)
        simp only [List.nil_append, cut, same] at taking
        exact ⟨head ++ front, back, by simp only [whole, split, List.append_assoc], taking⟩

/-- What the calls that succeed hand out; the calls go on after one that fails. -/
def delivered (decoder : Decoder σ ε α τ) (visible : α → List β) :
    σ → List τ → List (List τ) → List β
  | _, _, [] => []
  | state, buffer, chunk :: chunks =>
    let drained := decoder.drain state (buffer ++ chunk)
    (match drained.1 with
      | .ok values => values.flatMap visible
      | .error _ => []) ++ delivered decoder visible drained.2.1 drained.2.2 chunks

end Decoder

def Event.shown (visible : α → List β) : Event α → List β
  | .item value => visible value
  | .failure => []

namespace Decoder

variable (decoder : Decoder σ ε α τ) (visible : α → List β)

/-- Each item that hands something out comes before a failure that the buffer shows by itself. -/
def NothingLeft (state : σ) (buffer stream : List τ) : Prop :=
  ∀ before value after, decoder.events state (buffer ++ stream) = before ++ .item value :: after →
    visible value ≠ [] → .failure ∈ (decoder.events state buffer).drop before.length

theorem flatMap_shown (values : List α) :
    (values.map Event.item).flatMap (Event.shown visible) = values.flatMap visible := by
  rw [List.flatMap_map]
  rfl

theorem item_after_failure (values : List α) (before tail rest : List (Event α)) (value : α)
    (split : before ++ .item value :: tail = values.map .item ++ .failure :: rest)
    (clean : .failure ∉ tail) :
    ∃ later, before = values.map .item ++ .failure :: later ∧ rest = later ++ .item value :: tail := by
  rcases List.append_eq_append_iff.mp split with ⟨middle, items, follow⟩ | ⟨middle, items, follow⟩
  next =>
    cases middle with
    | nil => simp at follow
    | cons head middle =>
      have ⟨_, inside⟩ := List.cons.inj follow
      exact absurd (by simp [inside]) clean
  next =>
    cases middle with
    | nil => simp at follow
    | cons head middle =>
      have ⟨same, follow⟩ := List.cons.inj follow
      exact ⟨middle, by rw [items, same], follow⟩

theorem failure_not_mem (values : List α) : Event.failure ∉ values.map Event.item := by
  simp

theorem delivered_whole (stable : decoder.Stable) (state : σ) (buffer : List τ)
    (chunks : List (List τ)) (present : chunks ≠ [])
    (clean : .failure ∉ decoder.events state (buffer ++ chunks.flatten)) :
    decoder.delivered visible state buffer chunks =
      (decoder.events state (buffer ++ chunks.flatten)).flatMap (Event.shown visible) := by
  induction chunks generalizing state buffer with
  | nil => contradiction
  | cons chunk chunks ih =>
    have drains := decoder.drain_drains stable state (buffer ++ chunk)
    rw [List.flatten_cons, ← List.append_assoc] at clean ⊢
    rw [delivered]
    generalize decoder.drain state (buffer ++ chunk) = result at drains ⊢
    cases drains with
    | done values next rest wait passed =>
      simp only [passed, List.mem_append] at clean
      simp only [passed, List.flatMap_append, flatMap_shown]
      congr 1
      cases chunks with
      | nil => simp [delivered, decoder.events_wait next rest wait]
      | cons second chunks =>
        exact ih next rest (List.cons_ne_nil _ _) fun later => clean (.inr later)
    | failed values error next rest passed =>
      rw [passed] at clean
      simp at clean
    | stuck values error next rest passed again =>
      rw [passed] at clean
      simp at clean

variable {decoder} {visible}

theorem events_done {state next : σ} {buffer rest : List τ} {values : List α}
    (wait : decoder.step next rest = .wait)
    (passed : ∀ more, decoder.events state (buffer ++ more) =
      values.map .item ++ decoder.events next (rest ++ more)) :
    decoder.events state buffer = values.map .item := by
  simpa [decoder.events_wait next rest wait] using passed []

theorem events_at_failure {state next : σ} {buffer rest : List τ} {values : List α}
    (passed : ∀ more, decoder.events state (buffer ++ more) =
      values.map .item ++ .failure :: decoder.events next (rest ++ more)) :
    decoder.events state buffer = values.map .item ++ .failure :: decoder.events next rest := by
  simpa using passed []

theorem NothingLeft.hidden {state : σ} {buffer stream : List τ}
    (nothing : decoder.NothingLeft visible state buffer stream)
    (clean : .failure ∉ decoder.events state buffer) (before after : List (Event α)) (value : α)
    (shown : decoder.events state (buffer ++ stream) = before ++ .item value :: after) :
    visible value = [] := by
  by_contra seen
  exact clean (List.mem_of_mem_drop (nothing before value after shown seen))

theorem NothingLeft.done {state next : σ} {buffer chunk rest stream : List τ} {values : List α}
    (nothing : decoder.NothingLeft visible state buffer (chunk ++ stream))
    (clean : .failure ∉ decoder.events state buffer)
    (passed : ∀ more, decoder.events state (buffer ++ chunk ++ more) =
      values.map .item ++ decoder.events next (rest ++ more)) :
    values.flatMap visible = [] ∧ decoder.NothingLeft visible next rest stream := by
  have whole : decoder.events state (buffer ++ (chunk ++ stream)) =
      values.map .item ++ decoder.events next (rest ++ stream) := by
    rw [← List.append_assoc, passed]
  constructor
  next =>
    rw [List.flatMap_eq_nil_iff]
    intro value member
    obtain ⟨before, after, split⟩ := List.append_of_mem member
    apply nothing.hidden clean (before.map .item)
      (after.map .item ++ decoder.events next (rest ++ stream)) value
    simp [whole, split]
  next =>
    intro before value after shown seen
    have behind : decoder.events state (buffer ++ (chunk ++ stream)) =
        values.map .item ++ before ++ .item value :: after := by
      rw [whole, shown, List.append_assoc]
    exact absurd (nothing.hidden clean _ after value behind) seen

theorem NothingLeft.failed {state next : σ} {buffer chunk rest stream : List τ} {values : List α}
    (stable : decoder.Stable)
    (nothing : decoder.NothingLeft visible state buffer (chunk ++ stream))
    (passed : ∀ more, decoder.events state (buffer ++ chunk ++ more) =
      values.map .item ++ .failure :: decoder.events next (rest ++ more)) :
    decoder.NothingLeft visible next rest stream := by
  intro before value after shown seen
  have found := nothing (values.map .item ++ .failure :: before) value after
    (by rw [← List.append_assoc, passed, shown]; simp) seen
  have still : .failure ∈ (decoder.events state (buffer ++ chunk)).drop
      (values.map Event.item ++ .failure :: before).length := by
    obtain ⟨tail, split⟩ := decoder.events_prefix stable state buffer chunk
    rw [← split, List.drop_append]
    exact List.mem_append_left _ found
  simp only [events_at_failure passed, List.drop_append, List.mem_append] at still
  have behind := still.resolve_left fun inside =>
    failure_not_mem values (List.mem_of_mem_drop inside)
  simpa using behind

variable (decoder) (visible)

theorem nothingLeft_nil (stable : decoder.Stable) (state : σ) (buffer : List τ)
    (chunks : List (List τ)) (nothing : decoder.NothingLeft visible state buffer chunks.flatten) :
    decoder.delivered visible state buffer chunks = [] := by
  induction chunks generalizing state buffer with
  | nil => rfl
  | cons chunk chunks ih =>
    have drains := decoder.drain_drains stable state (buffer ++ chunk)
    rw [List.flatten_cons] at nothing
    rw [delivered]
    generalize decoder.drain state (buffer ++ chunk) = result at drains ⊢
    cases drains with
    | done values next rest wait passed =>
      have clean : .failure ∉ decoder.events state buffer := by
        intro failure
        have member := (decoder.events_prefix stable state buffer chunk).subset failure
        rw [events_done wait passed] at member
        exact failure_not_mem values member
      obtain ⟨first, later⟩ := nothing.done clean passed
      simp [first, ih next rest later]
    | failed values error next rest passed => exact ih next rest (nothing.failed stable passed)
    | stuck values error next rest passed again =>
      apply ih next rest
      intro before value after shown
      rw [again] at shown
      cases before <;> simp at shown

theorem delivered_shown (stable : decoder.Stable) (state : σ) (buffer chunk : List τ)
    (chunks : List (List τ)) (before tail : List (Event α)) (value : α)
    (shown : decoder.events state (buffer ++ chunk) = before ++ .item value :: tail)
    (clean : .failure ∉ tail) (seen : visible value ≠ []) :
    ∃ count, decoder.delivered visible state buffer
      (chunk :: (List.replicate count [] ++ chunks)) ≠ [] := by
  induction size : before.length using Nat.strongRecOn generalizing state buffer chunk before with
  | ind size ih =>
    have drains := decoder.drain_drains stable state (buffer ++ chunk)
    simp only [delivered]
    generalize decoder.drain state (buffer ++ chunk) = result at drains ⊢
    cases drains with
    | done values next rest wait passed =>
      have here : values.map .item = before ++ .item value :: tail := by
        rw [← shown, events_done wait passed]
      have member : value ∈ values := by
        have inside : Event.item value ∈ values.map Event.item := by simp [here]
        simpa using inside
      exact ⟨0, fun empty => seen
        (List.flatMap_eq_nil_iff.mp (List.append_eq_nil_iff.mp empty).1 value member)⟩
    | failed values error next rest passed =>
      have here : before ++ .item value :: tail =
          values.map .item ++ .failure :: decoder.events next rest := by
        rw [← shown, events_at_failure passed]
      have ⟨later, split, rest_shown⟩ := item_after_failure values before tail _ value here clean
      have ⟨count, delivers⟩ := ih later.length
        (by rw [← size, split, List.length_append, List.length_cons]; omega) next rest [] later
        (by rw [List.append_nil, rest_shown]) rfl
      exact ⟨count + 1, delivers⟩
    | stuck values error next rest passed again =>
      have here : before ++ .item value :: tail = values.map .item ++ [.failure] := by
        rw [← shown]
        simpa using passed []
      have ⟨later, _, rest_shown⟩ := item_after_failure values before tail [] value here clean
      exact absurd rest_shown (by simp)

theorem delivered_failed (stable : decoder.Stable) (state : σ) (buffer chunk : List τ)
    (failure : .failure ∈ decoder.events state (buffer ++ chunk)) :
    decoder.delivered visible state buffer [chunk] = [] := by
  have drains := decoder.drain_drains stable state (buffer ++ chunk)
  simp only [delivered]
  generalize decoder.drain state (buffer ++ chunk) = result at drains ⊢
  cases drains with
  | done values next rest wait passed =>
    rw [events_done wait passed] at failure
    exact absurd failure (failure_not_mem values)
  | failed values error next rest passed => rfl
  | stuck values error next rest passed again => rfl

theorem shown_in_time (stable : decoder.Stable) (state : σ) (buffer stream : List τ)
    (before after : List (Event α)) (value : α)
    (shown : decoder.events state (buffer ++ stream) = before ++ .item value :: after)
    (free : .failure ∉ (decoder.events state buffer).drop before.length) :
    ∃ front back tail, stream = front ++ back ∧
      decoder.events state (buffer ++ front) = before ++ .item value :: tail ∧
      .failure ∉ tail := by
  by_cases within : before.length < (decoder.events state buffer).length
  next =>
    have ⟨rest, extended⟩ := decoder.events_prefix stable state buffer stream
    rw [shown] at extended
    have known : decoder.events state buffer =
        before ++ (decoder.events state buffer).drop before.length := by
      have same := congrArg (List.take before.length) extended
      simp only [List.take_append_of_le_length (Nat.le_of_lt within), List.take_left] at same
      conv_lhs => rw [← List.take_append_drop before.length (decoder.events state buffer), same]
    generalize (decoder.events state buffer).drop before.length = left at known free
    simp only [known, List.append_assoc, List.append_cancel_left_eq] at extended
    cases left with
    | nil => simp [known] at within
    | cons head left =>
      have ⟨same, _⟩ := List.cons.inj extended
      have clean (inside : .failure ∈ left) : False :=
        free (List.mem_cons_of_mem head inside)
      exact ⟨[], stream, left, rfl, by rw [List.append_nil, known, same], clean⟩
  next =>
    have ⟨front, back, split, cut⟩ := decoder.events_cut stable state _ before after value shown
    rcases List.append_eq_append_iff.mp split with ⟨middle, whole, follow⟩ | ⟨middle, whole, follow⟩
    next => exact ⟨middle, back, [], follow, by rw [← whole, cut], by simp⟩
    next =>
      have early := (decoder.events_prefix stable state front middle).length_le
      rw [← whole, cut, List.length_append, List.length_singleton] at early
      exact absurd early within

theorem delivered_agree_iff (stable : decoder.Stable) (state : σ) (buffer stream : List τ) :
    (∀ cuts cuts', cuts.flatten = stream → cuts'.flatten = stream →
        decoder.delivered visible state buffer cuts =
          decoder.delivered visible state buffer cuts') ↔
      (stream ≠ [] ∧ .failure ∉ decoder.events state (buffer ++ stream)) ∨
        decoder.NothingLeft visible state buffer stream := by
  constructor
  next =>
    intro agree
    by_cases nothing : decoder.NothingLeft visible state buffer stream
    next => exact .inr nothing
    next =>
      left
      simp only [NothingLeft, not_forall] at nothing
      have ⟨before, value, after, shown, seen, free⟩ := nothing
      have ⟨front, back, tail, split, soon, clean⟩ :=
        decoder.shown_in_time stable state buffer stream before after value shown free
      have ⟨count, delivers⟩ := decoder.delivered_shown visible stable state buffer front [back] before
        tail value soon clean seen
      have whole : (front :: (List.replicate count [] ++ [back])).flatten = stream := by
        simp [split]
      constructor
      next =>
        intro empty
        exact delivers (agree _ [] whole (by rw [empty, List.flatten_nil]))
      next =>
        intro failure
        have none := decoder.delivered_failed visible stable state buffer stream failure
        exact delivers ((agree _ [stream] whole (by simp)).trans none)
  next =>
    intro either cuts cuts' whole whole'
    cases either with
    | inl clean =>
      have present (cuts : List (List τ)) (whole : cuts.flatten = stream) : cuts ≠ [] := by
        intro empty
        rw [empty] at whole
        exact clean.1 whole.symm
      rw [decoder.delivered_whole visible stable _ _ _ (present cuts whole) (whole ▸ clean.2),
        decoder.delivered_whole visible stable _ _ _ (present cuts' whole') (whole' ▸ clean.2),
        whole, whole']
    | inr nothing =>
      rw [decoder.nothingLeft_nil visible stable _ _ _ (whole ▸ nothing),
        decoder.nothingLeft_nil visible stable _ _ _ (whole' ▸ nothing)]

end Decoder

end Chunked
