import Mathlib.Data.List.Nodup
import Mathlib.Data.List.Pairwise

set_option autoImplicit false

namespace Gather

variable {π : Type}

/-- A message, and what is left of it on arrival. -/
structure Transfer (π : Type) where
  sent : List π
  arrived : List π
  kept : arrived.Sublist sent

variable (fragment last : π → Bool)

/-- Pieces that are no fragments pass by those that are pending. -/
def gather : List π → List π → List (List π)
  | _, [] => []
  | pending, piece :: pieces =>
    if fragment piece = false then [piece] :: gather pending pieces
    else if last piece && !pending.isEmpty then (pending ++ [piece]) :: gather [] pieces
    else gather (pending ++ [piece]) pieces

def Closes (piece : π) : Prop := fragment piece = true ∧ last piece = true

/-- A message is one piece of any kind, or fragments of which the last one only says so. -/
inductive Shaped : List π → Prop where
  | single (piece : π) : Shaped [piece]
  | several (front : List π) (final : π) (present : front ≠ [])
      (unfinished : ∀ piece ∈ front, fragment piece = true ∧ last piece = false)
      (closed : Closes fragment last final) : Shaped (front ++ [final])

/-- Nothing of the message is missing, or nothing arrived. One fragment alone is not enough. -/
def Transfer.Intact (transfer : Transfer π) : Prop :=
  transfer.arrived = [] ∨
    transfer.arrived = transfer.sent ∧
      (2 ≤ transfer.sent.length ∨ ∀ piece ∈ transfer.sent, fragment piece = false)

/-- Whenever a last fragment arrives, all messages before it are intact, and its own is intact
or has lost all the fragments before it. -/
def Spared (transfers : List (Transfer π)) : Prop :=
  ∀ earlier transfer later, transfers = earlier ++ transfer :: later →
    (∃ piece ∈ transfer.arrived, Closes fragment last piece) →
      (∀ other ∈ earlier, other.Intact fragment) ∧
        (transfer.Intact fragment ∨ ∃ piece, transfer.arrived = [piece])

theorem spared_cons (transfer : Transfer π) (transfers : List (Transfer π)) :
    Spared fragment last (transfer :: transfers) ↔
      ((∃ piece ∈ transfer.arrived, Closes fragment last piece) →
        transfer.Intact fragment ∨ ∃ piece, transfer.arrived = [piece]) ∧
      ((∃ later ∈ transfers, ∃ piece ∈ later.arrived, Closes fragment last piece) →
        transfer.Intact fragment) ∧
      Spared fragment last transfers := by
  constructor
  next =>
    intro spared
    refine ⟨fun closed => (spared [] transfer transfers rfl closed).2, ?_, ?_⟩
    next =>
      intro ⟨later, member, closed⟩
      have ⟨before, after, split⟩ := List.append_of_mem member
      have both := spared (transfer :: before) later after (by rw [split, List.cons_append]) closed
      exact both.1 transfer List.mem_cons_self
    next =>
      intro earlier other later split closed
      have both := spared (transfer :: earlier) other later (by rw [split, List.cons_append]) closed
      exact ⟨fun known member => both.1 known (List.mem_cons_of_mem _ member), both.2⟩
  next =>
    intro ⟨first, intact, rest⟩ earlier other later split closed
    cases earlier with
    | nil =>
      have ⟨same, _⟩ := List.cons.inj split
      rw [← same] at closed ⊢
      exact ⟨by simp, first closed⟩
    | cons head earlier =>
      have ⟨same, tail⟩ := List.cons.inj split
      have both := rest earlier other later tail closed
      have head_intact := same ▸ intact ⟨other, by simp [tail], closed⟩
      exact ⟨List.forall_mem_cons.mpr ⟨head_intact, both.1⟩, both.2⟩

theorem gather_unfinished (pending front pieces : List π)
    (unfinished : ∀ piece ∈ front, fragment piece = true ∧ last piece = false) :
    gather fragment last pending (front ++ pieces) =
      gather fragment last (pending ++ front) pieces := by
  induction front generalizing pending with
  | nil => simp
  | cons piece front ih =>
    have ⟨head, tail⟩ := List.forall_mem_cons.mp unfinished
    rw [List.cons_append, gather, if_neg (by simp [head.1]), if_neg (by simp [head.2]), ih _ tail,
      List.append_assoc, List.singleton_append]

theorem gather_closed (pending pieces : List π) (final : π) (present : pending ≠ [])
    (closed : Closes fragment last final) :
    gather fragment last pending (final :: pieces) =
      (pending ++ [final]) :: gather fragment last [] pieces := by
  rw [gather, if_neg (by simp [closed.1]), if_pos (by simp [closed.2, present])]

theorem gather_start (pieces : List π) (piece : π) (isFragment : fragment piece = true) :
    gather fragment last [] (piece :: pieces) = gather fragment last [piece] pieces := by
  rw [gather, if_neg (by simp [isFragment]), if_neg (by simp), List.nil_append]

theorem gather_spoiled (whole : List π → Prop) (spoiler : π) (pending pieces : List π)
    (inside : spoiler ∈ pending)
    (apart : ∀ taken, whole taken → spoiler ∈ taken → ∀ piece ∈ pieces, piece ∉ taken)
    (alone : ∀ piece ∈ pieces, fragment piece = false → whole [piece]) :
    (∀ taken ∈ gather fragment last pending pieces, whole taken) ↔
      ∀ piece ∈ pieces, ¬ Closes fragment last piece := by
  induction pieces generalizing pending with
  | nil => simp [gather]
  | cons piece pieces ih =>
    have later (queue : List π) (held : spoiler ∈ queue) := ih queue held
      (fun taken known inside other member =>
        apart taken known inside other (List.mem_cons_of_mem _ member))
      (fun other member => alone other (List.mem_cons_of_mem _ member))
    have present : pending ≠ [] := List.ne_nil_of_mem inside
    rw [List.forall_mem_cons]
    cases kind : fragment piece with
    | false =>
      have harmless : ¬ Closes fragment last piece := by simp [Closes, kind]
      simp only [gather, if_pos kind, List.forall_mem_cons, later pending inside]
      exact and_congr_left' (iff_of_true (alone piece List.mem_cons_self kind) harmless)
    | true =>
      by_cases closed : last piece = true
      next =>
        have closes : Closes fragment last piece := ⟨kind, closed⟩
        simp only [gather_closed fragment last pending pieces piece present closes, List.forall_mem_cons]
        have broken : ¬ whole (pending ++ [piece]) := by
          intro known
          exact apart _ known (by simp [inside]) piece List.mem_cons_self (by simp)
        exact iff_of_false (fun both => broken both.1) (fun both => both.1 closes)
      next =>
        have open_piece : ¬ Closes fragment last piece := fun both => closed both.2
        rw [gather, if_neg (by simp [kind]), if_neg (by simp [closed]),
          later _ (List.mem_append_left _ inside)]
        exact (and_iff_right open_piece).symm

/-- `whole` holds of the messages, and of nothing else that shares a piece with one of them. -/
structure Separates (whole : List π → Prop) (transfers : List (Transfer π)) : Prop where
  sent : ∀ transfer ∈ transfers, whole transfer.sent
  only : ∀ taken, whole taken → ∀ transfer ∈ transfers, ∀ piece ∈ taken,
    piece ∈ transfer.sent → taken = transfer.sent

theorem Separates.tail {whole : List π → Prop} {transfer : Transfer π}
    {transfers : List (Transfer π)} (separates : Separates whole (transfer :: transfers)) :
    Separates whole transfers where
  sent other member := separates.sent other (List.mem_cons_of_mem _ member)
  only taken known other member := separates.only taken known other (List.mem_cons_of_mem _ member)

theorem mem_sent (transfers : List (Transfer π)) (piece : π)
    (member : piece ∈ transfers.flatMap Transfer.arrived) :
    ∃ transfer ∈ transfers, piece ∈ transfer.arrived ∧ piece ∈ transfer.sent := by
  have ⟨transfer, inside, arrived⟩ := List.mem_flatMap.mp member
  exact ⟨transfer, inside, arrived, transfer.kept.subset arrived⟩

theorem alone_of_shaped (sent : List π) (shaped : Shaped fragment last sent) (piece : π)
    (member : piece ∈ sent) (kind : fragment piece = false) : sent = [piece] := by
  cases shaped with
  | single only => rw [List.mem_singleton.mp member]
  | several front final present unfinished closed =>
    cases List.mem_append.mp member with
    | inl inside => exact absurd (unfinished piece inside).1 (by simp [kind])
    | inr at_end =>
      simp only [List.mem_singleton.mp at_end, closed.1] at kind
      contradiction

theorem gather_left (whole : List π → Prop) (transfer : Transfer π)
    (transfers : List (Transfer π)) (pending : List π) (spoiler : π)
    (inside : spoiler ∈ pending) (own : spoiler ∈ transfer.sent)
    (shaped : ∀ other ∈ transfers, Shaped fragment last other.sent)
    (separates : Separates whole (transfer :: transfers))
    (disjoint : ∀ other ∈ transfers, List.Disjoint transfer.sent other.sent) :
    (∀ taken ∈ gather fragment last pending (transfers.flatMap Transfer.arrived), whole taken) ↔
      ¬ ∃ later ∈ transfers, ∃ piece ∈ later.arrived, Closes fragment last piece := by
  rw [gather_spoiled fragment last whole spoiler pending _ inside]
  next => simp only [List.mem_flatMap]; grind
  next =>
    intro taken known held piece member shared
    have ⟨other, later, _, sent⟩ := mem_sent transfers piece member
    have same := separates.only taken known transfer List.mem_cons_self spoiler held own
    exact disjoint other later (same ▸ shared) sent
  next =>
    intro piece member kind
    have ⟨other, later, _, sent⟩ := mem_sent transfers piece member
    rw [← alone_of_shaped fragment last other.sent (shaped other later) piece sent kind]
    exact separates.tail.sent other later

theorem intact_gather (transfer : Transfer π) (pieces : List π)
    (shaped : Shaped fragment last transfer.sent) (intact : transfer.Intact fragment) :
    gather fragment last [] (transfer.arrived ++ pieces) = gather fragment last [] pieces ∨
      gather fragment last [] (transfer.arrived ++ pieces) =
        transfer.sent :: gather fragment last [] pieces := by
  cases intact with
  | inl nothing =>
    left
    simp only [nothing, List.nil_append]
  | inr all =>
    have ⟨same, enough⟩ := all
    right
    rw [same]
    generalize transfer.sent = sent at shaped enough
    cases shaped with
    | single piece =>
      have kind : fragment piece = false := by simpa using enough
      simp only [List.singleton_append, gather, if_pos kind]
    | several front final present unfinished closed =>
      rw [List.append_assoc, gather_unfinished fragment last [] front _ unfinished,
        List.nil_append, List.singleton_append,
        gather_closed fragment last front pieces final present closed]

/-- What a message that is not intact does: it stays pending, or it is handed out in part. -/
inductive Damage (transfer : Transfer π) (pieces : List π) : Prop where
  | pending (held : List π) (spoiler : π) (inside : spoiler ∈ held)
      (own : spoiler ∈ transfer.sent)
      (gathered : gather fragment last [] (transfer.arrived ++ pieces) =
        gather fragment last held pieces)
      (unseen : (∃ piece ∈ transfer.arrived, Closes fragment last piece) →
        ∃ piece, transfer.arrived = [piece])
  | handedOut (taken : List π) (piece : π) (inside : piece ∈ taken) (own : piece ∈ transfer.sent)
      (short : taken ≠ transfer.sent)
      (gathered : gather fragment last [] (transfer.arrived ++ pieces) =
        taken :: gather fragment last [] pieces)
      (seen : ¬ ((∃ piece ∈ transfer.arrived, Closes fragment last piece) →
        ∃ piece, transfer.arrived = [piece]))

theorem Damage.lone (transfer : Transfer π) (pieces : List π) (piece : π)
    (only : transfer.arrived = [piece]) (kind : fragment piece = true) :
    Damage fragment last transfer pieces := by
  have own : piece ∈ transfer.sent := transfer.kept.subset (by simp [only])
  have held : gather fragment last [] (transfer.arrived ++ pieces) =
      gather fragment last [piece] pieces := by
    rw [only]
    exact gather_start fragment last pieces piece kind
  exact .pending [piece] piece (by simp) own held fun _ => ⟨piece, only⟩

theorem Damage.unclosed (transfer : Transfer π) (pieces : List π)
    (something : transfer.arrived ≠ [])
    (unfinished : ∀ piece ∈ transfer.arrived, fragment piece = true ∧ last piece = false) :
    Damage fragment last transfer pieces := by
  obtain ⟨piece, member⟩ := List.exists_mem_of_ne_nil _ something
  refine .pending transfer.arrived piece member (transfer.kept.subset member) ?_ ?_
  next => rw [gather_unfinished fragment last [] _ pieces unfinished, List.nil_append]
  next =>
    rintro ⟨other, inside, closes⟩
    exact absurd closes.2 (by simp [(unfinished other inside).2])

theorem Damage.closing (transfer : Transfer π) (pieces before : List π) (final : π)
    (split : transfer.arrived = before ++ [final]) (present : before ≠ [])
    (unfinished : ∀ piece ∈ before, fragment piece = true ∧ last piece = false)
    (closed : Closes fragment last final) (short : transfer.arrived ≠ transfer.sent) :
    Damage fragment last transfer pieces := by
  have arrives : final ∈ transfer.arrived := by simp [split]
  refine .handedOut transfer.arrived final arrives (transfer.kept.subset arrives) short ?_ ?_
  next =>
    rw [split, List.append_assoc, gather_unfinished fragment last [] before _ unfinished,
      List.nil_append, List.singleton_append,
      gather_closed fragment last before pieces final present closed]
  next =>
    intro unseen
    obtain ⟨piece, single⟩ := unseen ⟨final, arrives, closed⟩
    have size := congrArg List.length single
    simp only [split, List.length_append, List.length_singleton] at size
    exact present (List.length_eq_zero_iff.mp (by omega))

theorem damaged_gather (transfer : Transfer π) (pieces : List π)
    (shaped : Shaped fragment last transfer.sent) (damaged : ¬ transfer.Intact fragment) :
    Damage fragment last transfer pieces := by
  obtain ⟨something, lost⟩ := not_or.mp damaged
  have kept := transfer.kept
  generalize known : transfer.sent = sent at shaped kept
  cases shaped with
  | single piece =>
    have only : transfer.arrived = [piece] :=
      (List.sublist_singleton.mp kept).resolve_left something
    exact .lone fragment last transfer pieces piece only (by simpa [only, known] using lost)
  | several front final present unfinished closed =>
    have long : 2 ≤ transfer.sent.length := by
      have positive := List.length_pos_iff.mpr present
      rw [known, List.length_append, List.length_singleton]
      omega
    have short : transfer.arrived ≠ transfer.sent := fun whole => lost ⟨whole, .inl long⟩
    obtain ⟨before, ending, split, part, tail⟩ := List.sublist_append_iff.mp kept
    have still : ∀ piece ∈ before, fragment piece = true ∧ last piece = false :=
      fun piece member => unfinished piece (part.subset member)
    rcases List.sublist_singleton.mp tail with cut | same
    next =>
      rw [cut, List.append_nil] at split
      exact .unclosed fragment last transfer pieces something (split ▸ still)
    next =>
      rw [same] at split
      by_cases first : before = []
      next =>
        rw [first, List.nil_append] at split
        exact .lone fragment last transfer pieces final split closed.1
      next => exact .closing fragment last transfer pieces before final split first still closed short

theorem gather_whole_iff (whole : List π → Prop) (transfers : List (Transfer π))
    (shaped : ∀ transfer ∈ transfers, Shaped fragment last transfer.sent)
    (separates : Separates whole transfers)
    (disjoint : transfers.Pairwise fun first second => List.Disjoint first.sent second.sent) :
    (∀ taken ∈ gather fragment last [] (transfers.flatMap Transfer.arrived), whole taken) ↔
      Spared fragment last transfers := by
  induction transfers with
  | nil => simp [gather, Spared]
  | cons transfer transfers ih =>
    have ⟨apart, disjoint⟩ := List.pairwise_cons.mp disjoint
    have ⟨first, others⟩ := List.forall_mem_cons.mp shaped
    have rest := ih others separates.tail disjoint
    have whole_sent := separates.sent transfer List.mem_cons_self
    rw [spared_cons, List.flatMap_cons, ← rest]
    by_cases intact : transfer.Intact fragment
    next =>
      simp only [intact, true_or, implies_true, true_and]
      rcases intact_gather fragment last transfer (transfers.flatMap Transfer.arrived) first intact
        with same | same
      next => rw [same]
      next => simp only [same, List.forall_mem_cons, and_iff_right whole_sent]
    next =>
      simp only [intact, false_or, imp_false]
      have quiet (unseen : ¬ ∃ later ∈ transfers, ∃ piece ∈ later.arrived,
          Closes fragment last piece) : Spared fragment last transfers := by
        intro earlier other later split closed
        exact absurd ⟨other, by simp [split], closed⟩ unseen
      cases damaged_gather fragment last transfer (transfers.flatMap Transfer.arrived) first intact with
      | pending held spoiler inside own gathered unseen =>
        rw [gathered, gather_left fragment last whole transfer transfers held spoiler inside own
          others separates apart]
        exact ⟨fun silent => ⟨unseen, silent, rest.mpr (quiet silent)⟩, fun both => both.2.1⟩
      | handedOut taken piece inside own short gathered seen =>
        simp only [gathered, List.forall_mem_cons]
        have broken (known : whole taken) : False :=
          short (separates.only taken known transfer List.mem_cons_self piece inside own)
        exact iff_of_false (fun both => broken both.1) (fun both => seen both.1)

theorem exists_transfers (messages : List (List π)) (received : List π)
    (kept : received.Sublist messages.flatten) :
    ∃ transfers : List (Transfer π), transfers.map Transfer.sent = messages ∧
      transfers.flatMap Transfer.arrived = received := by
  induction messages generalizing received with
  | nil => exact ⟨[], rfl, (List.sublist_nil.mp kept).symm⟩
  | cons sent messages ih =>
    have ⟨arrived, others, split, own, rest⟩ := List.sublist_append_iff.mp kept
    have ⟨transfers, same, flat⟩ := ih others rest
    exact ⟨⟨sent, arrived, own⟩ :: transfers, by rw [List.map_cons, same],
      by rw [List.flatMap_cons, flat, split]⟩

theorem separates_of_disjoint (transfers : List (Transfer π))
    (disjoint : transfers.Pairwise fun first second => List.Disjoint first.sent second.sent) :
    Separates (fun taken => ∃ transfer ∈ transfers, taken = transfer.sent) transfers where
  sent transfer member := ⟨transfer, member, rfl⟩
  only := by
    intro taken ⟨source, known, same⟩ transfer member piece inside own
    by_cases one : source = transfer
    next => simp only [same, one]
    next =>
      have : Std.Symm fun first second : Transfer π => List.Disjoint first.sent second.sent :=
        ⟨fun _ _ => List.disjoint_symm⟩
      exact absurd own (disjoint.forall known member one (same ▸ inside))

theorem Shaped.of_map {ρ : Type} (carry : π → ρ) {fragment last : ρ → Bool} {pieces : List π}
    (shaped : Shaped fragment last (pieces.map carry)) :
    Shaped (fun piece => fragment (carry piece)) (fun piece => last (carry piece)) pieces := by
  generalize images : pieces.map carry = sent at shaped
  cases shaped with
  | single image =>
    have ⟨piece, only, _⟩ := List.map_eq_singleton_iff.mp images
    rw [only]
    exact .single piece
  | several front final present unfinished closed =>
    have ⟨before, ending, split, front_eq, final_eq⟩ := List.map_eq_append_iff.mp images
    have ⟨piece, only, same⟩ := List.map_eq_singleton_iff.mp final_eq
    simp only [split, only]
    refine .several before piece ?_ ?_ (by simpa [Closes, same] using closed)
    next =>
      intro empty
      exact present (by rw [← front_eq, empty, List.map_nil])
    next =>
      intro other member
      exact unfinished (carry other) (front_eq ▸ List.mem_map_of_mem member)

end Gather
