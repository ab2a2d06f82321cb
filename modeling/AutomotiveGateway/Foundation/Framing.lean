import Mathlib.Data.List.Basic
import Mathlib.Tactic.Common

/-!
# Self-delimiting frames on a stream

A format cuts the first complete frame off a stream. The greedy parse repeats
the cut until the remaining stream is incomplete. Because a complete frame stays
complete when more input arrives, a receiver that keeps only the unconsumed
suffix between arrivals computes the greedy parse of everything it was given.

A sender offers each message to its channel once, and the channel takes the piece of
it that it has room for. As long as it takes nothing behind a piece that was cut off,
what it took is the beginning of whole messages.
-/

/-- A rule that cuts the first complete frame off a stream, or waits. -/
structure Framing (α φ : Type*) where
  next : List α → Option (φ × List α)
  consumes : ∀ {stream frame rest}, next stream = some (frame, rest) →
    rest.length < stream.length
  extends_append : ∀ {stream frame rest}, next stream = some (frame, rest) →
    ∀ more, next (stream ++ more) = some (frame, rest ++ more)

namespace Framing

variable {α φ : Type*}

/-- All complete frames at the head of the stream, with the unconsumed suffix. -/
def parse (F : Framing α φ) (stream : List α) : List φ × List α :=
  match _hnext : F.next stream with
  | none => ([], stream)
  | some (frame, rest) => (frame :: (F.parse rest).1, (F.parse rest).2)
termination_by stream.length
decreasing_by all_goals exact F.consumes ‹_›

variable (F : Framing α φ)

theorem parse_of_none {stream : List α} (h : F.next stream = none) :
    F.parse stream = ([], stream) := by
  rw [parse]
  split
  · rfl
  next heq => simp [h] at heq

theorem parse_of_some {stream rest : List α} {frame : φ}
    (h : F.next stream = some (frame, rest)) :
    F.parse stream = (frame :: (F.parse rest).1, (F.parse rest).2) := by
  rw [parse]
  split
  next heq => simp [h] at heq
  next heq =>
    rw [h, Option.some.injEq, Prod.mk.injEq] at heq
    obtain ⟨rfl, rfl⟩ := heq
    rfl

/-- Induction along the successive cuts of the greedy parse. -/
theorem cut_induction {motive : List α → Prop}
    (wait : ∀ stream, F.next stream = none → motive stream)
    (cut : ∀ stream frame rest, F.next stream = some (frame, rest) → motive rest →
      motive stream) (stream : List α) : motive stream := by
  induction hlen : stream.length using Nat.strongRecOn generalizing stream with
  | ind length ih =>
      cases hnext : F.next stream with
      | none => exact wait stream hnext
      | some split =>
          obtain ⟨frame, rest⟩ := split
          have hshort := F.consumes hnext
          exact cut stream frame rest hnext (ih rest.length (by omega) rest rfl)

/-- The suffix left over by the greedy parse holds no complete frame. -/
theorem next_leftover (stream : List α) : F.next (F.parse stream).2 = none := by
  induction stream using F.cut_induction with
  | wait stream hnext => rw [F.parse_of_none hnext, hnext]
  | cut stream frame rest hnext ih => rw [F.parse_of_some hnext, ih]

theorem length_leftover_le (stream : List α) : (F.parse stream).2.length ≤ stream.length := by
  induction stream using F.cut_induction with
  | wait stream hnext => simp [F.parse_of_none hnext]
  | cut stream frame rest hnext ih =>
      rw [F.parse_of_some hnext]
      exact Nat.le_trans ih (Nat.le_of_lt (F.consumes hnext))

/-- Input that arrives later extends the frames of the earlier input and is
parsed behind its leftover. -/
theorem parse_append (stream more : List α) :
    F.parse (stream ++ more) =
      ((F.parse stream).1 ++ (F.parse ((F.parse stream).2 ++ more)).1,
        (F.parse ((F.parse stream).2 ++ more)).2) := by
  induction stream using F.cut_induction with
  | wait stream hnext => simp [F.parse_of_none hnext]
  | cut stream frame rest hnext ih =>
      rw [F.parse_of_some hnext, F.parse_of_some (F.extends_append hnext more), ih]
      rfl

/-- Frames that show the bytes they were cut from make up the stream with its leftover. -/
theorem flatMap_parse {print : φ → List α}
    (hprint : ∀ {stream frame rest}, F.next stream = some (frame, rest) →
      stream = print frame ++ rest) (stream : List α) :
    (F.parse stream).1.flatMap print ++ (F.parse stream).2 = stream := by
  induction stream using F.cut_induction with
  | wait stream hnext => simp [F.parse_of_none hnext]
  | cut stream frame rest hnext ih =>
      rw [F.parse_of_some hnext, List.flatMap_cons, List.append_assoc, ih, ← hprint hnext]

theorem forall_mem_parse {property : φ → Prop}
    (hcut : ∀ {stream frame rest}, F.next stream = some (frame, rest) → property frame)
    (stream : List α) : ∀ frame ∈ (F.parse stream).1, property frame := by
  induction stream using F.cut_induction with
  | wait stream hnext => simp [F.parse_of_none hnext]
  | cut stream frame rest hnext ih =>
      rw [F.parse_of_some hnext]
      exact List.forall_mem_cons.mpr ⟨hcut hnext, ih⟩

/-! ## Length-prefixed frames -/

section LengthPrefixed

variable {η : Type*}

/-- Frames of a fixed-size header that announces the length of the body behind
it. The header is decoded from exactly its own bytes. -/
def lengthPrefixed (headerSize : Nat) (hpos : 0 < headerSize)
    (decode : List α → η) (bodyLength : η → Nat) : Framing α (η × List α) where
  next stream :=
    let header := decode (stream.take headerSize)
    if headerSize ≤ stream.length ∧ headerSize + bodyLength header ≤ stream.length then
      some ((header, (stream.drop headerSize).take (bodyLength header)),
        stream.drop (headerSize + bodyLength header))
    else none
  consumes := by
    intro stream frame rest h
    dsimp only at h
    split at h
    next hfits =>
      simp only [Option.some.injEq, Prod.mk.injEq] at h
      rw [← h.2, List.length_drop]
      omega
    next => simp at h
  extends_append := by
    intro stream frame rest h more
    dsimp only at h ⊢
    split at h
    next hfits =>
      have hheader : (stream ++ more).take headerSize = stream.take headerSize :=
        List.take_append_of_le_length hfits.1
      simp only [Option.some.injEq, Prod.mk.injEq] at h
      obtain ⟨rfl, rfl⟩ := h
      rw [hheader, if_pos (by simp only [List.length_append]; omega),
        List.drop_append_of_le_length hfits.1, List.drop_append_of_le_length hfits.2,
        List.take_append_of_le_length (by rw [List.length_drop]; omega)]
    next => simp at h

variable {headerSize : Nat} {hpos : 0 < headerSize} {decode : List α → η}
  {bodyLength : η → Nat}

theorem lengthPrefixed_next_eq_none {stream : List α} :
    (lengthPrefixed headerSize hpos decode bodyLength).next stream = none ↔
      stream.length < headerSize ∨
        stream.length < headerSize + bodyLength (decode (stream.take headerSize)) := by
  simp only [lengthPrefixed, ite_eq_right_iff, reduceCtorEq, imp_false]
  omega

variable (hpos decode bodyLength) in
theorem lengthPrefixed_next_eq_some {stream : List α}
    (hfits : headerSize + bodyLength (decode (stream.take headerSize)) ≤ stream.length) :
    (lengthPrefixed headerSize hpos decode bodyLength).next stream =
      some ((decode (stream.take headerSize),
          (stream.drop headerSize).take (bodyLength (decode (stream.take headerSize)))),
        stream.drop (headerSize + bodyLength (decode (stream.take headerSize)))) := by
  simp only [lengthPrefixed]
  rw [if_pos ⟨by omega, hfits⟩]

/-- A frame that is cut has the header in front of it, and the body that this announces. -/
theorem of_lengthPrefixed_next {stream rest : List α} {frame : η × List α}
    (h : (lengthPrefixed headerSize hpos decode bodyLength).next stream = some (frame, rest)) :
    stream = stream.take headerSize ++ frame.2 ++ rest ∧
      frame.1 = decode (stream.take headerSize) ∧ (stream.take headerSize).length = headerSize ∧
      frame.2.length = bodyLength frame.1 := by
  simp only [lengthPrefixed] at h
  split at h
  next hfits =>
    simp only [Option.some.injEq, Prod.mk.injEq] at h
    obtain ⟨rfl, rfl⟩ := h
    refine ⟨?_, rfl, List.length_take_of_le hfits.1, ?_⟩
    · rw [List.append_assoc, ← List.drop_drop, List.take_append_drop, List.take_append_drop]
    · rw [List.length_take, List.length_drop]
      exact Nat.min_eq_left (by omega)
  next => simp at h

end LengthPrefixed

end Framing

/-! ## Messages written in pieces -/

namespace Pieces

variable {α : Type*}

/-- Messages with the pieces taken of them: behind a cut one nothing is taken. -/
def StopsAfterCut (writes : List (List α × List α)) : Prop :=
  writes.Pairwise fun cut later => cut.2 ≠ [] → cut.2 ≠ cut.1 → later.2 = []

theorem exists_whole_of_stopsAfterCut {writes : List (List α × List α)}
    (hpieces : ∀ write ∈ writes, write.2 <+: write.1) (hstops : StopsAfterCut writes) :
    ∃ whole : List (List α), whole.Sublist (writes.map Prod.fst) ∧
      (writes.map Prod.snd).flatten <+: whole.flatten := by
  induction writes with
  | nil => exact ⟨[], List.Sublist.refl _, List.prefix_rfl⟩
  | cons write writes ih =>
      obtain ⟨message, piece⟩ := write
      obtain ⟨hcut, hrest⟩ := List.pairwise_cons.mp hstops
      obtain ⟨whole, hwhole, hprefix⟩ :=
        ih (fun other hmem => hpieces other (List.mem_cons_of_mem _ hmem)) hrest
      rw [List.map_cons, List.map_cons, List.flatten_cons]
      by_cases hnone : piece = []
      · refine ⟨whole, hwhole.cons message, ?_⟩
        rwa [hnone, List.nil_append]
      by_cases hall : piece = message
      · refine ⟨message :: whole, hwhole.cons_cons message, ?_⟩
        rw [hall, List.flatten_cons]
        exact (List.prefix_append_right_inj message).mpr hprefix
      · -- nothing is taken any more, so the stream ends inside this message
        have hempty : (writes.map Prod.snd).flatten = [] := by
          rw [List.flatten_eq_nil_iff]
          intro later hlater
          obtain ⟨other, hmem, rfl⟩ := List.mem_map.mp hlater
          exact hcut other hmem hnone hall
        refine ⟨[message], List.singleton_sublist.mpr List.mem_cons_self, ?_⟩
        rw [hempty, List.append_nil, List.flatten_singleton]
        exact hpieces _ List.mem_cons_self

end Pieces
