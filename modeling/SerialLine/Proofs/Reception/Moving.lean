import SerialLine.Proofs.Reception.Serving
import SerialLine.Proofs.Reception.Window
import SerialLine.Proofs.Ring.Contents
/-! # Moving words into the buffer

What happens to the buffer and to the queue of a block while words are moved from the one to the other.

* `moved`: the buffer after one word was moved. `Moves`: several words were moved in order, while others
  arrived.
* `waiting_of_flags`: flags that tell of a word are right, also after they were looked at.
* `moves_moveOne`: a round of the service moves the oldest word, and its answer tells whether the buffer
  had room.
-/
set_option autoImplicit false

namespace SerialLine.Pl011.Window

variable {σ : Type} {r : Registers σ} {chip : Place σ Chip} {W : Window r chip} {id : BufferId}
  {b b' b'' : Bench σ} {done done' new new' : List UInt32}

/-- The buffer after a data word was moved into it. -/
def moved (ring : RingBuffer) (word : UInt32) : RingBuffer :=
  ((if word &&& drOverrun ≠ 0 then ring.countDropped else ring).push (word &&& drData).toUInt16).2

/-- What one thing that happens keeps: the buffer is not lost and the driver's memory is the same. -/
structure Keeps (chip : Place σ Chip) (id : BufferId) (b b' : Bench σ) : Prop where
  holds : b.buffers.Holds id → b'.buffers.Holds id
  chip : chip.get b'.outside = chip.get b.outside

theorem Keeps.trans (h : Keeps chip id b b') (h' : Keeps chip id b' b'') : Keeps chip id b b'' :=
  ⟨fun hb => h'.holds (h.holds hb), h'.chip.trans h.chip⟩

/-- The words `done` were taken from the block and moved into the buffer one after the other, while the
words `new` arrived in the block. -/
structure Moves (W : Window r chip) (id : BufferId) (done new : List UInt32) (b b' : Bench σ) :
    Prop where
  keeps : Keeps chip id b b'
  ring : b'.buffers.ring id = done.foldl moved (b.buffers.ring id)
  waiting : W.waiting b.outside ++ new = done ++ W.waiting b'.outside
  accepted : W.accepted b'.outside = W.accepted b.outside ++ new

theorem Quiet.moves (h : W.Quiet id b b') : ∃ new, W.Moves id [] new b b' := by
  obtain ⟨new, hwaiting, haccepted⟩ := h.arrives
  exact ⟨new, ⟨h.holds, h.chip⟩, h.ring, hwaiting.symm, haccepted⟩

theorem Moves.trans (h : W.Moves id done new b b') (h' : W.Moves id done' new' b' b'') :
    W.Moves id (done ++ done') (new ++ new') b b'' where
  keeps := h.keeps.trans h'.keeps
  ring := by rw [h'.ring, h.ring, List.foldl_append]
  waiting := by rw [← List.append_assoc, h.waiting, List.append_assoc, h'.waiting, List.append_assoc]
  accepted := by rw [h'.accepted, h.accepted, List.append_assoc]

/-! ## A round of the service -/

theorem waiting_of_flags (W : Window r chip) {s : σ} (h : (r.read fr s).1 &&& frRxEmpty = 0) :
    W.waiting (r.read fr s).2 ≠ [] := by
  obtain ⟨new, harrived, -⟩ := W.read_other fr s (by decide)
  rw [harrived]
  exact List.append_ne_nil_of_left_ne_nil ((W.read_flags s).mp h) _

theorem waiting_eq_nil_of_flags (W : Window r chip) {s : σ} (h : (r.read fr s).1 &&& frRxEmpty ≠ 0) :
    W.waiting s = [] := by
  by_contra hsome
  exact h ((W.read_flags s).mpr hsome)

/-- A round of the service moves the oldest word. -/
theorem moves_moveOne {word : UInt32} {rest : List UInt32} (hold : Bool) (hholds : b.buffers.Holds id)
    (hword : W.waiting b.outside = word :: rest) :
    (Interrupt.moveOne ⟨id, hold⟩ r b).1 = decide (0 < (b.buffers.ring id).space) ∧
      ∃ new, W.Moves id [word] new b (Interrupt.moveOne ⟨id, hold⟩ r b).2 := by
  obtain ⟨hread, new, hwaiting, haccepted⟩ := W.read_data _ _ _ hword
  have hchip := W.chip_read dr b.outside
  rcases hdata : r.read dr b.outside with ⟨data, s⟩
  rw [hdata] at hread hwaiting haccepted hchip
  obtain rfl : data = word := hread
  have hmoves {b' : Bench σ} (hkeeps : b.buffers.Holds id → b'.buffers.Holds id)
      (hring : b'.buffers.ring id = moved (b.buffers.ring id) data) (hout : b'.outside = s) :
      W.Moves id [data] new b b' := by
    refine ⟨⟨hkeeps, by rw [hout]; exact hchip⟩, hring, ?_, by rw [hout]; exact haccepted⟩
    rw [hword, hout, hwaiting]
    rfl
  by_cases hover : data &&& drOverrun ≠ 0
  · have heq : Interrupt.moveOne ⟨id, hold⟩ r b =
        (((b.buffers.set id (b.buffers.ring id).countDropped).ring id).push
            (data &&& drData).toUInt16 |>.1,
          { b with
            buffers := (b.buffers.set id (b.buffers.ring id).countDropped).set id
              (((b.buffers.set id (b.buffers.ring id).countDropped).ring id).push
                (data &&& drData).toUInt16).2
            outside := s }) := by
      simp only [Interrupt.moveOne, bind, StateT.bind, Bench.outsideDo, hdata, if_pos hover]
      rfl
    rw [heq]
    refine ⟨?_, new, hmoves (fun h => (h.set _).set _) ?_ rfl⟩
    · rw [RxBuffers.ring_set_self hholds, RingBuffer.push_fst]
      rfl
    · simp only [RxBuffers.ring_set_self hholds, RxBuffers.set_set, moved, if_pos hover]
  · have heq : Interrupt.moveOne ⟨id, hold⟩ r b =
        (((b.buffers.ring id).push (data &&& drData).toUInt16).1,
          { b with
            buffers := b.buffers.set id ((b.buffers.ring id).push (data &&& drData).toUInt16).2
            outside := s }) := by
      simp only [Interrupt.moveOne, bind, StateT.bind, Bench.outsideDo, hdata, if_neg hover]
      rfl
    rw [heq]
    refine ⟨RingBuffer.push_fst _ _, new, hmoves (fun h => h.set _) ?_ rfl⟩
    simp only [RxBuffers.ring_set_self hholds, moved, if_neg hover]

end SerialLine.Pl011.Window
