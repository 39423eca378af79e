import SerialLine.Proofs.Ring.Contents
/-! # The life of a ring buffer

* `Fed`: characters were put in, one after the other. Some were taken and the others were dropped.
* `Life`: all that can become of a buffer from its making on, with the characters that it took.
* `Life.unwrapped`: as long as these are fewer than 2^64, no counter has wrapped.
* `Fed.contents`: a buffer of which that is true queues what it takes.
-/
set_option autoImplicit false

namespace SerialLine.RingBuffer

/-- Characters were put in; `new` are those that were taken, as the buffer gives them back. -/
inductive Fed (r : RingBuffer) : List UInt16 → RingBuffer → Prop where
  | refl : Fed r [] r
  | taken {new : List UInt16} {r' : RingBuffer} {word : UInt16} (h : Fed r new r')
      (hroom : r'.available < r'.capacity) : Fed r (new ++ [r'.width.clip word]) (r'.push word).2
  | dropped {new : List UInt16} {r' : RingBuffer} (h : Fed r new r') : Fed r new r'.countDropped

/-- A push of any character is one of the two. -/
theorem fed_push (r : RingBuffer) (word : UInt16) :
    Fed r (if (r.push word).1 then [r.width.clip word] else []) (r.push word).2 := by
  by_cases hroom : r.available < r.capacity
  · have hyes : (r.push word).1 = true := by rw [push_of_room hroom]
    rw [hyes]
    exact Fed.refl.taken hroom
  · rw [push_of_full (Nat.not_lt.mp hroom)]
    exact Fed.refl.dropped

theorem Fed.width_eq {r r' : RingBuffer} {new : List UInt16} (h : Fed r new r') :
    r'.width = r.width := by
  induction h with
  | refl => rfl
  | taken _ hroom ih =>
    rw [push_of_room hroom]
    exact ih
  | dropped _ ih => exact ih

theorem Fed.contents {r r' : RingBuffer} {new : List UInt16} (h : Fed r new r') (hr : r.Unwrapped)
    (hfew : r.head.toNat + new.length < 2 ^ 64) :
    r'.Unwrapped ∧ r'.contents = r.contents ++ new ∧
      r'.head.toNat = r.head.toNat + new.length := by
  induction h with
  | refl => exact ⟨hr, (List.append_nil _).symm, rfl⟩
  | @taken new r' word _ hroom ih =>
    rw [List.length_append, List.length_singleton] at hfew
    obtain ⟨hunwrapped, hcontents, hhead⟩ := ih (by omega)
    have hlt : r'.head.toNat + 1 < 2 ^ 64 := by omega
    obtain ⟨hunwrapped', hcontents'⟩ := hunwrapped.push hroom hlt word
    refine ⟨hunwrapped', ?_, ?_⟩
    · rw [hcontents', hcontents, List.append_assoc]
    · rw [push_of_room hroom, List.length_append, List.length_singleton]
      simp only [Unwrapped.head_succ hlt, hhead, Nat.add_assoc]
  | dropped _ ih =>
    obtain ⟨hunwrapped, hcontents, hhead⟩ := ih hfew
    exact ⟨hunwrapped.countDropped, hcontents, hhead⟩

/-- What can become of a buffer for characters of a width, with all the characters that it took. -/
inductive Life (w : CharWidth) : RingBuffer → List UInt16 → Prop where
  | created {capacity : Nat} {bits : UInt8} {r : RingBuffer} (hwidth : CharWidth.ofBits bits = w)
      (h : create capacity bits = .ok r) : Life w r []
  | fed {r r' : RingBuffer} {taken new : List UInt16} (h : Life w r taken) (hfed : Fed r new r') :
      Life w r' (taken ++ new)
  | popped {r : RingBuffer} {taken : List UInt16} (h : Life w r taken) (room : Nat) :
      Life w (r.pop room).2 taken
  | poppedWord {r : RingBuffer} {taken : List UInt16} (h : Life w r taken) : Life w r.popWord?.2 taken
  | cleared {r : RingBuffer} {taken : List UInt16} (h : Life w r taken) : Life w r.clear taken
  | countTaken {r : RingBuffer} {taken : List UInt16} (h : Life w r taken) :
      Life w r.takeDropped.2 taken

theorem popWord?_keeps (r : RingBuffer) :
    r.popWord?.2.width = r.width ∧ r.popWord?.2.head = r.head := by
  unfold popWord?
  split_ifs
  · exact ⟨rfl, rfl⟩
  · exact ⟨rfl, rfl⟩

variable {w : CharWidth} {r : RingBuffer} {taken : List UInt16}

theorem Life.width_eq (h : Life w r taken) : r.width = w := by
  induction h with
  | created hwidth h =>
    obtain ⟨-, rfl⟩ := create_eq_ok h
    exact hwidth
  | fed _ hfed ih => rw [hfed.width_eq, ih]
  | popped _ _ ih => exact ih
  | @poppedWord r _ _ ih => rw [r.popWord?_keeps.1, ih]
  | cleared _ ih => exact ih
  | countTaken _ ih => exact ih

theorem Unwrapped.popWord (h : r.Unwrapped) : r.popWord?.2.Unwrapped := by
  by_cases hpos : 0 < r.available
  · rw [popWord?_of_some hpos]
    exact h.advance hpos
  · rw [popWord?_of_empty (by omega)]
    exact h

theorem Life.unwrapped (h : Life w r taken) (hfew : taken.length < 2 ^ 64) :
    r.Unwrapped ∧ r.head.toNat = taken.length := by
  induction h with
  | created _ h =>
    refine ⟨unwrapped_create h, ?_⟩
    obtain ⟨-, rfl⟩ := create_eq_ok h
    rfl
  | fed _ hfed ih =>
    rw [List.length_append] at hfew ⊢
    obtain ⟨hunwrapped, hhead⟩ := ih (by omega)
    obtain ⟨hunwrapped', -, hhead'⟩ := hfed.contents hunwrapped (by omega)
    exact ⟨hunwrapped', by omega⟩
  | popped _ room ih =>
    obtain ⟨hunwrapped, hhead⟩ := ih hfew
    exact ⟨hunwrapped.pop room, hhead⟩
  | @poppedWord r _ _ ih =>
    obtain ⟨hunwrapped, hhead⟩ := ih hfew
    exact ⟨hunwrapped.popWord, by rw [r.popWord?_keeps.2, hhead]⟩
  | cleared _ ih =>
    obtain ⟨hunwrapped, hhead⟩ := ih hfew
    exact ⟨hunwrapped.clear, hhead⟩
  | countTaken _ ih =>
    obtain ⟨hunwrapped, hhead⟩ := ih hfew
    exact ⟨hunwrapped.takeDropped, hhead⟩

end SerialLine.RingBuffer
