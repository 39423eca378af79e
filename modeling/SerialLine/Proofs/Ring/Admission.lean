import SerialLine.Proofs.Ring.Life
/-! # Characters that find room

Which of several characters a ring buffer takes when they are put in one after the other.

* `admitted`: those that find room, as the buffer gives them back. `fed_admitted`: with them it was fed.
* `admitted_eq_take`: they are the first ones, as many as there is space for.
* `available_pushAll`: how many characters wait afterwards.
-/
set_option autoImplicit false

namespace SerialLine.RingBuffer

/-- The characters that find room when these are put in. -/
def admitted (r : RingBuffer) : List UInt16 → List UInt16
  | [] => []
  | word :: words =>
    (if (r.push word).1 then [r.width.clip word] else []) ++ admitted (r.push word).2 words

variable {r r' r'' : RingBuffer} {new new' : List UInt16}

theorem Fed.trans (h : Fed r new r') (h' : Fed r' new' r'') : Fed r (new ++ new') r'' := by
  induction h' with
  | refl => rwa [List.append_nil]
  | taken _ hroom ih =>
    rw [← List.append_assoc]
    exact ih.taken hroom
  | dropped _ ih => exact ih.dropped

theorem fed_admitted (r : RingBuffer) (words : List UInt16) :
    Fed r (r.admitted words) (r.pushAll words).2 := by
  induction words generalizing r with
  | nil => exact .refl
  | cons word words ih => exact (r.fed_push word).trans (ih (r.push word).2)

theorem pushAll_append (r : RingBuffer) (words words' : List UInt16) :
    (r.pushAll (words ++ words')).2 = ((r.pushAll words).2.pushAll words').2 := by
  induction words generalizing r with
  | nil => rfl
  | cons word words ih => exact ih (r.push word).2

theorem admitted_append (r : RingBuffer) (words words' : List UInt16) :
    r.admitted (words ++ words') = r.admitted words ++ (r.pushAll words).2.admitted words' := by
  induction words generalizing r with
  | nil => rfl
  | cons word words ih =>
    rw [List.cons_append, admitted, ih, admitted, List.append_assoc]
    rfl

theorem Fed.capacity_eq (h : Fed r new r') : r'.capacity = r.capacity := by
  induction h with
  | refl => rfl
  | taken _ hroom ih =>
    rw [push_of_room hroom]
    exact ih
  | dropped _ ih => exact ih

theorem Fed.sound (h : Fed r new r') (hr : r.Sound) : r'.Sound := by
  induction h with
  | refl => exact hr
  | taken _ _ ih => exact ih.push _
  | dropped _ ih => exact ih.countDropped

theorem Life.sound {w : CharWidth} {taken : List UInt16} (h : Life w r taken) : r.Sound := by
  induction h with
  | created _ h => exact sound_create h
  | fed _ hfed ih => exact hfed.sound ih
  | popped _ room ih => exact ih.pop room
  | poppedWord _ ih => exact ih.popWord
  | cleared _ ih => exact ih.clear
  | countTaken _ ih => exact ih.takeDropped

/-! ## Levels -/

theorem space_push_of_room (h : r.Sound) (hroom : r.available < r.capacity) (word : UInt16) :
    (r.push word).2.space + 1 = r.space := by
  have hcap := h.capacity_lt
  rw [push_of_room hroom]
  simp only [space]
  rw [available_head_succ (by omega)]
  omega

theorem space_push (h : r.Sound) (word : UInt16) : (r.push word).2.space = r.space - 1 := by
  by_cases hroom : r.available < r.capacity
  · rw [← space_push_of_room h hroom word]
    rfl
  · have hfull : r.space = 0 := Nat.sub_eq_zero_of_le (Nat.not_lt.mp hroom)
    have hsame : r.countDropped.space = r.space := rfl
    rw [push_of_full (Nat.not_lt.mp hroom), hsame, hfull]

theorem admitted_of_full (hfull : r.capacity ≤ r.available) (words : List UInt16) :
    r.admitted words = [] := by
  induction words generalizing r with
  | nil => rfl
  | cons word words ih =>
    rw [admitted, push_of_full hfull]
    exact ih (r := r.countDropped) hfull

/-- The first characters are taken, until the space is used up. -/
theorem admitted_eq_take (h : r.Sound) (words : List UInt16) :
    r.admitted words = (words.take r.space).map r.width.clip := by
  induction words generalizing r with
  | nil => rw [List.take_nil]; rfl
  | cons word words ih =>
    by_cases hroom : r.available < r.capacity
    · have hwidth : (r.push word).2.width = r.width := by rw [push_of_room hroom]
      rw [admitted, ih (h.push word), hwidth, ← space_push_of_room h hroom word, List.take_succ_cons,
        push_of_room hroom]
      rfl
    · have hfull : r.space = 0 := by
        unfold space
        omega
      rw [admitted_of_full (Nat.not_lt.mp hroom), hfull]
      rfl

theorem available_pushAll (h : r.Sound) (words : List UInt16) :
    (r.pushAll words).2.available = min r.capacity (r.available + words.length) := by
  induction words generalizing r with
  | nil =>
    have hle := h.available_le
    simp only [pushAll, List.length_nil]
    omega
  | cons word words ih =>
    have hpush := ih (h.push word)
    have hle := h.available_le
    have hcap := h.capacity_lt
    rw [List.length_cons]
    by_cases hroom : r.available < r.capacity
    · rw [push_of_room hroom, available_head_succ (by omega)] at hpush
      rw [pushAll, push_of_room hroom]
      simp only [hpush]
      omega
    · rw [push_of_full (Nat.not_lt.mp hroom)] at hpush
      have hsame : r.countDropped.available = r.available := rfl
      have hcapacity : r.countDropped.capacity = r.capacity := rfl
      rw [pushAll, push_of_full (Nat.not_lt.mp hroom)]
      simp only [hpush, hsame, hcapacity]
      omega

theorem tail_pushAll (r : RingBuffer) (words : List UInt16) : (r.pushAll words).2.tail = r.tail := by
  induction words generalizing r with
  | nil => rfl
  | cons word words ih =>
    refine (ih (r.push word).2).trans ?_
    unfold push
    split <;> rfl

end SerialLine.RingBuffer
