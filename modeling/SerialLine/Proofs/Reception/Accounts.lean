import SerialLine.Proofs.Reception.Flow
import SerialLine.Proofs.Ring.Contents
/-! # Accounts of received characters

Where every character is that the queue of a block let in.

* `Holding`: what a narrow receive buffer holds and has counted. Moving a character into it, where it may
  find no room, and reading from it are `Holding.moveOne` and `Holding.pop`.
* `Accounts`: what holds after every beat. What readers got and what waits in the buffer are, in order,
  the characters that were taken from the block.
* `Accounts.beat`, `Flow.accounts`: the accounts are kept along beats and flows, as long as the queue
  lets in so few characters that no counter wraps.
-/
set_option autoImplicit false

namespace SerialLine.Pl011

/-- The character in a data word. -/
def character (word : UInt32) : UInt8 := (word &&& drData).toUInt8

/-- Whether a data word says that characters were lost before it. -/
def isOverrun (word : UInt32) : Bool := word &&& drOverrun ≠ 0

namespace Window

variable {σ : Type} {r : Registers σ} {chip : Place σ Chip} {W : Window r chip} {id : BufferId}

/-! ## The invariant -/

theorem lowByte_clip_data (word : UInt32) :
    CharWidth.lowByte (CharWidth.narrow.clip (word &&& drData).toUInt16) = character word := by
  show (word &&& drData).toUInt16.toUInt8.toUInt16.toUInt8 = (word &&& drData).toUInt8
  rw [UInt8.toUInt8_toUInt16, UInt32.toUInt8_toUInt16]

/-- A narrow buffer with `bytes` waiting in it, after `pushed` pushes and with `dropped` characters
counted as dropped. -/
structure Holding (ring : RingBuffer) (bytes : List UInt8) (pushed dropped : Nat) : Prop
    extends RingBuffer.Unwrapped ring where
  narrow : ring.width = .narrow
  bytes_eq : CharWidth.narrow.encode ring.contents = bytes
  head_eq : ring.head.toNat = pushed
  dropped_eq : ring.dropped.toNat = dropped

variable {ring : RingBuffer} {bytes : List UInt8} {pushed dropped : Nat}

theorem holding_create {capacity : Nat} {bits : UInt8} (hbits : bits ≤ 8)
    (h : RingBuffer.create capacity bits = .ok ring) : Holding ring [] 0 0 := by
  refine ⟨RingBuffer.unwrapped_create h, ?_, ?_, ?_, ?_⟩
  · obtain ⟨-, rfl⟩ := RingBuffer.create_eq_ok h
    exact if_pos hbits
  · rw [RingBuffer.contents_create h]
    rfl
  · obtain ⟨-, rfl⟩ := RingBuffer.create_eq_ok h
    rfl
  · obtain ⟨-, rfl⟩ := RingBuffer.create_eq_ok h
    rfl

theorem Holding.push (h : Holding ring bytes pushed dropped) (hroom : 0 < ring.space)
    (hlt : pushed + 1 < 2 ^ 64) (word : UInt32) :
    Holding (ring.push (word &&& drData).toUInt16).2 (bytes ++ [character word]) (pushed + 1)
      dropped := by
  have hav : ring.available < ring.capacity := by
    unfold RingBuffer.space at hroom
    omega
  have hhead : ring.head.toNat + 1 < 2 ^ 64 := by
    have := h.head_eq
    omega
  obtain ⟨hunwrapped, hcontents⟩ := h.toUnwrapped.push hav hhead (word &&& drData).toUInt16
  have hpush := RingBuffer.push_of_room hav (word &&& drData).toUInt16
  refine ⟨hunwrapped, by rw [hpush]; exact h.narrow, ?_, ?_, by rw [hpush]; exact h.dropped_eq⟩
  · rw [hcontents, CharWidth.encode_append, h.bytes_eq, h.narrow, ← lowByte_clip_data word]
    rfl
  · rw [hpush]
    simp only [RingBuffer.Unwrapped.head_succ hhead, h.head_eq]

/-- A word counts once if it finds no room, and once more if it tells of an overrun. -/
theorem dropped_moved (ring : RingBuffer) (word : UInt32) :
    (moved ring word).dropped =
      ring.dropped + UInt64.ofNat (1 - ring.space + if isOverrun word then 1 else 0) := by
  by_cases hover : word &&& drOverrun ≠ 0
  · have hspace : ring.countDropped.space = ring.space := rfl
    rw [moved, if_pos hover, if_pos (by simpa [isOverrun] using hover),
      RingBuffer.dropped_push, hspace, Nat.add_comm, UInt64.ofNat_add, ← UInt64.add_assoc]
    rfl
  · rw [moved, if_neg hover, if_neg (by simpa [isOverrun] using hover)]
    exact RingBuffer.dropped_push ring _

/-- The count of dropped characters says nothing about what a buffer holds. -/
theorem Holding.lose (h : Holding ring bytes pushed dropped) :
    Holding ring.countDropped bytes pushed ring.countDropped.dropped.toNat :=
  ⟨h.toUnwrapped.countDropped, h.narrow, h.bytes_eq, h.head_eq, rfl⟩

theorem Holding.pushOne (h : Holding ring bytes pushed dropped) (hlt : pushed + 1 < 2 ^ 64)
    (word : UInt32) :
    Holding (ring.push (word &&& drData).toUInt16).2 (bytes ++ ([word].take ring.space).map character)
      (pushed + min 1 ring.space) (ring.push (word &&& drData).toUInt16).2.dropped.toNat := by
  by_cases hroom : 0 < ring.space
  · rw [List.take_of_length_le hroom, Nat.min_eq_left hroom]
    exact { h.push hroom hlt word with dropped_eq := rfl }
  · have hfull : ring.space = 0 := Nat.eq_zero_of_not_pos hroom
    rw [RingBuffer.push_of_full (Nat.sub_eq_zero_iff_le.mp hfull), hfull, List.take_zero,
      List.map_nil, List.append_nil, Nat.min_zero, Nat.add_zero]
    exact h.lose

theorem Holding.moveOne (h : Holding ring bytes pushed dropped) (hlt : pushed + 1 < 2 ^ 64)
    (word : UInt32) :
    Holding (Window.moved ring word) (bytes ++ ([word].take ring.space).map character)
      (pushed + min 1 ring.space) (Window.moved ring word).dropped.toNat := by
  by_cases hover : word &&& drOverrun ≠ 0
  · rw [Window.moved, if_pos hover]
    exact h.lose.pushOne hlt word
  · rw [Window.moved, if_neg hover]
    exact h.pushOne hlt word

/-- Moving a data word into a buffer with room counts an overrun if the word tells of one. -/
theorem Holding.moved (h : Holding ring bytes pushed dropped) (hroom : 0 < ring.space)
    (hpushed : pushed + 1 < 2 ^ 64) (hdropped : dropped + 1 < 2 ^ 64) (word : UInt32) :
    Holding (Window.moved ring word) (bytes ++ [character word]) (pushed + 1)
      (dropped + if isOverrun word then 1 else 0) := by
  have hmoved := h.moveOne hpushed word
  rw [List.take_of_length_le hroom, Nat.min_eq_left hroom] at hmoved
  refine { hmoved with dropped_eq := ?_ }
  rw [dropped_moved, Nat.sub_eq_zero_of_le hroom, Nat.zero_add, UInt64.toNat_add,
    UInt64.toNat_ofNat', h.dropped_eq]
  split <;> omega

theorem Holding.pop (h : Holding ring bytes pushed dropped) (room : Nat) :
    ∃ rest, bytes = (ring.pop room).1 ++ rest ∧ Holding (ring.pop room).2 rest pushed dropped := by
  refine ⟨CharWidth.narrow.encode (ring.pop room).2.contents, ?_, h.toUnwrapped.pop room, h.narrow, rfl,
    h.head_eq, h.dropped_eq⟩
  rw [RingBuffer.pop_bytes, h.narrow, RingBuffer.contents_pop, h.narrow, ← CharWidth.encode_append,
    List.take_append_drop, h.bytes_eq]

theorem Holding.takeDropped (h : Holding ring bytes pushed dropped) :
    ring.takeDropped.1 = dropped ∧ Holding ring.takeDropped.2 bytes pushed 0 :=
  ⟨h.dropped_eq, h.toUnwrapped.takeDropped, h.narrow, h.bytes_eq, h.head_eq, rfl⟩

/-- What holds after every beat since the outside was `s₀`: the words that arrived and those that were
taken from the block, of which the readers got the first as `out` and the buffer holds the others. -/
structure Accounts (W : Window r chip) (id : BufferId) (s₀ : σ) (b : Bench σ) (out : List UInt8)
    (taken : Nat) (arrived done : List UInt32) : Prop where
  accepted : W.accepted b.outside = W.accepted s₀ ++ arrived
  waiting : W.waiting s₀ ++ arrived = done ++ W.waiting b.outside
  holding : ∃ bytes dropped, Holding (b.buffers.ring id) bytes done.length dropped ∧
    out ++ bytes = done.map character ∧ taken + dropped = done.countP isOverrun

variable {s₀ : σ} {b b' : Bench σ} {out out' : List UInt8} {n n' : Nat} {arrived done : List UInt32}

/-- The accounts begin empty, with a buffer that nothing was moved into. -/
theorem Accounts.nil (h : Holding (b.buffers.ring id) [] 0 0) :
    W.Accounts id b.outside b [] 0 [] [] :=
  ⟨(List.append_nil _).symm, List.append_nil _, [], 0, h, rfl, rfl⟩

theorem Accounts.arrive (h : W.Accounts id s₀ b out n arrived done)
    (harrives : W.Arrives b.outside b'.outside)
    (hholding : Holding (b'.buffers.ring id) bytes done.length dropped)
    (hbytes : out' ++ bytes = done.map character) (hdropped : n' + dropped = done.countP isOverrun) :
    ∃ arrived', W.Accounts id s₀ b' out' n' arrived' done := by
  obtain ⟨new, hwaiting, haccepted⟩ := harrives
  refine ⟨arrived ++ new, ?_, ?_, bytes, dropped, hholding, hbytes, hdropped⟩
  · rw [haccepted, h.accepted, List.append_assoc]
  · rw [hwaiting, ← List.append_assoc, h.waiting, List.append_assoc]

/-- How many words the queue of a block has let in since the outside was `s₀`, with those that waited
then. -/
def Few (W : Window r chip) (s₀ s : σ) : Prop :=
  (W.waiting s₀).length + (W.accepted s).length < 2 ^ 64 + (W.accepted s₀).length

theorem few_of_length {s : σ} (h : W.accepted s = W.accepted s₀ ++ arrived)
    (hlength : (W.waiting s₀ ++ arrived).length < 2 ^ 64) : W.Few s₀ s := by
  rw [List.length_append] at hlength
  rw [Few, h, List.length_append]
  omega

theorem Accounts.beat (h : W.Accounts id s₀ b out n arrived done) (hbeat : W.Beat id b b' out' n')
    (hfew : W.Few s₀ b'.outside) :
    ∃ arrived' done', W.Accounts id s₀ b' (out ++ out') (n + n') arrived' done' := by
  obtain ⟨bytes, dropped, hholding, hbytes, hdropped⟩ := h.holding
  cases hbeat with
  | quiet hquiet =>
    rw [← hquiet.ring] at hholding
    obtain ⟨arrived', h'⟩ := h.arrive hquiet.arrives hholding hbytes hdropped
    exact ⟨arrived', done, by rwa [List.append_nil]⟩
  | move hkeeps hroom hwaiting hring hwaiting' haccepted' =>
    rename_i word rest new
    have htotal := congrArg List.length h.waiting
    have hpart : done.countP isOverrun ≤ done.length := List.countP_le_length
    rw [Few, haccepted', h.accepted] at hfew
    rw [hwaiting] at htotal
    simp only [List.length_append, List.length_cons] at htotal hfew
    have hmoved := hholding.moved hroom (by omega) (by omega) word
    rw [← hring] at hmoved
    refine ⟨arrived ++ new, done ++ [word], ?_, ?_, bytes ++ [character word],
      dropped + if isOverrun word then 1 else 0, ?_, ?_, ?_⟩
    · rw [haccepted', h.accepted, List.append_assoc]
    · rw [hwaiting', ← List.append_assoc, h.waiting, hwaiting]
      simp
    · rw [List.length_append]
      exact hmoved
    · rw [List.append_nil, ← List.append_assoc, hbytes, List.map_append]
      rfl
    · rw [List.countP_append, ← hdropped, List.countP_singleton]
      omega
  | pop room hkeeps hring harrives =>
    obtain ⟨rest, hsplit, hrest⟩ := hholding.pop room
    rw [← hring] at hrest
    have hgot : out ++ ((b.buffers.ring id).pop room).1 ++ rest = done.map character := by
      rw [List.append_assoc, ← hsplit]
      exact hbytes
    obtain ⟨arrived', h'⟩ := h.arrive harrives hrest hgot hdropped
    exact ⟨arrived', done, h'⟩
  | take hkeeps hring harrives =>
    obtain ⟨htaken, hrest⟩ := hholding.takeDropped
    rw [← hring] at hrest
    have hsum : n + (b.buffers.ring id).takeDropped.1 + 0 = done.countP isOverrun := by
      rw [htaken]
      exact hdropped
    obtain ⟨arrived', h'⟩ := h.arrive harrives hrest hbytes hsum
    exact ⟨arrived', done, by rwa [List.append_nil]⟩

theorem Beat.accepts (h : W.Beat id b b' out n) :
    ∃ new, W.accepted b'.outside = W.accepted b.outside ++ new := by
  cases h with
  | quiet h =>
    obtain ⟨new, -, haccepted⟩ := h.arrives
    exact ⟨new, haccepted⟩
  | move _ _ _ _ _ haccepted => exact ⟨_, haccepted⟩
  | pop _ _ _ harrives =>
    obtain ⟨new, -, haccepted⟩ := harrives
    exact ⟨new, haccepted⟩
  | take _ _ harrives =>
    obtain ⟨new, -, haccepted⟩ := harrives
    exact ⟨new, haccepted⟩

theorem Flow.accepts (h : W.Flow id b b' out n) :
    ∃ new, W.accepted b'.outside = W.accepted b.outside ++ new := by
  induction h with
  | refl => exact ⟨[], (List.append_nil _).symm⟩
  | beat _ hbeat ih =>
    obtain ⟨new, hnew⟩ := ih
    obtain ⟨new', hnew'⟩ := hbeat.accepts
    exact ⟨new ++ new', by rw [hnew', hnew, List.append_assoc]⟩

theorem Few.before {s s' : σ} (hfew : W.Few s₀ s') (h : ∃ new, W.accepted s' = W.accepted s ++ new) :
    W.Few s₀ s := by
  obtain ⟨new, hnew⟩ := h
  unfold Few at hfew ⊢
  rw [hnew, List.length_append] at hfew
  omega

theorem Flow.accounts (hflow : W.Flow id b b' out' n')
    (h : W.Accounts id s₀ b out n arrived done) (hfew : W.Few s₀ b'.outside) :
    ∃ arrived' done', W.Accounts id s₀ b' (out ++ out') (n + n') arrived' done' := by
  induction hflow with
  | refl => exact ⟨arrived, done, by rwa [List.append_nil]⟩
  | beat _ hbeat ih =>
    obtain ⟨arrived', done', h'⟩ := ih (hfew.before hbeat.accepts)
    rw [← List.append_assoc, ← Nat.add_assoc]
    exact h'.beat hbeat hfew

end Window
end SerialLine.Pl011
