import SerialLine.Proofs.Reception.Accounts
import SerialLine.Proofs.Reception.Draining
/-! # What a full buffer loses

The history of a narrow receive buffer that takes no notice of being full.

* `Holding.moveAll`, `dropped_foldl_moved`: of several words that are moved into the buffer, it keeps the
  first ones, until its room is used up, and counts the others and those that tell of an overrun.
* `Ledger`: the histories of a bounded queue that readers take from. A word is dropped exactly when the
  queue is full as it comes.
* `Audit`: what the buffer holds is what a ledger says, and the counts that were taken make up the losses
  in it. `Audit.moveAll`, `Audit.pop`, `Audit.takeDropped` and `Audit.clear` keep that up.
-/
set_option autoImplicit false

namespace SerialLine.Pl011.Window

variable {ring : RingBuffer} {queue : List UInt8} {pushed dropped capacity taken : Nat}

/-! ## Moving words into a buffer that may be full -/

theorem dropped_foldl_moved (h : ring.Sound) (words : List UInt32) :
    (words.foldl moved ring).dropped =
      ring.dropped + UInt64.ofNat (words.length - ring.space + words.countP isOverrun) := by
  induction words generalizing ring with
  | nil =>
    rw [List.length_nil, Nat.zero_sub, List.countP_nil]
    exact (UInt64.add_zero _).symm
  | cons word words ih =>
    have hsum : 1 - ring.space + (if isOverrun word then 1 else 0) +
        (words.length - (ring.space - 1) + words.countP isOverrun) =
        (word :: words).length - ring.space + (word :: words).countP isOverrun := by
      rw [List.length_cons, List.countP_cons]
      omega
    rw [List.foldl_cons, ih (sound_moved h word), space_moved h, dropped_moved, UInt64.add_assoc,
      ← UInt64.ofNat_add, hsum]

theorem Holding.length_eq (h : Holding ring queue pushed dropped) : queue.length = ring.available := by
  rw [← h.bytes_eq, CharWidth.length_encode, RingBuffer.length_contents]
  exact Nat.mul_one _

/-- A buffer keeps the first words that are moved into it, until its room is used up. -/
theorem Holding.moveAll (h : Holding ring queue pushed dropped) (words : List UInt32)
    (hlt : pushed + words.length < 2 ^ 64) :
    Holding (words.foldl Window.moved ring) (queue ++ (words.take ring.space).map character)
      (pushed + min words.length ring.space) (words.foldl Window.moved ring).dropped.toNat := by
  induction words generalizing ring queue pushed dropped with
  | nil =>
    rw [List.take_nil, List.map_nil, List.append_nil, List.length_nil, Nat.zero_min]
    exact { h with dropped_eq := rfl }
  | cons word words ih =>
    rw [List.length_cons] at hlt
    have hrest := ih (h.moveOne (by omega) word) (by omega)
    have hbytes : [word].take ring.space ++ words.take (ring.space - 1) =
        (word :: words).take ring.space := by
      cases ring.space with
      | zero => rfl
      | succ room => simp
    have hpushed : pushed + min 1 ring.space + min words.length (ring.space - 1) =
        pushed + min (word :: words).length ring.space := by
      rw [List.length_cons]
      omega
    rwa [space_moved h.toSound, List.append_assoc, ← List.map_append, hbytes, hpushed] at hrest

/-! ## Histories of a bounded queue -/

/-- A data word that was taken from the block, and whether the buffer kept its character. -/
structure Passed where
  word : UInt32
  kept : Bool

/-- A character that left the buffer, and whether a reader got it. Otherwise it was discarded. -/
structure Left where
  byte : UInt8
  isRead : Bool

/-- The history of a queue with room for `capacity` characters: the words that came, the characters that
left, and those that are in the queue. -/
inductive Ledger (capacity : Nat) : List Passed → List Left → List UInt8 → Prop where
  | start : Ledger capacity [] [] []
  | kept {passed : List Passed} {left : List Left} {queue : List UInt8} (word : UInt32)
      (h : Ledger capacity passed left queue) (hroom : queue.length < capacity) :
      Ledger capacity (passed ++ [⟨word, true⟩]) left (queue ++ [character word])
  | dropped {passed : List Passed} {left : List Left} {queue : List UInt8} (word : UInt32)
      (h : Ledger capacity passed left queue) (hfull : queue.length = capacity) :
      Ledger capacity (passed ++ [⟨word, false⟩]) left queue
  | read {passed : List Passed} {left : List Left} (out queue : List UInt8)
      (h : Ledger capacity passed left (out ++ queue)) :
      Ledger capacity passed (left ++ out.map (⟨·, true⟩)) queue
  | discarded {passed : List Passed} {left : List Left} (queue : List UInt8)
      (h : Ledger capacity passed left queue) :
      Ledger capacity passed (left ++ queue.map (⟨·, false⟩)) []

/-- The characters that the readers got. -/
def delivered (left : List Left) : List UInt8 := (left.filter Left.isRead).map Left.byte

/-- The losses: the words that were dropped, and the overruns that the words tell of. -/
def lost (passed : List Passed) : Nat :=
  (passed.map Passed.word).countP isOverrun + passed.countP fun p => !p.kept

/-- What happens to words that come one after the other while nobody reads from the queue. -/
def marked (room : Nat) (words : List UInt32) : List Passed :=
  (words.take room).map (⟨·, true⟩) ++ (words.drop room).map (⟨·, false⟩)

variable {passed : List Passed} {left : List Left}

/-- Every character that was kept was read, was discarded or is in the queue, in the order in which they
came. -/
theorem Ledger.conserves (h : Ledger capacity passed left queue) :
    left.map Left.byte ++ queue = (passed.filter Passed.kept).map fun p => character p.word := by
  induction h with
  | start => rfl
  | kept word h hroom ih =>
    rw [← List.append_assoc, ih, List.filter_append, List.map_append]
    rfl
  | dropped word h hfull ih =>
    rw [ih, List.filter_append]
    exact congrArg _ (List.append_nil _).symm
  | read out queue h ih =>
    rw [← ih, List.map_append, List.map_map, List.append_assoc]
    simp [Function.comp_def]
  | discarded queue h ih =>
    rw [← ih, List.map_append, List.map_map]
    simp [Function.comp_def]

theorem Ledger.length_le (h : Ledger capacity passed left queue) : queue.length ≤ capacity := by
  induction h with
  | start => exact Nat.zero_le _
  | kept word h hroom ih =>
    rw [List.length_append]
    exact hroom
  | dropped word h hfull ih => exact ih
  | read out queue h ih =>
    rw [List.length_append] at ih
    omega
  | discarded queue h ih => exact Nat.zero_le _

theorem Ledger.keepAll (h : Ledger capacity passed left queue) (words : List UInt32)
    (hroom : queue.length + words.length ≤ capacity) :
    Ledger capacity (passed ++ words.map (⟨·, true⟩)) left (queue ++ words.map character) := by
  induction words generalizing passed queue with
  | nil =>
    rw [List.map_nil, List.map_nil, List.append_nil, List.append_nil]
    exact h
  | cons word words ih =>
    rw [List.length_cons] at hroom
    have hrest := ih (h.kept word (by omega)) (by rw [List.length_append, List.length_singleton]; omega)
    rwa [List.append_assoc, List.append_assoc] at hrest

theorem Ledger.dropAll (h : Ledger capacity passed left queue) (hfull : queue.length = capacity)
    (words : List UInt32) : Ledger capacity (passed ++ words.map (⟨·, false⟩)) left queue := by
  induction words generalizing passed with
  | nil =>
    rw [List.map_nil, List.append_nil]
    exact h
  | cons word words ih =>
    have hrest := ih (h.dropped word hfull)
    rwa [List.append_assoc] at hrest

theorem Ledger.moveAll (h : Ledger capacity passed left queue) (words : List UInt32) {room : Nat}
    (hroom : room = capacity - queue.length) :
    Ledger capacity (passed ++ marked room words) left
      (queue ++ (words.take room).map character) := by
  have hle := h.length_le
  have hkept := h.keepAll (words.take room) (by rw [List.length_take]; omega)
  rw [marked, ← List.append_assoc]
  by_cases hshort : words.length ≤ room
  · rw [List.drop_of_length_le hshort, List.map_nil, List.append_nil]
    exact hkept
  · refine hkept.dropAll ?_ _
    rw [List.length_append, List.length_map, List.length_take]
    omega

theorem map_word_marked (room : Nat) (words : List UInt32) :
    (marked room words).map Passed.word = words := by
  rw [marked, List.map_append, List.map_map, List.map_map]
  simp [Function.comp_def]

theorem countP_kept_marked (room : Nat) (words : List UInt32) :
    (marked room words).countP Passed.kept = min words.length room := by
  rw [marked, List.countP_append, List.countP_map, List.countP_map]
  simp [Function.comp_def, Nat.min_comm]

theorem lost_marked (room : Nat) (words : List UInt32) :
    lost (marked room words) = words.length - room + words.countP isOverrun := by
  rw [lost, map_word_marked, marked, List.countP_append, List.countP_map, List.countP_map,
    Nat.add_comm]
  simp [Function.comp_def]

theorem lost_append (passed passed' : List Passed) :
    lost (passed ++ passed') = lost passed + lost passed' := by
  rw [lost, lost, lost, List.map_append, List.countP_append, List.countP_append]
  omega

theorem delivered_append (left left' : List Left) :
    delivered (left ++ left') = delivered left ++ delivered left' := by
  rw [delivered, List.filter_append, List.map_append]
  rfl

theorem delivered_read (out : List UInt8) : delivered (out.map (⟨·, true⟩)) = out := by
  rw [delivered, List.filter_map, List.map_map]
  simp [Function.comp_def]

theorem delivered_discarded (queue : List UInt8) : delivered (queue.map (⟨·, false⟩)) = [] := by
  rw [delivered, List.filter_map]
  simp [Function.comp_def]

/-! ## The books of a buffer -/

/-- What a buffer holds and has counted, with the sum of the counts that were taken from it. Its count
of dropped characters has 64 bits and may have wrapped. -/
structure Audit (ring : RingBuffer) (capacity : Nat) (passed : List Passed) (left : List Left)
    (taken : Nat) : Prop where
  capacity_eq : ring.capacity = capacity
  books : ∃ queue, Holding ring queue (passed.countP Passed.kept) ring.dropped.toNat ∧
    Ledger capacity passed left queue
  counted : ∃ wraps, taken + ring.dropped.toNat + wraps * 2 ^ 64 = lost passed

theorem toNat_add_ofNat (count : UInt64) (n : Nat) :
    ∃ wraps, (count + UInt64.ofNat n).toNat + wraps * 2 ^ 64 = count.toNat + n := by
  refine ⟨(count.toNat + n) / 2 ^ 64, ?_⟩
  rw [UInt64.toNat_add, UInt64.toNat_ofNat']
  omega

theorem capacity_moved (ring : RingBuffer) (word : UInt32) :
    (moved ring word).capacity = ring.capacity := by
  unfold moved RingBuffer.push
  split <;> split <;> rfl

theorem capacity_foldl_moved (ring : RingBuffer) (done : List UInt32) :
    (done.foldl moved ring).capacity = ring.capacity := by
  induction done generalizing ring with
  | nil => rfl
  | cons word done ih => exact (ih (moved ring word)).trans (capacity_moved ring word)

theorem audit_create {capacity : Nat} {bits : UInt8} (hbits : bits ≤ 8)
    (h : RingBuffer.create capacity bits = .ok ring) : Audit ring capacity [] [] 0 := by
  have hholding := holding_create hbits h
  refine ⟨?_, ⟨[], { hholding with dropped_eq := rfl }, .start⟩, 0, ?_⟩
  · obtain ⟨-, rfl⟩ := RingBuffer.create_eq_ok h
    rfl
  · rw [hholding.dropped_eq]
    rfl

namespace Audit

variable (h : Audit ring capacity passed left taken)
include h

theorem sound : ring.Sound := by
  obtain ⟨queue, hholding, -⟩ := h.books
  exact hholding.toSound

theorem moveAll (done : List UInt32) (hlt : passed.length + done.length < 2 ^ 64) :
    Audit (done.foldl moved ring) capacity (passed ++ marked ring.space done) left taken := by
  obtain ⟨queue, hholding, hledger⟩ := h.books
  obtain ⟨wraps, hcounted⟩ := h.counted
  have hkept : passed.countP Passed.kept ≤ passed.length := List.countP_le_length
  have hmoved := hholding.moveAll done (by omega)
  have hroom : ring.space = capacity - queue.length := by
    rw [hholding.length_eq, ← h.capacity_eq]
    rfl
  refine ⟨(capacity_foldl_moved ring done).trans h.capacity_eq, ⟨_, ?_, hledger.moveAll done hroom⟩,
    ?_⟩
  · rw [List.countP_append, countP_kept_marked]
    exact hmoved
  · obtain ⟨more, hmore⟩ :=
      toNat_add_ofNat ring.dropped (done.length - ring.space + done.countP isOverrun)
    refine ⟨wraps + more, ?_⟩
    rw [dropped_foldl_moved h.sound, lost_append, lost_marked]
    omega

theorem bytes_moveAll (done : List UInt32) (hlt : passed.length + done.length < 2 ^ 64) :
    (done.foldl moved ring).width.encode (done.foldl moved ring).contents =
      ring.width.encode ring.contents ++ (done.take ring.space).map character := by
  obtain ⟨queue, hholding, -⟩ := h.books
  have hkept : passed.countP Passed.kept ≤ passed.length := List.countP_le_length
  have hmoved := hholding.moveAll done (by omega)
  rw [hmoved.narrow, hmoved.bytes_eq, hholding.narrow, hholding.bytes_eq]

theorem pop (room : Nat) :
    Audit (ring.pop room).2 capacity passed (left ++ (ring.pop room).1.map (⟨·, true⟩)) taken := by
  obtain ⟨queue, hholding, hledger⟩ := h.books
  obtain ⟨rest, hsplit, hrest⟩ := hholding.pop room
  rw [hsplit] at hledger
  exact ⟨h.capacity_eq, ⟨rest, hrest, hledger.read _ _⟩, h.counted⟩

theorem takeDropped :
    Audit ring.takeDropped.2 capacity passed left (taken + ring.takeDropped.1) := by
  obtain ⟨queue, hholding, hledger⟩ := h.books
  exact ⟨h.capacity_eq, ⟨queue, hholding.takeDropped.2, hledger⟩, h.counted⟩

theorem clear : ∃ queue : List UInt8,
    Audit ring.clear capacity passed (left ++ queue.map (⟨·, false⟩)) taken := by
  obtain ⟨queue, hholding, hledger⟩ := h.books
  refine ⟨queue, h.capacity_eq, ⟨[], ?_, hledger.discarded queue⟩, h.counted⟩
  refine ⟨hholding.toUnwrapped.clear, hholding.narrow, ?_, hholding.head_eq, rfl⟩
  rw [RingBuffer.contents_clear]
  rfl

end Audit

end SerialLine.Pl011.Window
