import Mathlib.Data.Nat.ModEq
import SerialLine.RingBuffer
/-! # The queue in a ring buffer

What each operation of a ring buffer does to its `contents`.

* `Sound`: storage for every slot and no more waiting characters than slots; every operation keeps it.
* `contents_push_fresh`: a push appends its character when the slot that it writes to holds none of
  the waiting ones. The counters run freely and wrap, so this is a hypothesis here.
* `slot_ne_of_noWrap`: as long as `head` has not wrapped past `tail`, waiting characters and the next
  free slot are apart, because consecutive numbers up to the capacity differ modulo the capacity.
* `contents_pop`, `contents_popWord`: popping takes from the front.
* `Unwrapped`: soundness together with `tail ≤ head` as numbers; `Unwrapped.push` and
  `Unwrapped.advance` are what the two ends of a buffer do to it.
-/
set_option autoImplicit false

namespace SerialLine.RingBuffer

/-! ## Soundness -/

/-- What every operation keeps: each slot has its bytes, and no more characters wait than slots are
there. -/
structure Sound (r : RingBuffer) : Prop where
  size_storage : r.storage.size = r.capacity * r.width.bytes
  capacity_lt : r.capacity < 2 ^ 64
  available_le : r.available ≤ r.capacity

theorem create_eq_ok {capacity : Nat} {bits : UInt8} {r : RingBuffer}
    (h : create capacity bits = .ok r) :
    capacity * (CharWidth.ofBits bits).bytes ≤ maxBytes ∧
      r = { storage := Array.replicate (capacity * (CharWidth.ofBits bits).bytes) 0,
            capacity := capacity, width := CharWidth.ofBits bits } := by
  unfold create at h
  simp only at h
  split at h
  · rename_i hsize
    exact ⟨hsize, by injection h with h; exact h.symm⟩
  · cases h

theorem sound_create {capacity : Nat} {bits : UInt8} {r : RingBuffer}
    (h : create capacity bits = .ok r) : r.Sound := by
  obtain ⟨hsize, rfl⟩ := create_eq_ok h
  have hbytes := (CharWidth.ofBits bits).bytes_pos
  have hcap : capacity * 1 ≤ capacity * (CharWidth.ofBits bits).bytes :=
    Nat.mul_le_mul_left capacity hbytes
  have hmax : maxBytes = 2 ^ 63 - 1 := rfl
  exact ⟨by simp, by simp only; omega, by simp [available]⟩

/-! ## Bytes and slots -/

@[simp] theorem size_store (r : RingBuffer) (counter : UInt64) (word : UInt16) :
    (r.store counter word).size = r.storage.size := by
  unfold store
  cases r.width <;> simp

theorem slot_lt (r : RingBuffer) (counter : UInt64) (h : 0 < r.capacity) :
    r.slot counter < r.capacity := Nat.mod_lt _ h

theorem offset_add_bytes_le {r : RingBuffer} (h : r.Sound) (counter : UInt64)
    (hcap : 0 < r.capacity) : r.offset counter + r.width.bytes ≤ r.storage.size := by
  have hslot := r.slot_lt counter hcap
  have hmul : (r.slot counter + 1) * r.width.bytes ≤ r.capacity * r.width.bytes :=
    Nat.mul_le_mul_right _ hslot
  rw [h.size_storage, offset]
  rw [Nat.add_mul, Nat.one_mul] at hmul
  exact hmul

/-- The character just stored is read back, as far as its bytes carry it. -/
theorem wordAt_store_self {r : RingBuffer} (h : r.Sound) (hcap : 0 < r.capacity)
    (counter : UInt64) (word : UInt16) (head : UInt64) :
    { r with storage := r.store counter word, head := head }.wordAt counter = r.width.clip word := by
  have hoff := offset_add_bytes_le h counter hcap
  cases hw : r.width with
  | narrow =>
    simp only [hw, CharWidth.bytes] at hoff
    have h0 : r.offset counter < r.storage.size := by omega
    simp only [offset, slot, hw, CharWidth.bytes, Nat.mul_one] at h0
    simp [wordAt, byteAt, store, hw, offset, slot, CharWidth.clip, CharWidth.bytes, h0]
  | wide =>
    simp only [hw, CharWidth.bytes] at hoff
    have h1 : r.offset counter + 1 < r.storage.size := by omega
    have h0 : r.offset counter < r.storage.size := by omega
    simp only [offset, slot, hw, CharWidth.bytes] at h0 h1
    simp [wordAt, byteAt, store, hw, offset, slot, CharWidth.clip, CharWidth.bytes, h0, h1,
      CharWidth.joinBytes_split]

/-- Storing a character changes no character in another slot. -/
theorem wordAt_store_other {r : RingBuffer} {counter other : UInt64}
    (h : r.slot other ≠ r.slot counter) (word : UInt16) (head : UInt64) :
    { r with storage := r.store counter word, head := head }.wordAt other = r.wordAt other := by
  have hs : other.toNat % r.capacity ≠ counter.toNat % r.capacity := h
  cases hw : r.width with
  | narrow =>
    simp [wordAt, byteAt, store, hw, offset, slot, CharWidth.bytes, Array.getD_eq_getD_getElem?,
      Ne.symm hs]
  | wide =>
    have e00 : counter.toNat % r.capacity * 2 ≠ other.toNat % r.capacity * 2 := by omega
    have e10 : counter.toNat % r.capacity * 2 + 1 ≠ other.toNat % r.capacity * 2 := by omega
    have e01 : counter.toNat % r.capacity * 2 ≠ other.toNat % r.capacity * 2 + 1 := by omega
    have e11 : counter.toNat % r.capacity * 2 + 1 ≠ other.toNat % r.capacity * 2 + 1 := by omega
    simp only [wordAt, byteAt, store, hw, offset, slot, CharWidth.bytes,
      Array.getD_eq_getD_getElem?, Nat.add_zero]
    rw [Array.getElem?_setIfInBounds_ne e10, Array.getElem?_setIfInBounds_ne e00,
      Array.getElem?_setIfInBounds_ne e11, Array.getElem?_setIfInBounds_ne e01]

/-! ## Levels -/

theorem available_lt (r : RingBuffer) : r.available < 2 ^ 64 := UInt64.toNat_lt _

theorem tail_add_available (r : RingBuffer) : r.tail + UInt64.ofNat r.available = r.head := by
  have h : UInt64.ofNat r.available = r.head - r.tail := UInt64.ofNat_toNat
  rw [h]
  grind

theorem push_of_full {r : RingBuffer} (h : r.capacity ≤ r.available) (word : UInt16) :
    r.push word = (false, r.countDropped) := if_pos h

theorem push_of_room {r : RingBuffer} (h : r.available < r.capacity) (word : UInt16) :
    r.push word = (true, { r with storage := r.store r.head word, head := r.head + 1 }) :=
  if_neg (Nat.not_le.mpr h)

theorem push_fst (r : RingBuffer) (word : UInt16) : (r.push word).1 = decide (0 < r.space) := by
  by_cases hroom : r.available < r.capacity
  · rw [push_of_room hroom, eq_comm, decide_eq_true_eq]
    exact Nat.sub_pos_of_lt hroom
  · rw [push_of_full (Nat.not_lt.mp hroom), eq_comm, decide_eq_false_iff_not]
    exact Nat.not_lt.mpr (Nat.sub_eq_zero_of_le (Nat.not_lt.mp hroom)).le

theorem dropped_push (r : RingBuffer) (word : UInt16) :
    (r.push word).2.dropped = r.dropped + UInt64.ofNat (1 - r.space) := by
  by_cases hroom : r.available < r.capacity
  · have hone : 1 ≤ r.space := Nat.sub_pos_of_lt hroom
    rw [push_of_room hroom, Nat.sub_eq_zero_of_le hone]
    exact (UInt64.add_zero _).symm
  · have hfull : r.space = 0 := Nat.sub_eq_zero_of_le (Nat.not_lt.mp hroom)
    rw [push_of_full (Nat.not_lt.mp hroom), hfull]
    rfl

/-- One more waiting character, if the counter difference has room for it. -/
theorem available_head_succ {r : RingBuffer} (h : r.available + 1 < 2 ^ 64)
    (storage : Array UInt8) :
    { r with storage := storage, head := r.head + 1 }.available = r.available + 1 := by
  have hsub : r.head + 1 - r.tail = (r.head - r.tail) + 1 := by grind
  have hone : (1 : UInt64).toNat = 1 := rfl
  simp only [available] at h ⊢
  rw [hsub, UInt64.toNat_add, hone, Nat.mod_eq_of_lt h]

/-- Fewer waiting characters after `n` of them were taken. -/
theorem available_tail_add {r : RingBuffer} {n : Nat} (h : n ≤ r.available) :
    { r with tail := r.tail + UInt64.ofNat n }.available = r.available - n := by
  have hlt := r.available_lt
  have hn : (UInt64.ofNat n).toNat = n := UInt64.toNat_ofNat_of_lt' (by
    have : UInt64.size = 2 ^ 64 := rfl
    omega)
  have hsub : r.head - (r.tail + UInt64.ofNat n) = (r.head - r.tail) - UInt64.ofNat n := by grind
  have hle : UInt64.ofNat n ≤ r.head - r.tail := by
    rw [UInt64.le_iff_toNat_le, hn]
    exact h
  simp only [available]
  rw [hsub, UInt64.toNat_sub_of_le _ _ hle, hn]

theorem available_pop (r : RingBuffer) (room : Nat) :
    (r.pop room).2.available = r.available - min r.available (room / r.width.bytes) :=
  available_tail_add (Nat.min_le_left _ _)

theorem available_eq_zero_iff (r : RingBuffer) : r.available = 0 ↔ r.head = r.tail := by
  unfold available
  rw [show (0 : Nat) = (0 : UInt64).toNat from rfl, UInt64.toNat_inj]
  constructor <;> intro h <;> grind

theorem popWord?_of_empty {r : RingBuffer} (h : r.available = 0) : r.popWord? = (none, r) :=
  if_pos ((available_eq_zero_iff r).mp h)

theorem popWord?_of_some {r : RingBuffer} (h : 0 < r.available) :
    r.popWord? = (some (r.wordAt r.tail), { r with tail := r.tail + UInt64.ofNat 1 }) :=
  if_neg fun he => Nat.ne_of_gt h ((available_eq_zero_iff r).mpr he)

@[simp] theorem available_clear (r : RingBuffer) : r.clear.available = 0 := by
  simp [clear, available]

/-! ## Every operation keeps soundness -/

theorem Sound.push {r : RingBuffer} (h : r.Sound) (word : UInt16) : (r.push word).2.Sound := by
  by_cases hroom : r.available < r.capacity
  · rw [push_of_room hroom]
    have hcap := h.capacity_lt
    refine ⟨by rw [size_store]; exact h.size_storage, h.capacity_lt, ?_⟩
    rw [available_head_succ (by omega)]
    exact hroom
  · rw [push_of_full (Nat.not_lt.mp hroom)]
    exact ⟨h.size_storage, h.capacity_lt, h.available_le⟩

theorem Sound.pop {r : RingBuffer} (h : r.Sound) (room : Nat) : (r.pop room).2.Sound := by
  refine ⟨h.size_storage, h.capacity_lt, ?_⟩
  rw [available_pop]
  exact (Nat.sub_le _ _).trans h.available_le

theorem Sound.popWord {r : RingBuffer} (h : r.Sound) : r.popWord?.2.Sound := by
  by_cases hpos : 0 < r.available
  · rw [popWord?_of_some hpos]
    refine ⟨h.size_storage, h.capacity_lt, ?_⟩
    rw [available_tail_add hpos]
    exact (Nat.sub_le _ _).trans h.available_le
  · rw [popWord?_of_empty (by omega)]
    exact h

theorem Sound.clear {r : RingBuffer} (h : r.Sound) : r.clear.Sound :=
  ⟨h.size_storage, h.capacity_lt, by rw [available_clear]; exact Nat.zero_le _⟩

theorem Sound.countDropped {r : RingBuffer} (h : r.Sound) : r.countDropped.Sound :=
  ⟨h.size_storage, h.capacity_lt, h.available_le⟩

theorem Sound.takeDropped {r : RingBuffer} (h : r.Sound) : r.takeDropped.2.Sound :=
  ⟨h.size_storage, h.capacity_lt, h.available_le⟩

/-! ## Contents -/

/-- A push appends its character if none of the waiting ones lives in the slot that it goes to. -/
theorem contents_push_fresh {r : RingBuffer} (h : r.Sound) (hroom : r.available < r.capacity)
    (hfresh : ∀ i < r.available, r.slot (r.tail + UInt64.ofNat i) ≠ r.slot r.head)
    (word : UInt16) : (r.push word).2.contents = r.contents ++ [r.width.clip word] := by
  have hcap := h.capacity_lt
  rw [push_of_room hroom]
  simp only [contents, counters]
  rw [available_head_succ (by omega), List.range_succ, List.map_append, List.map_append]
  simp only [List.map_cons, List.map_nil, List.map_map, tail_add_available]
  rw [wordAt_store_self h (by omega)]
  congr 1
  apply List.map_congr_left
  intro i hi
  exact wordAt_store_other (hfresh i (List.mem_range.mp hi)) word _

/-- As long as `head` has not wrapped past `tail`, the next free slot holds no waiting character. -/
theorem slot_ne_of_noWrap {r : RingBuffer} (hroom : r.available < r.capacity)
    (hle : r.tail.toNat ≤ r.head.toNat) {i : Nat} (hi : i < r.available) :
    r.slot (r.tail + UInt64.ofNat i) ≠ r.slot r.head := by
  have hhead := r.head.toNat_lt
  have hav : r.available = r.head.toNat - r.tail.toNat :=
    UInt64.toNat_sub_of_le _ _ (UInt64.le_iff_toNat_le.mpr hle)
  have hcounter : (r.tail + UInt64.ofNat i).toNat = r.tail.toNat + i := by
    rw [UInt64.toNat_add, UInt64.toNat_ofNat']
    omega
  unfold slot
  rw [hcounter]
  intro heq
  -- two numbers with one remainder differ by a multiple of the capacity
  have hdvd := (Nat.modEq_iff_dvd' (by omega : r.tail.toNat + i ≤ r.head.toNat)).mp heq
  have := Nat.le_of_dvd (by omega) hdvd
  omega

/-- Moving `tail` on by `n` takes the first `n` waiting characters. -/
theorem contents_tail_add {r : RingBuffer} {n : Nat} (h : n ≤ r.available) :
    { r with tail := r.tail + UInt64.ofNat n }.contents = r.contents.drop n := by
  have hav := available_tail_add h
  apply List.ext_getElem
  · rw [length_contents, hav, List.length_drop, length_contents]
  · intro i h1 h2
    have hword : ∀ c, { r with tail := r.tail + UInt64.ofNat n }.wordAt c = r.wordAt c :=
      fun _ => rfl
    simp only [contents, counters, List.getElem_map, List.getElem_drop, List.getElem_range, hword,
      UInt64.ofNat_add, UInt64.add_assoc]

@[simp] theorem contents_pop (r : RingBuffer) (room : Nat) :
    (r.pop room).2.contents = r.contents.drop (room / r.width.bytes) := by
  have htake : (r.pop room).2.contents = r.contents.drop (min r.available (room / r.width.bytes)) :=
    contents_tail_add (Nat.min_le_left _ _)
  rw [htake]
  by_cases hle : r.available ≤ room / r.width.bytes
  · have hlen := r.length_contents
    rw [Nat.min_eq_left hle, List.drop_of_length_le (by omega), List.drop_of_length_le (by omega)]
  · rw [Nat.min_eq_right (by omega)]

theorem contents_eq_cons {r : RingBuffer} (h : 0 < r.available) :
    r.contents = r.wordAt r.tail :: { r with tail := r.tail + UInt64.ofNat 1 }.contents := by
  have hlen : 0 < r.contents.length := by rw [length_contents]; exact h
  have h0 : r.contents[0] = r.wordAt r.tail := by
    simp [contents, counters]
  rw [contents_tail_add h, ← h0]
  exact (List.getElem_cons_drop hlen).symm

theorem contents_eq_nil_iff (r : RingBuffer) : r.contents = [] ↔ r.available = 0 := by
  rw [← length_contents, List.length_eq_zero_iff]

/-- Two waiting characters that share a slot are the same. -/
theorem contents_of_one_slot {r : RingBuffer} (htwo : r.available = 2)
    (hslot : r.slot (r.tail + 1) = r.slot r.tail) : r.contents = [r.wordAt r.tail, r.wordAt r.tail] := by
  have hsame : r.wordAt (r.tail + 1) = r.wordAt r.tail := by
    simp only [wordAt, byteAt, offset, hslot]
  have hcounters : r.counters r.available = [r.tail, r.tail + 1] := by
    rw [htwo]
    simp [counters, List.range_succ]
  rw [contents, hcounters, List.map_cons, List.map_singleton, hsame]

theorem popWord?_eq_head? (r : RingBuffer) : r.popWord?.1 = r.contents.head? := by
  by_cases hpos : 0 < r.available
  · rw [popWord?_of_some hpos, contents_eq_cons hpos]
    rfl
  · have h0 : r.available = 0 := by omega
    rw [popWord?_of_empty h0, (contents_eq_nil_iff r).mpr h0]
    rfl

@[simp] theorem contents_popWord (r : RingBuffer) : r.popWord?.2.contents = r.contents.tail := by
  by_cases hpos : 0 < r.available
  · rw [popWord?_of_some hpos, contents_eq_cons hpos]
    rfl
  · have h0 : r.available = 0 := by omega
    rw [popWord?_of_empty h0, (contents_eq_nil_iff r).mpr h0]
    rfl

@[simp] theorem contents_countDropped (r : RingBuffer) : r.countDropped.contents = r.contents := rfl

@[simp] theorem contents_takeDropped (r : RingBuffer) : r.takeDropped.2.contents = r.contents := rfl

/-! ## Counters that have not wrapped -/

/-- A buffer whose `head` has not wrapped, so that `tail` is behind it as a number. -/
structure Unwrapped (r : RingBuffer) : Prop extends Sound r where
  tail_le : r.tail.toNat ≤ r.head.toNat

theorem unwrapped_create {capacity : Nat} {bits : UInt8} {r : RingBuffer}
    (h : create capacity bits = .ok r) : r.Unwrapped := by
  refine ⟨sound_create h, ?_⟩
  obtain ⟨-, rfl⟩ := create_eq_ok h
  exact Nat.le_refl _

theorem contents_create {capacity : Nat} {bits : UInt8} {r : RingBuffer}
    (h : create capacity bits = .ok r) : r.contents = [] := by
  obtain ⟨-, rfl⟩ := create_eq_ok h
  exact (contents_eq_nil_iff _).mpr (by simp [available])

namespace Unwrapped

variable {r : RingBuffer}

theorem available_eq (h : r.Unwrapped) : r.available = r.head.toNat - r.tail.toNat :=
  UInt64.toNat_sub_of_le _ _ (UInt64.le_iff_toNat_le.mpr h.tail_le)

theorem head_succ (hhead : r.head.toNat + 1 < 2 ^ 64) : (r.head + 1).toNat = r.head.toNat + 1 := by
  have hone : (1 : UInt64).toNat = 1 := rfl
  rw [UInt64.toNat_add, hone]
  omega

theorem push (h : r.Unwrapped) (hroom : r.available < r.capacity)
    (hhead : r.head.toNat + 1 < 2 ^ 64) (word : UInt16) :
    (r.push word).2.Unwrapped ∧ (r.push word).2.contents = r.contents ++ [r.width.clip word] := by
  have hcontents := contents_push_fresh h.toSound hroom
    (fun _ hi => slot_ne_of_noWrap hroom h.tail_le hi) word
  refine ⟨⟨h.toSound.push word, ?_⟩, hcontents⟩
  have hle := h.tail_le
  rw [push_of_room hroom]
  simp only [head_succ hhead]
  omega

/-- Taking `n` waiting characters by moving `tail` on. -/
theorem advance (h : r.Unwrapped) {n : Nat} (hn : n ≤ r.available) :
    { r with tail := r.tail + UInt64.ofNat n }.Unwrapped where
  size_storage := h.size_storage
  capacity_lt := h.capacity_lt
  available_le := by
    rw [available_tail_add hn]
    exact (Nat.sub_le _ _).trans h.available_le
  tail_le := by
    have hav := h.available_eq
    have hhead := r.head.toNat_lt
    have hle := h.tail_le
    simp only [UInt64.toNat_add, UInt64.toNat_ofNat']
    omega

theorem pop (h : r.Unwrapped) (room : Nat) : (r.pop room).2.Unwrapped :=
  h.advance (Nat.min_le_left _ _)

theorem clear (h : r.Unwrapped) : r.clear.Unwrapped := ⟨h.toSound.clear, Nat.le_refl _⟩

theorem countDropped (h : r.Unwrapped) : r.countDropped.Unwrapped :=
  ⟨h.toSound.countDropped, h.tail_le⟩

theorem takeDropped (h : r.Unwrapped) : r.takeDropped.2.Unwrapped :=
  ⟨h.toSound.takeDropped, h.tail_le⟩

end Unwrapped

end SerialLine.RingBuffer
