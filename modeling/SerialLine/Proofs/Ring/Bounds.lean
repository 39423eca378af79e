import SerialLine.Proofs.Ring.Contents
import SerialLine.Stream
/-! # Every index of a ring buffer is inside

The operations of a ring buffer once more, with every look at a byte, every store of one, every
remainder and every difference able to fail: an index outside, a remainder by zero and a difference
below zero have no answer. On a sound buffer they never fail and do what the operations do.

* `pushChecked?`, `popChecked?`, `popWordChecked?`, `spaceChecked?`: the checked forms. `popChecked?`
  fills a caller's buffer byte by byte.
* `pushChecked?_eq`, `popChecked?_eq`, `popWordChecked?_eq`, `spaceChecked?_eq`: they agree.
-/
set_option autoImplicit false

namespace SerialLine.RingBuffer

/-! ## Checked forms -/

/-- The free slots, by a difference that must not go below zero. -/
def spaceChecked? (r : RingBuffer) : Option Nat :=
  if r.available ≤ r.capacity then some r.space else none

/-- Where the bytes of a character begin, by a remainder that must not be by zero. -/
def offsetChecked? (r : RingBuffer) (counter : UInt64) : Option Nat :=
  if r.capacity = 0 then none else some (r.offset counter)

def storeByte? (storage : Array UInt8) (index : Nat) (byte : UInt8) : Option (Array UInt8) :=
  if index < storage.size then some (storage.setIfInBounds index byte) else none

/-- Queues a character, with every index checked. -/
def pushChecked? (r : RingBuffer) (word : UInt16) : Option (Bool × RingBuffer) :=
  if r.capacity ≤ r.available then some (false, r.countDropped)
  else do
    let at0 ← r.offsetChecked? r.head
    let storage ← storeByte? r.storage at0 (CharWidth.lowByte word)
    let storage ← match r.width with
      | .narrow => pure storage
      | .wide => storeByte? storage (at0 + 1) (CharWidth.highByte word)
    return (true, { r with storage := storage, head := r.head + 1 })

def copyByte? (r : RingBuffer) (source target : Nat) (out : List UInt8) : Option (List UInt8) := do
  let byte ← r.storage[source]?
  if target < out.length then some (out.set target byte) else none

/-- Copies the character with the given counter value to place `i` of a caller's buffer. -/
def copyWord? (r : RingBuffer) (counter : UInt64) (i : Nat) (out : List UInt8) :
    Option (List UInt8) := do
  let at0 ← r.offsetChecked? counter
  (List.range r.width.bytes).foldlM
    (fun out b => r.copyByte? (at0 + b) (i * r.width.bytes + b) out) out

/-- Takes as many whole characters as wait and as fit into a caller's buffer, with every index
checked. Gives the number of bytes and the buffer. -/
def popChecked? (r : RingBuffer) (out : List UInt8) : Option ((Nat × List UInt8) × RingBuffer) := do
  let count := min r.available (out.length / r.width.bytes)
  let out ← (List.range count).foldlM
    (fun out i => r.copyWord? (r.tail + UInt64.ofNat i) i out) out
  return ((count * r.width.bytes, out), { r with tail := r.tail + UInt64.ofNat count })

def popWordChecked? (r : RingBuffer) : Option (Option UInt16 × RingBuffer) :=
  if r.head = r.tail then some (none, r)
  else do
    let at0 ← r.offsetChecked? r.tail
    let low ← r.storage[at0]?
    let high ← match r.width with
      | .narrow => pure 0
      | .wide => r.storage[at0 + 1]?
    return (some (CharWidth.joinBytes low high), { r with tail := r.tail + 1 })

/-! ## Agreement -/

theorem spaceChecked?_eq {r : RingBuffer} (h : r.Sound) : r.spaceChecked? = some r.space :=
  if_pos h.available_le

theorem offsetChecked?_eq {r : RingBuffer} (hcap : 0 < r.capacity) (counter : UInt64) :
    r.offsetChecked? counter = some (r.offset counter) :=
  if_neg (Nat.ne_of_gt hcap)

theorem storeByte?_eq {storage : Array UInt8} {index : Nat} (h : index < storage.size)
    (byte : UInt8) : storeByte? storage index byte = some (storage.setIfInBounds index byte) :=
  if_pos h

theorem pushChecked?_eq {r : RingBuffer} (h : r.Sound) (word : UInt16) :
    r.pushChecked? word = some (r.push word) := by
  by_cases hroom : r.available < r.capacity
  · have hcap : 0 < r.capacity := by omega
    have hoff := offset_add_bytes_le h r.head hcap
    rw [push_of_room hroom, pushChecked?, if_neg (Nat.not_le.mpr hroom), offsetChecked?_eq hcap]
    cases hw : r.width with
    | narrow =>
      simp only [hw, CharWidth.bytes] at hoff
      simp [storeByte?_eq (Nat.lt_of_succ_le hoff), store, hw]
    | wide =>
      simp only [hw, CharWidth.bytes] at hoff
      have h0 : r.offset r.head < r.storage.size := by omega
      have h1 : r.offset r.head + 1 < r.storage.size := by omega
      simp [storeByte?_eq, h0, h1, store, hw]
  · rw [push_of_full (Nat.not_lt.mp hroom), pushChecked?, if_pos (Nat.not_lt.mp hroom)]

theorem byteAt_eq_getElem? {r : RingBuffer} (h : r.Sound) (hcap : 0 < r.capacity)
    (counter : UInt64) {i : Nat} (hi : i < r.width.bytes) :
    r.storage[r.offset counter + i]? = some (r.byteAt counter i) := by
  have hoff := offset_add_bytes_le h counter hcap
  have hlt : r.offset counter + i < r.storage.size := by omega
  rw [byteAt, Array.getD_eq_getD_getElem?, Array.getElem?_eq_getElem hlt]
  rfl

theorem popWordChecked?_eq {r : RingBuffer} (h : r.Sound) :
    r.popWordChecked? = some r.popWord? := by
  by_cases hempty : r.head = r.tail
  · rw [popWordChecked?, if_pos hempty, popWord?, if_pos hempty]
  · have hav : r.available ≠ 0 := fun h0 => hempty ((available_eq_zero_iff r).mp h0)
    have hcap : 0 < r.capacity := by have := h.available_le; omega
    have h0 := byteAt_eq_getElem? h hcap r.tail r.width.bytes_pos
    rw [Nat.add_zero] at h0
    rw [popWordChecked?, if_neg hempty, popWord?, if_neg hempty, offsetChecked?_eq hcap]
    cases hw : r.width with
    | narrow =>
      have hjoin : ∀ low, CharWidth.joinBytes low 0 = low.toUInt16 := by
        intro low
        apply UInt16.toNat_inj.1
        have := low.toNat_lt
        simp only [CharWidth.joinBytes, UInt16.toNat_ofNat', UInt8.toNat_toUInt16]
        rw [show (0 : UInt8).toNat = 0 from rfl]
        omega
      simp [h0, wordAt, hw, hjoin]
    | wide =>
      have h1 := byteAt_eq_getElem? h hcap r.tail (i := 1) (by rw [hw]; decide)
      simp [h0, h1, wordAt, hw]

theorem copyByte?_eq {r : RingBuffer} {source target : Nat} {byte : UInt8} {out : List UInt8}
    (hsource : r.storage[source]? = some byte) (htarget : target < out.length) :
    r.copyByte? source target out = some (out.set target byte) := by
  simp [copyByte?, hsource, htarget]

theorem length_bytesAt (r : RingBuffer) (counter : UInt64) :
    (r.bytesAt counter).length = r.width.bytes := by
  rw [bytesAt_eq_encodeWord, CharWidth.length_encodeWord]

theorem length_flatMap_bytesAt (r : RingBuffer) (n : Nat) :
    ((r.counters n).flatMap r.bytesAt).length = n * r.width.bytes := by
  rw [List.length_flatMap, List.map_congr_left (fun c _ => r.length_bytesAt c), List.map_const',
    List.sum_replicate_nat]
  simp [counters]

theorem set_set_succ {α : Type} (a b : α) {out : List α} {i : Nat} (h : i + 1 < out.length) :
    (out.set i a).set (i + 1) b = out.take i ++ [a, b] ++ out.drop (i + 2) := by
  induction out generalizing i with
  | nil => simp at h
  | cons x xs ih =>
    cases i with
    | zero =>
      cases xs with
      | nil => simp at h
      | cons y ys => rfl
    | succ i =>
      have hi : i + 1 < xs.length := by simpa using h
      simp [ih hi]

/-- A copied character replaces the bytes of its place and nothing else. -/
theorem copyWord?_eq {r : RingBuffer} (h : r.Sound) (hcap : 0 < r.capacity) (counter : UInt64)
    {i : Nat} {out : List UInt8} (hfit : (i + 1) * r.width.bytes ≤ out.length) :
    r.copyWord? counter i out = some (out.take (i * r.width.bytes) ++ r.bytesAt counter ++
      out.drop ((i + 1) * r.width.bytes)) := by
  have h0 := byteAt_eq_getElem? h hcap counter r.width.bytes_pos
  rw [copyWord?, offsetChecked?_eq hcap]
  cases hw : r.width with
  | narrow =>
    rw [hw] at hfit
    simp only [CharWidth.bytes, Nat.mul_one] at hfit ⊢
    have hrange : List.range 1 = [0] := rfl
    have hcopy := copyByte?_eq h0 (Nat.lt_of_succ_le hfit)
    rw [List.set_eq_take_append_cons_drop, if_pos (Nat.lt_of_succ_le hfit), Nat.add_zero] at hcopy
    simp [hrange, bytesAt, hw, hcopy]
  | wide =>
    have h1 := byteAt_eq_getElem? h hcap counter (i := 1) (by rw [hw]; decide)
    rw [hw] at hfit
    simp only [CharWidth.bytes] at hfit ⊢
    have hlow : i * 2 < out.length := by omega
    have hcopy0 := copyByte?_eq h0 hlow
    have hcopy1 : r.copyByte? (r.offset counter + 1) (i * 2 + 1)
        (out.set (i * 2) (r.byteAt counter 0)) =
        some ((out.set (i * 2) (r.byteAt counter 0)).set (i * 2 + 1) (r.byteAt counter 1)) :=
      copyByte?_eq h1 (by rw [List.length_set]; omega)
    have hset := set_set_succ (r.byteAt counter 0) (r.byteAt counter 1)
      (by omega : i * 2 + 1 < out.length)
    rw [show i * 2 + 2 = (i + 1) * 2 by omega] at hset
    have hrange : List.range 2 = [0, 1] := rfl
    simp only [hrange, Option.pure_def, Option.bind_eq_bind, Option.bind_some, List.foldlM_cons,
      List.foldlM_nil, Nat.add_zero, bytesAt, hw] at hcopy0 hcopy1 ⊢
    rw [hcopy0, Option.bind_some, hcopy1, Option.bind_some, hset]

/-- After `n` characters the front of the caller's buffer holds their bytes; the rest is untouched. -/
theorem copyWords?_eq {r : RingBuffer} (h : r.Sound) (hcap : 0 < r.capacity) (out : List UInt8)
    {n : Nat} (hfit : n * r.width.bytes ≤ out.length) :
    (List.range n).foldlM (fun out i => r.copyWord? (r.tail + UInt64.ofNat i) i out) out =
      some ((r.counters n).flatMap r.bytesAt ++ out.drop (n * r.width.bytes)) := by
  induction n with
  | zero => simp [counters]
  | succ n ih =>
    have hmul : (n + 1) * r.width.bytes = n * r.width.bytes + r.width.bytes := Nat.succ_mul _ _
    have hlen := r.length_flatMap_bytesAt n
    have hprev : ((r.counters n).flatMap r.bytesAt ++ out.drop (n * r.width.bytes)).length =
        out.length := by
      rw [List.length_append, List.length_drop, hlen]
      omega
    rw [List.range_succ, List.foldlM_append, ih (by omega), Option.bind_eq_bind, Option.bind_some,
      List.foldlM_cons, copyWord?_eq h hcap _ (by rw [hprev]; exact hfit)]
    rw [List.take_left' hlen, List.drop_append, hlen, List.drop_drop,
      List.drop_of_length_le (by rw [hlen]; omega)]
    have hsum : n * r.width.bytes + ((n + 1) * r.width.bytes - n * r.width.bytes) =
        (n + 1) * r.width.bytes := by omega
    simp [counters, List.range_succ, hsum]

theorem popChecked?_eq {r : RingBuffer} (h : r.Sound) (out : List UInt8) :
    r.popChecked? out = some (((r.pop out.length).1.length, overlay (r.pop out.length).1 out),
      (r.pop out.length).2) := by
  have hfit : min r.available (out.length / r.width.bytes) * r.width.bytes ≤ out.length :=
    (Nat.mul_le_mul_right _ (Nat.min_le_right _ _)).trans (Nat.div_mul_le_self _ _)
  have hlen := r.length_flatMap_bytesAt (min r.available (out.length / r.width.bytes))
  have hcopied : (List.range (min r.available (out.length / r.width.bytes))).foldlM
      (fun out i => r.copyWord? (r.tail + UInt64.ofNat i) i out) out =
      some (overlay (r.pop out.length).1 out) := by
    by_cases hcap : 0 < r.capacity
    · rw [copyWords?_eq h hcap out hfit, overlay, pop]
      simp only
      rw [hlen, List.take_of_length_le (by omega)]
    · -- without slots nothing waits, and no character is copied
      have h0 : r.available = 0 := by have := h.available_le; omega
      simp [pop, h0, counters]
  simp only [popChecked?, hcopied, Option.bind_eq_bind, Option.bind_some, Option.pure_def, pop, hlen]

end SerialLine.RingBuffer
