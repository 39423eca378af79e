import Mathlib.Data.List.Nodup
import SerialLine.Proofs.Ring.Admission
/-! # Counters that wrap

The counters of a ring buffer wrap after 2^64 - 1, and the slot of a counter value is its remainder by
the capacity. On either side of the wrap, values in a row have slots in a row.

* `slot_tail_add`: the slot of a counter value, by whether `tail` wraps on the way to it.
* `Seamless`: what lets `n` values in a row wrap without harm. `slots_nodup_iff`: no two of them share a
  slot exactly then.
* `contents_push_apart`, `contents_pushAll`: characters that find room in slots of their own are queued
  behind the waiting ones, wherever the counters stand.
* `popAll_bytes`, `popWords_eq`: popping in any portions, or word by word, gives what is queued.
* `unread_keep_apart`: all of it. `shared_slot_repeats`: what a buffer may give if the counters wrap and
  the capacity does not divide 2^64.
-/
set_option autoImplicit false

namespace SerialLine.RingBuffer

variable {r : RingBuffer} {n i j : Nat}

/-! ## Slots in a row -/

/-- The slots of `n` counter values from `tail` on. -/
def slots (r : RingBuffer) (n : Nat) : List Nat := (r.counters n).map r.slot

/-- If `n` counter values from `tail` on wrap, then either the capacity divides the number of all counter
values, or they are so few that none comes back to a slot. -/
def Seamless (r : RingBuffer) (n : Nat) : Prop :=
  2 ^ 64 % r.capacity = 0 ∨ r.tail.toNat + n ≤ 2 ^ 64 ∨ n ≤ 2 ^ 64 % r.capacity

theorem slot_tail_add (r : RingBuffer) (hi : i < 2 ^ 64) :
    r.slot (r.tail + UInt64.ofNat i) = if r.tail.toNat + i < 2 ^ 64
      then (r.tail.toNat + i) % r.capacity else (r.tail.toNat + i - 2 ^ 64) % r.capacity := by
  have htail := r.tail.toNat_lt
  rw [slot, UInt64.toNat_add, UInt64.toNat_ofNat', Nat.mod_eq_of_lt hi]
  split
  case isTrue hlt => rw [Nat.mod_eq_of_lt hlt]
  case isFalse hge =>
    have hrest : r.tail.toNat + i - 2 ^ 64 < 2 ^ 64 := by omega
    rw [Nat.mod_eq_sub_mod (Nat.not_lt.mp hge), Nat.mod_eq_of_lt hrest]

/-- Two numbers that differ by less than the divisor have different remainders. -/
theorem mod_ne_mod {a b c : Nat} (hlt : a < b) (hnear : b < a + c) : a % c ≠ b % c := by
  intro heq
  have hdvd := (Nat.modEq_iff_dvd' hlt.le).mp heq
  have := Nat.le_of_dvd (by omega) hdvd
  omega

/-- Of two values with the wrap between them, the later one comes back to the slot of the earlier one if
their distance is what is left of all counter values. -/
theorem mod_eq_mod_around {a d c : Nat} (hd : d < c) (hd' : d ≤ 2 ^ 64) (haround : 2 ^ 64 ≤ a + d) :
    a % c = (a + d - 2 ^ 64) % c ↔ d = 2 ^ 64 % c := by
  have hle : a + d - 2 ^ 64 ≤ a := by omega
  have hdiff : a - (a + d - 2 ^ 64) = 2 ^ 64 - d := by omega
  rw [eq_comm, ← Nat.ModEq, Nat.modEq_iff_dvd' hle, hdiff, ← Nat.modEq_iff_dvd' hd', Nat.ModEq,
    Nat.mod_eq_of_lt hd]

/-- Two of `n` counter values in a row share a slot only around the wrap. -/
theorem slot_tail_eq_iff (hr : r.Sound) (hlt : i < j) (hj : j < r.capacity) :
    r.slot (r.tail + UInt64.ofNat i) = r.slot (r.tail + UInt64.ofNat j) ↔
      r.tail.toNat + i < 2 ^ 64 ∧ 2 ^ 64 ≤ r.tail.toNat + j ∧ j - i = 2 ^ 64 % r.capacity := by
  have hcap := hr.capacity_lt
  rw [slot_tail_add r (by omega), slot_tail_add r (by omega)]
  by_cases hi : r.tail.toNat + i < 2 ^ 64
  · by_cases hj' : r.tail.toNat + j < 2 ^ 64
    · rw [if_pos hi, if_pos hj']
      exact iff_of_false (mod_ne_mod (by omega) (by omega)) fun h => Nat.not_le.mpr hj' h.2.1
    · have haround := mod_eq_mod_around (a := r.tail.toNat + i) (d := j - i) (c := r.capacity)
        (by omega) (by omega) (by omega)
      rw [show r.tail.toNat + i + (j - i) = r.tail.toNat + j by omega] at haround
      rw [if_pos hi, if_neg hj', haround]
      exact ⟨fun h => ⟨hi, Nat.not_lt.mp hj', h⟩, fun h => h.2.2⟩
  · rw [if_neg hi, if_neg (by omega)]
    exact iff_of_false (mod_ne_mod (by omega) (by omega)) fun h => hi h.1

/-- No two of `n` counter values in a row share a slot, exactly if they are seamless. -/
theorem slots_nodup_iff (hr : r.Sound) (hn : n ≤ r.capacity) : (r.slots n).Nodup ↔ r.Seamless n := by
  have htail := r.tail.toNat_lt
  rw [slots, counters, List.map_map, List.nodup_map_iff_inj_on List.nodup_range]
  simp only [List.mem_range, Function.comp_apply]
  constructor
  · intro hinj
    by_contra hseam
    simp only [Seamless, not_or, Nat.not_le] at hseam
    obtain ⟨hrest, hwraps, hmany⟩ := hseam
    -- the last value before the wrap that is not too far from it, and the one that comes back to its slot
    have hshared := (slot_tail_eq_iff (r := r) (i := 2 ^ 64 - r.tail.toNat - 2 ^ 64 % r.capacity)
      (j := 2 ^ 64 - r.tail.toNat - 2 ^ 64 % r.capacity + 2 ^ 64 % r.capacity) hr (by omega)
      (by omega)).mpr ⟨by omega, by omega, by omega⟩
    have := hinj _ (by omega) _ (by omega) hshared
    omega
  · intro hseam i hi j hj heq
    have hapart {i j : Nat} (hlt : i < j) (hj : j < n) :
        r.slot (r.tail + UInt64.ofNat i) ≠ r.slot (r.tail + UInt64.ofNat j) := by
      intro heq
      obtain ⟨hbefore, hafter, hdistance⟩ := (slot_tail_eq_iff hr hlt (by omega)).mp heq
      unfold Seamless at hseam
      omega
    rcases Nat.lt_trichotomy i j with hlt | heq' | hlt
    · exact absurd heq (hapart hlt hj)
    · exact heq'
    · exact absurd heq.symm (hapart hlt hi)

/-! ## Pushing -/

/-- A push into a slot of its own appends its character, wherever the counters stand. -/
theorem contents_push_apart (hr : r.Sound) (hroom : r.available < r.capacity)
    (hapart : (r.slots (r.available + 1)).Nodup) (word : UInt16) :
    (r.push word).2.contents = r.contents ++ [r.width.clip word] := by
  refine contents_push_fresh hr hroom (fun i hi heq => ?_) word
  rw [slots, counters, List.map_map, List.nodup_map_iff_inj_on List.nodup_range] at hapart
  rw [← r.tail_add_available] at heq
  have := hapart i (List.mem_range.mpr (by omega)) r.available
    (List.mem_range.mpr (Nat.lt_succ_self _)) heq
  omega

theorem slots_sublist (r : RingBuffer) {m : Nat} (h : m ≤ n) : (r.slots m).Sublist (r.slots n) :=
  ((List.range_sublist.mpr h).map _).map _

theorem slots_push (r : RingBuffer) (word : UInt16) (n : Nat) : (r.push word).2.slots n = r.slots n := by
  unfold push
  split <;> rfl

/-- Characters that find room in slots of their own are all taken, and queued in order. -/
theorem contents_pushAll (hr : r.Sound) {words : List UInt16} (hroom : words.length ≤ r.space)
    (hapart : (r.slots (r.available + words.length)).Nodup) :
    (r.pushAll words).1 = List.replicate words.length true ∧
      (r.pushAll words).2.contents = r.contents ++ words.map r.width.clip := by
  induction words generalizing r with
  | nil => exact ⟨rfl, (List.append_nil _).symm⟩
  | cons word words ih =>
    have hlt : r.available < r.capacity := by
      unfold space at hroom
      rw [List.length_cons] at hroom
      omega
    have havailable : (r.push word).2.available = r.available + 1 := by
      have hcap := hr.capacity_lt
      rw [push_of_room hlt]
      exact available_head_succ (by omega) _
    have hspace := space_push_of_room hr hlt word
    have hwidth : (r.push word).2.width = r.width := by rw [push_of_room hlt]
    rw [List.length_cons] at hroom hapart
    have hlast := contents_push_apart hr hlt (hapart.sublist (slots_sublist r (by omega))) word
    obtain ⟨hall, hcontents⟩ := ih (hr.push word) (by omega) (by
      rwa [havailable, slots_push, Nat.add_assoc, Nat.add_comm 1])
    have hfst : (r.push word).1 = true := by rw [push_of_room hlt]
    refine ⟨?_, ?_⟩
    · rw [pushAll, List.length_cons, List.replicate_succ]
      simp only [hfst, hall]
    · rw [pushAll]
      simp only [hcontents, hlast, hwidth, List.map_cons, List.append_assoc, List.singleton_append]

/-! ## Popping -/

/-- Pops into one block of memory after the other, of these sizes. -/
def popAll (r : RingBuffer) : List Nat → List UInt8 × RingBuffer
  | [] => ([], r)
  | room :: rooms =>
    let (bytes, r) := r.pop room
    let (rest, r) := popAll r rooms
    (bytes ++ rest, r)

/-- Pops so many words, or as many as wait. -/
def popWords (r : RingBuffer) : Nat → List UInt16 × RingBuffer
  | 0 => ([], r)
  | n + 1 =>
    match r.popWord? with
    | (none, r) => ([], r)
    | (some word, r) =>
      let (rest, r) := popWords r n
      (word :: rest, r)

/-- Whatever the portions are, popping gives the bytes of what is queued, from the front. -/
theorem popAll_bytes (r : RingBuffer) (rooms : List Nat) : (r.popAll rooms).1 =
    r.width.encode (r.contents.take (rooms.map (· / r.width.bytes)).sum) := by
  induction rooms generalizing r with
  | nil => rfl
  | cons room rooms ih =>
    have hwidth : (r.pop room).2.width = r.width := rfl
    rw [popAll, List.map_cons, List.sum_cons, List.take_add, CharWidth.encode_append]
    simp only [ih, hwidth, contents_pop, pop_bytes]

/-- Word by word, popping gives what is queued, from the front. -/
theorem popWords_eq (r : RingBuffer) (n : Nat) : (r.popWords n).1 = r.contents.take n := by
  induction n generalizing r with
  | zero => rfl
  | succ n ih =>
    by_cases hpos : 0 < r.available
    · rw [popWords, popWord?_of_some hpos, contents_eq_cons hpos, List.take_succ_cons]
      simp only [ih]
    · have hempty : r.available = 0 := by omega
      rw [popWords, popWord?_of_empty hempty, (contents_eq_nil_iff r).mpr hempty, List.take_nil]

theorem width_pushAll (r : RingBuffer) (words : List UInt16) :
    (r.pushAll words).2.width = r.width := (r.fed_admitted words).width_eq

/-! ## Unread characters -/

/-- Counter values in a row have slots of their own wherever they are seamless. Then words that find
room are all taken, and popping gives the unread ones followed by these, in order: in any portions, and
word by word. -/
theorem unread_keep_apart {r : RingBuffer} (hr : r.Sound) (hcap : 0 < r.capacity) :
    (∀ n ≤ r.capacity, r.Seamless n → (r.slots n).Nodup ∧ ∀ slot ∈ r.slots n, slot < r.capacity) ∧
      ∀ words : List UInt16, words.length ≤ r.space → r.Seamless (r.available + words.length) →
        (r.pushAll words).1 = List.replicate words.length true ∧
        (∀ rooms : List Nat, ((r.pushAll words).2.popAll rooms).1 = r.width.encode
          ((r.contents ++ words.map r.width.clip).take (rooms.map (· / r.width.bytes)).sum)) ∧
        ∀ n : Nat, ((r.pushAll words).2.popWords n).1 =
          (r.contents ++ words.map r.width.clip).take n := by
  refine ⟨fun n hn hseam => ⟨(slots_nodup_iff hr hn).mpr hseam, fun slot hslot => ?_⟩,
    fun words hroom hseam => ?_⟩
  · obtain ⟨counter, -, rfl⟩ := List.mem_map.mp hslot
    exact r.slot_lt counter hcap
  · have hfew : r.available + words.length ≤ r.capacity := by
      have hle := hr.available_le
      unfold space at hroom
      omega
    obtain ⟨hall, hcontents⟩ := contents_pushAll hr hroom ((slots_nodup_iff hr hfew).mpr hseam)
    refine ⟨hall, fun rooms => ?_, fun n => ?_⟩
    · rw [popAll_bytes, hcontents, width_pushAll]
    · rw [popWords_eq, hcontents]

/-- Three characters wait around the wrap, and a fourth one is pushed. -/
theorem unread_keep_apart_wrapped :
    let r : RingBuffer :=
      { storage := #[9, 0, 0, 0, 7, 1, 8, 1], capacity := 4, width := .wide, head := 1,
        tail := UInt64.ofNat (2 ^ 64 - 2) }
    r.contents = [0x107, 0x108, 9] ∧ (r.slots 4).Nodup ∧ (r.pushAll [0x10A]).1 = [true] ∧
      ((r.pushAll [0x10A]).2.popAll [5, 4]).1 = [7, 1, 8, 1, 9, 0, 10, 1] ∧
      ((r.pushAll [0x10A]).2.popWords 4).1 = [0x107, 0x108, 9, 0x10A] := by
  intro r
  have hcontents : r.contents = [0x107, 0x108, 9] := by decide
  obtain ⟨hslots, hwords⟩ :=
    unread_keep_apart (r := r) ⟨by decide, by decide, by decide⟩ (by decide)
  obtain ⟨hall, hbytes, heach⟩ := hwords [0x10A] (by decide) (.inl (by decide))
  refine ⟨hcontents, (hslots 4 (by decide) (.inl (by decide))).1, hall, ?_, ?_⟩
  · rw [hbytes, hcontents]
    decide
  · rw [heach, hcontents]
    decide

/-- A buffer of three slots: for one-byte characters it gives back less than was pushed, and if the
counters wrap, it gives one character twice. -/
theorem shared_slot_repeats :
    (∃ r, create 3 8 = .ok r ∧ (r.pushAll [0x78, 0x161, 0x62]).1 = [true, true, true] ∧
      ((r.pushAll [0x78, 0x161, 0x62]).2.popWords 3).1 = [0x78, 0x61, 0x62]) ∧
    let r : RingBuffer :=
      { storage := #[0x78, 0, 0], capacity := 3, width := .narrow, head := 0,
        tail := UInt64.ofNat (2 ^ 64 - 1) }
    r.Sound ∧ r.contents = [0x78] ∧ r.slots 3 = [0, 0, 1] ∧
      (r.pushAll [0x61, 0x62]).1 = [true, true] ∧
      ((r.pushAll [0x61, 0x62]).2.popWords 3).1 = [0x61, 0x61, 0x62] := by
  refine ⟨⟨_, rfl, by decide, by decide⟩, ⟨by decide, by decide, by decide⟩, ?_⟩
  decide

end SerialLine.RingBuffer
