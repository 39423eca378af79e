import SerialLine.Proofs.Lines.Frame
import SerialLine.Stream.Transfers
/-! # Filling a buffer from a stream

The loops that read into a buffer until it is full and chunk after chunk, taken apart, for any stream.

* `overlay_take_drop`, `overlay_part`: bytes put at the front of a buffer.
* `lastProgress`, `lastAnswer`: what a transfer answers after a read or a write that moved nothing.
* `fill_of_halted`, `fill_of_ended`, `fill_of_blocked`, `fill_of_failed`: a read that ends the loop. For
  any that moves nothing, `fill_of_stopped`.
* `fill_of_overflow`, `fill_of_full`, `fill_of_more`, `fill_of_front`: a read that moved bytes.
* `readChunks_of_stopped`, `readChunks_of_moved`: the same for the reads of everything.
* `readSized_eq_ok_iff`, `readInto_eq_fill`, `readInto_of_fill`, `readInto_eq_ok_iff`: transfers of a given
  size fill a buffer once.
* `Progress.taken_answer`: what a transfer hands over is what it moved.
-/
set_option autoImplicit false

namespace SerialLine

/-! ## Bytes at the front of a buffer -/

/-- Bytes that do not fit are lost. -/
theorem overlay_take_length (bytes buffer : List UInt8) :
    overlay (bytes.take buffer.length) buffer = overlay bytes buffer := by
  rw [overlay, overlay, List.take_take, Nat.min_self, List.length_take]
  rcases Nat.le_total buffer.length bytes.length with hle | hle
  · rw [Nat.min_eq_left hle, List.drop_length, List.drop_of_length_le hle]
  · rw [Nat.min_eq_right hle]

theorem overlay_take_drop {n : Nat} {bytes buffer : List UInt8} (hbytes : n ≤ bytes.length)
    (hbuffer : n ≤ buffer.length) : overlay bytes buffer =
      bytes.take n ++ overlay (bytes.drop n) (buffer.drop n) := by
  have hlength : (bytes.take n).length = n := List.length_take_of_le hbytes
  conv_lhs => rw [← List.take_append_drop n bytes]
  rw [overlay_append (hlength.le.trans hbuffer), hlength]

theorem take_overlay {n : Nat} {bytes buffer : List UInt8} (hbytes : n ≤ bytes.length)
    (hbuffer : n ≤ buffer.length) : (overlay bytes buffer).take n = bytes.take n := by
  rw [overlay_take_drop hbytes hbuffer, List.take_left' (List.length_take_of_le hbytes)]

/-- Bytes put at the front of a part of a buffer. -/
theorem overlay_part (bytes buffer : List UInt8) (n : Nat) :
    overlay bytes (buffer.take n) ++ buffer.drop n = overlay (bytes.take n) buffer := by
  have hfront : bytes.take (buffer.take n).length = (bytes.take n).take buffer.length := by
    rw [List.length_take, List.take_take, Nat.min_comm]
  have hback : (buffer.take n).drop bytes.length ++ buffer.drop n =
      buffer.drop (bytes.take n).length := by
    rw [List.length_take]
    rcases Nat.le_total bytes.length n with hle | hle
    · conv_rhs => rw [Nat.min_eq_right hle, ← List.take_append_drop n buffer, List.drop_append]
      rw [List.length_take, List.drop_drop]
      congr 1
      rcases Nat.le_total n buffer.length with hn | hn
      · rw [Nat.min_eq_left hn, Nat.sub_eq_zero_of_le hle, Nat.add_zero]
      · rw [List.drop_of_length_le hn, List.drop_of_length_le (by omega)]
    · rw [Nat.min_eq_left hle, List.drop_of_length_le ((List.length_take_le _ _).trans hle),
        List.nil_append]
  rw [overlay, overlay, hfront, List.append_assoc, hback]

namespace Stream

/-! ## The end of a transfer -/

/-- What is answered with the bytes read so far when a read told this, and moved none. -/
def lastAnswer (data : List UInt8) : Except Error Nat → Except Error (Option (List UInt8))
  | .ok _ => .ok (some data)
  | .error e => if e = .shouldWait then .ok (if data.isEmpty then none else some data) else .error e

/-- The same for the bytes that were read into a buffer. -/
def lastProgress (count : Nat) : Except Error Nat → Except Error Progress
  | .ok _ => .ok ⟨count, false⟩
  | .error e => if e = .shouldWait then .ok ⟨count, true⟩ else .error e

theorem lastAnswer_of_failed (data : List UInt8) {e : Error} (he : e ≠ .shouldWait) :
    lastAnswer data (.error e) = .error e := if_neg he

theorem lastProgress_of_failed (count : Nat) {e : Error} (he : e ≠ .shouldWait) :
    lastProgress count (.error e) = .error e := if_neg he

/-- What a transfer answers at its end, with what is handed over for a count. -/
theorem lastProgress_answer {β : Type} {f : Nat → β} {g : List UInt8 → β} {data : List UInt8}
    (outcome : Except Error Nat) (h : f data.length = g data) :
    ((lastProgress data.length outcome).map fun progress => progress.answer?.map f) =
      (lastAnswer data outcome).map (Option.map g) := by
  cases outcome with
  | ok n => simp [lastProgress, lastAnswer, Progress.answer?, Except.map, h]
  | error e =>
    rcases eq_or_ne e .shouldWait with rfl | he
    · cases data with
      | nil => rfl
      | cons byte bytes => simpa [lastProgress, lastAnswer, Progress.answer?, Except.map] using h
    · rw [lastProgress_of_failed _ he, lastAnswer_of_failed _ he]
      rfl

/-! ## A transfer into a buffer -/

/-- A transfer that has nothing to answer moved nothing. -/
theorem Progress.taken_answer (progress : Progress) (buffer : List UInt8) :
    (progress.answer?.map fun n => buffer.take n).getD [] = buffer.take progress.count := by
  unfold answer?
  split_ifs with hblocked
  · simp only [Bool.and_eq_true, decide_eq_true_eq] at hblocked
    rw [hblocked.1]
    rfl
  · rfl

variable {W : Type} {s : Stream W} {filled rest : List UInt8} {reply : ReadReply} {w w' : W}

theorem fill_nil : s.fill filled [] w = .ok (.ok ⟨filled.length, false⟩, filled) w := by
  rw [fill]
  rfl

theorem fill_of_halted {e : Halt} (hrest : rest ≠ []) (hread : s.read rest w = .error e w') :
    s.fill filled rest w = .error e w' := by
  obtain ⟨byte, bytes, rfl⟩ := List.exists_cons_of_ne_nil hrest
  rw [fill, Act.bind_of_error hread]

section
variable (hrest : rest ≠ []) (hread : s.read rest w = .ok reply w')
include hrest hread

theorem fill_of_ended (h : reply.outcome = .ok 0) :
    s.fill filled rest w =
      .ok (.ok ⟨filled.length, false⟩, filled ++ overlay reply.bytes rest) w' := by
  obtain ⟨byte, bytes, rfl⟩ := List.exists_cons_of_ne_nil hrest
  rw [fill, Act.bind_of_ok hread]
  simp only [h]
  rfl

theorem fill_of_blocked (h : reply.outcome = .error .shouldWait) :
    s.fill filled rest w =
      .ok (.ok ⟨filled.length, true⟩, filled ++ overlay reply.bytes rest) w' := by
  obtain ⟨byte, bytes, rfl⟩ := List.exists_cons_of_ne_nil hrest
  rw [fill, Act.bind_of_ok hread]
  simp only [h]
  rfl

theorem fill_of_failed {e : Error} (h : reply.outcome = .error e) (he : e ≠ .shouldWait) :
    s.fill filled rest w = .ok (.error e, filled ++ overlay reply.bytes rest) w' := by
  obtain ⟨byte, bytes, rfl⟩ := List.exists_cons_of_ne_nil hrest
  rw [fill, Act.bind_of_ok hread]
  simp only [h]
  rfl

/-- A sum of bytes that fits in no count halts the transfer. -/
theorem fill_of_overflow {n : Nat} (h : reply.outcome = .ok (n + 1))
    (hcount : countLimit ≤ filled.length + (n + 1)) :
    s.fill filled rest w = .error .aborted w' := by
  obtain ⟨byte, bytes, rfl⟩ := List.exists_cons_of_ne_nil hrest
  have hadd : addCounts (W := W) filled.length (n + 1) w' = .error .aborted w' := by
    rw [addCounts, if_neg (Nat.not_lt.mpr hcount)]
    rfl
  rw [fill, Act.bind_of_ok hread]
  simp only [h]
  exact Act.bind_of_error hadd

theorem fill_of_full {n : Nat} (h : reply.outcome = .ok (n + 1))
    (hcount : filled.length + (n + 1) < countLimit) (hfull : rest.length ≤ n + 1) :
    s.fill filled rest w =
      .ok (.ok ⟨filled.length + (n + 1), false⟩, filled ++ overlay reply.bytes rest) w' := by
  obtain ⟨byte, bytes, rfl⟩ := List.exists_cons_of_ne_nil hrest
  have hadd : addCounts (W := W) filled.length (n + 1) w' = .ok (filled.length + (n + 1)) w' := by
    rw [addCounts, if_pos hcount]
    rfl
  rw [fill, Act.bind_of_ok hread]
  simp only [h]
  rw [Act.bind_of_ok hadd, length_overlay, if_pos hfull]
  rfl

theorem fill_of_more {n : Nat} (h : reply.outcome = .ok (n + 1))
    (hcount : filled.length + (n + 1) < countLimit) (hroom : n + 1 < rest.length) :
    s.fill filled rest w =
      s.fill (filled ++ (overlay reply.bytes rest).take (n + 1))
        ((overlay reply.bytes rest).drop (n + 1)) w' := by
  obtain ⟨byte, bytes, rfl⟩ := List.exists_cons_of_ne_nil hrest
  have hadd : addCounts (W := W) filled.length (n + 1) w' = .ok (filled.length + (n + 1)) w' := by
    rw [addCounts, if_pos hcount]
    rfl
  rw [fill, Act.bind_of_ok hread]
  simp only [h]
  rw [Act.bind_of_ok hadd, length_overlay, if_neg (Nat.not_le.mpr hroom)]

end

theorem fill_of_stopped (hrest : rest ≠ [])
    (hread : s.read rest w = .ok reply w') (h : ∀ n, reply.outcome ≠ .ok (n + 1)) :
    s.fill filled rest w =
      .ok (lastProgress filled.length reply.outcome, filled ++ overlay reply.bytes rest) w' := by
  cases houtcome : reply.outcome with
  | ok n =>
    cases n with
    | zero => exact fill_of_ended hrest hread houtcome
    | succ n => exact absurd houtcome (h n)
  | error e =>
    rcases eq_or_ne e .shouldWait with rfl | he
    · exact fill_of_blocked hrest hread houtcome
    · rw [lastProgress_of_failed _ he]
      exact fill_of_failed hrest hread houtcome he

/-- A read that moved what it tells. -/
theorem fill_of_front {n : Nat} {front : List UInt8} (hrest : rest ≠ [])
    (hread : s.read rest w = .ok ⟨.ok (n + 1), front⟩ w') (hfront : front.length = n + 1)
    (hcount : filled.length + (n + 1) < countLimit) (hroom : n + 1 < rest.length) :
    s.fill filled rest w = s.fill (filled ++ front) (rest.drop (n + 1)) w' := by
  rw [fill_of_more hrest hread rfl hcount hroom, overlay_eq_append (hfront.le.trans hroom.le), hfront,
    List.take_left' hfront, List.drop_left' hfront]

theorem readChunks_of_stopped {patience : Nat} {chunk data : List UInt8}
    (hread : s.read chunk w = .ok reply w') (h : ∀ n, reply.outcome ≠ .ok (n + 1)) :
    s.readChunks (patience + 1) chunk data w = .ok (lastAnswer data reply.outcome) w' := by
  rw [readChunks, Act.bind_of_ok hread]
  cases houtcome : reply.outcome with
  | ok n =>
    cases n with
    | zero => rfl
    | succ n => exact absurd houtcome (h n)
  | error e =>
    rcases eq_or_ne e .shouldWait with rfl | he
    · rfl
    · rw [lastAnswer_of_failed _ he]
      simp only
      rfl

theorem readChunks_of_moved {patience n : Nat} {chunk data : List UInt8}
    (hread : s.read chunk w = .ok reply w') (h : reply.outcome = .ok (n + 1))
    (hroom : n + 1 ≤ chunk.length) : s.readChunks (patience + 1) chunk data w =
      s.readChunks patience (overlay reply.bytes chunk)
        (data ++ (overlay reply.bytes chunk).take (n + 1)) w' := by
  rw [readChunks, Act.bind_of_ok hread]
  simp only [h, length_overlay, Nat.not_lt.mpr hroom, if_false]

/-! ## Transfers of a given size -/

theorem readSized_of_big {size : Nat} (h : maxBytes < size) :
    s.readSized size w = .error .aborted w := by
  rw [readSized, if_pos h]
  rfl

theorem readSized_eq_ok_iff {size : Nat} {answer : Except Error (Option (List UInt8))} :
    s.readSized size w = .ok answer w' ↔ size ≤ maxBytes ∧ ∃ result buffer,
      s.fill [] (List.replicate size 0) w = .ok (result, buffer) w' ∧
        (result.map fun progress => progress.answer?.map fun n => buffer.take n) = answer := by
  by_cases hbig : maxBytes < size
  · rw [readSized_of_big hbig]
    exact iff_of_false nofun fun h => absurd h.1 (Nat.not_le.mpr hbig)
  · rw [readSized, if_neg hbig]
    simp only [Nat.not_lt.mp hbig, true_and]
    constructor
    · intro h
      cases hfill : s.fill [] (List.replicate size 0) w with
      | error e w₁ =>
        rw [Act.bind_of_error hfill] at h
        cases h
      | ok end_ w₁ =>
        rw [Act.bind_of_ok hfill] at h
        cases h
        exact ⟨_, _, rfl, rfl⟩
    · rintro ⟨result, buffer, hfill, rfl⟩
      rw [Act.bind_of_ok hfill]
      rfl

/-- A transfer whose length is not refused fills the front of its buffer. -/
theorem readInto_eq_fill [HasLog W] {buffer : List UInt8} {length : Option Nat}
    (hlength : (s.properties w).exactLength = true → length.getD buffer.length = buffer.length) :
    s.readInto buffer length w = (do
      let end_ ← s.fill [] (buffer.take (length.getD buffer.length))
      return (end_.1.map Progress.answer?, end_.2 ++ buffer.drop (length.getD buffer.length)) :
      Act W _) w := by
  have hget : (get : Act W W) w = .ok w w := rfl
  have hallowed : ((s.properties w).exactLength &&
      decide (length.getD buffer.length ≠ buffer.length)) = false := by
    cases hexact : (s.properties w).exactLength with
    | true => simp [hlength hexact]
    | false => rfl
  rw [readInto, Act.bind_of_ok hget]
  simp only [hallowed, Bool.false_eq_true, if_false]

theorem readInto_of_fill [HasLog W] {buffer front : List UInt8} {length : Option Nat}
    {result : Except Error Progress}
    (hlength : (s.properties w).exactLength = true → length.getD buffer.length = buffer.length)
    (hfill : s.fill [] (buffer.take (length.getD buffer.length)) w = .ok (result, front) w') :
    s.readInto buffer length w =
      .ok (result.map Progress.answer?, front ++ buffer.drop (length.getD buffer.length)) w' := by
  rw [readInto_eq_fill hlength, Act.bind_of_ok hfill]
  rfl

/-- A transfer into the whole of a buffer is never refused for its length. -/
theorem readInto_eq_ok_iff [HasLog W] {buffer buffer' : List UInt8} {answer : Except Error (Option Nat)} :
    s.readInto buffer none w = .ok (answer, buffer') w' ↔ ∃ result,
      s.fill [] buffer w = .ok (result, buffer') w' ∧ result.map Progress.answer? = answer := by
  have hget : (get : Act W W) w = .ok w w := rfl
  have hlength : ((s.properties w).exactLength && decide (buffer.length ≠ buffer.length)) = false := by
    simp
  rw [readInto, Act.bind_of_ok hget]
  simp only [Option.getD_none, hlength, Bool.false_eq_true, if_false, List.take_length,
    List.drop_length, List.append_nil]
  constructor
  · intro h
    cases hfill : s.fill [] buffer w with
    | error e w₁ =>
      rw [Act.bind_of_error hfill] at h
      cases h
    | ok end_ w₁ =>
      rw [Act.bind_of_ok hfill] at h
      cases h
      exact ⟨_, rfl, rfl⟩
  · rintro ⟨result, hfill, rfl⟩
    rw [Act.bind_of_ok hfill]
    rfl

end Stream
end SerialLine
