import SerialLine.Bench
import SerialLine.Proofs.Ring.Bounds
/-! # A ring buffer is a bounded queue

`BoundedQueue` is what a receive buffer is meant to be: at most `capacity` characters in order and a
count of those that were refused or lost. `RingStep` lists what the two ends of a buffer can do. Runs
of steps are compared by the answers of the steps and by the levels that can be read after each.

* `RingBuffer.Refines`: a ring buffer holds a queue, and so many more steps of the producer wrap no
  counter.
* `RingBuffer.Refines.perform`: one step, with the same answer and a buffer that holds the new queue.
* `ringSteps_refine_queue`: whole runs on a shared buffer, from a new one on.

A character goes through a narrow buffer as one byte, so the queue holds what `CharWidth.clip` leaves
of it. `pushed_word_is_clipped` shows that the queue of whole 16-bit words is not what is there.
-/
set_option autoImplicit false

namespace SerialLine

/-! ## Queues and steps -/

/-- A queue of at most `capacity` characters and the number of characters that it lost. -/
structure BoundedQueue where
  capacity : Nat
  width : CharWidth
  words : List UInt16 := []
  dropped : Nat := 0
  deriving DecidableEq

/-- What can be done to a buffer: by its owner, or through a producer's end of it. -/
inductive RingStep where
  | push (word : UInt16)
  | producerPush (word : UInt16)
  | producerDropped
  | pop (out : List UInt8)
  | popWord
  | clear
  | takeDropped
  deriving DecidableEq

inductive RingAnswer where
  | accepted (yes : Bool)
  | done
  | filled (count : Nat) (out : List UInt8)
  | word (word : Option UInt16)
  | count (count : Nat)
  deriving DecidableEq

/-- What can be read off a buffer at any time. -/
structure RingLevels where
  available : Nat
  space : Nat
  isEmpty : Bool
  isFull : Bool
  dropped : Nat
  deriving DecidableEq

/-- How far a step can move `head` or the count of dropped characters. -/
def RingStep.cost : RingStep → Nat
  | push _ => 1
  | producerPush _ => 1
  | producerDropped => 1
  | _ => 0

namespace BoundedQueue

/-- The empty queue for characters of `bits` bits. -/
def create (capacity : Nat) (bits : UInt8) : BoundedQueue where
  capacity := capacity
  width := CharWidth.ofBits bits

def push (q : BoundedQueue) (word : UInt16) : RingAnswer × BoundedQueue :=
  if q.words.length < q.capacity then
    (.accepted true, { q with words := q.words ++ [q.width.clip word] })
  else (.accepted false, { q with dropped := q.dropped + 1 })

/-- Takes the first `n` characters into the front of a caller's buffer. -/
def pop (q : BoundedQueue) (n : Nat) (out : List UInt8) : RingAnswer × BoundedQueue :=
  (.filled (n * q.width.bytes)
      (q.width.encode (q.words.take n) ++ out.drop (n * q.width.bytes)),
    { q with words := q.words.drop n })

def perform (q : BoundedQueue) : RingStep → RingAnswer × BoundedQueue
  | .push word => q.push word
  | .producerPush word => q.push word
  | .producerDropped => (.done, { q with dropped := q.dropped + 1 })
  | .pop out => q.pop (min q.words.length (out.length / q.width.bytes)) out
  | .popWord => (.word q.words.head?, { q with words := q.words.tail })
  | .clear => (.done, { q with words := [] })
  | .takeDropped => (.count q.dropped, { q with dropped := 0 })

def levels (q : BoundedQueue) : RingLevels where
  available := q.words.length
  space := q.capacity - q.words.length
  isEmpty := q.words.isEmpty
  isFull := q.words.length = q.capacity
  dropped := q.dropped

/-- Makes steps in order; each reports its answer and the levels after it. -/
def performAll (q : BoundedQueue) : List RingStep → List (RingAnswer × RingLevels) × BoundedQueue
  | [] => ([], q)
  | step :: steps =>
    let (answer, q) := q.perform step
    let (reports, q') := performAll q steps
    ((answer, q.levels) :: reports, q')

@[simp] theorem capacity_perform (q : BoundedQueue) (step : RingStep) :
    (q.perform step).2.capacity = q.capacity := by
  cases step <;> simp only [perform, push, pop] <;> split <;> rfl

@[simp] theorem capacity_performAll (q : BoundedQueue) (steps : List RingStep) :
    (q.performAll steps).2.capacity = q.capacity := by
  induction steps generalizing q with
  | nil => rfl
  | cons step steps ih => exact (ih (q.perform step).2).trans (q.capacity_perform step)

end BoundedQueue

namespace RingBuffer

def perform (r : RingBuffer) : RingStep → RingAnswer × RingBuffer
  | .push word => let (yes, r) := r.push word; (.accepted yes, r)
  | .producerPush word => let (yes, r) := r.push word; (.accepted yes, r)
  | .producerDropped => (.done, r.countDropped)
  | .pop out =>
    let (bytes, r) := r.pop out.length
    (.filled bytes.length (overlay bytes out), r)
  | .popWord => let (word, r) := r.popWord?; (.word word, r)
  | .clear => (.done, r.clear)
  | .takeDropped => let (count, r) := r.takeDropped; (.count count, r)

/-- A step with every index, remainder and difference checked. -/
def performChecked? (r : RingBuffer) : RingStep → Option (RingAnswer × RingBuffer)
  | .push word => (r.pushChecked? word).map fun (yes, r) => (.accepted yes, r)
  | .producerPush word => (r.pushChecked? word).map fun (yes, r) => (.accepted yes, r)
  | .pop out => (r.popChecked? out).map fun ((count, out), r) => (.filled count out, r)
  | .popWord => r.popWordChecked?.map fun (word, r) => (.word word, r)
  | .producerDropped => some (r.perform .producerDropped)
  | .clear => some (r.perform .clear)
  | .takeDropped => some (r.perform .takeDropped)

def levels (r : RingBuffer) : RingLevels where
  available := r.available
  space := r.space
  isEmpty := r.isEmpty
  isFull := r.isFull
  dropped := r.dropped.toNat

def levelsChecked? (r : RingBuffer) : Option RingLevels :=
  r.spaceChecked?.map fun space => { r.levels with space := space, isFull := space == 0 }

def performAllChecked? (r : RingBuffer) :
    List RingStep → Option (List (RingAnswer × RingLevels) × RingBuffer)
  | [] => some ([], r)
  | step :: steps => do
    let (answer, r) ← r.performChecked? step
    let levels ← r.levelsChecked?
    let (reports, r) ← performAllChecked? r steps
    return ((answer, levels) :: reports, r)

end RingBuffer

namespace Bench

variable {σ : Type}

/-- A step on a shared buffer. The owner and every copy of the producer's end know it by one name. -/
def ringStep (id : BufferId) : RingStep → StateM (Bench σ) RingAnswer
  | .producerPush word => return .accepted (← Bench.push id word)
  | .producerDropped => do
    Bench.countDropped id
    return .done
  | .pop out => do
    let bytes ← Bench.pop id out.length
    return .filled bytes.length (overlay bytes out)
  | step => Bench.ringDo id fun r => r.perform step

def ringSteps (id : BufferId) :
    List RingStep → StateM (Bench σ) (List (RingAnswer × RingLevels))
  | [] => return []
  | step :: steps => do
    let answer ← ringStep id step
    let levels := (← Bench.ring id).levels
    return (answer, levels) :: (← ringSteps id steps)

end Bench

/-! ## One step -/

/-- A ring buffer holds a queue, and `n` more steps of the producer wrap neither `head` nor the count
of dropped characters. -/
structure RingBuffer.Refines (r : RingBuffer) (q : BoundedQueue) (n : Nat) : Prop
    extends RingBuffer.Unwrapped r where
  capacity_eq : r.capacity = q.capacity
  width_eq : r.width = q.width
  contents_eq : r.contents = q.words
  dropped_eq : r.dropped.toNat = q.dropped
  head_lt : r.head.toNat + n < 2 ^ 64
  dropped_lt : r.dropped.toNat + n < 2 ^ 64

namespace RingBuffer.Refines

variable {r : RingBuffer} {q : BoundedQueue} {n : Nat}

theorem length_words (h : r.Refines q n) : q.words.length = r.available := by
  rw [← h.contents_eq, RingBuffer.length_contents]

theorem levels_eq (h : r.Refines q n) : r.levels = q.levels := by
  have hlen := h.length_words
  have hle := h.available_le
  have hcap := h.capacity_eq
  have hempty : r.isEmpty = q.words.isEmpty := by
    rw [Bool.eq_iff_iff]
    simp only [RingBuffer.isEmpty, beq_iff_eq, List.isEmpty_iff, ← List.length_eq_zero_iff, hlen]
  have hfull : r.isFull = decide (q.words.length = q.capacity) := by
    rw [Bool.eq_iff_iff]
    simp only [RingBuffer.isFull, RingBuffer.space, beq_iff_eq, decide_eq_true_eq]
    omega
  simp only [RingBuffer.levels, BoundedQueue.levels, RingBuffer.space, hempty, hfull, hlen, hcap,
    h.dropped_eq]

theorem levelsChecked?_eq (h : r.Refines q n) : r.levelsChecked? = some q.levels := by
  rw [RingBuffer.levelsChecked?, RingBuffer.spaceChecked?_eq h.toSound, ← h.levels_eq]
  rfl

theorem dropped_succ (h : r.Refines q (n + 1)) : (r.dropped + 1).toNat = q.dropped + 1 := by
  have hlt := h.dropped_lt
  rw [UInt64.toNat_add, show (1 : UInt64).toNat = 1 from rfl, ← h.dropped_eq]
  omega

theorem countDropped (h : r.Refines q (n + 1)) :
    r.countDropped.Refines { q with dropped := q.dropped + 1 } n where
  toUnwrapped := h.toUnwrapped.countDropped
  capacity_eq := h.capacity_eq
  width_eq := h.width_eq
  contents_eq := h.contents_eq
  dropped_eq := h.dropped_succ
  head_lt := by
    have := h.head_lt
    simp only [RingBuffer.countDropped]
    omega
  dropped_lt := by
    have hlt := h.dropped_lt
    have hsucc := h.dropped_succ
    have heq := h.dropped_eq
    simp only [RingBuffer.countDropped]
    omega

theorem push (h : r.Refines q (n + 1)) (word : UInt16) :
    RingAnswer.accepted (r.push word).1 = (q.push word).1 ∧
      (r.push word).2.Refines (q.push word).2 n := by
  have hlen := h.length_words
  have hcap := h.capacity_eq
  by_cases hroom : r.available < r.capacity
  · have hhead : r.head.toNat + 1 < 2 ^ 64 := by
      have := h.head_lt
      omega
    obtain ⟨hunwrapped, hcontents⟩ := h.toUnwrapped.push hroom hhead word
    rw [RingBuffer.push_of_room hroom] at hcontents hunwrapped ⊢
    rw [BoundedQueue.push, if_pos (by omega)]
    refine ⟨rfl, hunwrapped, hcap, h.width_eq, ?_, h.dropped_eq, ?_, ?_⟩
    · rw [hcontents, h.contents_eq, h.width_eq]
    · have := h.head_lt
      simp only [RingBuffer.Unwrapped.head_succ hhead]
      omega
    · have := h.dropped_lt
      simp only
      omega
  · rw [RingBuffer.push_of_full (Nat.not_lt.mp hroom), BoundedQueue.push, if_neg (by omega)]
    exact ⟨rfl, h.countDropped⟩

theorem take (h : r.Refines q n) {k : Nat} (hk : k ≤ r.available) :
    { r with tail := r.tail + UInt64.ofNat k }.Refines { q with words := q.words.drop k } n where
  toUnwrapped := h.toUnwrapped.advance hk
  capacity_eq := h.capacity_eq
  width_eq := h.width_eq
  contents_eq := by rw [RingBuffer.contents_tail_add hk, h.contents_eq]
  dropped_eq := h.dropped_eq
  head_lt := h.head_lt
  dropped_lt := h.dropped_lt

theorem pop (h : r.Refines q n) (out : List UInt8) :
    (r.perform (.pop out)).1 = (q.perform (.pop out)).1 ∧
      (r.perform (.pop out)).2.Refines (q.perform (.pop out)).2 n := by
  have hlen := h.length_words
  have hbytes := RingBuffer.length_flatMap_bytesAt r (min r.available (out.length / r.width.bytes))
  have hfit : min r.available (out.length / r.width.bytes) * r.width.bytes ≤ out.length :=
    (Nat.mul_le_mul_right _ (Nat.min_le_right _ _)).trans (Nat.div_mul_le_self _ _)
  have hencode : (r.pop out.length).1 =
      q.width.encode (q.words.take (min r.available (out.length / r.width.bytes))) := by
    rw [RingBuffer.pop_bytes, h.contents_eq, h.width_eq]
    congr 1
    rw [← hlen, Nat.min_comm, ← List.take_take, List.take_length]
  have hpop : (r.pop out.length).1.length =
      min r.available (out.length / r.width.bytes) * r.width.bytes := hbytes
  refine ⟨?_, ?_⟩
  · simp only [RingBuffer.perform, BoundedQueue.perform, BoundedQueue.pop, overlay]
    rw [hpop, List.take_of_length_le (by rw [hpop]; exact hfit), hencode, hlen, ← h.width_eq]
  · have htake := h.take (Nat.min_le_left r.available (out.length / r.width.bytes))
    have hcount : min q.words.length (out.length / q.width.bytes) =
        min r.available (out.length / r.width.bytes) := by rw [hlen, h.width_eq]
    simp only [BoundedQueue.perform, BoundedQueue.pop]
    rw [hcount]
    exact htake

theorem popWord (h : r.Refines q n) :
    r.popWord?.1 = q.words.head? ∧ r.popWord?.2.Refines { q with words := q.words.tail } n := by
  refine ⟨by rw [RingBuffer.popWord?_eq_head?, h.contents_eq], ?_⟩
  by_cases hpos : 0 < r.available
  · rw [RingBuffer.popWord?_of_some hpos, ← List.drop_one]
    exact h.take hpos
  · have h0 : r.available = 0 := by omega
    have hnil : q.words = [] := by
      rw [← h.contents_eq, RingBuffer.contents_eq_nil_iff]
      exact h0
    rw [RingBuffer.popWord?_of_empty h0, hnil, List.tail_nil, ← hnil]
    exact h

theorem clear (h : r.Refines q n) : r.clear.Refines { q with words := [] } n where
  toUnwrapped := h.toUnwrapped.clear
  capacity_eq := h.capacity_eq
  width_eq := h.width_eq
  contents_eq := r.contents_clear
  dropped_eq := h.dropped_eq
  head_lt := h.head_lt
  dropped_lt := h.dropped_lt

theorem takeDropped (h : r.Refines q n) :
    r.takeDropped.2.Refines { q with dropped := 0 } n where
  toUnwrapped := h.toUnwrapped.takeDropped
  capacity_eq := h.capacity_eq
  width_eq := h.width_eq
  contents_eq := h.contents_eq
  dropped_eq := rfl
  head_lt := h.head_lt
  dropped_lt := by
    have := h.dropped_lt
    have hz : (RingBuffer.takeDropped r).2.dropped.toNat = 0 := rfl
    omega

/-- A step answers what it answers on the queue and leaves a buffer that holds the queue after it. -/
theorem perform {step : RingStep} (h : r.Refines q (step.cost + n)) :
    (r.perform step).1 = (q.perform step).1 ∧
      (r.perform step).2.Refines (q.perform step).2 n := by
  cases step with
  | push word => exact (Nat.add_comm 1 n ▸ h : r.Refines q (n + 1)).push word
  | producerPush word => exact (Nat.add_comm 1 n ▸ h : r.Refines q (n + 1)).push word
  | producerDropped => exact ⟨rfl, (Nat.add_comm 1 n ▸ h : r.Refines q (n + 1)).countDropped⟩
  | pop out => exact (Nat.zero_add n ▸ h : r.Refines q n).pop out
  | popWord =>
    obtain ⟨hword, hnext⟩ := (Nat.zero_add n ▸ h : r.Refines q n).popWord
    exact ⟨congrArg RingAnswer.word hword, hnext⟩
  | clear => exact ⟨rfl, (Nat.zero_add n ▸ h : r.Refines q n).clear⟩
  | takeDropped =>
    exact ⟨congrArg RingAnswer.count h.dropped_eq, (Nat.zero_add n ▸ h : r.Refines q n).takeDropped⟩

end RingBuffer.Refines

/-! ## Whole runs -/

theorem RingBuffer.performChecked?_eq {r : RingBuffer} (h : r.Sound) (step : RingStep) :
    r.performChecked? step = some (r.perform step) := by
  cases step with
  | push word =>
    rw [performChecked?, pushChecked?_eq h]
    rfl
  | producerPush word =>
    rw [performChecked?, pushChecked?_eq h]
    rfl
  | pop out =>
    rw [performChecked?, popChecked?_eq h]
    rfl
  | popWord =>
    rw [performChecked?, popWordChecked?_eq h]
    rfl
  | producerDropped => rfl
  | clear => rfl
  | takeDropped => rfl

/-- A new buffer holds the empty queue; a run that costs less than `2 ^ 64` wraps nothing. -/
theorem RingBuffer.Refines.create {capacity : Nat} {bits : UInt8} {r : RingBuffer} {n : Nat}
    (h : RingBuffer.create capacity bits = .ok r) (hn : n < 2 ^ 64) :
    r.Refines (BoundedQueue.create capacity bits) n := by
  have hunwrapped := RingBuffer.unwrapped_create h
  have hcontents := RingBuffer.contents_create h
  obtain ⟨-, rfl⟩ := RingBuffer.create_eq_ok h
  have hz : (0 : UInt64).toNat = 0 := rfl
  refine ⟨hunwrapped, rfl, rfl, hcontents, rfl, ?_, ?_⟩
  · simp only [hz]
    omega
  · simp only [hz]
    omega

def RingStep.costAll (steps : List RingStep) : Nat := (steps.map RingStep.cost).sum

theorem Bench.ringStep_eq {σ : Type} (id : BufferId) (step : RingStep) (b : Bench σ) :
    Bench.ringStep id step b = (((b.buffers.ring id).perform step).1,
      { b with buffers := b.buffers.set id ((b.buffers.ring id).perform step).2 }) := by
  cases step <;> rfl

theorem Bench.ringSteps_cons {σ : Type} (id : BufferId) (step : RingStep) (steps : List RingStep)
    (b : Bench σ) :
    Bench.ringSteps id (step :: steps) b =
      let (answer, b₁) := Bench.ringStep id step b
      let (reports, b₂) := Bench.ringSteps id steps b₁
      ((answer, (b₁.buffers.ring id).levels) :: reports, b₂) := rfl

/-- A run on a shared buffer that holds a queue: no check fails, the reports are those of the queue,
and the buffer holds the queue after the run. -/
theorem RingBuffer.Refines.ringSteps {σ : Type} {id : BufferId} {steps : List RingStep} {b : Bench σ}
    {q : BoundedQueue} {n : Nat} (hid : b.buffers.Holds id)
    (h : (b.buffers.ring id).Refines q (RingStep.costAll steps + n)) :
    ∃ r', (b.buffers.ring id).performAllChecked? steps = some ((q.performAll steps).1, r') ∧
      Bench.ringSteps id steps b =
        ((q.performAll steps).1, { b with buffers := b.buffers.set id r' }) ∧
      r'.Refines (q.performAll steps).2 n := by
  induction steps generalizing b q with
  | nil =>
    refine ⟨b.buffers.ring id, rfl, ?_, Nat.zero_add n ▸ h⟩
    rw [RxBuffers.set_ring]
    rfl
  | cons step steps ih =>
    have hcost : RingStep.costAll (step :: steps) + n = step.cost + (RingStep.costAll steps + n) := by
      simp only [RingStep.costAll, List.map_cons, List.sum_cons]
      omega
    rw [hcost] at h
    obtain ⟨hanswer, hnext⟩ := h.perform
    have hring := RxBuffers.ring_set_self hid ((b.buffers.ring id).perform step).2
    rw [← hring] at hnext
    obtain ⟨r', hchecked, hrun, hr'⟩ := ih (b := { b with
      buffers := b.buffers.set id ((b.buffers.ring id).perform step).2 }) (hid.set _) hnext
    rw [hring] at hchecked hnext
    refine ⟨r', ?_, ?_, hr'⟩
    · rw [RingBuffer.performAllChecked?, RingBuffer.performChecked?_eq h.toSound, Option.bind_eq_bind,
        Option.bind_some]
      simp only [hnext.levelsChecked?_eq, hchecked, Option.bind_eq_bind, Option.bind_some, hanswer,
        Option.pure_def, BoundedQueue.performAll]
    · have hlevels := hnext.levels_eq
      simp only [Bench.ringSteps_cons, Bench.ringStep_eq, hring, hrun, BoundedQueue.performAll,
        hanswer, hlevels, RxBuffers.set_set]

/-- Every run on a new shared buffer of any capacity and width, made by the owner and through any
copies of the producer's end in any order, reports what the bounded queue reports: answers, filled
buffers and levels after every step. No index is outside, nothing is divided by zero and no difference
goes below zero. -/
theorem ringSteps_refine_queue {σ : Type} (b : Bench σ) {capacity : Nat} {bits : UInt8}
    {r : RingBuffer} (h : RingBuffer.create capacity bits = .ok r) (steps : List RingStep)
    (hcost : RingStep.costAll steps < 2 ^ 64) :
    r.levels = (BoundedQueue.create capacity bits).levels ∧
    ∃ r', r.performAllChecked? steps =
        some (((BoundedQueue.create capacity bits).performAll steps).1, r') ∧
      (Bench.ringSteps (Bench.addRing r b).1 steps (Bench.addRing r b).2).1 =
        ((BoundedQueue.create capacity bits).performAll steps).1 ∧
      (Bench.ringSteps (Bench.addRing r b).1 steps (Bench.addRing r b).2).2.buffers.ring
        (Bench.addRing r b).1 = r' ∧
      r'.contents = ((BoundedQueue.create capacity bits).performAll steps).2.words ∧
      ((BoundedQueue.create capacity bits).performAll steps).2.words.length ≤ capacity := by
  have hring : (Bench.addRing r b).2.buffers.ring (Bench.addRing r b).1 = r :=
    RxBuffers.ring_add_self b.buffers r
  have hid : (Bench.addRing r b).2.buffers.Holds (Bench.addRing r b).1 := by
    simp [RxBuffers.Holds, Bench.addRing, RxBuffers.add]
  have hnew := RingBuffer.Refines.create (n := RingStep.costAll steps + 0) h hcost
  rw [← hring] at hnew
  obtain ⟨r', hchecked, hrun, hr'⟩ := hnew.ringSteps hid
  rw [hring] at hchecked hnew
  refine ⟨hnew.levels_eq, r', hchecked, by rw [hrun], ?_, hr'.contents_eq, ?_⟩
  · rw [hrun]
    exact RxBuffers.ring_set_self hid r'
  · have hle := hr'.available_le
    rw [hr'.capacity_eq, BoundedQueue.capacity_performAll] at hle
    rw [hr'.length_words]
    exact hle

/-- Two wide slots, used around the end of the storage, with a refused character in between. -/
theorem ringSteps_refine_queue_wide :
    ∃ r, RingBuffer.create 2 9 = .ok r ∧
      r.performAllChecked? [.push 0x1A5, .producerPush 3, .push 7, .pop [0xEE, 0xEE, 0xEE],
        .producerPush 9, .popWord, .takeDropped] =
      some ([(.accepted true, ⟨1, 1, false, false, 0⟩), (.accepted true, ⟨2, 0, false, true, 0⟩),
        (.accepted false, ⟨2, 0, false, true, 1⟩),
        (.filled 2 [0xA5, 0x01, 0xEE], ⟨1, 1, false, false, 1⟩),
        (.accepted true, ⟨2, 0, false, true, 1⟩), (.word (some 3), ⟨1, 1, false, false, 1⟩),
        (.count 1, ⟨1, 1, false, false, 0⟩)],
        (Bench.ringSteps (Bench.addRing r ⟨{}, {}, ()⟩).1 [.push 0x1A5, .producerPush 3, .push 7,
          .pop [0xEE, 0xEE, 0xEE], .producerPush 9, .popWord, .takeDropped]
          (Bench.addRing r ⟨{}, {}, ()⟩).2).2.buffers.ring (Bench.addRing r ⟨{}, {}, ()⟩).1) := by
  refine ⟨_, rfl, ?_⟩
  obtain ⟨-, r', hchecked, -, hring, -⟩ := ringSteps_refine_queue (⟨{}, {}, ()⟩ : Bench Unit)
    (rfl : RingBuffer.create 2 9 = .ok _) [.push 0x1A5, .producerPush 3, .push 7,
      .pop [0xEE, 0xEE, 0xEE], .producerPush 9, .popWord, .takeDropped] (by decide)
  rw [hchecked, hring]
  rfl

/-- A narrow buffer accepts a 9-bit word and gives back its low byte only. -/
theorem pushed_word_is_clipped :
    ∃ r, RingBuffer.create 1 8 = .ok r ∧ (r.push 0x1A5).1 = true ∧
      (r.push 0x1A5).2.popWord?.1 = some 0xA5 ∧ (r.push 0x1A5).2.popWord?.1 ≠ some 0x1A5 :=
  ⟨_, rfl, by decide, by decide, by decide⟩

end SerialLine
