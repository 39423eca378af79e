import SerialLine.CharWidth
import SerialLine.Error
/-!
# Ring buffers

A ring buffer queues received characters between one producer and one consumer. Two free-running
64-bit counters say how many characters were ever pushed (`head`) and popped (`tail`); their wrapping
difference is the number of waiting characters, so no slot is sacrificed to tell full from empty. The
character with counter value `c` lives in slot `c % capacity`. A character that meets a full buffer
is dropped and counted.

`contents` is the queue that the buffer holds; `push`, `pop`, `popWord` and `clear` act on it.
-/
set_option autoImplicit false

namespace SerialLine

/-- A bounded queue of characters over a block of bytes. -/
structure RingBuffer where
  /-- The block of bytes, `width.bytes` for each of the `capacity` slots. -/
  storage : Array UInt8
  capacity : Nat
  width : CharWidth
  /-- The characters ever pushed; only the producer changes it. -/
  head : UInt64 := 0
  /-- The characters ever popped or cleared; only the consumer changes it. -/
  tail : UInt64 := 0
  /-- The characters dropped since this count was last taken. -/
  dropped : UInt64 := 0

namespace RingBuffer

def empty : RingBuffer := { storage := #[], capacity := 0, width := .narrow }

instance : Inhabited RingBuffer := ⟨empty⟩

/-- A new buffer for `capacity` characters of `bits` bits, unless its storage is larger than memory can
be. Memory for a smaller one is taken to be available. -/
def create (capacity : Nat) (bits : UInt8) : Except Error RingBuffer :=
  let width := CharWidth.ofBits bits
  let size := capacity * width.bytes
  if size ≤ maxBytes then
    .ok { storage := Array.replicate size 0, capacity := capacity, width := width }
  else .error .noMemory

def storageLength (r : RingBuffer) : Nat := r.storage.size

def available (r : RingBuffer) : Nat := (r.head - r.tail).toNat

def space (r : RingBuffer) : Nat := r.capacity - r.available

def isEmpty (r : RingBuffer) : Bool := r.available == 0

def isFull (r : RingBuffer) : Bool := r.space == 0

/-- The slot of the character with the given counter value. -/
def slot (r : RingBuffer) (counter : UInt64) : Nat := counter.toNat % r.capacity

/-- Where the bytes of a character begin in the storage. -/
def offset (r : RingBuffer) (counter : UInt64) : Nat := r.slot counter * r.width.bytes

def byteAt (r : RingBuffer) (counter : UInt64) (i : Nat) : UInt8 :=
  r.storage.getD (r.offset counter + i) 0

def bytesAt (r : RingBuffer) (counter : UInt64) : List UInt8 :=
  match r.width with
  | .narrow => [r.byteAt counter 0]
  | .wide => [r.byteAt counter 0, r.byteAt counter 1]

def wordAt (r : RingBuffer) (counter : UInt64) : UInt16 :=
  match r.width with
  | .narrow => (r.byteAt counter 0).toUInt16
  | .wide => CharWidth.joinBytes (r.byteAt counter 0) (r.byteAt counter 1)

/-- The counter values of the first `n` waiting characters. -/
def counters (r : RingBuffer) (n : Nat) : List UInt64 :=
  (List.range n).map fun i => r.tail + UInt64.ofNat i

/-- The waiting characters, oldest first. -/
def contents (r : RingBuffer) : List UInt16 :=
  (r.counters r.available).map r.wordAt

/-- The storage after the bytes of `word` were put at the slot of the given counter value. -/
def store (r : RingBuffer) (counter : UInt64) (word : UInt16) : Array UInt8 :=
  let at0 := r.offset counter
  match r.width with
  | .narrow => r.storage.setIfInBounds at0 (CharWidth.lowByte word)
  | .wide =>
    (r.storage.setIfInBounds at0 (CharWidth.lowByte word)).setIfInBounds (at0 + 1)
      (CharWidth.highByte word)

/-- Counts a character that was lost before it reached the buffer. -/
def countDropped (r : RingBuffer) : RingBuffer :=
  { r with dropped := r.dropped + 1 }

/-- Queues a character. A full buffer drops it instead, and the answer is false. -/
def push (r : RingBuffer) (word : UInt16) : Bool × RingBuffer :=
  if r.capacity ≤ r.available then (false, r.countDropped)
  else (true, { r with storage := r.store r.head word, head := r.head + 1 })

def pushAll (r : RingBuffer) : List UInt16 → List Bool × RingBuffer
  | [] => ([], r)
  | word :: words =>
    let (accepted, r) := r.push word
    let (rest, r) := pushAll r words
    (accepted :: rest, r)

/-- Takes as many whole characters as wait and as fit in `room` bytes, and gives their bytes. -/
def pop (r : RingBuffer) (room : Nat) : List UInt8 × RingBuffer :=
  let count := min r.available (room / r.width.bytes)
  ((r.counters count).flatMap r.bytesAt, { r with tail := r.tail + UInt64.ofNat count })

def popWord? (r : RingBuffer) : Option UInt16 × RingBuffer :=
  if r.head = r.tail then (none, r)
  else (some (r.wordAt r.tail), { r with tail := r.tail + 1 })

def clear (r : RingBuffer) : RingBuffer :=
  { r with tail := r.head }

def takeDropped (r : RingBuffer) : Nat × RingBuffer :=
  (r.dropped.toNat, { r with dropped := 0 })

def describe (r : RingBuffer) : String :=
  s!"RingBuffer \x7b capacity: {r.capacity}, width: {r.width.bytes}, " ++
    s!"available: {r.available}, overruns: {r.dropped.toNat} \x7d"

def describeProducer (r : RingBuffer) : String :=
  s!"RxSink \x7b buf: {r.describe} \x7d"

theorem bytesAt_eq_encodeWord (r : RingBuffer) (counter : UInt64) :
    r.bytesAt counter = r.width.encodeWord (r.wordAt counter) := by
  have h0 := (r.byteAt counter 0).toNat_lt
  have h1 := (r.byteAt counter 1).toNat_lt
  cases hw : r.width with
  | narrow => simp [bytesAt, wordAt, hw, CharWidth.encodeWord, CharWidth.lowByte]
  | wide =>
    simp only [bytesAt, wordAt, hw, CharWidth.encodeWord, List.cons.injEq, and_true]
    constructor <;> apply UInt8.toNat_inj.1 <;>
      simp only [CharWidth.lowByte, CharWidth.highByte, CharWidth.joinBytes,
        UInt16.toNat_toUInt8, UInt8.toNat_ofNat', UInt16.toNat_ofNat'] <;> omega

/-- A pop gives the bytes of the oldest characters. -/
theorem pop_bytes (r : RingBuffer) (room : Nat) :
    (r.pop room).1 = r.width.encode (r.contents.take (room / r.width.bytes)) := by
  simp only [pop, contents, counters, CharWidth.encode, List.flatMap_map, ← List.map_take,
    List.take_range, bytesAt_eq_encodeWord]
  rw [Nat.min_comm]

@[simp] theorem contents_clear (r : RingBuffer) : r.clear.contents = [] := by
  simp [contents, counters, clear, available]

theorem length_contents (r : RingBuffer) : r.contents.length = r.available := by
  simp [contents, counters]

end RingBuffer
end SerialLine
