import SerialLine.RingBuffer
/-!
# Shared receive buffers

A receive buffer has two ends: a device takes characters out, and whoever serves the receive
interrupt puts them in. Both name the buffer by its `BufferId`; the buffers themselves are kept here
and stay for as long as someone may still hold the name.
-/
set_option autoImplicit false

namespace SerialLine

/-- The name of a shared receive buffer. -/
structure BufferId where
  index : Nat
  deriving DecidableEq, Inhabited

/-- The shared receive buffers. -/
structure RxBuffers where
  rings : Array RingBuffer := #[]
  deriving Inhabited

namespace RxBuffers

/-- The buffer of a given name. A name that was never given out stands for a buffer without slots. -/
def ring (b : RxBuffers) (id : BufferId) : RingBuffer :=
  b.rings.getD id.index .empty

def add (b : RxBuffers) (r : RingBuffer) : BufferId × RxBuffers :=
  (⟨b.rings.size⟩, ⟨b.rings.push r⟩)

def set (b : RxBuffers) (id : BufferId) (r : RingBuffer) : RxBuffers :=
  ⟨b.rings.setIfInBounds id.index r⟩

/-- Puts a character in. The answer is false when the buffer is full and drops it. -/
def push (b : RxBuffers) (id : BufferId) (word : UInt16) : Bool × RxBuffers :=
  let (accepted, r) := (b.ring id).push word
  (accepted, b.set id r)

def countDropped (b : RxBuffers) (id : BufferId) : RxBuffers :=
  b.set id (b.ring id).countDropped

/-- Whether a name was given out. -/
def Holds (b : RxBuffers) (id : BufferId) : Prop :=
  id.index < b.rings.size

theorem ring_set_self {b : RxBuffers} {id : BufferId} (h : b.Holds id) (r : RingBuffer) :
    (b.set id r).ring id = r := by
  have h' : id.index < b.rings.size := h
  simp [ring, set, h']

theorem ring_set_other (b : RxBuffers) {id other : BufferId} (h : id ≠ other) (r : RingBuffer) :
    (b.set id r).ring other = b.ring other := by
  have h' : id.index ≠ other.index := fun e => h (by cases id; cases other; simp_all)
  simp [ring, set, Array.getD_eq_getD_getElem?, h']

theorem ring_add_self (b : RxBuffers) (r : RingBuffer) : (b.add r).2.ring (b.add r).1 = r := by
  simp [ring, add]

theorem set_ring (b : RxBuffers) (id : BufferId) : b.set id (b.ring id) = b := by
  obtain ⟨rings⟩ := b
  simp only [set, ring, RxBuffers.mk.injEq]
  apply Array.ext_getElem?
  intro i
  rw [Array.getElem?_setIfInBounds, Array.getD_eq_getD_getElem?]
  by_cases hi : id.index = i
  · subst hi
    by_cases hlt : id.index < rings.size
    · simp [hlt]
    · simp [hlt]
  · simp [hi]

theorem set_set (b : RxBuffers) (id : BufferId) (r r' : RingBuffer) :
    (b.set id r).set id r' = b.set id r' := by
  simp [set]

theorem Holds.set {b : RxBuffers} {id other : BufferId} (h : b.Holds id) (r : RingBuffer) :
    (b.set other r).Holds id := by
  unfold Holds at h ⊢
  simpa [RxBuffers.set] using h

end RxBuffers
end SerialLine
