import SerialLine.Proofs.Lines.Frame
import SerialLine.Proofs.Receiving.Freshness
import SerialLine.Proofs.Receiving.Surroundings
/-! # A peripheral that is a queue

A peripheral that is always ready to send and gives each character sent back to its own receiver. What it
receives goes into the receive buffer of its line, or is kept for a line without one.

* `Station.driver`, `Station.platform`: such a peripheral in any surroundings.
* `Station.situated`: a line over it is in these surroundings.
-/
set_option autoImplicit false

namespace SerialLine.Uart

variable {ε α : Type}

/-- Surroundings, the characters that the peripheral keeps, and all those that the line took. -/
structure Station (ε : Type) where
  around : ε
  held : List UInt16 := []
  taken : List UInt16 := []

namespace Station

def scene : Scene (Station ε) ε where
  held := held
  taken := taken
  view := around

/-- Characters reach the receiver of a line. -/
def deliver (sink : Option BufferId) (words : List UInt16) (b : Bench (Station ε)) :
    Bench (Station ε) :=
  match sink with
  | some id =>
    { b with
      buffers := b.buffers.set id ((b.buffers.ring id).pushAll words).2
      outside := { b.outside with taken := b.outside.taken ++ (b.buffers.ring id).admitted words } }
  | none =>
    { b with outside := { b.outside with
        held := b.outside.held ++ words
        taken := b.outside.taken ++ words } }

/-- Something that happens in the surroundings. -/
def aroundDo (f : StateM ε α) : StateM (Bench (Station ε)) α := fun b =>
  ((f b.outside.around).1,
    { b with outside := { b.outside with around := (f b.outside.around).2 } })

/-- A world in which nothing was made yet. -/
def world (e : ε) : World (Recorded (Station ε)) where
  pins := .create 8
  bench := { outside := { inner := { around := e } } }

def driver (sink : Option BufferId) : Driver (Station ε) :=
  { Driver.inert with
    receivedCount := fun b => (b.outside.held.length, b)
    takeWord := fun b => (b.outside.held.head?,
      { b with outside := { b.outside with held := b.outside.held.tail } })
    isReady := pure true
    sendWord := fun word b => ((), deliver sink [word] b) }

def platform (S : Surroundings ε) (sink : Option BufferId) (patience : Nat) :
    Platform (Station ε) where
  ticks := aroundDo S.ticks
  background := fun b => ((), deliver sink (aroundDo S.background b).1 (aroundDo S.background b).2)
  isInterrupted := aroundDo S.isInterrupted
  patience := patience

theorem enters_deliver (u : Uart) (words : List UInt16) {b : Bench (Station ε)}
    (hholds : ∀ id, u.rxBuffer = some id → b.buffers.Holds id) :
    Holdings.Enters scene.toHoldings u words b (deliver u.rxBuffer words b) := by
  cases hbuffer : u.rxBuffer with
  | none =>
    have hnot {id : BufferId} (hid : u.rxBuffer = some id) : False := by
      rw [hbuffer] at hid
      cases hid
    refine ⟨fun _ => rfl, ?_, fun id hid => (hnot hid).elim, fun id hid => (hnot hid).elim⟩
    rw [Holdings.newcomers, hbuffer]
    rfl
  | some id =>
    have hsame {id' : BufferId} (hid : u.rxBuffer = some id') : id = id' :=
      Option.some.inj (hbuffer.symm.trans hid)
    refine ⟨fun hnone => ?_, ?_, fun id' hid => ?_, fun id' _ h => h.set _⟩
    · rw [hbuffer] at hnone
      cases hnone
    · rw [Holdings.newcomers, hbuffer]
      rfl
    · obtain rfl := hsame hid
      exact RxBuffers.ring_set_self (hholds id hbuffer) _

theorem view_deliver (sink : Option BufferId) (words : List UInt16) (b : Bench (Station ε)) :
    (deliver sink words b).outside.around = b.outside.around := by
  cases sink <;> rfl

theorem shows_aroundDo (u : Uart) (f : StateM ε α) : scene.Shows u (aroundDo f) f where
  still _ := ⟨rfl, rfl, fun _ _ => rfl, fun _ _ h => h⟩
  seen _ := rfl

def situated (S : Surroundings ε) (u : Uart) (patience : Nat) :
    Situated S u (driver u.rxBuffer) (platform S u.rxBuffer patience) where
  toScene := scene
  resumeReceiving b := .refl _ u b b.log
  takeWord _ _ := ⟨rfl, rfl, rfl, rfl⟩
  ticks := shows_aroundDo u S.ticks
  isInterrupted := shows_aroundDo u S.isInterrupted
  background b hholds := by
    have henters := enters_deliver u (aroundDo S.background b).1 (b := (aroundDo S.background b).2)
      hholds
    exact ⟨henters.held, henters.taken, henters.ring, henters.holds⟩
  background_view b := view_deliver _ _ _

theorem counts_situated (S : Surroundings ε) (u : Uart) (patience : Nat) :
    (situated S u patience).Counts where
  count _ := rfl
  calm b := .refl _ u b b.log

theorem begins_situated (S : Surroundings ε) (u : Uart) (patience : Nat) :
    (situated S u patience).Begins u (driver u.rxBuffer) where
  configure_held _ _ := rfl
  configure_taken _ _ := rfl
  startReceiving _ b := .refl _ u b b.log
  setDirection _ b := .refl _ u b b.log

end Station
end SerialLine.Uart
