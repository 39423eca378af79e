import SerialLine.Proofs.Events.Instants
import SerialLine.Proofs.Reception.Dormant
import SerialLine.Proofs.Reception.Latched
import SerialLine.Proofs.Reception.Simulated
import SerialLine.Proofs.Sending.Draining
/-! # Services of the interrupt after a shutdown began

A shutdown stops reception before anything else. Someone may still serve the interrupt, while the shutdown
waits for the transmitter and for as long as reception is not started again.

* `Uart.Rule.shutDown_instants`: what every step of a shutdown obeys holds from its first step on.
* `GatedWindow.follows_rule`: on a platform that starts no reception, every step of a shutdown is part of
  the aftermath of the first one.
* `GatedWindow.stale_services_inert`: all that is promised of a service from then on.
* `Gated.window`: the simulated register block has such a window.
-/
set_option autoImplicit false

namespace SerialLine

variable {σ : Type}

/-! ## The instants of a shutdown -/

namespace Uart

variable {u : Uart} {d : Driver σ} {p : Platform σ}

theorem final_shutDown (hlive : u.isShut = false) (w : World σ) :
    ∃ log, (Act.final (u.perform d p .shutDown) w).bench =
      { Act.final (u.windDown d p) w.bench with log := log } := by
  simp only [Act.final, perform, shutDown, hlive, Bool.false_eq_true, if_false, World.benchAct,
    Act.onPart, bind, EStateM.bind]
  cases u.windDown d p w.bench with
  | ok a b => exact ⟨_, rfl⟩
  | error e b => exact ⟨_, rfl⟩

/-- The instants of a shutdown: reception is stopped, and the benches from then on came of the one that
this left. -/
structure ShutsAfter (R : Bench σ → Bench σ → Prop) (u : Uart) (d : Driver σ) (p : Platform σ)
    (w : World σ) : Prop where
  instants : ∃ before after later, u.instants d p .shutDown w = before :: after :: later ∧
    before.bench = w.bench ∧ after.bench = (d.stopReceiving w.bench).2 ∧
    ∀ i ∈ later, R (d.stopReceiving w.bench).2 i.bench
  ended : R (d.stopReceiving w.bench).2 (Act.final (u.perform d p .shutDown) w).bench

theorem Rule.shutDown_instants {R : Bench σ → Bench σ → Prop} (hR : Onward R) {w : World σ}
    (h : u.Rule (Follows R (d.stopReceiving w.bench).2) d.watched p.watched)
    (hturn : ∀ high, Obeys R (d.setDirection high)) (hdisable : Obeys R d.disable)
    (hlive : u.isShut = false) : ShutsAfter R u d p w := by
  have hfollows : Follows R (d.stopReceiving w.bench).2 (d.watched.stopReceiving w.watched.bench).2
      (Act.final (u.windDown d.watched p.watched) w.watched.bench) :=
    h.windDown (fun high => hR.follows (hturn high) _ _) (hR.follows hdisable _ _) w.watched.bench
  obtain ⟨is, his, hkeep⟩ := hfollows
  obtain ⟨hlast, hall⟩ := hkeep (hR.refl _)
  obtain ⟨log, hend⟩ := final_shutDown (d := d.watched) (p := p.watched) hlive w.watched
  have hended : R (d.stopReceiving w.bench).2 (u.watch d p .shutDown w).unwatched := by
    rw [Uart.watch, hend]
    exact hR.trans hlast (hR.log _ log)
  -- the first step is watched like any other: it makes the first two instants, and `is` are the rest
  have hinstants : (u.watch d p .shutDown w).outside.instants =
      (d.watched.stopReceiving w.watched.bench).2.outside.instants ++ is :=
    (congrArg (fun b => b.outside.instants) hend).trans his
  refine ⟨⟨w.watched.bench.instant false, (d.watched.stopReceiving w.watched.bench).2.instant false,
    is ++ [(u.watch d p .shutDown w).instant false], ?_, rfl, rfl, fun i hi => ?_⟩, ?_⟩
  · rw [Uart.instants, hinstants]
    rfl
  · rcases List.mem_append.mp hi with hi | hi
    · exact hall i hi
    · rw [List.mem_singleton.mp hi]
      exact hended
  · rw [← Uart.unwatched_watch]
    exact hended

end Uart

namespace Pl011

/-! ## Services during a shutdown and after it -/

namespace GatedWindow

variable {r : Registers σ} {chip : Place σ Chip} {W : GatedWindow r chip} {u : Uart} {p : Platform σ}

/-- A platform on which the interrupt is served and other things go on while a call waits or looks at the
clock, but reception is not started. -/
structure Suits (W : GatedWindow r chip) (p : Platform σ) : Prop where
  ticks : Obeys W.Aftermath p.ticks
  background : Obeys W.Aftermath p.background
  isInterrupted : Obeys W.Aftermath p.isInterrupted

/-- Everything that a line asks for, apart from the start of reception, has its aftermath. -/
theorem follows_rule (hp : W.Suits p) (start : Bench σ) :
    u.Rule (Follows W.Aftermath start) (driver r chip).watched p.watched := by
  have honward := (onward_aftermath W).toFollows start
  have hobeys {α : Type} {f : StateM (Bench σ) α} (hf : Obeys W.Aftermath f) (resumes : Bool) :
      Obeys (Follows W.Aftermath start) (watching resumes f) :=
    (onward_aftermath W).follows hf resumes start
  have hring {α : Type} (id : BufferId) (f : RingBuffer → α × RingBuffer) :
      Obeys (Follows W.Aftermath start) (Bench.ringDo id f) :=
    fun _ => .silent rfl fun hb => .beside hb ⟨rfl, rfl⟩
  have hword : Obeys (Follows W.Aftermath start) (driver r chip).watched.takeWord :=
    hobeys (fun b => .operation (.refl b) .takeWord) _
  have hresume : Obeys (Follows W.Aftermath start) (driver r chip).watched.resumeReceiving :=
    hobeys (fun b => .operation (.refl b) .resumeReceiving) _
  have hcount : Obeys (Follows W.Aftermath start) (driver r chip).watched.receivedCount :=
    hobeys (fun b => .operation (.refl b) .receivedCount) _
  exact {
    toOnward := honward
    ticks := hobeys hp.ticks _
    background := hobeys hp.background _
    isInterrupted := hobeys hp.isInterrupted _
    isReady := hobeys (fun b => .operation (.refl b) .isReady) _
    clearToSend := hobeys ((onward_aftermath W).pure true) _
    isIdle := hobeys (fun b => .operation (.refl b) .isIdle) _
    receivedCount := hcount
    setBaudrate := fun rate => hobeys (fun b => .operation (.refl b) (.setBaudrate rate)) _
    take := honward.takeWaiting hword hresume fun id _ => hring id _
    discard := honward.discardInput hword hresume (fun id => hring id _) hcount
    takeDropped := honward.takeDropped fun id _ => hring id _ }

/-- What is promised of the services of the interrupt once a shutdown has begun. -/
structure StaleContract (W : GatedWindow r chip) (u : Uart) (p : Platform σ) (w : World σ) : Prop where
  /-- Reception stops first, and the rest of the shutdown is its aftermath. -/
  shuts : Uart.ShutsAfter W.Aftermath u (driver r chip) p w
  /-- In the aftermath the interrupts of reception stay masked, every service of the interrupt does
  nothing, and so does the resumption of reception. -/
  inert : ∀ b, W.Aftermath (stopReceiving r chip w.bench).2 b →
    W.mask b.outside &&& intAll = 0 ∧ (∀ i rounds, W.Inert i rounds b) ∧ (resumeReceiving r chip b).2 = b

/-- Whoever still serves the interrupt of a line whose shutdown has begun, at whatever moment of it or
later, does nothing by that as long as reception is not started again. -/
theorem stale_services_inert (hp : W.Suits p) (hlive : u.isShut = false) (w : World σ) :
    W.StaleContract u p w where
  shuts := (follows_rule hp _).shutDown_instants (onward_aftermath W)
    (fun high b => .operation (.refl b) (.setDirection high)) (fun b => .operation (.refl b) .disable) hlive
  inert b h := by
    have hdormant : W.Dormant b := h.dormant (dormant_stopReceiving W w.bench)
    exact ⟨hdormant.masked, hdormant.inert, hdormant.resumeReceiving⟩

end GatedWindow

/-! ## A line that is shut down while characters arrive -/

/-- A simulated block that has a mask register and a receive queue. -/
structure Gated extends Simulated where
  hasMask : imsc / 4 < block.words.size

namespace Gated

def read (offset : Nat) : StateM Gated UInt32 := fun s =>
  ((Simulated.read offset s.toSimulated).1,
    { toSimulated := (Simulated.read offset s.toSimulated).2
      hasMask := (s.block.words_read 0 offset).symm ▸ s.hasMask })

def write (offset : Nat) (word : UInt32) : StateM Gated Unit := fun s =>
  ((), { toSimulated := (Simulated.write offset word s.toSimulated).2
         hasMask := (s.block.size_write offset word).symm ▸ s.hasMask })

def registers : Registers Gated where
  read := read
  write := write

def place : Place Gated Chip where
  get s := s.chip
  set c s := { s with chip := c }

def queue : ReceiveQueue Gated where
  waiting s := Simulated.queue.waiting s.toSimulated
  accepted s := Simulated.queue.accepted s.toSimulated

def window : GatedWindow registers place where
  chip_set _ _ := rfl
  chip_read _ _ := rfl
  chip_write _ _ _ := rfl
  mask s := s.block.stored imsc
  mask_set _ _ := rfl
  read_mask s := s.block.read_stored (by decide) 0
  mask_read offset s := s.block.stored_read 0 imsc offset
  mask_write word s := s.block.stored_write_self (by decide) s.hasMask word
  mask_write_other offset word s hoffset :=
    s.block.stored_write_other (by revert offset; decide) word
  queue := queue
  read_mis s := RegisterBlock.read_passed 0 s.isFree
  look_mis s := Simulated.arrives_read (by decide) s.toSimulated
  write_icr word s := Simulated.arrives_write (by decide) word s.toSimulated

def receive (byte : UInt8) (s : Gated) : Gated where
  toSimulated := s.toSimulated.receive byte
  hasMask := (s.block.words_receive byte).symm ▸ s.hasMask

theorem beside_receive (byte : UInt8) (b : Bench Gated) :
    window.Beside b { b with outside := b.outside.receive byte } := by
  refine ⟨rfl, ?_⟩
  show (b.outside.block.receive byte).stored imsc = _
  rw [RegisterBlock.stored, b.outside.block.words_receive]
  rfl

/-- How the interrupt of the first line is served; whoever knows this can do it at any time. -/
def held : Interrupt := ⟨⟨0⟩, false⟩

/-- Another character arrives, and the interrupt is served. -/
def arriveAndServe (b : Bench Gated) : Unit × Bench Gated :=
  ((), (held.serve registers RegisterBlock.queueSize.succ
    { b with outside := b.outside.receive 0x42 }).2)

/-- A platform on which characters arrive in the background, thirty milliseconds after each other, with
someone who serves the interrupt. -/
def platform : Platform Gated where
  ticks b := (30 * (queue.accepted b.outside).length, b)
  background := arriveAndServe
  patience := 10

theorem suits_platform : window.Suits platform where
  ticks b := .refl b
  background b := .serve (.beside (.refl b) (beside_receive _ b)) held _
  isInterrupted b := .refl b

def pairConfig : Config where
  tx := some { number := 0 }
  rx := some { number := 1 }

def pairLine : Uart := Uart.ofConfig pairConfig (some ⟨0⟩)

/-- A block whose transmitter is busy for good. -/
def newWorld : World Gated where
  pins := .create 8
  bench :=
    { outside :=
        { block := { busyUntil := 1 }
          isFree := ⟨rfl, rfl, rfl⟩
          chip := { clock := standardClock }
          hasMask := mask_lt_size } }

def madeWorld : World Gated := (Uart.create (driver registers place) pairConfig newWorld).2

theorem pair_create : Uart.create (driver registers place) pairConfig newWorld =
    (.ok pairLine, madeWorld) := Prod.ext (by rfl) rfl

/-- The line has received a character. -/
def pairWorld : World Gated := { madeWorld with bench := (arriveAndServe madeWorld.bench).2 }

/-- Whether an interrupt of reception is let through, how many words wait in the block and how many
characters are in the receive buffer. -/
def survey (i : Instant Gated) : Bool × Nat × Nat :=
  (i.bench.outside.block.stored imsc &&& intAll ≠ 0, i.bench.outside.block.queue.length,
    (i.bench.buffers.ring ⟨0⟩).available)

end Gated

namespace GatedWindow

/-- A character was received before the shutdown, and three more arrive while it waits for the
transmitter. The interrupt is served each time, but those three stay in the block. -/
theorem stale_services_inert_arriving :
    Uart.create (driver Gated.registers Gated.place) Gated.pairConfig Gated.newWorld =
        (.ok Gated.pairLine, Gated.madeWorld) ∧
      ((Gated.pairLine.instants (driver Gated.registers Gated.place) Gated.platform .shutDown
          Gated.pairWorld).map Gated.survey).dedup =
        [(true, 0, 1), (false, 0, 1), (false, 1, 1), (false, 2, 1), (false, 3, 1)] ∧
      (Act.answer? (Gated.pairLine.perform (driver Gated.registers Gated.place) Gated.platform .shutDown)
        Gated.pairWorld).isSome = true ∧
      Gated.window.StaleContract Gated.pairLine Gated.platform Gated.pairWorld :=
  ⟨Gated.pair_create, by decide +kernel, by decide +kernel,
    stale_services_inert Gated.suits_platform rfl Gated.pairWorld⟩

end GatedWindow

end Pl011
end SerialLine
