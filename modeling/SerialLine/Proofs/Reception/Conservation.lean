import SerialLine.Proofs.Reception.Accounts
import SerialLine.Proofs.Reception.Calls
import SerialLine.Proofs.Reception.Installing
import SerialLine.Proofs.Reception.Simulated
/-! # Reception with flow control loses nothing

A line over a PL011 block that has a receive buffer and tells the other side when to pause.

* `installed_create`: a new line has reception installed and an empty buffer.
* `Reception`: calls of readers, interrupts and arrivals in any order. Every run is a flow.
* `reception_conserved`: what readers got, what waits in the buffer and what waits in the block is what
  the block let in.
-/
set_option autoImplicit false

namespace SerialLine.Pl011

/-- A line in the world, the bytes that its readers have got so far and the sum of the counts of dropped
characters that they have taken. -/
structure Reader (σ : Type) where
  uart : Uart
  world : World σ
  returned : List UInt8 := []
  taken : Nat := 0

/-- What is reached by a call that is answered. The console interrupt may end a read; then the bytes it
had taken are lost to its caller, and that is no answer. -/
def Reader.call? {σ : Type} (d : Driver σ) (p : Platform σ) (call : Uart.Call) (x : Reader σ) :
    Option (Reader σ) :=
  match x.uart.perform d p call x.world with
  | .ok (reply, u) w =>
    if isCanceled reply then none
    else some ⟨u, w, x.returned ++ received reply, x.taken + countTaken call reply⟩
  | .error _ _ => none

theorem Reader.call?_eq_some {σ : Type} {d : Driver σ} {p : Platform σ} {call : Uart.Call}
    {x y : Reader σ} (h : x.call? d p call = some y) :
    ∃ reply, x.uart.perform d p call x.world = .ok (reply, y.uart) y.world ∧
      isCanceled reply = false ∧ y.returned = x.returned ++ received reply ∧
      y.taken = x.taken + countTaken call reply := by
  unfold Reader.call? at h
  cases hperform : x.uart.perform d p call x.world with
  | error e w =>
    rw [hperform] at h
    cases h
  | ok answer w =>
    obtain ⟨reply, u⟩ := answer
    rw [hperform] at h
    simp only at h
    cases hcanceled : isCanceled reply with
    | true =>
      rw [if_pos hcanceled] at h
      cases h
    | false =>
      rw [hcanceled] at h
      cases h
      exact ⟨reply, rfl, hcanceled, rfl, rfl⟩

namespace Window

variable {σ : Type} {r : Registers σ} {chip : Place σ Chip} {W : Window r chip} {id : BufferId}
variable {c : Config} {p : Platform σ} {u : Uart} {w : World σ}

/-! ## A new line -/

theorem remembers (W : Window r chip) : Remembers r chip := ⟨W.chip_set, W.chip_read, W.chip_write⟩

/-- A new line with a receive buffer and flow control has reception installed, and its buffer is
empty. -/
theorem installed_create (W : Window r chip) {w₀ : World σ}
    (h : Uart.create (driver r chip) c w₀ = (.ok u, w)) (hrx : c.rx.isSome = true)
    (hrts : c.rts.isSome = true) (hcapacity : 0 < c.receiveCapacity) :
    ∃ id, u.rxBuffer = some id ∧ Installed chip id w.bench ∧
      Holding (w.bench.buffers.ring id) [] 0 0 := by
  obtain ⟨id, b, hmade⟩ := create_installs W.remembers h hrx hcapacity
  refine ⟨id, hmade.rxBuffer, ⟨?_, ?_⟩, ?_⟩
  · rw [hmade.buffers]
    exact hmade.holds
  · rw [hmade.interrupt W.remembers, hrts]
  · rw [hmade.buffers]
    exact holding_create hmade.narrow hmade.ring

/-! ## Runs -/

/-- The runs of a line, in which answered calls of its readers and what goes on meanwhile come in any
order. -/
inductive Reception (W : Window r chip) (id : BufferId) (p : Platform σ) (u : Uart) (w : World σ) :
    Reader σ → Prop where
  | start : Reception W id p u w { uart := u, world := w }
  | meanwhile {x : Reader σ} {w' : World σ} (h : Reception W id p u w x)
      (hmeanwhile : W.Meanwhile id x.world.bench w'.bench) :
      Reception W id p u w { x with world := w' }
  | call {x y : Reader σ} {call : Uart.Call} (h : Reception W id p u w x)
      (hcall : isReaderCall call = true) (hanswered : x.call? (driver r chip) p call = some y) :
      Reception W id p u w y

/-- An answered call obeys what goes on around the readers obeys. -/
theorem Traffic.call {G : Bench σ → Prop} {R : Bench σ → Bench σ → List UInt8 → Nat → Prop}
    (h : W.Traffic id p G R) {x y : Reader σ} {call : Uart.Call} (hbuffer : x.uart.rxBuffer = some id)
    (hx : G x.world.bench) (hcall : isReaderCall call = true)
    (hanswered : x.call? (driver r chip) p call = some y) :
    y.uart.rxBuffer = some id ∧ ∃ out n, y.returned = x.returned ++ out ∧ y.taken = x.taken + n ∧
      R x.world.bench y.world.bench out n := by
  obtain ⟨reply, hperform, hcanceled, hreturned, htaken⟩ := Reader.call?_eq_some hanswered
  obtain ⟨hbuffer', hrest⟩ := h.perform hbuffer hx hcall hperform hcanceled
  exact ⟨hbuffer', _, _, hreturned, htaken, hrest⟩

theorem Reception.flow {x : Reader σ} (h : W.Reception id p u w x) (hp : W.Suits id p)
    (hbuffer : u.rxBuffer = some id) (hw : Installed chip id w.bench) :
    x.uart.rxBuffer = some id ∧ W.Flow id w.bench x.world.bench x.returned x.taken := by
  induction h with
  | start => exact ⟨hbuffer, .refl _⟩
  | meanwhile _ hmeanwhile ih =>
    obtain ⟨hbuffer', hflow⟩ := ih
    exact ⟨hbuffer', hflow.thenSilent (hmeanwhile.flow (hw.flow hflow))⟩
  | call _ hcall hanswered ih =>
    obtain ⟨hbuffer', hflow⟩ := ih
    obtain ⟨hbuffer'', out, n, hout, hn, hflow'⟩ :=
      (traffic_flow hp).call hbuffer' (hw.flow hflow) hcall hanswered
    rw [hout, hn]
    exact ⟨hbuffer'', hflow.trans hflow'⟩

/-- Where the characters are that waited in the block or arrived in it since: every one is with the
readers, in the buffer or still in the block, in the order of arrival. -/
structure Conserved (W : Window r chip) (id : BufferId) (w : World σ) (x : Reader σ)
    (arrived : List UInt32) : Prop where
  bytes_eq : x.returned ++
      (x.world.bench.buffers.ring id).width.encode (x.world.bench.buffers.ring id).contents ++
      (W.waiting x.world.bench.outside).map character =
    (W.waiting w.bench.outside ++ arrived).map character
  /-- The words `done` were taken from the block. Each was pushed, and `head` counts the pushes that the
  buffer accepted, so it refused none; what it counted as dropped, the block had lost before. -/
  moved : ∃ done, W.waiting w.bench.outside ++ arrived = done ++ W.waiting x.world.bench.outside ∧
    (x.world.bench.buffers.ring id).head.toNat = done.length ∧
    x.taken + (x.world.bench.buffers.ring id).dropped.toNat = done.countP isOverrun

theorem Accounts.conserved {x : Reader σ} {arrived done : List UInt32}
    (h : W.Accounts id w.bench.outside x.world.bench x.returned x.taken arrived done) :
    W.Conserved id w x arrived := by
  obtain ⟨bytes, dropped, hholding, hbytes, hdropped⟩ := h.holding
  refine ⟨?_, done, h.waiting, hholding.head_eq, ?_⟩
  · rw [hholding.narrow, hholding.bytes_eq, hbytes, h.waiting, List.map_append]
  · rw [hholding.dropped_eq]
    exact hdropped

/-- A line with a receive buffer and flow control loses and reorders nothing that its block lets in, as
long as these are fewer than 2^64 characters. -/
theorem reception_conserved (W : Window r chip) {w₀ : World σ}
    (hcreate : Uart.create (driver r chip) c w₀ = (.ok u, w)) (hrx : c.rx.isSome = true)
    (hrts : c.rts.isSome = true) (hcapacity : 0 < c.receiveCapacity) :
    ∃ id, u.rxBuffer = some id ∧ ∀ p, W.Suits id p → ∀ x, W.Reception id p u w x →
      ∃ arrived, W.accepted x.world.bench.outside = W.accepted w.bench.outside ++ arrived ∧
        ((W.waiting w.bench.outside ++ arrived).length < 2 ^ 64 → W.Conserved id w x arrived) := by
  obtain ⟨id, hbuffer, hinstalled, hempty⟩ := installed_create W hcreate hrx hrts hcapacity
  refine ⟨id, hbuffer, fun p hp x hrun => ?_⟩
  obtain ⟨-, hflow⟩ := hrun.flow hp hbuffer hinstalled
  obtain ⟨new, hnew⟩ := hflow.accepts
  refine ⟨new, hnew, fun hlength => ?_⟩
  obtain ⟨arrived, done, haccounts⟩ := hflow.accounts (.nil hempty) (few_of_length hnew hlength)
  rw [List.nil_append, Nat.zero_add] at haccounts
  obtain rfl : arrived = new := List.append_cancel_left (haccounts.accepted.symm.trans hnew)
  exact haccounts.conserved

end Window

/-! ## A run over a simulated block -/

namespace Simulated

def shortConfig : Config where
  rx := some { number := 1 }
  rts := some { number := 2 }
  receiveCapacity := 2

/-- A world whose block has lost a character. -/
def lossyWorld : World Simulated where
  pins := .create 8
  bench :=
    { outside :=
        { block := { overflowed := true }
          isFree := ⟨rfl, rfl, rfl⟩
          chip := { clock := standardClock } } }

def shortWorld : World Simulated :=
  (Uart.create (driver registers place) shortConfig lossyWorld).2

/-- The line, after its block received three characters. -/
def shortReader : Reader Simulated where
  uart := Uart.ofConfig shortConfig (some ⟨0⟩)
  world :=
    { shortWorld with
      bench :=
        { shortWorld.bench with
          outside := ((shortWorld.bench.outside.receive 1).receive 2).receive 3 } }

/-- A read for three characters, which has to wait for the last one, and then a look at the count of
dropped characters. -/
def shortRun : Option (Reader Simulated) :=
  (shortReader.call? (driver registers place) (platform 10) (.read 3)).bind
    fun x => x.call? (driver registers place) (platform 10) .takeDropped

theorem short_create : Uart.create (driver registers place) shortConfig lossyWorld =
    (.ok shortReader.uart, shortWorld) := Prod.ext (by rfl) rfl

theorem reception_shortReader :
    window.Reception ⟨0⟩ (platform 10) shortReader.uart shortWorld shortReader := by
  refine .meanwhile .start ?_
  exact (((Window.Meanwhile.refl _).quiet (quiet_receive 1 _)).quiet (quiet_receive 2 _)).quiet
    (quiet_receive 3 _)

theorem reception_shortRun {x : Reader Simulated} (h : shortRun = some x) :
    window.Reception ⟨0⟩ (platform 10) shortReader.uart shortWorld x := by
  obtain ⟨y, hread, htake⟩ := Option.bind_eq_some_iff.mp h
  exact (reception_shortReader.call rfl hread).call rfl htake

end Simulated

namespace Window

theorem reception_conserved_short : ∃ x, Simulated.shortRun = some x ∧ x.returned = [1, 2, 3] ∧
    x.taken = 1 ∧ Simulated.window.Conserved ⟨0⟩ Simulated.shortWorld x [0x801, 2, 3] := by
  have hsome : Simulated.shortRun.isSome = true := by decide +kernel
  obtain ⟨x, hx⟩ := Option.isSome_iff_exists.mp hsome
  have hreturned : Simulated.shortRun.map Reader.returned = some [1, 2, 3] := by decide +kernel
  have htaken : Simulated.shortRun.map Reader.taken = some 1 := by decide +kernel
  have haccepted : Simulated.shortRun.map
      (fun x => Simulated.window.accepted x.world.bench.outside) = some [0x801, 2, 3] := by
    decide +kernel
  rw [hx] at hreturned htaken haccepted
  obtain ⟨id, hbuffer, hconserved⟩ := reception_conserved Simulated.window Simulated.short_create rfl
    rfl (by decide)
  obtain rfl : id = ⟨0⟩ := (Option.some.inj hbuffer).symm
  obtain ⟨arrived, harrived, h⟩ := hconserved _ (Simulated.suits_platform 10) x
    (Simulated.reception_shortRun hx)
  have hnone : Simulated.window.accepted Simulated.shortWorld.bench.outside = [] := by decide +kernel
  rw [hnone, List.nil_append] at harrived
  obtain rfl : arrived = [0x801, 2, 3] := harrived.symm.trans (Option.some.inj haccepted)
  exact ⟨x, hx, Option.some.inj hreturned, Option.some.inj htaken, h (by decide +kernel)⟩

end Window
end SerialLine.Pl011
