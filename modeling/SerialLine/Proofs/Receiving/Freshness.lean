import SerialLine.Proofs.Lines.Creation
import SerialLine.Proofs.Receiving.Outlet
/-! # New lines

* `Holdings.Begins`: nothing is received while a line is made.
* `Holdings.fresh_create`: then a new line is ready and its queue is empty.
* `create_ofConfig`, `create_unbuffered`, `receives_create`: what the configuration tells of the line.
-/
set_option autoImplicit false

namespace SerialLine.Uart

variable {σ τ : Type}

namespace Holdings

/-- Nothing is received while a line is made. -/
structure Begins (H : Holdings σ) (u : Uart) (d : Driver σ) : Prop where
  configure_held : ∀ settings b, H.held (d.configure settings b).2.outside = H.held b.outside
  configure_taken : ∀ settings b, H.taken (d.configure settings b).2.outside = H.taken b.outside
  startReceiving : ∀ id b, H.Still u b (d.startReceiving id b).2
  setDirection : ∀ high b, H.Still u b (d.setDirection high b).2

/-- A line is ready, and nothing has reached it. -/
structure Fresh (H : Holdings σ) (u : Uart) (capacity : Nat) (b : Bench σ) : Prop
    extends H.Fits u capacity b where
  held : H.held b.outside = []
  taken : H.taken b.outside = []
  waiting : H.waiting u b = []

variable {H : Holdings σ} {u : Uart} {d : Driver σ} {capacity : Nat} {b b' : Bench σ}

theorem Fresh.still (h : H.Fresh u capacity b) (hstill : H.Still u b b') : H.Fresh u capacity b' where
  toFits := hstill.fits h.toFits
  held := hstill.held.trans h.held
  taken := hstill.taken.trans h.taken
  waiting := hstill.waiting_eq.trans h.waiting

theorem fresh_create {c : Config} {w w₀ : World σ} (hbegins : H.Begins u d)
    (h : create d c w₀ = (.ok u, w)) (hheld : H.held w₀.bench.outside = [])
    (htaken : H.taken w₀.bench.outside = []) : H.Fresh u c.receiveCapacity w.bench := by
  obtain ⟨-, -, ring, b, hroom, hprogram, hbench⟩ := create_ok h
  have hface : H.Still u b w.bench := by
    rw [hbench]
    refine .trans ?_ (.refl H u _ _)
    unfold faceReceiving
    split
    · exact hbegins.setDirection _ b
    · exact .refl H u b b.log
  refine .still ?_ hface
  obtain ⟨b₁, hconfigure, hrest⟩ := program_ok hprogram
  have hheld' := hbegins.configure_held c.settings w₀.bench
  have htaken' := hbegins.configure_taken c.settings w₀.bench
  rw [hconfigure] at hheld' htaken'
  obtain ⟨-, rfl, rfl⟩ | ⟨ring', id, b₂, rfl, hadd, hstart, rfl⟩ := hrest
  · refine ⟨fits_of_unbuffered rfl _, hheld'.trans hheld, htaken'.trans htaken, ?_⟩
    rw [waiting_of_none rfl, hheld', hheld]
  · obtain ⟨hholds, hring⟩ := addRing_holds hadd
    have houtside := addRing_outside hadd
    have hstill := hbegins.startReceiving id b₂
    rw [hstart] at hstill
    refine .still ?_ hstill
    have hnew := create_of_bufferFor hroom
    have hid {id' : BufferId} (h : (ofConfig c (some id)).rxBuffer = some id') : id = id' :=
      Option.some.inj h
    refine ⟨⟨fun id' h => ?_, fun id' h => ?_⟩, ?_, ?_, ?_⟩
    · obtain rfl := hid h
      rw [hring, houtside, htaken', htaken]
      exact ⟨hholds, .created rfl hnew⟩
    · obtain rfl := hid h
      obtain ⟨-, rfl⟩ := RingBuffer.create_eq_ok hnew
      rw [hring]
    · rw [houtside, hheld', hheld]
    · rw [houtside, htaken', htaken]
    · rw [waiting_of_some rfl, hring, RingBuffer.contents_create hnew]

end Holdings

theorem create_ofConfig {u : Uart} {d : Driver σ} {c : Config} {w w₀ : World σ}
    (h : create d c w₀ = (.ok u, w)) : ∃ id, u = ofConfig c id := by
  obtain ⟨-, -, ring, b, -, hprogram, -⟩ := create_ok h
  exact program_ok_config hprogram

/-- The same line without a receive buffer. -/
def unbuffered (u : Uart) : Uart := { u with rxBuffer := none }

/-- A configuration without room for received characters makes the same line without a buffer. -/
theorem create_unbuffered {u u' : Uart} {d : Driver σ} {d' : Driver τ} {c : Config} {w w₀ : World σ}
    {w' w₀' : World τ} (h : create d c w₀ = (.ok u, w))
    (h' : create d' { c with receiveCapacity := 0 } w₀' = (.ok u', w')) : u' = u.unbuffered := by
  obtain ⟨id, rfl⟩ := create_ofConfig h
  obtain ⟨-, -, ring, b, hroom, hprogram, -⟩ := create_ok h'
  obtain ⟨b₁, -, ⟨-, rfl, -⟩ | ⟨ring', id', b₂, rfl, -⟩⟩ := program_ok hprogram
  · rfl
  · have hnone := bufferFor_isSome hroom
    simp at hnone

theorem receives_create {u : Uart} {d : Driver σ} {c : Config} {w w₀ : World σ}
    (hcapacity : 0 < c.receiveCapacity) (h : create d c w₀ = (.ok u, w)) :
    u.receives = u.rxBuffer.isSome := by
  obtain ⟨-, -, ring, b, hroom, hprogram, -⟩ := create_ok h
  have hsome := bufferFor_isSome hroom
  rw [decide_eq_true hcapacity, Bool.and_true] at hsome
  obtain ⟨b₁, -, ⟨rfl, rfl, -⟩ | ⟨ring', id', b₂, rfl, -, -, rfl⟩⟩ := program_ok hprogram
  · exact hsome.symm
  · exact hsome.symm

end SerialLine.Uart
