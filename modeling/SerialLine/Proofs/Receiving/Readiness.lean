import SerialLine.Proofs.Lines.Creation
import SerialLine.Proofs.Lines.Frame
import SerialLine.Proofs.Receiving.Intake
/-! # Every line is ready to receive

The receive buffer of a line was made for its characters and has taken the ones that it is known to have
taken, from the making of the line on and whatever it is used for.

* `Intake.Admitting`: characters may come in while any operation of the driver goes on.
* `Intake.rule`: the steps of which the calls consist keep a line ready.
* `ready_create`, `ready_used`: a new line is ready, and stays so until it is shut down.
-/
set_option autoImplicit false

namespace SerialLine.Uart

variable {σ α : Type} {u : Uart} {d : Driver σ} {p : Platform σ}

/-- What a line relies on of the operations of its driver that give no characters out. -/
structure Intake.Admitting (I : Intake u d p) : Prop where
  startReceiving : ∀ id b, I.Admits u b (d.startReceiving id b).2
  isReady : ∀ b, I.Admits u b (d.isReady b).2
  clearToSend : ∀ b, I.Admits u b (d.clearToSend b).2
  isIdle : ∀ b, I.Admits u b (d.isIdle b).2
  receivedCount : ∀ b, I.Admits u b (d.receivedCount b).2
  setBaudrate : ∀ rate b, I.Admits u b (d.setBaudrate rate b).2
  sendWord : ∀ word b, I.Admits u b (d.sendWord word b).2
  setDirection : ∀ high b, I.Admits u b (d.setDirection high b).2
  configure : ∀ settings b, I.taken (d.configure settings b).2.outside = I.taken b.outside

namespace Holdings

/-- A step after which a line is ready if it was so before. -/
abbrev KeepsReady (H : Holdings σ) (u : Uart) (b b' : Bench σ) : Prop := H.Ready u b → H.Ready u b'

theorem onward_ready (H : Holdings σ) (u : Uart) : Onward (H.KeepsReady u) where
  refl _ h := h
  trans h h' hb := h' (h hb)
  log _ _ h := h

variable {H : Holdings σ} {b b' : Bench σ}

theorem ready_of_admits (h : H.Admits u b b') : H.KeepsReady u b b' := fun hb =>
  (gets_of_admits h hb).choose_spec.ready hb

/-- What is done to the buffer keeps the line ready if it is part of the life of a buffer. -/
theorem ready_ringDo {id : BufferId} (hbuffer : u.rxBuffer = some id) {f : RingBuffer → α × RingBuffer}
    (hf : ∀ w ring taken, RingBuffer.Life w ring taken → RingBuffer.Life w (f ring).2 taken) :
    Obeys (H.KeepsReady u) (Bench.ringDo id f) := by
  intro b hb id' hbuffer'
  obtain rfl := Option.some.inj (hbuffer.symm.trans hbuffer')
  obtain ⟨hholds, hlife⟩ := hb id hbuffer
  have hring : (Bench.ringDo id f b).2.buffers.ring id = (f (b.buffers.ring id)).2 :=
    RxBuffers.ring_set_self hholds _
  rw [hring]
  exact ⟨hholds.set _, hf _ _ _ hlife⟩

/-- A line without a buffer has nothing to be ready for. -/
theorem ready_of_unbuffered (hbuffer : u.rxBuffer = none) : H.KeepsReady u b b' := by
  intro _ id hid
  rw [hbuffer] at hid
  cases hid

theorem ready_discardInput (hresume : ∀ b, H.Admits u b (d.resumeReceiving b).2) :
    Obeys (H.KeepsReady u) (u.discardInput d) := by
  have honward := H.onward_ready u
  cases hbuffer : u.rxBuffer with
  | none => exact fun b => ready_of_unbuffered hbuffer
  | some id =>
    refine honward.guarded _ ?_
    rw [hbuffer]
    have hclear : Obeys (H.KeepsReady u) (Bench.ringDo id fun ring => ((), ring.clear)) :=
      ready_ringDo hbuffer fun _ _ _ hlife => hlife.cleared
    exact honward.bind hclear fun _ =>
      honward.bind (fun b => ready_of_admits (hresume b)) fun _ => honward.pure _

end Holdings

theorem Intake.rule {I : Intake u d p} (hI : I.Admitting) : u.Rule (I.KeepsReady u) d p where
  toOnward := I.onward_ready u
  ticks b := Holdings.ready_of_admits (I.ticks b)
  background b := Holdings.ready_of_admits (I.background b)
  isInterrupted b := Holdings.ready_of_admits (I.isInterrupted b)
  isReady b := Holdings.ready_of_admits (hI.isReady b)
  clearToSend b := Holdings.ready_of_admits (hI.clearToSend b)
  isIdle b := Holdings.ready_of_admits (hI.isIdle b)
  receivedCount b := Holdings.ready_of_admits (hI.receivedCount b)
  setBaudrate rate b := Holdings.ready_of_admits (hI.setBaudrate rate b)
  take room b hb := by
    obtain ⟨out, new, -, htook⟩ := took_takeWaiting I room hb
    exact htook.gets.ready hb
  discard := Holdings.ready_discardInput I.resumeReceiving
  takeDropped := (I.onward_ready u).takeDropped fun _ hbuffer =>
    Holdings.ready_ringDo hbuffer fun _ _ _ hlife => hlife.countTaken

/-! ## From the making of a line on -/

variable {I : Intake u d p} {c : Config} {u' : Uart} {w w' w₀ : World σ}

theorem ready_create (hI : I.Admitting) (h : create d c w₀ = (.ok u, w))
    (hnone : I.taken w₀.bench.outside = []) : I.Ready u w.bench := by
  obtain ⟨-, -, ring, b, hroom, hprogram, hbench⟩ := create_ok h
  have hface : I.KeepsReady u b w.bench := by
    rw [hbench]
    refine (I.onward_ready u).trans ?_ ((I.onward_ready u).log _ _)
    exact (Intake.rule hI).face (fun high b => Holdings.ready_of_admits (hI.setDirection high b)) _ b
  obtain ⟨b₁, hconfigure, ⟨-, rfl, -⟩ | ⟨ring', id, b₂, rfl, hadd, hstart, rfl⟩⟩ := program_ok hprogram
  · refine hface fun id hid => ?_
    cases hid
  · have hstarted : (d.startReceiving id b₂).2 = b := congrArg Prod.snd hstart
    have hconfigured := hI.configure c.settings w₀.bench
    rw [hconfigure] at hconfigured
    obtain ⟨hholds, hring⟩ := addRing_holds hadd
    refine hface ?_
    rw [← hstarted]
    refine Holdings.ready_of_admits (hI.startReceiving id b₂) fun id' hid => ?_
    obtain rfl : id = id' := Option.some.inj hid
    refine ⟨hholds, ?_⟩
    rw [hring, addRing_outside hadd, hconfigured, hnone]
    exact .created rfl (create_of_bufferFor hroom)

/-- A line that was made and then used in any way that did not shut it down is ready. -/
theorem ready_used (hI : I.Admitting) (h : create d c w₀ = (.ok u, w))
    (hnone : I.taken w₀.bench.outside = [])
    (hused : Used d p (· ≠ .shutDown) (fun w w' => I.Admits u w.bench w'.bench) u w u' w') :
    SameLine u u' ∧ I.Ready u w'.bench := by
  induction hused with
  | new => exact ⟨.refl u, ready_create hI h hnone⟩
  | between _ hbetween ih => exact ⟨ih.1, Holdings.ready_of_admits hbetween ih.2⟩
  | call _ hmay hcall ih =>
    obtain ⟨⟨rate, timeout, rfl⟩, hready⟩ := ih
    have hkeeps := ((Intake.rule hI).withSettings rate timeout).perform hmay (fun data _ =>
      ((Intake.rule hI).withSettings rate timeout).write
        (fun word b => Holdings.ready_of_admits (hI.sendWord word b))
        (fun high b => Holdings.ready_of_admits (hI.setDirection high b)) data) _ hready
    rw [Act.final, hcall] at hkeeps
    obtain ⟨rate', timeout', rfl⟩ := sameLine_perform hmay hcall
    exact ⟨⟨rate', timeout', rfl⟩, hkeeps⟩

end SerialLine.Uart
