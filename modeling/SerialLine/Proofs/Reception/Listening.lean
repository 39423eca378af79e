import SerialLine.Proofs.Events.Instants
import SerialLine.Proofs.Reception.Latched
import SerialLine.Proofs.Ring.Contents
/-! # Reception never stays masked while there is room

A line over a PL011 block that has a receive buffer, with flow control or without.

* `Heeded`: what is promised of an instant. The interrupts of received characters are masked only while
  the buffer is full, unless the line has just made room and is about to resume.
* `rule`: every step that a call consists of keeps that promise, those that make room included.
* `attentive_create`: a new line keeps it.
* `masked_only_while_full`: it is kept at every instant of every use of the line.
-/
set_option autoImplicit false

namespace SerialLine

theorem RingBuffer.space_pop_of_nil {ring : RingBuffer} {room : Nat} (h : (ring.pop room).1 = []) :
    (ring.pop room).2.space = ring.space := by
  have hlength := congrArg List.length h
  rw [pop_bytes, CharWidth.length_encode, List.length_take, length_contents, List.length_nil] at hlength
  have hnone : min (room / ring.width.bytes) ring.available = 0 := by
    rcases Nat.mul_eq_zero.mp hlength with hnone | hwidth
    · exact hnone
    · exact absurd hwidth (Nat.ne_of_gt ring.width.bytes_pos)
  show ring.capacity - (ring.pop room).2.available = ring.capacity - ring.available
  rw [available_pop, Nat.min_comm, hnone, Nat.sub_zero]

namespace Pl011
namespace MaskedWindow

variable {σ α : Type} {r : Registers σ} {chip : Place σ Chip} {W : MaskedWindow r chip}
  {id : BufferId} {hold : Bool} {u : Uart} {p : Platform σ}

/-! ## Operations of a line -/

theorem calm_read (offset : Nat) : Obeys (W.Calm id) (Bench.outsideDo (r.read offset)) :=
  calm_outsideDo (leaves_read _)

theorem calm_readFlag (answer : UInt32 → α) :
    Obeys (W.Calm id) (Bench.outsideDo (r.read fr) >>= fun flags => pure (answer flags)) :=
  obeys_look (onward_calm W id) (calm_read fr) answer

theorem calm_setBaudrate (rate : UInt32) : Obeys (W.Calm id) (setBaudrate r chip rate) := by
  refine obeys_setBaudrate (onward_calm W id) chip (fun divisor => calm_outsideDo ?_) rate
  refine Leaves.bind ?_ fun _ => (leaves_read _).bind fun _ => leaves_write (by decide) _
  exact (leaves_write (by decide) _).bind fun _ => (leaves_write (by decide) _).bind fun _ =>
    leaves_pure ()

theorem calm_sendWord (word : UInt16) : Obeys (W.Calm id) ((driver r chip).sendWord word) :=
  calm_outsideDo (leaves_write (by decide) _)

theorem calm_setDirection (high : Bool) : Obeys (W.Calm id) (setDirection r high) := by
  refine calm_outsideDo ?_
  cases high with
  | true => exact (leaves_read _).bind fun _ => leaves_write (by decide) _
  | false => exact (leaves_read _).bind fun _ => leaves_write (by decide) _

/-! ## The promise -/

/-- The line has made room in the buffer since something was last done, and is about to resume. -/
def Freed (id : BufferId) (i : Instant σ) : Prop :=
  i.resumes = true ∧ (i.earlier.ring id).space < (i.bench.buffers.ring id).space

/-- What is promised of an instant. -/
structure Heeded (W : MaskedWindow r chip) (id : BufferId) (hold : Bool) (i : Instant σ) : Prop where
  /-- The interrupts of received characters are masked only while the buffer is full, whatever goes on
  then, unless the line is about to resume after it made room. -/
  listens : ¬ Freed id i → ∀ b, W.Meanwhile id i.bench b → W.Listens id b
  /-- Without flow control no interrupt of reception is masked at all. -/
  unmasked : hold = false → W.Unmasked i.bench

theorem Attentive.heeded {i : Instant σ} (h : W.Attentive id hold i.bench) : W.Heeded id hold i :=
  ⟨fun _ _ hmeanwhile => (hmeanwhile.attentive h).listens, h.unmasked⟩

/-- The bench is attentive, and the line has made no room since something was last done. -/
structure Settled (W : MaskedWindow r chip) (id : BufferId) (hold : Bool) (b : Bench (Watched σ)) :
    Prop where
  attentive : W.Attentive id hold b.unwatched
  space_eq : (b.outside.buffers.ring id).space = (b.buffers.ring id).space

/-- From a settled bench on, every instant is as promised, and the bench is settled again. -/
abbrev Attends (W : MaskedWindow r chip) (id : BufferId) (hold : Bool)
    (b b' : Bench (Watched σ)) : Prop :=
  Abides (W.Settled id hold) (W.Heeded id hold) b b'

theorem onward_attends (W : MaskedWindow r chip) (id : BufferId) (hold : Bool) :
    Onward (W.Attends id hold) :=
  onward_abides fun _ log hb => ⟨hb.attentive.calm ((onward_calm W id).log _ log), hb.space_eq⟩

theorem attends_watching {f : StateM (Bench σ) α}
    (hf : ∀ b, W.Attentive id hold b → W.Attentive id hold (f b).2) :
    Obeys (W.Attends id hold) (watching false f) := by
  refine fun b => abides_watching fun hb => ?_
  have hafter := hf b.unwatched hb.attentive
  exact ⟨⟨hafter, rfl⟩, hb.attentive.heeded, hafter.heeded⟩

theorem attends_calm {f : StateM (Bench σ) α} (hf : Obeys (W.Calm id) f) :
    Obeys (W.Attends id hold) (watching false f) :=
  attends_watching fun b hb => hb.calm (hf b)

theorem attends_ringDo {f : RingBuffer → α × RingBuffer} {b : Bench (Watched σ)}
    (hf : (f (b.buffers.ring id)).2.space = (b.buffers.ring id).space) :
    W.Attends id hold b (Bench.ringDo id f b).2 := by
  refine .silent rfl fun hb => ⟨hb.attentive.calm (calm_ringDo (b := b.unwatched) fun hfull => ?_), ?_⟩
  · exact RingBuffer.isFull_iff.mpr (hf.trans (RingBuffer.isFull_iff.mp hfull))
  · have hring : (Bench.ringDo id f b).2.buffers.ring id = (f (b.buffers.ring id)).2 :=
      RxBuffers.ring_set_self hb.attentive.holds _
    rw [hring, hf]
    exact hb.space_eq

/-- If no room was made the interrupts are masked only while the buffer is full, whatever else was done
to the buffer. -/
theorem Settled.ringDo {b : Bench (Watched σ)} (hb : W.Settled id hold b)
    (f : RingBuffer → α × RingBuffer) :
    W.Heeded id hold ((Bench.ringDo id f b).2.instant true) := by
  have hinstalled := hb.attentive.toInstalled.ringDo f
  refine ⟨fun hfreed b' hmeanwhile => ?_, hinstalled.unmasked⟩
  refine (hmeanwhile.attentive ⟨hinstalled, fun hmasked => ?_⟩).listens
  have hspace : (b.buffers.ring id).space = 0 :=
    RingBuffer.isFull_iff.mp (hb.attentive.listens hmasked)
  have hless : ¬ (b.outside.buffers.ring id).space <
      ((Bench.ringDo id f b.unwatched).2.buffers.ring id).space := fun hlt => hfreed ⟨rfl, hlt⟩
  rw [hb.space_eq, hspace] at hless
  exact RingBuffer.isFull_iff.mpr (Nat.eq_zero_of_not_pos hless)

/-- Whatever was done to the buffer, all is well again once the line has resumed. -/
theorem attends_resume (f : RingBuffer → α × RingBuffer) (b : Bench (Watched σ)) :
    W.Attends id hold b
      ((driver r chip).watched.resumeReceiving (Bench.ringDo id f b).2).2 := by
  refine ⟨[(Bench.ringDo id f b).2.instant true, ⟨_, _, false⟩], rfl, fun hb => ?_⟩
  have hresumed : W.Attentive id hold (resumeReceiving r chip (Bench.ringDo id f b.unwatched).2).2 :=
    (hb.attentive.toInstalled.ringDo f).resume
  refine ⟨⟨hresumed, rfl⟩, fun i hi => ?_⟩
  rcases List.mem_cons.mp hi with rfl | hi
  · exact hb.ringDo f
  · rw [List.mem_singleton.mp hi]
    exact hresumed.heeded

theorem attends_takeWaiting (hbuffer : u.rxBuffer = some id) (room : Nat) :
    Obeys (W.Attends id hold) (u.takeWaiting (driver r chip).watched room) := by
  intro b
  rcases htaken : Bench.pop id room b with ⟨bytes, b₁⟩
  cases bytes with
  | nil =>
    have hend : u.takeWaiting (driver r chip).watched room b = ([], b₁) := by
      simp only [Uart.takeWaiting, hbuffer, bind, StateT.bind, htaken]
      rfl
    have hnil : ((b.buffers.ring id).pop room).1 = [] := congrArg Prod.fst htaken
    have hb₁ : (Bench.pop id room b).2 = b₁ := congrArg Prod.snd htaken
    rw [hend, ← hb₁]
    exact attends_ringDo (f := fun ring => ring.pop room) (RingBuffer.space_pop_of_nil hnil)
  | cons byte bytes =>
    have hend : (u.takeWaiting (driver r chip).watched room b).2 =
        ((driver r chip).watched.resumeReceiving b₁).2 := by
      simp only [Uart.takeWaiting, hbuffer, bind, StateT.bind, htaken]
      rfl
    have hb₁ : (Bench.pop id room b).2 = b₁ := congrArg Prod.snd htaken
    rw [hend, ← hb₁]
    exact attends_resume _ b

theorem attends_discardInput (hbuffer : u.rxBuffer = some id) :
    Obeys (W.Attends id hold) (u.discardInput (driver r chip).watched) := by
  refine (onward_attends W id hold).guarded _ ?_
  intro b
  rw [hbuffer]
  exact attends_resume (fun ring => ((), ring.clear)) b

theorem rule (hp : W.Suits id hold p) (hbuffer : u.rxBuffer = some id) :
    u.Rule (W.Attends id hold) (driver r chip).watched p.watched where
  toOnward := onward_attends W id hold
  ticks := attends_watching fun b hb => (hp.ticks b hb.toInstalled).attentive hb
  background := attends_watching fun b hb => (hp.background b hb.toInstalled).attentive hb
  isInterrupted := attends_watching fun b hb => (hp.isInterrupted b hb.toInstalled).attentive hb
  isReady := attends_calm (calm_readFlag _)
  clearToSend := attends_calm ((onward_calm W id).pure _)
  isIdle := attends_calm (calm_readFlag _)
  receivedCount := attends_calm (obeys_receivedCount (onward_calm W id) calm_read chip)
  setBaudrate rate := attends_calm (calm_setBaudrate rate)
  take := attends_takeWaiting hbuffer
  discard := attends_discardInput hbuffer
  takeDropped := (onward_attends W id hold).takeDropped fun other hother => by
    obtain rfl : id = other := Option.some.inj (hbuffer.symm.trans hother)
    exact fun _ => attends_ringDo rfl

/-! ## Calls in a row -/

variable {u' : Uart} {w w' w₀ : World σ}

theorem attentive_perform (hp : W.Suits id hold p) (hbuffer : u.rxBuffer = some id)
    {call : Uart.Call} (hcall : call ≠ .shutDown) (hw : W.Attentive id hold w.bench) :
    W.Attentive id hold (Act.final (u.perform (driver r chip) p call) w).bench ∧
      ∀ i ∈ u.instants (driver r chip) p call w, W.Heeded id hold i := by
  have hall := (rule hp hbuffer).instants (fun word => attends_calm (calm_sendWord word))
    (fun high => attends_calm (calm_setDirection high)) (fun _ hb => hb.attentive.heeded) hcall
    ⟨hw, rfl⟩
  rw [← u.unwatched_watch]
  exact ⟨hall.1.attentive, hall.2⟩

/-- The use of a line, up to its shutdown. -/
abbrev Used (W : MaskedWindow r chip) (id : BufferId) (p : Platform σ) (u : Uart) (w : World σ)
    (u' : Uart) (w' : World σ) : Prop :=
  Uart.Used (driver r chip) p (· ≠ .shutDown) (fun w w' => W.Meanwhile id w.bench w'.bench) u w u' w'

theorem Used.attentive (h : W.Used id p u w u' w') (hp : W.Suits id hold p)
    (hbuffer : u.rxBuffer = some id) (hw : W.Attentive id hold w.bench) :
    u'.rxBuffer = some id ∧ W.Attentive id hold w'.bench := by
  induction h with
  | new => exact ⟨hbuffer, hw⟩
  | between _ hbetween ih => exact ⟨ih.1, hbetween.attentive ih.2⟩
  | call _ hmay hcall ih =>
    obtain ⟨hbuffer', hw'⟩ := ih
    obtain ⟨rate, timeout, rfl⟩ := Uart.sameLine_perform hmay hcall
    have hlast := (attentive_perform hp hbuffer' hmay hw').1
    rw [Act.final, hcall] at hlast
    exact ⟨hbuffer', hlast⟩

/-! ## A new line -/

variable {c : Config}

theorem attentive_create (W : MaskedWindow r chip)
    (h : Uart.create (driver r chip) c w₀ = (.ok u, w)) (hrx : c.rx.isSome = true)
    (hcapacity : 0 < c.receiveCapacity) :
    ∃ id, u.rxBuffer = some id ∧ W.Attentive id c.rts.isSome w.bench := by
  obtain ⟨id, b, hmade⟩ := create_installs W.toRemembers h hrx hcapacity
  have hface : W.Calm id (startReceiving r chip id b).2
      (u.faceReceiving (driver r chip) (startReceiving r chip id b).2).2 := by
    unfold Uart.faceReceiving
    cases u.hasDirection with
    | true => exact calm_setDirection _ _
    | false => exact (onward_calm W id).refl _
  have hpasses : W.Unmasked w.bench := by
    rw [Unmasked, hmade.outside, hface.mask]
    show Passes (W.mask (r.setBits imsc intAll (r.write icr intAll _).2).2) intAll
    rw [W.mask_setBits]
    exact passes_or_right (by decide) _
  refine ⟨id, hmade.rxBuffer, ⟨?_, hmade.interrupt W.toRemembers, fun _ => hpasses⟩, ?_⟩
  · rw [hmade.buffers]
    exact hmade.holds
  · exact listens_of_passes (hpasses.trans (by decide))

/-- Whatever a line with a receive buffer is used for until it is shut down, at no instant are the
interrupts of received characters masked while there is room in the buffer, except between the making of
room and the resumption that follows. Without flow control no interrupt of reception is ever masked. -/
theorem masked_only_while_full (W : MaskedWindow r chip)
    (hcreate : Uart.create (driver r chip) c w₀ = (.ok u, w)) (hrx : c.rx.isSome = true)
    (hcapacity : 0 < c.receiveCapacity) :
    ∃ id, u.rxBuffer = some id ∧ ∀ p, W.Suits id c.rts.isSome p → ∀ u' w', W.Used id p u w u' w' →
      W.Attentive id c.rts.isSome w'.bench ∧ ∀ call, call ≠ .shutDown →
        ∀ i ∈ u'.instants (driver r chip) p call w', W.Heeded id c.rts.isSome i := by
  obtain ⟨id, hbuffer, hnew⟩ := attentive_create W hcreate hrx hcapacity
  refine ⟨id, hbuffer, fun p hp u' w' hused => ?_⟩
  obtain ⟨hbuffer', hw'⟩ := hused.attentive hp hbuffer hnew
  exact ⟨hw', fun call hcall => (attentive_perform hp hbuffer' hcall hw').2⟩

end MaskedWindow

/-! ## A line that holds a character back -/

namespace Latched

def heldConfig : Config where
  rx := some { number := 1 }
  rts := some { number := 2 }
  receiveCapacity := 2

def freshWorld : World Latched where
  pins := .create 8
  bench := { outside := { block := {}, hasMask := by decide, chip := { clock := standardClock } } }

def heldLine : Uart := Uart.ofConfig heldConfig (some ⟨0⟩)

def openWorld : World Latched := (Uart.create (driver registers place) heldConfig freshWorld).2

/-- The bench after the block received three characters. -/
def arrivedBench : Bench Latched :=
  { openWorld.bench with outside := ((openWorld.bench.outside.receive 1).receive 2).receive 3 }

/-- The world after the interrupt was served: the buffer is full and one character waits in the block. -/
def heldWorld : World Latched := { openWorld with bench := (serve arrivedBench).2 }

theorem meanwhile_heldWorld : window.Meanwhile ⟨0⟩ openWorld.bench heldWorld.bench := by
  have harrived : window.Meanwhile ⟨0⟩ openWorld.bench arrivedBench :=
    (((MaskedWindow.Meanwhile.refl _).calm (calm_receive 1 _)).calm (calm_receive 2 _)).calm
      (calm_receive 3 _)
  have hheld : heldWorld.bench = (serve arrivedBench).2 := by
    unfold heldWorld
    with_reducible rfl
  rw [hheld]
  exact meanwhile_serve harrived

end Latched

namespace MaskedWindow

/-- A full buffer has the interrupts masked, and a read of one character lets them through again. In
between there is one instant at which they are masked and the buffer has room. -/
theorem masked_only_while_full_held :
    (Latched.heldLine.instants (driver Latched.registers Latched.place) (Latched.platform 10) (.read 1)
        Latched.heldWorld).map (fun i => (i.resumes, Latched.window.mask i.bench.outside,
          (i.bench.buffers.ring ⟨0⟩).space)) =
      [(false, intOverrun, 0), (false, intOverrun, 0), (true, intOverrun, 1), (false, intAll, 1),
        (false, intAll, 1), (false, intAll, 1), (false, intAll, 1)] ∧
    ∀ i ∈ Latched.heldLine.instants (driver Latched.registers Latched.place) (Latched.platform 10)
        (.read 1) Latched.heldWorld, Latched.window.Heeded ⟨0⟩ true i := by
  have hcreate : Uart.create (driver Latched.registers Latched.place) Latched.heldConfig
      Latched.freshWorld = (.ok Latched.heldLine, Latched.openWorld) := Prod.ext (by rfl) rfl
  refine ⟨by decide +kernel, ?_⟩
  obtain ⟨id, hbuffer, h⟩ := masked_only_while_full Latched.window hcreate rfl (by decide)
  obtain rfl : id = ⟨0⟩ := (Option.some.inj hbuffer).symm
  exact (h _ (Latched.suits_platform 10) _ _ (.between .new Latched.meanwhile_heldWorld)).2 _ nofun

end MaskedWindow
end Pl011
end SerialLine
