import SerialLine.Proofs.Events.Instants
import SerialLine.Proofs.Lines.Replies
import SerialLine.Proofs.Receiving.Freshness
import SerialLine.Proofs.Receiving.Station
import SerialLine.Proofs.Receiving.Twins
/-! # A receive buffer is not seen

Two lines made from one configuration, the second without the receive buffer, in the same surroundings.

* `Call.listens`: reads, the count of waiting characters, questions whether a line is readable, and
  discarding what was received. `Twins.perform`: they agree.
* `Paired`: what becomes of both lines when the same characters reach them and the same calls are made.
  `Paired.alike`: their queues hold the same all along.
* `same_answers_without_buffer`: every such call answers the same over both, after as many rounds.
-/
set_option autoImplicit false

namespace SerialLine

variable {σ τ ε α : Type}

/-! ## Calls on worlds -/

section
variable {R : Bench σ → Bench τ → Prop} {G : Bench τ → Prop} {β : Type} {w : World σ} {w' : World τ}

theorem Act.Agrees.onWorld {act : Act (Bench σ) α} {act' : Act (Bench τ) α}
    (h : Act.Agrees R G act act') (answer : α → β) (u u' : Uart) (hw : R w.bench w'.bench)
    (hend : G (Act.final (do return (answer (← World.benchAct act'), u') :
      Act (World τ) (β × Uart)) w').bench) :
    (Act.answer? (do return (answer (← World.benchAct act), u) :
        Act (World σ) (β × Uart)) w).map Prod.fst =
      (Act.answer? (do return (answer (← World.benchAct act'), u') :
        Act (World τ) (β × Uart)) w').map Prod.fst ∧
    R (Act.final (do return (answer (← World.benchAct act), u) : Act (World σ) (β × Uart)) w).bench
      (Act.final (do return (answer (← World.benchAct act'), u') :
        Act (World τ) (β × Uart)) w').bench := by
  rw [Act.final_onBench] at hend
  rw [Act.answer?_onBench, Act.answer?_onBench, Act.final_onBench, Act.final_onBench]
  obtain ⟨hanswer, hafter⟩ := h.agree w.bench w'.bench hw hend
  exact ⟨congrArg (Option.map answer) hanswer, hafter⟩

theorem Agrees.onWorld {f : StateM (Bench σ) α} {f' : StateM (Bench τ) α} (h : Agrees R G f f')
    (answer : α → β) (hw : R w.bench w'.bench) (hend : G (f' w'.bench).2) :
    some (answer (f w.bench).1) = some (answer (f' w'.bench).1) ∧
      R (f w.bench).2 (f' w'.bench).2 := by
  obtain ⟨hanswer, hafter⟩ := h.agree w.bench w'.bench hw hend
  exact ⟨congrArg (fun a => some (answer a)) hanswer, hafter⟩

end

namespace Uart

/-- Calls that do nothing but listen. Whether the line can send is not asked. -/
def Call.listens : Call → Bool
  | .read _ => true
  | .waitingCount => true
  | .discardInput => true
  | .poll flags => !flags.includes .writable
  | .control (.poll flags) => !flags.includes .writable
  | _ => false

section
variable {S : Surroundings ε} {u : Uart} {d : Driver σ} {p : Platform σ} {d' : Driver τ}
  {p' : Platform τ}

namespace Twins

variable {I : Situated S u d p} {I' : Situated S u.unbuffered d' p'} {capacity : Nat}
  {G : Bench τ → Prop}

theorem perform (h : Twins I I' capacity G) {call : Call} (hcall : call.listens = true) {w : World σ}
    {w' : World τ} (hw : Alike I.toScene I'.toScene u capacity w.bench w'.bench)
    (hend : G (u.unbuffered.after d' p' call w').bench) :
    u.replyTo d p call w = u.unbuffered.replyTo d' p' call w' ∧
      Alike I.toScene I'.toScene u capacity (u.after d p call w).bench
        (u.unbuffered.after d' p' call w').bench := by
  cases call with
  | read room => exact (h.read room).onWorld _ u u.unbuffered hw hend
  | waitingCount => exact h.waitingCount.onWorld Reply.number hw hend
  | discardInput => exact h.discardInput.onWorld Reply.done hw hend
  | poll flags =>
    have hflags : flags.includes .writable = false := by simpa [Call.listens] using hcall
    exact (h.poll hflags).onWorld (fun ready => Reply.number (ready.map fun f => f.bits.toNat)) hw hend
  | control request =>
    cases request with
    | poll flags =>
      have hflags : flags.includes .writable = false := by simpa [Call.listens] using hcall
      exact (h.control hflags).onWorld _ u u.unbuffered hw hend
    | flush => cases hcall
    | other code => cases hcall
  | write data => cases hcall
  | flush => cases hcall
  | getBaudrate => cases hcall
  | setBaudrate rate => cases hcall
  | getTimeout => cases hcall
  | setTimeout timeout => cases hcall
  | droppedCount => cases hcall
  | takeDropped => cases hcall
  | shutDown => cases hcall

end Twins

/-! ## Lines that are recorded and watched -/

/-- A peripheral holds at most so many characters, and no counter that counts them has wrapped. -/
structure Holdings.Within (H : Holdings σ) (capacity : Nat) (b : Bench σ) : Prop where
  held : (H.held b.outside).length ≤ capacity
  taken : (H.taken b.outside).length < 2 ^ 64

/-- At no instant so far did the peripheral of a recorded line hold more. -/
def AlwaysWithin (H : Holdings τ) (capacity : Nat) (b : Bench (Watched (Recorded τ))) : Prop :=
  ∀ i ∈ b.outside.instants, H.Within capacity i.bench.unrecorded

theorem backward_watching {H : Holdings τ} {capacity : Nat} (resumes : Bool)
    (f : StateM (Bench (Recorded τ)) α) :
    Obeys (Backward (AlwaysWithin H capacity)) (watching resumes f) :=
  fun _ hend i hi => hend i (List.mem_append_left _ hi)

variable {I : Situated S u d p} {I' : Situated S u.unbuffered d' p'} {capacity k k' : Nat}

theorem twins_watched (hreceives : u.receives = u.rxBuffer.isSome) (hpatience : p.patience = p'.patience)
    (hcounts : I'.Counts) : Twins (I.counted k)
      ((I'.counted k').through (mirror_watched d'.recorded p'.recorded)) capacity
      (AlwaysWithin I'.toHoldings capacity) where
  receives := hreceives
  patience := hpatience
  counts :=
    { count := fun b => hcounts.count b.unwatched.unrecorded
      calm := Scene.Calm.through (f := d'.recorded.receivedCount)
        (Scene.Calm.recording hcounts.calm .receivedCount nofun k')
        (mirrors_watching false d'.recorded.receivedCount) }
  within b hend := by
    have hlast := hend _ (List.mem_append_right _ (List.mem_cons_of_mem _ (List.mem_singleton_self _)))
    exact ⟨hlast.held, hlast.taken⟩
  ticks := backward_watching _ _
  background := backward_watching _ _
  isInterrupted := backward_watching _ _
  takeWord := backward_watching _ _
  receivedCount := backward_watching _ _
  resumeReceiving := backward_watching _ _
  log _ _ h := h

/-- One call over both lines. -/
theorem alike_call (hreceives : u.receives = u.rxBuffer.isSome) (hpatience : p.patience = p'.patience)
    (hcounts : I'.Counts) {call : Call} (hcall : call.listens = true) {w : World (Recorded σ)}
    {w' : World (Recorded τ)}
    (hw : Alike I.toScene I'.toScene u capacity w.bench.unrecorded w'.bench.unrecorded)
    (hwithin : ∀ i ∈ u.unbuffered.instants d'.recorded p'.recorded call w',
      I'.Within capacity i.bench.unrecorded) :
    u.replyTo d.recorded p.recorded call w =
        u.unbuffered.replyTo d'.recorded p'.recorded call w' ∧
      rounds (u.after d.recorded p.recorded call w).bench + rounds w'.bench =
        rounds (u.unbuffered.after d'.recorded p'.recorded call w').bench + rounds w.bench ∧
      Alike I.toScene I'.toScene u capacity (u.after d.recorded p.recorded call w).bench.unrecorded
        (u.unbuffered.after d'.recorded p'.recorded call w').bench.unrecorded := by
  have hmirror := (mirror_watched d'.recorded p'.recorded).perform u.unbuffered call
  have htwins : Twins (I.counted (rounds w'.bench))
      ((I'.counted (rounds w.bench)).through (mirror_watched d'.recorded p'.recorded)) capacity
      (AlwaysWithin I'.toHoldings capacity) := twins_watched hreceives hpatience hcounts
  have hbefore : Alike (I.counted (rounds w'.bench)).toScene
      ((I'.counted (rounds w.bench)).through (mirror_watched d'.recorded p'.recorded)).toScene u
      capacity w.bench w'.watched.bench :=
    ⟨Prod.ext hw.view (Nat.add_comm _ _), ⟨hw.fits.ready, hw.fits.capacity_eq⟩, hw.queue, hw.taken⟩
  obtain ⟨hreply, hafter⟩ := htwins.perform hcall hbefore fun i hi =>
    hwithin i (List.mem_append_left _ hi)
  have hsame : u.unbuffered.after d'.recorded p'.recorded call w' =
      (u.unbuffered.after d'.recorded.watched p'.recorded.watched call w'.watched).through
        Watched.inner := hmirror.final w'.watched
  have hanswer : u.unbuffered.replyTo d'.recorded p'.recorded call w' =
      u.unbuffered.replyTo d'.recorded.watched p'.recorded.watched call w'.watched :=
    congrArg (Option.map Prod.fst) (hmirror.answer?_eq w'.watched)
  rw [hanswer, hsame]
  refine ⟨hreply, ?_, ⟨congrArg Prod.fst hafter.view, ⟨hafter.fits.ready, hafter.fits.capacity_eq⟩,
    hafter.queue, hafter.taken⟩⟩
  have hrounds := congrArg Prod.snd hafter.view
  exact (Nat.add_comm _ _).trans (hrounds.trans (Nat.add_comm _ _))

end

/-! ## Both lines -/

section
variable {S : Surroundings ε} {u u' : Uart} {d : Driver σ} {p : Platform σ} {d' : Driver τ}
  {p' : Platform τ} {capacity : Nat}

/-- What becomes of two lines in the same surroundings. The same characters reach them between calls, and
the same calls are made. The peripheral of the second never holds more than `capacity` characters. -/
inductive Paired (I : Situated S u d p) (I' : Situated S u' d' p') (capacity : Nat)
    (w : World (Recorded σ)) (w' : World (Recorded τ)) :
    World (Recorded σ) → World (Recorded τ) → Prop where
  | new : Paired I I' capacity w w' w w'
  | between {v v₁ : World (Recorded σ)} {v' v₁' : World (Recorded τ)} {words : List UInt16}
      (h : Paired I I' capacity w w' v v')
      (henters : I.Enters u words v.bench.unrecorded v₁.bench.unrecorded)
      (henters' : I'.Enters u' words v'.bench.unrecorded v₁'.bench.unrecorded)
      (hview : I.view v₁.bench.outside.inner = I'.view v₁'.bench.outside.inner)
      (hwithin : I'.Within capacity v₁'.bench.unrecorded) : Paired I I' capacity w w' v₁ v₁'
  | call {v : World (Recorded σ)} {v' : World (Recorded τ)} {call : Call}
      (h : Paired I I' capacity w w' v v') (hcall : call.listens = true)
      (hwithin : ∀ i ∈ u'.instants d'.recorded p'.recorded call v',
        I'.Within capacity i.bench.unrecorded) :
      Paired I I' capacity w w' (u.after d.recorded p.recorded call v)
        (u'.after d'.recorded p'.recorded call v')

theorem Paired.alike {I : Situated S u d p} {I' : Situated S u.unbuffered d' p'}
    {w v : World (Recorded σ)} {w' v' : World (Recorded τ)}
    (hreceives : u.receives = u.rxBuffer.isSome) (hpatience : p.patience = p'.patience)
    (hcounts : I'.Counts) (h : Paired I I' capacity w w' v v')
    (hw : Alike I.toScene I'.toScene u capacity w.bench.unrecorded w'.bench.unrecorded) :
    Alike I.toScene I'.toScene u capacity v.bench.unrecorded v'.bench.unrecorded := by
  induction h with
  | new => exact hw
  | between _ henters henters' hview hwithin ih =>
    exact ih.enters henters henters' hview hwithin.held hwithin.taken
  | call _ hcall hwithin ih => exact (alike_call hreceives hpatience hcounts hcall ih hwithin).2.2

/-- Two lines were made from one configuration, the second without a receive buffer. Nothing had been
received, and their surroundings were at the same point. -/
structure MadeAlike (I : Situated S u d p) (I' : Situated S u' d' p') (c : Config)
    (w₀ w : World (Recorded σ)) (w₀' w' : World (Recorded τ)) : Prop where
  capacity : 0 < c.receiveCapacity
  made : create d.recorded c w₀ = (.ok u, w)
  made' : create d'.recorded { c with receiveCapacity := 0 } w₀' = (.ok u', w')
  begins : I.Begins u d
  begins' : I'.Begins u' d'
  counts : I'.Counts
  patience : p.patience = p'.patience
  held : I.held w₀.bench.outside.inner = []
  held' : I'.held w₀'.bench.outside.inner = []
  taken : I.taken w₀.bench.outside.inner = []
  taken' : I'.taken w₀'.bench.outside.inner = []
  view : I.view w.bench.outside.inner = I'.view w'.bench.outside.inner

theorem MadeAlike.alike {I : Situated S u d p} {I' : Situated S u.unbuffered d' p'} {c : Config}
    {w₀ w : World (Recorded σ)} {w₀' w' : World (Recorded τ)} (h : MadeAlike I I' c w₀ w w₀' w') :
    Alike I.toScene I'.toScene u c.receiveCapacity w.bench.unrecorded w'.bench.unrecorded := by
  have hplain := (mirror_recorded d p).create c w₀
  have hplain' := (mirror_recorded d' p').create { c with receiveCapacity := 0 } w₀'
  rw [h.made] at hplain
  rw [h.made'] at hplain'
  have hfresh := Holdings.fresh_create h.begins hplain h.held h.taken
  have hfresh' := Holdings.fresh_create h.begins' hplain' h.held' h.taken'
  refine ⟨h.view, hfresh.toFits, fun _ => ?_, fun _ => ?_⟩
  · have hnone : I.waiting u w.bench.unrecorded = [] := hfresh.waiting
    have hnone' : I'.held w'.bench.unrecorded.outside = [] := hfresh'.held
    rw [hnone, hnone']
    rfl
  · have hnone : I.taken w.bench.unrecorded.outside = [] := hfresh.taken
    have hnone' : I'.taken w'.bench.unrecorded.outside = [] := hfresh'.taken
    rw [hnone, hnone']

/-- Two lines are made from one configuration, the second without a receive buffer. Whatever they are used
for, a call that listens answers the same over both, with the same bytes, after as many rounds of background
work. -/
theorem same_answers_without_buffer {I : Situated S u d p} {I' : Situated S u' d' p'} {c : Config}
    {w₀ w v : World (Recorded σ)} {w₀' w' v' : World (Recorded τ)} (h : MadeAlike I I' c w₀ w w₀' w')
    (hpaired : Paired I I' c.receiveCapacity w w' v v') {call : Call} (hcall : call.listens = true)
    (hwithin : ∀ i ∈ u'.instants d'.recorded p'.recorded call v',
      I'.Within c.receiveCapacity i.bench.unrecorded) :
    u.replyTo d.recorded p.recorded call v = u'.replyTo d'.recorded p'.recorded call v' ∧
      rounds (u.after d.recorded p.recorded call v).bench + rounds v'.bench =
        rounds (u'.after d'.recorded p'.recorded call v').bench + rounds v.bench := by
  obtain rfl := create_unbuffered h.made h.made'
  have hreceives := receives_create h.capacity h.made
  have halike := hpaired.alike hreceives h.patience h.counts h.alike
  obtain ⟨hreply, hrounds, -⟩ := alike_call hreceives h.patience h.counts hcall halike hwithin
  exact ⟨hreply, hrounds⟩

end

/-! ## Two characters at once -/

/-- Two characters come in during the first half second. -/
def burst : Surroundings Nat where
  ticks t := (t, t)
  background t := (if t = 0 then [0x141, 0x242] else [], t + 500)
  isInterrupted t := (false, t)

def listener : Config where
  rx := some { number := 1 }
  receiveCapacity := 2

def bufferedLine : Uart := ofConfig listener (some ⟨0⟩)

def bareLine : Uart := ofConfig listener none

def bufferedWorld : World (Recorded (Station Nat)) :=
  (create (Station.driver bufferedLine.rxBuffer).recorded listener (Station.world 0)).2

def bareWorld : World (Recorded (Station Nat)) :=
  (create (Station.driver bareLine.rxBuffer).recorded { listener with receiveCapacity := 0 }
    (Station.world 0)).2

theorem madeAlike_burst : MadeAlike (Station.situated burst bufferedLine 6)
    (Station.situated burst bareLine 6) listener (Station.world 0) bufferedWorld (Station.world 0)
    bareWorld where
  capacity := by decide
  made := Prod.ext (by rfl) rfl
  made' := Prod.ext (by rfl) rfl
  begins := Station.begins_situated _ _ _
  begins' := Station.begins_situated _ _ _
  counts := Station.counts_situated _ _ _
  patience := rfl
  held := rfl
  held' := rfl
  taken := rfl
  taken' := rfl
  view := by rfl

/-- A read for three characters takes the two that come in and gives up after a second without more, which
is the third round of waiting. -/
theorem same_answers_without_buffer_burst :
    let buffered := bufferedLine.replyTo (Station.driver bufferedLine.rxBuffer).recorded
      (Station.platform burst bufferedLine.rxBuffer 6).recorded (.read 3) bufferedWorld
    let bare := bareLine.replyTo (Station.driver bareLine.rxBuffer).recorded
      (Station.platform burst bareLine.rxBuffer 6).recorded (.read 3) bareWorld
    let bufferedAfter := bufferedLine.after (Station.driver bufferedLine.rxBuffer).recorded
      (Station.platform burst bufferedLine.rxBuffer 6).recorded (.read 3) bufferedWorld
    let bareAfter := bareLine.after (Station.driver bareLine.rxBuffer).recorded
      (Station.platform burst bareLine.rxBuffer 6).recorded (.read 3) bareWorld
    bare = some (.filled 3 ⟨.ok 2, [0x41, 0x42]⟩) ∧ buffered = bare ∧
      rounds bareWorld.bench = 0 ∧ rounds bareAfter.bench = 3 ∧
      rounds bufferedAfter.bench + rounds bareWorld.bench =
        rounds bareAfter.bench + rounds bufferedWorld.bench := by
  intro buffered bare bufferedAfter bareAfter
  have hall : (bareLine.instants (Station.driver bareLine.rxBuffer).recorded
      (Station.platform burst bareLine.rxBuffer 6).recorded (.read 3) bareWorld).all (fun i =>
        decide (i.bench.outside.inner.held.length ≤ 2) &&
          decide (i.bench.outside.inner.taken.length < 2 ^ 64)) = true := by decide +kernel
  obtain ⟨hreply, hrounds⟩ : buffered = bare ∧ rounds bufferedAfter.bench + rounds bareWorld.bench =
      rounds bareAfter.bench + rounds bufferedWorld.bench := by
    refine same_answers_without_buffer madeAlike_burst .new rfl fun i hi => ?_
    have hboth := Bool.and_eq_true_iff.mp (List.all_eq_true.mp hall i hi)
    exact ⟨of_decide_eq_true hboth.1, of_decide_eq_true hboth.2⟩
  exact ⟨by decide +kernel, hreply, by decide +kernel, by decide +kernel, hrounds⟩

end Uart
end SerialLine
