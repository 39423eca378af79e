import SerialLine.Proofs.Lines.Mirror
import SerialLine.Proofs.Receiving.Outlet
import SerialLine.Proofs.Sending.Duration
/-! # Lines in their surroundings

* `Surroundings`: a clock, the characters that come in during each round of background work, and the
  console interrupt. They do not depend on the line or on what is read from it.
* `Situated`: a line whose queue takes these characters, in either way of receiving.
* `Outlet.through`, `Situated.through`: the same line over a larger outside.
* `Outlet.counted`, `Situated.counted`: the same line recorded, where the rounds of background work belong
  to what is seen.
-/
set_option autoImplicit false

namespace SerialLine.Uart

variable {σ τ ε α : Type}

/-- What goes on around a line. -/
structure Surroundings (ε : Type) where
  ticks : StateM ε Nat
  /-- The characters that come in during a round of background work. -/
  background : StateM ε (List UInt16)
  isInterrupted : StateM ε Bool

/-- The same surroundings with a count of the rounds. -/
def Surroundings.counted (S : Surroundings ε) : Surroundings (ε × Nat) where
  ticks e := ((S.ticks e.1).1, (S.ticks e.1).2, e.2)
  background e := ((S.background e.1).1, (S.background e.1).2, e.2 + 1)
  isInterrupted e := ((S.isInterrupted e.1).1, (S.isInterrupted e.1).2, e.2)

namespace Scene

/-- An operation leaves the queue alone and does to the rest what is said of it. -/
structure Shows (X : Scene σ ε) (u : Uart) (f : StateM (Bench σ) α) (g : StateM ε α) : Prop where
  still : ∀ b, X.Still u b (f b).2
  seen : Mirrors (fun b : Bench σ => X.view b.outside) f g

/-- The same scene as part of a larger outside. -/
def through (X : Scene σ ε) (look : τ → σ) : Scene τ ε where
  held s := X.held (look s)
  taken s := X.taken (look s)
  view s := X.view (look s)

/-- The same scene with the rounds of background work, of which there were `k` already. -/
def counted (X : Scene σ ε) (k : Nat) : Scene (Recorded σ) (ε × Nat) where
  held s := X.held s.inner
  taken s := X.taken s.inner
  view s := (X.view s.inner, k + s.events.count .background)

variable {X : Scene σ ε} {u : Uart} {f : StateM (Bench σ) α} {look : τ → σ}
  {f' : StateM (Bench τ) α}

theorem Shows.answer {g : StateM ε α} (h : X.Shows u f g) (b : Bench σ) :
    (f b).1 = (g (X.view b.outside)).1 := (congrArg Prod.fst (h.seen b)).symm

theorem Shows.view {g : StateM ε α} (h : X.Shows u f g) (b : Bench σ) :
    X.view (f b).2.outside = (g (X.view b.outside)).2 := (congrArg Prod.snd (h.seen b)).symm

theorem Calm.through (hcalm : ∀ b, X.Calm u b (f b).2) (hf : Mirrors (Bench.through look) f' f)
    (b : Bench τ) : (X.through look).Calm u b (f' b).2 := by
  have hinner := hcalm (b.through look)
  rw [hf b] at hinner
  exact ⟨⟨hinner.held, hinner.taken, hinner.ring, hinner.holds⟩, hinner.view⟩

theorem Shows.through {g : StateM ε α} (h : X.Shows u f g) (hf : Mirrors (Bench.through look) f' f) :
    (X.through look).Shows u f' g := by
  constructor
  · intro b
    have hinner := h.still (b.through look)
    rw [hf b] at hinner
    exact ⟨hinner.held, hinner.taken, hinner.ring, hinner.holds⟩
  · intro b
    have hinner := h.seen (b.through look)
    rw [hf b] at hinner
    exact hinner

theorem Calm.counted {b b' : Bench (Recorded σ)} {k : Nat}
    (h : (X.through Recorded.inner).Calm u b b') (hrounds : rounds b' = rounds b) :
    (X.counted k).Calm u b b' :=
  ⟨⟨h.held, h.taken, h.ring, h.holds⟩, Prod.ext h.view (congrArg (k + ·) hrounds)⟩

theorem Shows.counted {g : StateM ε α} {f : StateM (Bench (Recorded σ)) α} {k : Nat}
    (h : (X.through Recorded.inner).Shows u f g) (hrounds : ∀ b, rounds (f b).2 = rounds b) :
    (X.counted k).Shows u f fun e => ((g e.1).1, (g e.1).2, e.2) := by
  constructor
  · intro b
    have hinner := h.still b
    exact ⟨hinner.held, hinner.taken, hinner.ring, hinner.holds⟩
  · intro b
    have hsame : k + rounds (f b).2 = k + rounds b := congrArg (k + ·) (hrounds b)
    exact Prod.ext (h.answer b).symm (Prod.ext (h.view b).symm hsame.symm)

end Scene

theorem rounds_recording (event : α → Event) (f : StateM (Bench σ) α)
    (hevent : ∀ a, event a ≠ .background) (b : Bench (Recorded σ)) :
    rounds (recording event f b).2 = rounds b := by
  have hevents := recording_events event f (Prod.eta (recording event f b)).symm
  rw [rounds_of_events hevents, List.count_eq_zero.mpr, Nat.add_zero]
  rw [List.mem_singleton]
  exact (hevent _).symm

theorem Scene.Calm.recording {X : Scene σ ε} {u : Uart} {f : StateM (Bench σ) α}
    (hcalm : ∀ b, X.Calm u b (f b).2) (event : α → Event) (hevent : ∀ a, event a ≠ .background)
    (k : Nat) (b : Bench (Recorded σ)) : (X.counted k).Calm u b (recording event f b).2 :=
  (Calm.through hcalm (mirrors_recording event f) b).counted (rounds_recording event f hevent b)

theorem Scene.Shows.recording {X : Scene σ ε} {u : Uart} {f : StateM (Bench σ) α} {g : StateM ε α}
    (h : X.Shows u f g) (event : α → Event) (hevent : ∀ a, event a ≠ .background) (k : Nat) :
    (X.counted k).Shows u (recording event f) fun e => ((g e.1).1, (g e.1).2, e.2) :=
  (h.through (mirrors_recording event f)).counted (rounds_recording event f hevent)

namespace Outlet

variable {u : Uart} {d : Driver σ}

def through {look : τ → σ} {d' : Driver τ} (O : Outlet ε u d) (h : d'.Mirrors look d) :
    Outlet ε u d' where
  toScene := O.toScene.through look
  resumeReceiving := Scene.Calm.through O.resumeReceiving h.resumeReceiving
  takeWord hbuffer b := by
    have hpops := O.takeWord hbuffer (b.through look)
    rw [h.takeWord b] at hpops
    exact ⟨hpops.word_eq, hpops.held, hpops.taken, hpops.view⟩

def counted (O : Outlet ε u d) (k : Nat) : Outlet (ε × Nat) u d.recorded where
  toScene := O.toScene.counted k
  resumeReceiving := Scene.Calm.recording O.resumeReceiving (fun _ => .resumeReceiving) nofun k
  takeWord hbuffer b := by
    have hpops := O.takeWord hbuffer b.unrecorded
    have hrounds := rounds_recording .takeWord d.takeWord nofun b
    exact ⟨hpops.word_eq, hpops.held, hpops.taken,
      Prod.ext hpops.view (congrArg (k + ·) hrounds)⟩

end Outlet

/-- A line in given surroundings. -/
structure Situated (S : Surroundings ε) (u : Uart) (d : Driver σ) (p : Platform σ)
    extends Outlet ε u d where
  ticks : toScene.Shows u p.ticks S.ticks
  isInterrupted : toScene.Shows u p.isInterrupted S.isInterrupted
  background : ∀ b, (∀ id, u.rxBuffer = some id → b.buffers.Holds id) →
    toScene.Enters u (S.background (view b.outside)).1 b (p.background b).2
  background_view : ∀ b, view (p.background b).2.outside = (S.background (view b.outside)).2

namespace Situated

variable {S : Surroundings ε} {u : Uart} {d : Driver σ} {p : Platform σ}

def through {look : τ → σ} {d' : Driver τ} {p' : Platform τ} (I : Situated S u d p)
    (h : Mirror look d' p' d p) : Situated S u d' p' where
  toOutlet := I.toOutlet.through h.driver
  ticks := I.ticks.through h.platform.ticks
  isInterrupted := I.isInterrupted.through h.platform.isInterrupted
  background b hholds := by
    have henters := I.background (b.through look) hholds
    rw [h.platform.background b] at henters
    exact ⟨henters.held, henters.taken, henters.ring, henters.holds⟩
  background_view b := by
    have hview := I.background_view (b.through look)
    rwa [h.platform.background b] at hview

def counted (I : Situated S u d p) (k : Nat) : Situated S.counted u d.recorded p.recorded where
  toOutlet := I.toOutlet.counted k
  ticks := I.ticks.recording .ticks nofun k
  isInterrupted := I.isInterrupted.recording .isInterrupted nofun k
  background b hholds := by
    have henters := I.background b.unrecorded hholds
    exact ⟨henters.held, henters.taken, henters.ring, henters.holds⟩
  background_view b := by
    have hrounds : rounds (p.recorded.background b).2 = rounds b + 1 :=
      rounds_of_events (recording_events (fun _ => .background) p.background rfl)
    exact Prod.ext (I.background_view b.unrecorded) (congrArg (k + ·) hrounds)

end Situated
end SerialLine.Uart
