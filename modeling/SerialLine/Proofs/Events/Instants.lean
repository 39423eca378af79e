import SerialLine.Proofs.Lines.Mirror
/-! # The instants of a call

What a line and the world around it go through in the course of a call.

* `Driver.watched`, `Platform.watched`: they do what the plain ones do and keep the bench as it was before
  and after each thing they were asked. `mirror_watched`: watching changes nothing.
* `Uart.instants`: the benches that a call goes through, and the one that it ends in.
* `Uart.Rule.instants`: what every step of a call keeps holds all along.
* `Follows`: all that happens comes of one bench, in a way that every step obeys.
-/
set_option autoImplicit false

namespace SerialLine

variable {σ α β : Type}

/-- The bench at one moment. -/
structure Instant (σ : Type) where
  bench : Bench σ
  /-- The buffers when something was last done, before the line's own dealings with them. -/
  earlier : RxBuffers
  /-- Whether the peripheral is just about to be told that there is room in the buffer again. -/
  resumes : Bool

/-- An outside with the instants so far, oldest first. -/
structure Watched (σ : Type) where
  inner : σ
  /-- The buffers after the last thing that was done. -/
  buffers : RxBuffers
  instants : List (Instant σ) := []

def Bench.unwatched (b : Bench (Watched σ)) : Bench σ := b.through Watched.inner

/-- The world at the beginning of a watch. -/
def World.watched (w : World σ) : World (Watched σ) where
  pins := w.pins
  bench :=
    { buffers := w.bench.buffers
      log := w.bench.log
      outside := { inner := w.bench.outside, buffers := w.bench.buffers } }

/-- The bench as it is now. -/
def Bench.instant (b : Bench (Watched σ)) (resumes : Bool) : Instant σ where
  bench := b.unwatched
  earlier := b.outside.buffers
  resumes := resumes

/-- Does something and keeps the bench as it was before and after. -/
def watching (resumes : Bool) (f : StateM (Bench σ) α) : StateM (Bench (Watched σ)) α := fun b =>
  let (a, c) := f b.unwatched
  (a, { buffers := c.buffers, log := c.log,
        outside := ⟨c.outside, c.buffers,
          b.outside.instants ++ [b.instant resumes, ⟨c, c.buffers, false⟩]⟩ })

def Driver.watched (d : Driver σ) : Driver (Watched σ) where
  configure s := watching false (d.configure s)
  setBaudrate rate := watching false (d.setBaudrate rate)
  startReceiving id := watching false (d.startReceiving id)
  stopReceiving := watching false d.stopReceiving
  resumeReceiving := watching true d.resumeReceiving
  receivedCount := watching false d.receivedCount
  takeWord := watching false d.takeWord
  isReady := watching false d.isReady
  sendWord word := watching false (d.sendWord word)
  isIdle := watching false d.isIdle
  clearToSend := watching false d.clearToSend
  setDirection high := watching false (d.setDirection high)
  disable := watching false d.disable

def Platform.watched (p : Platform σ) : Platform (Watched σ) where
  ticks := watching false p.ticks
  background := watching false p.background
  isInterrupted := watching false p.isInterrupted
  patience := p.patience

theorem mirrors_watching (freed : Bool) (f : StateM (Bench σ) α) :
    Mirrors (Bench.through Watched.inner) (watching freed f) f := fun _ => rfl

theorem mirror_watched (d : Driver σ) (p : Platform σ) :
    Mirror Watched.inner d.watched p.watched d p where
  driver :=
    { configure := fun _ => mirrors_watching _ _
      setBaudrate := fun _ => mirrors_watching _ _
      startReceiving := fun _ => mirrors_watching _ _
      stopReceiving := mirrors_watching _ _
      resumeReceiving := mirrors_watching _ _
      receivedCount := mirrors_watching _ _
      takeWord := mirrors_watching _ _
      isReady := mirrors_watching _ _
      sendWord := fun _ => mirrors_watching _ _
      isIdle := mirrors_watching _ _
      clearToSend := mirrors_watching _ _
      setDirection := fun _ => mirrors_watching _ _
      disable := mirrors_watching _ _ }
  platform :=
    { ticks := mirrors_watching _ _
      background := mirrors_watching _ _
      isInterrupted := mirrors_watching _ _
      patience := rfl }

/-- The bench after a call that was watched, whether it was answered or not. -/
def Uart.watch (u : Uart) (d : Driver σ) (p : Platform σ) (call : Call) (w : World σ) :
    Bench (Watched σ) :=
  (Act.final (u.perform d.watched p.watched call) w.watched).bench

/-- The benches that a call goes through: before and after everything that it asks of the driver and the
platform, and when it ends. Only the log and the line's own dealings with the buffer come between them. -/
def Uart.instants (u : Uart) (d : Driver σ) (p : Platform σ) (call : Call) (w : World σ) :
    List (Instant σ) :=
  (u.watch d p call w).outside.instants ++ [(u.watch d p call w).instant false]

/-- A call ends in the same bench if nobody watches. -/
theorem Uart.unwatched_watch (u : Uart) (d : Driver σ) (p : Platform σ) (call : Call) (w : World σ) :
    (u.watch d p call w).unwatched = (Act.final (u.perform d p call) w).bench :=
  congrArg World.bench (((mirror_watched d p).perform u call).final w.watched).symm

/-! ## What holds all along -/

/-- From a bench on where `K` holds, every instant is as `good` says and `K` holds again. -/
def Abides (K : Bench (Watched σ) → Prop) (good : Instant σ → Prop) (b b' : Bench (Watched σ)) :
    Prop :=
  ∃ is, b'.outside.instants = b.outside.instants ++ is ∧ (K b → K b' ∧ ∀ i ∈ is, good i)

section
variable {K : Bench (Watched σ) → Prop} {good : Instant σ → Prop}

theorem Abides.silent {b b' : Bench (Watched σ)} (hsame : b'.outside.instants = b.outside.instants)
    (h : K b → K b') : Abides K good b b' :=
  ⟨[], hsame.trans (List.append_nil _).symm, fun hb => ⟨h hb, nofun⟩⟩

theorem onward_abides (hlog : ∀ b log, K b → K { b with log := log }) :
    Onward (Abides K good) where
  refl b := .silent rfl fun hb => hb
  trans := by
    rintro b b' b'' ⟨is, his, hkeep⟩ ⟨is', his', hkeep'⟩
    refine ⟨is ++ is', by rw [his', his, List.append_assoc], fun hb => ?_⟩
    obtain ⟨hb', hall⟩ := hkeep hb
    obtain ⟨hb'', hall'⟩ := hkeep' hb'
    exact ⟨hb'', fun i hi => (List.mem_append.mp hi).elim (hall i) (hall' i)⟩
  log b log := .silent rfl (hlog b log)

theorem abides_watching {f : StateM (Bench σ) α} {resumes : Bool} {b : Bench (Watched σ)}
    (hf : K b → K (watching resumes f b).2 ∧ good (b.instant resumes) ∧
      good ((watching resumes f b).2.instant false)) :
    Abides K good b (watching resumes f b).2 := by
  refine ⟨[b.instant resumes, (watching resumes f b).2.instant false], rfl, fun hb => ?_⟩
  obtain ⟨hafter, hgood, hgood'⟩ := hf hb
  refine ⟨hafter, fun i hi => ?_⟩
  rcases List.mem_cons.mp hi with rfl | hi
  · exact hgood
  · rw [List.mem_singleton.mp hi]
    exact hgood'

/-- Along a call whose steps keep `K`, every instant is good, and `K` holds in the end. -/
theorem Uart.Rule.instants {u : Uart} {d : Driver σ} {p : Platform σ} {call : Call} {w : World σ}
    (h : u.Rule (Abides K good) d.watched p.watched)
    (hsend : ∀ word, Obeys (Abides K good) (d.watched.sendWord word))
    (hturn : ∀ high, Obeys (Abides K good) (d.watched.setDirection high))
    (hgood : ∀ b, K b → good (b.instant false)) (hcall : call ≠ .shutDown) (hw : K w.watched.bench) :
    K (u.watch d p call w) ∧ ∀ i ∈ u.instants d p call w, good i := by
  obtain ⟨is, his, hkeep⟩ := h.perform hcall (fun data _ => h.write hsend hturn data) w.watched
  obtain ⟨hlast, hall⟩ := hkeep hw
  refine ⟨hlast, fun i hi => ?_⟩
  unfold Uart.instants at hi
  rw [Uart.watch, his] at hi
  rcases List.mem_append.mp hi with hi | hi
  · exact hall i hi
  · rw [List.mem_singleton.mp hi]
    exact hgood _ hlast

end

/-- From a bench on that came of `start`, so did the bench at every instant. -/
abbrev Follows (R : Bench σ → Bench σ → Prop) (start : Bench σ) :
    Bench (Watched σ) → Bench (Watched σ) → Prop :=
  Abides (fun b => R start b.unwatched) (fun i => R start i.bench)

section
variable {R : Bench σ → Bench σ → Prop} (h : Onward R)
include h

theorem Onward.toFollows (start : Bench σ) : Onward (Follows R start) :=
  onward_abides fun b log hb => h.trans hb (h.log b.unwatched log)

theorem Onward.follows {f : StateM (Bench σ) α} (hf : Obeys R f) (resumes : Bool) (start : Bench σ) :
    Obeys (Follows R start) (watching resumes f) := by
  refine fun b => abides_watching fun hb => ?_
  have hafter := h.trans hb (hf b.unwatched)
  exact ⟨hafter, hb, hafter⟩

end
end SerialLine
