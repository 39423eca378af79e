import SerialLine.Proofs.Lines.Frame
import SerialLine.Proofs.Lines.Reading
import SerialLine.Recording
/-! # The same calls over another outside

A driver and a platform may do, to a part of a larger outside, what others do to that part alone. Then
every call of a line does so too.

* `Mirrors`, `Act.Mirrors`: an operation or an act does to what is seen of a state what another does to
  a state of that kind, with the same answer.
* `Driver.Mirrors`, `Platform.Mirrors`: every operation of a driver or a platform does so.
* `Mirror.read`, `Mirror.write`, …: one lemma per call. `Mirror.perform` is for any call and
  `Mirror.create` for the making of a line.
* `mirror_recorded`: a recorded driver and platform do what the plain ones do.
-/
set_option autoImplicit false

namespace SerialLine

variable {σ τ α β : Type}

/-! ## Operations and acts -/

/-- An operation on the states `V` does to what is seen of them what one on the states `W` does. -/
def Mirrors {V W : Type} (seen : V → W) (f' : StateM V α) (f : StateM W α) : Prop :=
  ∀ v, f (seen v) = ((f' v).1, seen (f' v).2)

/-- The end of an act, seen. -/
def Act.seeEnd {V W : Type} (seen : V → W) : EStateM.Result Halt V α → EStateM.Result Halt W α
  | .ok a v => .ok a (seen v)
  | .error e v => .error e (seen v)

def Act.Mirrors {V W : Type} (seen : V → W) (act' : Act V α) (act : Act W α) : Prop :=
  ∀ v, act (seen v) = Act.seeEnd seen (act' v)

section
variable {V W : Type} {seen : V → W}

theorem mirrors_pure (a : α) : Mirrors seen (pure a) (pure a) := fun _ => rfl

theorem Mirrors.bind {f' : StateM V α} {f : StateM W α} {g' : α → StateM V β} {g : α → StateM W β}
    (hf : Mirrors seen f' f) (hg : ∀ a, Mirrors seen (g' a) (g a)) :
    Mirrors seen (f' >>= g') (f >>= g) := by
  intro v
  have hsecond := hg (f' v).1 (f' v).2
  show g (f (seen v)).1 (f (seen v)).2 = _
  rw [hf v]
  exact hsecond

theorem Mirrors.guarded {c : Prop} [Decidable c] {f' : StateM V α} {f : StateM W α} (a : α)
    (hf : Mirrors seen f' f) :
    Mirrors seen (if c then pure a else f') (if c then pure a else f) := by
  by_cases hc : c
  · rw [if_pos hc, if_pos hc]
    exact mirrors_pure a
  · rw [if_neg hc, if_neg hc]
    exact hf

namespace Act

theorem mirrors_pure (a : α) : Act.Mirrors seen (pure a) (pure a) := fun _ => rfl

theorem mirrors_throw (e : Halt) :
    Act.Mirrors seen (throw e : Act V α) (throw e : Act W α) := fun _ => rfl

theorem Mirrors.bind {act' : Act V α} {act : Act W α} {g' : α → Act V β} {g : α → Act W β}
    (hact : Act.Mirrors seen act' act) (hg : ∀ a, Act.Mirrors seen (g' a) (g a)) :
    Act.Mirrors seen (act' >>= g') (act >>= g) := by
  intro v
  have hfirst := hact v
  cases hend : act' v with
  | ok a v' =>
    rw [hend] at hfirst
    rw [bind_of_ok hend, bind_of_ok hfirst]
    exact hg a v'
  | error e v' =>
    rw [hend] at hfirst
    rw [bind_of_error hend, bind_of_error hfirst]
    rfl

theorem Mirrors.guarded {c : Prop} [Decidable c] {act' : Act V α} {act : Act W α} (a : α)
    (hact : Act.Mirrors seen act' act) :
    Act.Mirrors seen (if c then pure a else act') (if c then pure a else act) := by
  by_cases hc : c
  · rw [if_pos hc, if_pos hc]
    exact mirrors_pure a
  · rw [if_neg hc, if_neg hc]
    exact hact

/-- The state that an act ends in is what is seen of the one that its mirror ends in. -/
theorem Mirrors.final {act' : Act V α} {act : Act W α} (h : Act.Mirrors seen act' act) (v : V) :
    Act.final act (seen v) = seen (Act.final act' v) := by
  rw [Act.final, Act.final, h v]
  cases act' v with
  | ok a v' => rfl
  | error e v' => rfl

end Act

theorem Mirrors.lift {f' : StateM V α} {f : StateM W α} (hf : Mirrors seen f' f) :
    Act.Mirrors seen (liftM f' : Act V α) (liftM f : Act W α) := by
  intro v
  show EStateM.Result.ok (f (seen v)).1 (f (seen v)).2 = _
  rw [hf v]
  rfl

theorem Mirrors.liftBind {f' : StateM V α} {f : StateM W α} {g' : α → Act V β} {g : α → Act W β}
    (hf : Mirrors seen f' f) (hg : ∀ a, Act.Mirrors seen (g' a) (g a)) :
    Act.Mirrors seen (liftM f' >>= g') (liftM f >>= g) :=
  Act.Mirrors.bind hf.lift hg

theorem Mirrors.resultBind {f' : StateM V (Except Error Unit)} {f : StateM W (Except Error Unit)}
    {g' : Except Error Unit → Act V β} {g : Except Error Unit → Act W β} (hf : Mirrors seen f' f)
    (hstop : ∀ e, Act.Mirrors seen (g' (.error e)) (g (.error e)))
    (hgo : Act.Mirrors seen (g' (.ok ())) (g (.ok ()))) :
    Act.Mirrors seen (liftM f' >>= g') (liftM f >>= g) := by
  refine hf.liftBind fun result => ?_
  cases result with
  | error e => exact hstop e
  | ok _ => exact hgo

end

/-! ## Benches -/

/-- The bench with its outside seen through `look`. -/
def Bench.through (look : τ → σ) (b : Bench τ) : Bench σ :=
  { buffers := b.buffers, log := b.log, outside := look b.outside }

def World.through (look : τ → σ) (w : World τ) : World σ :=
  { pins := w.pins, bench := w.bench.through look }

section
variable {look : τ → σ}

theorem mirrors_note (level : Level) (text : String) :
    Mirrors (Bench.through look) (logNote (W := Bench τ) level text)
      (logNote (W := Bench σ) level text) := fun _ => rfl

theorem mirrors_ring (id : BufferId) :
    Mirrors (Bench.through look) (Bench.ring id) (Bench.ring id) := fun _ => rfl

theorem mirrors_ringDo (id : BufferId) (f : RingBuffer → α × RingBuffer) :
    Mirrors (Bench.through look) (Bench.ringDo id f) (Bench.ringDo id f) := fun _ => rfl

theorem mirrors_addRing (ring : RingBuffer) :
    Mirrors (Bench.through look) (Bench.addRing ring) (Bench.addRing ring) := fun _ => rfl

end

/-! ## Drivers and platforms -/

structure Driver.Mirrors (look : τ → σ) (d' : Driver τ) (d : Driver σ) : Prop where
  configure : ∀ s, SerialLine.Mirrors (Bench.through look) (d'.configure s) (d.configure s)
  setBaudrate : ∀ rate,
    SerialLine.Mirrors (Bench.through look) (d'.setBaudrate rate) (d.setBaudrate rate)
  startReceiving : ∀ id,
    SerialLine.Mirrors (Bench.through look) (d'.startReceiving id) (d.startReceiving id)
  stopReceiving : SerialLine.Mirrors (Bench.through look) d'.stopReceiving d.stopReceiving
  resumeReceiving : SerialLine.Mirrors (Bench.through look) d'.resumeReceiving d.resumeReceiving
  receivedCount : SerialLine.Mirrors (Bench.through look) d'.receivedCount d.receivedCount
  takeWord : SerialLine.Mirrors (Bench.through look) d'.takeWord d.takeWord
  isReady : SerialLine.Mirrors (Bench.through look) d'.isReady d.isReady
  sendWord : ∀ word, SerialLine.Mirrors (Bench.through look) (d'.sendWord word) (d.sendWord word)
  isIdle : SerialLine.Mirrors (Bench.through look) d'.isIdle d.isIdle
  clearToSend : SerialLine.Mirrors (Bench.through look) d'.clearToSend d.clearToSend
  setDirection : ∀ high,
    SerialLine.Mirrors (Bench.through look) (d'.setDirection high) (d.setDirection high)
  disable : SerialLine.Mirrors (Bench.through look) d'.disable d.disable

structure Platform.Mirrors (look : τ → σ) (p' : Platform τ) (p : Platform σ) : Prop where
  ticks : SerialLine.Mirrors (Bench.through look) p'.ticks p.ticks
  background : SerialLine.Mirrors (Bench.through look) p'.background p.background
  isInterrupted : SerialLine.Mirrors (Bench.through look) p'.isInterrupted p.isInterrupted
  patience : p'.patience = p.patience

/-- A driver and a platform that do to what is seen of an outside what others do. -/
structure Mirror (look : τ → σ) (d' : Driver τ) (p' : Platform τ) (d : Driver σ) (p : Platform σ) :
    Prop where
  driver : d'.Mirrors look d
  platform : p'.Mirrors look p

namespace Mirror

variable {look : τ → σ} {d' : Driver τ} {p' : Platform τ} {d : Driver σ} {p : Platform σ}
variable (h : Mirror look d' p' d p) (u : Uart)
include h

/-! ## Waits -/

theorem begin (limit : Nat) :
    Mirrors (Bench.through look) (Deadline.begin p' limit) (Deadline.begin p limit) :=
  h.platform.ticks.bind fun _ => mirrors_pure _

theorem restart (deadline : Deadline) :
    Mirrors (Bench.through look) (deadline.restart p') (deadline.restart p) :=
  h.platform.ticks.bind fun _ => mirrors_pure _

theorem expired (deadline : Deadline) :
    Mirrors (Bench.through look) (deadline.expired p') (deadline.expired p) :=
  (h.platform.ticks.bind fun _ => mirrors_pure _).bind fun _ => mirrors_pure _

theorem waitRound : Mirrors (Bench.through look) p'.waitRound p.waitRound := by
  refine h.platform.background.bind fun _ => h.platform.isInterrupted.bind fun interrupted => ?_
  cases interrupted with
  | true => exact (mirrors_note _ _).bind fun _ => mirrors_pure _
  | false => exact mirrors_pure _

theorem workRound : Mirrors (Bench.through look) p'.workRound p.workRound :=
  h.platform.background.bind fun _ => mirrors_pure _

theorem canSend : Mirrors (Bench.through look) (Uart.canSend d') (Uart.canSend d) := by
  refine h.driver.isReady.bind fun ready => ?_
  cases ready with
  | true => exact h.driver.clearToSend
  | false => exact mirrors_pure _

theorem awaitIdle {round' : StateM (Bench τ) (Except Error Unit)}
    {round : StateM (Bench σ) (Except Error Unit)}
    (hround : Mirrors (Bench.through look) round' round) (deadline : Option Deadline)
    (patience : Nat) :
    Act.Mirrors (Bench.through look) (Uart.awaitIdle d' p' round' deadline patience)
      (Uart.awaitIdle d p round deadline patience) := by
  induction patience with
  | zero => exact Act.mirrors_throw _
  | succ patience ih =>
    rw [Uart.awaitIdle, Uart.awaitIdle]
    refine h.driver.isIdle.liftBind fun isIdle => ?_
    cases isIdle with
    | true => exact Act.mirrors_pure _
    | false =>
      cases deadline with
      | none =>
        simp only [Bool.false_eq_true, if_false, pure_bind]
        exact hround.resultBind (fun _ => Act.mirrors_pure _) ih
      | some deadline =>
        refine (h.expired deadline).liftBind fun isOver => ?_
        cases isOver with
        | true => exact Act.mirrors_pure _
        | false => exact hround.resultBind (fun _ => Act.mirrors_pure _) ih

theorem flush : Act.Mirrors (Bench.through look) (u.flush d' p') (u.flush d p) := by
  refine .guarded _ (.guarded _ ((h.begin _).liftBind fun deadline => ?_))
  rw [h.platform.patience]
  refine (h.awaitIdle h.waitRound _ _).bind fun result => ?_
  cases result with
  | error e => exact Act.mirrors_pure _
  | ok isDone =>
    cases isDone with
    | true => exact Act.mirrors_pure _
    | false => exact Act.mirrors_pure _

/-! ## Receiving -/

theorem takeFromPeripheral (width : CharWidth) (count : Nat) :
    Mirrors (Bench.through look) (Uart.takeFromPeripheral d' width count)
      (Uart.takeFromPeripheral d width count) := by
  induction count with
  | zero => exact mirrors_pure _
  | succ count ih =>
    refine h.driver.takeWord.bind fun word => ?_
    cases word with
    | none => exact mirrors_pure _
    | some word => exact ih.bind fun _ => mirrors_pure _

theorem takeWaiting (room : Nat) :
    Mirrors (Bench.through look) (u.takeWaiting d' room) (u.takeWaiting d room) := by
  unfold Uart.takeWaiting
  cases u.rxBuffer with
  | none => exact h.takeFromPeripheral _ _
  | some id =>
    refine (mirrors_ringDo id _).bind fun bytes => ?_
    cases bytes with
    | nil => exact mirrors_pure _
    | cons byte bytes => exact h.driver.resumeReceiving.bind fun _ => mirrors_pure _

theorem nextDeadline (deadline : Deadline) (bytes : List UInt8) :
    Mirrors (Bench.through look) (Uart.nextDeadline p' deadline bytes)
      (Uart.nextDeadline p deadline bytes) :=
  .guarded _ (h.restart deadline)

theorem finishRound {want patience : Nat} (got : List UInt8)
    (hrest : ∀ deadline, Act.Mirrors (Bench.through look)
      (u.receive d' p' want patience deadline got) (u.receive d p want patience deadline got))
    (deadline : Deadline) :
    Act.Mirrors (Bench.through look) (u.finishRound d' p' want patience deadline got)
      (u.finishRound d p want patience deadline got) := by
  refine .guarded _ ((h.expired deadline).liftBind fun isOver => ?_)
  cases isOver with
  | true => exact Act.mirrors_pure _
  | false => exact h.waitRound.resultBind (fun _ => Act.mirrors_pure _) (hrest deadline)

theorem receive (want patience : Nat) (deadline : Deadline) (got : List UInt8) :
    Act.Mirrors (Bench.through look) (u.receive d' p' want patience deadline got)
      (u.receive d p want patience deadline got) := by
  induction patience generalizing deadline got with
  | zero => exact Act.mirrors_throw _
  | succ patience ih =>
    intro b
    rw [Uart.receive_succ, Uart.receive_succ, h.takeWaiting u (want - got.length) b]
    dsimp only
    rw [h.nextDeadline deadline _ _]
    exact h.finishRound u _ (fun deadline => ih deadline _) _ _

theorem read (room : Nat) :
    Act.Mirrors (Bench.through look) (u.read d' p' room) (u.read d p room) := by
  refine .guarded _ (.guarded _ (.guarded _ (.guarded _ ((h.begin _).liftBind fun deadline => ?_))))
  rw [h.platform.patience]
  exact h.receive u _ _ _ _

theorem waiting : Mirrors (Bench.through look) (u.waiting d') (u.waiting d) := by
  unfold Uart.waiting
  cases u.rxBuffer with
  | some id => exact (mirrors_ring id).bind fun _ => mirrors_pure _
  | none =>
    cases u.receives with
    | true => exact h.driver.receivedCount
    | false => exact mirrors_pure _

theorem waitingCount : Mirrors (Bench.through look) (u.waitingCount d') (u.waitingCount d) :=
  .guarded _ ((h.waiting u).bind fun _ => mirrors_pure _)

theorem discardFromPeripheral (count : Nat) :
    Mirrors (Bench.through look) (Uart.discardFromPeripheral d' count)
      (Uart.discardFromPeripheral d count) := by
  induction count with
  | zero => exact mirrors_pure _
  | succ count ih =>
    refine h.driver.takeWord.bind fun word => ?_
    cases word with
    | none => exact mirrors_pure _
    | some word => exact ih

theorem discardInput : Mirrors (Bench.through look) (u.discardInput d') (u.discardInput d) := by
  refine .guarded _ ?_
  have hresume : Mirrors (Bench.through look)
      (d'.resumeReceiving >>= fun _ => pure (Except.ok () : Except Error Unit))
      (d.resumeReceiving >>= fun _ => pure (Except.ok () : Except Error Unit)) :=
    h.driver.resumeReceiving.bind fun _ => mirrors_pure _
  cases u.rxBuffer with
  | some id => exact (mirrors_ringDo id _).bind fun _ => hresume
  | none =>
    cases u.receives with
    | true =>
      exact h.driver.receivedCount.bind fun count =>
        (h.discardFromPeripheral count).bind fun _ => hresume
    | false => exact (mirrors_pure ()).bind fun _ => hresume

omit h in
theorem dropped : Mirrors (Bench.through look) (u.dropped (σ := τ)) (u.dropped (σ := σ)) := by
  unfold Uart.dropped
  cases u.rxBuffer with
  | some id => exact (mirrors_ring id).bind fun _ => mirrors_pure _
  | none => exact mirrors_pure _

omit h in
theorem droppedCount :
    Mirrors (Bench.through look) (u.droppedCount (σ := τ)) (u.droppedCount (σ := σ)) :=
  .guarded _ ((dropped u).bind fun _ => mirrors_pure _)

omit h in
theorem noteDropped (count : Nat) :
    Mirrors (Bench.through look) (Uart.noteDropped (σ := τ) count)
      (Uart.noteDropped (σ := σ) count) := by
  unfold Uart.noteDropped
  by_cases hpos : 0 < count
  · rw [if_pos hpos, if_pos hpos]
    exact mirrors_note _ _
  · rw [if_neg hpos, if_neg hpos]
    exact mirrors_pure ()

omit h in
theorem takeDropped :
    Mirrors (Bench.through look) (u.takeDropped (σ := τ)) (u.takeDropped (σ := σ)) := by
  refine .guarded _ ?_
  cases u.rxBuffer with
  | none => exact mirrors_pure _
  | some id =>
    exact (mirrors_ringDo id _).bind fun count => (noteDropped count).bind fun _ => mirrors_pure _

/-! ## Settings and control -/

theorem setBaudrate (rate : UInt32) :
    Mirrors (Bench.through look) (u.setBaudrate d' rate) (u.setBaudrate d rate) := by
  refine .guarded _ ?_
  cases Config.checkBaudrate rate with
  | error e => exact mirrors_pure _
  | ok _ =>
    refine (h.driver.setBaudrate rate).bind fun result => ?_
    cases result with
    | error e => exact mirrors_pure _
    | ok _ => exact (mirrors_note _ _).bind fun _ => mirrors_pure _

theorem poll (flags : PollFlags) :
    Mirrors (Bench.through look) (u.poll d' flags) (u.poll d flags) := by
  have hwritable (wanted : Bool) (answer : Bool → Except Error PollFlags) :
      Mirrors (Bench.through look)
        (if wanted then Uart.canSend d' >>= fun yes => pure (answer yes)
          else pure false >>= fun yes => pure (answer yes))
        (if wanted then Uart.canSend d >>= fun yes => pure (answer yes)
          else pure false >>= fun yes => pure (answer yes)) := by
    cases wanted with
    | true => exact h.canSend.bind fun _ => mirrors_pure _
    | false => exact (mirrors_pure _).bind fun _ => mirrors_pure _
  refine .guarded _ ?_
  dsimp only
  split
  · exact (h.waiting u).bind fun _ => hwritable _ _
  · exact (mirrors_pure _).bind fun _ => hwritable _ _

theorem control (request : ControlRequest) :
    Act.Mirrors (Bench.through look) (u.control d' p' request) (u.control d p request) := by
  refine .guarded _ ?_
  cases request with
  | poll flags => exact (h.poll u flags).liftBind fun _ => Act.mirrors_pure _
  | flush => exact (h.flush u).bind fun _ => Act.mirrors_pure _
  | other code => exact Act.mirrors_pure _

/-! ## Sending -/

theorem awaitReady (deadline : Deadline) (patience : Nat) :
    Act.Mirrors (Bench.through look) (Uart.awaitReady d' p' deadline patience)
      (Uart.awaitReady d p deadline patience) := by
  induction patience with
  | zero => exact Act.mirrors_throw _
  | succ patience ih =>
    rw [Uart.awaitReady, Uart.awaitReady]
    refine h.canSend.liftBind fun yes => ?_
    cases yes with
    | true => exact Act.mirrors_pure _
    | false =>
      refine (h.expired deadline).liftBind fun isOver => ?_
      cases isOver with
      | true => exact Act.mirrors_pure _
      | false => exact h.waitRound.resultBind (fun _ => Act.mirrors_pure _) ih

theorem sendWords (words : List UInt16) (deadline : Deadline) (written : Nat) :
    Act.Mirrors (Bench.through look) (u.sendWords d' p' words deadline written)
      (u.sendWords d p words deadline written) := by
  induction words generalizing deadline written with
  | nil => exact Act.mirrors_pure _
  | cons word words ih =>
    rw [Uart.sendWords, Uart.sendWords, h.platform.patience]
    refine (h.awaitReady deadline _).bind fun answer => ?_
    cases answer with
    | error e => exact Act.mirrors_pure _
    | ok isReady =>
      cases isReady with
      | false => exact (mirrors_note _ _).liftBind fun _ => Act.mirrors_pure _
      | true =>
        exact (h.driver.sendWord word).liftBind fun _ =>
          (h.restart deadline).liftBind fun _ => ih _ _

theorem face (high : Bool) :
    Mirrors (Bench.through look)
      (if u.hasDirection then d'.setDirection high else pure () : StateM (Bench τ) Unit)
      (if u.hasDirection then d.setDirection high else pure () : StateM (Bench σ) Unit) := by
  cases u.hasDirection with
  | true => exact h.driver.setDirection high
  | false => exact mirrors_pure ()

theorem write (data : List UInt8) :
    Act.Mirrors (Bench.through look) (u.write d' p' data) (u.write d p data) := by
  refine .guarded _ (.guarded _ (.guarded _ (.guarded _ ?_)))
  refine (h.face u _).liftBind fun _ => (h.begin _).liftBind fun deadline => ?_
  refine (h.sendWords u _ _ _).bind fun result => .guarded _ ?_
  rw [h.platform.patience]
  refine (h.awaitIdle h.waitRound _ _).bind fun drained => (h.face u _).liftBind fun _ => ?_
  split
  · exact Act.mirrors_pure _
  · exact Act.mirrors_pure _

/-! ## Shutting down -/

theorem drain : Act.Mirrors (Bench.through look) (u.drain d' p') (u.drain d p) := by
  unfold Uart.drain
  cases u.sends with
  | false => exact Act.mirrors_pure _
  | true =>
    refine (h.begin _).liftBind fun deadline => ?_
    rw [h.platform.patience]
    refine (h.awaitIdle h.workRound _ _).bind fun result => ?_
    split
    · exact Act.mirrors_pure _
    · exact (mirrors_note _ _).lift

theorem windDown : Act.Mirrors (Bench.through look) (u.windDown d' p') (u.windDown d p) := by
  refine h.driver.stopReceiving.liftBind fun _ => (h.drain u).bind fun _ => ?_
  refine (h.face u _).liftBind fun _ => h.driver.disable.liftBind fun _ => ?_
  exact (dropped u).liftBind fun count => (noteDropped count).lift

/-! ## Making a line -/

theorem program (c : Config) (ring : Option RingBuffer) :
    Mirrors (Bench.through look) (Uart.program d' c ring) (Uart.program d c ring) := by
  refine (h.driver.configure _).bind fun result => ?_
  cases result with
  | error e => exact (mirrors_note _ _).bind fun _ => mirrors_pure _
  | ok _ =>
    cases ring with
    | none => exact mirrors_pure _
    | some ring =>
      refine (mirrors_addRing ring).bind fun id => (h.driver.startReceiving id).bind fun result => ?_
      cases result with
      | error e =>
        exact (mirrors_note _ _).bind fun _ => h.driver.disable.bind fun _ => mirrors_pure _
      | ok _ => exact mirrors_pure _

end Mirror

/-! ## Worlds -/

section
variable {look : τ → σ}

theorem Mirrors.onWorld {f' : StateM (Bench τ) α} {f : StateM (Bench σ) α}
    (hf : Mirrors (Bench.through look) f' f) :
    Mirrors (World.through look) (World.benchDo f') (World.benchDo f) := by
  intro w
  show ((f (w.bench.through look)).1,
    ({ pins := w.pins, bench := (f (w.bench.through look)).2 } : World σ)) = _
  rw [hf w.bench]
  rfl

theorem Act.Mirrors.onWorld {act' : Act (Bench τ) α} {act : Act (Bench σ) α}
    (hact : Act.Mirrors (Bench.through look) act' act) :
    Act.Mirrors (World.through look) (World.benchAct act') (World.benchAct act) := by
  intro w
  have hend : act (w.through look).bench = Act.seeEnd (Bench.through look) (act' w.bench) :=
    hact w.bench
  simp only [World.benchAct, Act.onPart, hend]
  cases act' w.bench with
  | ok a b => rfl
  | error e b => rfl

theorem mirrors_claimAll (pins : List Pin) :
    Mirrors (World.through look) (World.claimAll pins) (World.claimAll pins) := by
  intro w
  have hpins : (w.through look).pins.claimAll pins = w.pins.claimAll pins := rfl
  simp only [World.claimAll, hpins]
  cases w.pins.claimAll pins with
  | ok reg => rfl
  | error e => rfl

theorem mirrors_releaseAll (pins : List Pin) :
    Mirrors (World.through look) (World.releaseAll pins) (World.releaseAll pins) := fun _ => rfl

theorem mirrors_worldNote (level : Level) (text : String) :
    Mirrors (World.through look) (logNote (W := World τ) level text)
      (logNote (W := World σ) level text) := fun _ => rfl

namespace Mirror

variable {d' : Driver τ} {p' : Platform τ} {d : Driver σ} {p : Platform σ}
variable (h : Mirror look d' p' d p) (u : Uart)
include h

theorem create (c : Config) :
    Mirrors (World.through look) (Uart.create d' c) (Uart.create d c) := by
  unfold Uart.create
  cases c.check with
  | error e => exact mirrors_pure _
  | ok _ =>
    cases Uart.bufferFor c with
    | error e => exact mirrors_pure _
    | ok ring =>
      refine (mirrors_claimAll _).bind fun result => ?_
      cases result with
      | error e => exact mirrors_pure _
      | ok _ =>
        refine (h.program c ring).onWorld.bind fun result => ?_
        cases result with
        | error e => exact (mirrors_releaseAll _).bind fun _ => mirrors_pure _
        | ok u =>
          exact (h.face u _).onWorld.bind fun _ => (mirrors_worldNote _ _).bind fun _ =>
            mirrors_pure _

theorem shutDown : Act.Mirrors (World.through look) (u.shutDown d' p') (u.shutDown d p) := by
  refine .guarded _ ((h.windDown u).onWorld.bind fun _ => ?_)
  exact (mirrors_releaseAll _).liftBind fun _ => (mirrors_worldNote _ _).liftBind fun _ =>
    Act.mirrors_pure _

/-- A call does to what is seen of the world what it does there, and answers the same. -/
theorem perform (call : Uart.Call) :
    Act.Mirrors (World.through look) (u.perform d' p' call) (u.perform d p call) := by
  cases call with
  | read room => exact (h.read u room).onWorld.bind fun _ => Act.mirrors_pure _
  | write data => exact (h.write u data).onWorld.bind fun _ => Act.mirrors_pure _
  | flush => exact (h.flush u).onWorld.bind fun _ => Act.mirrors_pure _
  | poll flags => exact (h.poll u flags).onWorld.liftBind fun _ => Act.mirrors_pure _
  | control request => exact (h.control u request).onWorld.bind fun _ => Act.mirrors_pure _
  | getBaudrate => exact Act.mirrors_pure _
  | setBaudrate rate => exact (h.setBaudrate u rate).onWorld.liftBind fun _ => Act.mirrors_pure _
  | getTimeout => exact Act.mirrors_pure _
  | setTimeout timeout => exact Act.mirrors_pure _
  | waitingCount => exact (h.waitingCount u).onWorld.liftBind fun _ => Act.mirrors_pure _
  | discardInput => exact (h.discardInput u).onWorld.liftBind fun _ => Act.mirrors_pure _
  | droppedCount => exact (droppedCount u).onWorld.liftBind fun _ => Act.mirrors_pure _
  | takeDropped => exact (takeDropped u).onWorld.liftBind fun _ => Act.mirrors_pure _
  | shutDown => exact (h.shutDown u).bind fun _ => Act.mirrors_pure _

end Mirror
end

/-! ## Recorded lines -/

theorem mirrors_recording (event : α → Event) (f : StateM (Bench σ) α) :
    Mirrors (Bench.through Recorded.inner) (recording event f) f := fun _ => rfl

/-- Writing down what a driver and a platform are asked changes nothing about it. -/
theorem mirror_recorded (d : Driver σ) (p : Platform σ) :
    Mirror Recorded.inner d.recorded p.recorded d p where
  driver :=
    { configure := fun _ => mirrors_recording _ _
      setBaudrate := fun _ => mirrors_recording _ _
      startReceiving := fun _ => mirrors_recording _ _
      stopReceiving := mirrors_recording _ _
      resumeReceiving := mirrors_recording _ _
      receivedCount := mirrors_recording _ _
      takeWord := mirrors_recording _ _
      isReady := mirrors_recording _ _
      sendWord := fun _ => mirrors_recording _ _
      isIdle := mirrors_recording _ _
      clearToSend := mirrors_recording _ _
      setDirection := fun _ => mirrors_recording _ _
      disable := mirrors_recording _ _ }
  platform :=
    { ticks := mirrors_recording _ _
      background := mirrors_recording _ _
      isInterrupted := mirrors_recording _ _
      patience := rfl }

end SerialLine
