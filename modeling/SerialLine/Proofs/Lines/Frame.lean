import SerialLine.Proofs.Lines.Ownership
import SerialLine.Proofs.Lines.Reading
/-! # What every call obeys

A relation between benches that the single steps of a call obey is obeyed by the call as a whole, also
by one that never ends.

* `Act.final`, `Act.answer?`: the state that an act ends in, and its answer if it comes to one.
* `Obeys`, `Act.Obeys`: the bench afterwards is related to the one before.
* `Rule`: a relation that the steps of the calls of a line obey. Taking characters, discarding them and
  taking the count of dropped ones are single steps here, so that a rule may say something about them
  that does not hold halfway.
* `Rule.read`, `Rule.write`, …: one lemma per call. `Rule.perform` is for any call but shutdown.
-/
set_option autoImplicit false

namespace SerialLine

variable {σ α β : Type}

/-! ## Ends of acts -/

namespace Act

variable {W : Type}

/-- The state that an act ends in, with an answer or without. -/
def final (act : Act W α) (w : W) : W :=
  match act w with
  | .ok _ w => w
  | .error _ w => w

/-- The answer of an act, unless it comes to a halt. -/
def answer? (act : Act W α) (w : W) : Option α :=
  match act w with
  | .ok a _ => some a
  | .error _ _ => none

theorem bind_of_ok {act : Act W α} {g : α → Act W β} {w w' : W} {a : α} (h : act w = .ok a w') :
    (act >>= g) w = g a w' := by
  show EStateM.bind act g w = _
  simp only [EStateM.bind, h]

theorem bind_of_error {act : Act W α} {g : α → Act W β} {w w' : W} {e : Halt}
    (h : act w = .error e w') : (act >>= g) w = .error e w' := by
  show EStateM.bind act g w = _
  simp only [EStateM.bind, h]

theorem ok_of_answer? {act : Act W α} {w : W} {a : α} (h : answer? act w = some a) :
    act w = .ok a (final act w) := by
  unfold answer? at h
  unfold final
  cases hend : act w with
  | ok a' w' =>
    rw [hend] at h
    rw [Option.some.inj h]
  | error e w' =>
    rw [hend] at h
    cases h

end Act

/-- A driver of a peripheral that is never ready to send and never receives. -/
def Driver.inert {σ : Type} : Driver σ where
  configure _ := pure (.ok ())
  setBaudrate _ := pure (.ok ())
  startReceiving _ := pure (.ok ())
  stopReceiving := pure ()
  receivedCount := pure 0
  takeWord := pure none
  isReady := pure false
  sendWord _ := pure ()
  isIdle := pure true
  disable := pure ()

/-! ## Obedience -/

/-- The bench after an operation is related to the one before. -/
def Obeys (R : Bench σ → Bench σ → Prop) (f : StateM (Bench σ) α) : Prop := ∀ b, R b (f b).2

/-- The bench in which an act ends is related to the one before. -/
def Act.Obeys (R : Bench σ → Bench σ → Prop) (act : Act (Bench σ) α) : Prop :=
  ∀ b, R b (Act.final act b)

theorem Act.Obeys.onBench {R : Bench σ → Bench σ → Prop} {act : Act (Bench σ) β}
    (hact : Act.Obeys R act) (answer : β → α) (u : Uart) (w : World σ) :
    R w.bench (Act.final (do return (answer (← World.benchAct act), u) :
      Act (World σ) (α × Uart)) w).bench := by
  have hend := hact w.bench
  simp only [Act.final, World.benchAct, Act.onPart, bind, EStateM.bind] at hend ⊢
  cases hresult : act w.bench with
  | ok a b =>
    rw [hresult] at hend
    exact hend
  | error e b =>
    rw [hresult] at hend
    exact hend

/-- A relation that holds between a bench and itself, across steps, and whatever is noted. -/
structure Onward (R : Bench σ → Bench σ → Prop) : Prop where
  refl : ∀ b, R b b
  trans : ∀ {b b' b''}, R b b' → R b' b'' → R b b''
  log : ∀ b log, R b { b with log := log }

namespace Onward

variable {R : Bench σ → Bench σ → Prop} (h : Onward R)
include h

theorem pure (a : α) : Obeys R (pure a : StateM (Bench σ) α) := h.refl

theorem bind {f : StateM (Bench σ) α} {g : α → StateM (Bench σ) β} (hf : Obeys R f)
    (hg : ∀ a, Obeys R (g a)) : Obeys R (f >>= g) :=
  fun b => h.trans (hf b) (hg (f b).1 (f b).2)

theorem note (level : Level) (text : String) :
    Obeys R (logNote (W := Bench σ) level text) := fun b => h.log b _

theorem ring (id : BufferId) : Obeys R (Bench.ring (σ := σ) id) := h.refl

/-- Answering early is always allowed. -/
theorem guarded {c : Prop} [Decidable c] {f : StateM (Bench σ) α} (a : α) (hf : Obeys R f) :
    Obeys R (if c then Pure.pure a else f) := by
  by_cases hc : c
  · rw [if_pos hc]
    exact h.pure a
  · rw [if_neg hc]
    exact hf

theorem actPure (a : α) : Act.Obeys R (Pure.pure a : Act (Bench σ) α) := h.refl

theorem actThrow (e : Halt) : Act.Obeys R (throw e : Act (Bench σ) α) := h.refl

theorem actBind {act : Act (Bench σ) α} {g : α → Act (Bench σ) β} (hact : Act.Obeys R act)
    (hg : ∀ a, Act.Obeys R (g a)) : Act.Obeys R (act >>= g) := by
  intro b
  have hfirst := hact b
  cases hend : act b with
  | error e b' =>
    rw [Act.final, hend] at hfirst
    rw [Act.final, Act.bind_of_error hend]
    exact hfirst
  | ok a b' =>
    rw [Act.final, hend] at hfirst
    rw [Act.final, Act.bind_of_ok hend]
    exact h.trans hfirst (hg a b')

theorem liftBind {f : StateM (Bench σ) α} {g : α → Act (Bench σ) β} (hf : Obeys R f)
    (hg : ∀ a, Act.Obeys R (g a)) : Act.Obeys R (liftM f >>= g) :=
  fun b => h.trans (hf b) (hg (f b).1 (f b).2)

theorem noteDropped (count : Nat) : Obeys R (Uart.noteDropped (σ := σ) count) := by
  unfold Uart.noteDropped
  by_cases hpos : 0 < count
  · rw [if_pos hpos]
    exact h.note _ _
  · rw [if_neg hpos]
    exact h.pure ()

theorem takeDropped {u : Uart}
    (hcount : ∀ id, u.rxBuffer = some id → Obeys R (Bench.ringDo id RingBuffer.takeDropped)) :
    Obeys R (u.takeDropped (σ := σ)) := by
  refine h.guarded _ ?_
  cases hbuffer : u.rxBuffer with
  | none => exact h.pure _
  | some id =>
    refine h.bind (hcount id hbuffer) fun count => ?_
    exact h.bind (h.noteDropped count) fun _ => h.pure _

theorem actGuarded {c : Prop} [Decidable c] {act : Act (Bench σ) α} (a : α)
    (hact : Act.Obeys R act) : Act.Obeys R (if c then Pure.pure a else act) := by
  by_cases hc : c
  · rw [if_pos hc]
    exact h.actPure a
  · rw [if_neg hc]
    exact hact

/-! Taking characters and discarding them, from what a driver does for that. -/

section
variable {u : Uart} {d : Driver σ} (hword : Obeys R d.takeWord)
include hword

theorem takeFromPeripheral (w : CharWidth) (n : Nat) :
    Obeys R (Uart.takeFromPeripheral d w n) := by
  induction n with
  | zero => exact h.pure _
  | succ n ih =>
    refine h.bind hword fun word => ?_
    cases word with
    | none => exact h.pure _
    | some word => exact h.bind ih fun _ => h.pure _

theorem discardFromPeripheral (n : Nat) : Obeys R (Uart.discardFromPeripheral d n) := by
  induction n with
  | zero => exact h.pure _
  | succ n ih =>
    refine h.bind hword fun word => ?_
    cases word with
    | none => exact h.pure _
    | some word => exact ih

variable (hresume : Obeys R d.resumeReceiving)
include hresume

theorem takeWaiting (hpop : ∀ id room, Obeys R (Bench.pop (σ := σ) id room)) (room : Nat) :
    Obeys R (u.takeWaiting d room) := by
  unfold Uart.takeWaiting
  cases u.rxBuffer with
  | none => exact h.takeFromPeripheral hword _ _
  | some id =>
    refine h.bind (hpop id room) fun bytes => ?_
    dsimp only
    split
    · exact h.bind hresume fun _ => h.pure _
    · exact h.pure _

theorem discardInput (hclear : ∀ id, Obeys R (Bench.ringDo (σ := σ) id fun r => ((), r.clear)))
    (hcount : Obeys R d.receivedCount) : Obeys R (u.discardInput d) := by
  have hend (answer : Except Error Unit) : Obeys R (do
      d.resumeReceiving
      return answer) := h.bind hresume fun _ => h.pure _
  refine h.guarded _ ?_
  cases u.rxBuffer with
  | some id => exact h.bind (hclear id) fun _ => hend _
  | none =>
    cases u.receives with
    | true =>
      refine h.bind hcount fun count => ?_
      exact h.bind (h.discardFromPeripheral hword count) fun _ => hend _
    | false => exact hend _

end

end Onward

namespace Uart

/-- A relation that the steps obey of which the calls of a line consist. -/
structure Rule (R : Bench σ → Bench σ → Prop) (u : Uart) (d : Driver σ) (p : Platform σ) : Prop
    extends Onward R where
  ticks : Obeys R p.ticks
  background : Obeys R p.background
  isInterrupted : Obeys R p.isInterrupted
  isReady : Obeys R d.isReady
  clearToSend : Obeys R d.clearToSend
  isIdle : Obeys R d.isIdle
  receivedCount : Obeys R d.receivedCount
  setBaudrate : ∀ rate, Obeys R (d.setBaudrate rate)
  take : ∀ room, Obeys R (u.takeWaiting d room)
  discard : Obeys R (u.discardInput d)
  takeDropped : Obeys R (u.takeDropped (σ := σ))

namespace Rule

variable {R : Bench σ → Bench σ → Prop} {u : Uart} {d : Driver σ} {p : Platform σ}
variable (h : u.Rule R d p)
include h

omit h in
/-- What follows from a rule is a rule, if it holds across steps. -/
theorem mono {R' : Bench σ → Bench σ → Prop} (h : u.Rule R d p) (hR' : Onward R')
    (himp : ∀ b b', R b b' → R' b b') : u.Rule R' d p where
  toOnward := hR'
  ticks b := himp _ _ (h.ticks b)
  background b := himp _ _ (h.background b)
  isInterrupted b := himp _ _ (h.isInterrupted b)
  isReady b := himp _ _ (h.isReady b)
  clearToSend b := himp _ _ (h.clearToSend b)
  isIdle b := himp _ _ (h.isIdle b)
  receivedCount b := himp _ _ (h.receivedCount b)
  setBaudrate rate b := himp _ _ (h.setBaudrate rate b)
  take room b := himp _ _ (h.take room b)
  discard b := himp _ _ (h.discard b)
  takeDropped b := himp _ _ (h.takeDropped b)

/-- A rule does not look at the rate and the timeout of the line. -/
theorem withSettings (rate : UInt32) (timeout : Binary32) :
    ({ u with baudrate := rate, timeout := timeout }).Rule R d p :=
  { h with take := h.take, discard := h.discard, takeDropped := h.takeDropped }

/-! ## Waits -/

theorem begin (limit : Nat) : Obeys R (Deadline.begin p limit) :=
  h.bind h.ticks fun _ => h.pure _

theorem restart (deadline : Deadline) : Obeys R (deadline.restart p) :=
  h.bind h.ticks fun _ => h.pure _

theorem expired (deadline : Deadline) : Obeys R (deadline.expired p) :=
  h.bind (h.bind h.ticks fun _ => h.pure _) fun _ => h.pure _

theorem waitRound : Obeys R p.waitRound := by
  refine h.bind h.background fun _ => h.bind h.isInterrupted fun interrupted => ?_
  cases interrupted with
  | true => exact h.bind (h.note _ _) fun _ => h.pure _
  | false => exact h.pure _

theorem workRound : Obeys R p.workRound := h.bind h.background fun _ => h.pure _

theorem roundBind {round : StateM (Bench σ) (Except Error Unit)} (hround : Obeys R round)
    {onward : Except Error Unit → Act (Bench σ) α}
    (hstop : ∀ e, Act.Obeys R (onward (.error e))) (hgo : Act.Obeys R (onward (.ok ()))) :
    Act.Obeys R (liftM round >>= onward) := by
  refine h.liftBind hround fun result => ?_
  cases result with
  | error e => exact hstop e
  | ok _ => exact hgo

theorem canSend : Obeys R (Uart.canSend d) := by
  refine h.bind h.isReady fun ready => ?_
  cases ready with
  | true => exact h.clearToSend
  | false => exact h.pure _

theorem awaitIdle {round : StateM (Bench σ) (Except Error Unit)} (hround : Obeys R round)
    (deadline : Option Deadline) (patience : Nat) :
    Act.Obeys R (Uart.awaitIdle d p round deadline patience) := by
  induction patience with
  | zero => exact h.actThrow _
  | succ patience ih =>
    rw [Uart.awaitIdle]
    refine h.liftBind h.isIdle fun isIdle => ?_
    cases isIdle with
    | true => exact h.actPure _
    | false =>
      cases deadline with
      | none =>
        simp only [Bool.false_eq_true, if_false, pure_bind]
        exact h.roundBind hround (fun _ => h.actPure _) ih
      | some deadline =>
        refine h.liftBind (h.expired deadline) fun isOver => ?_
        cases isOver with
        | true => exact h.actPure _
        | false => exact h.roundBind hround (fun _ => h.actPure _) ih

theorem flush : Act.Obeys R (u.flush d p) := by
  refine h.actGuarded _ (h.actGuarded _ (h.liftBind (h.begin _) fun deadline => ?_))
  refine h.actBind (h.awaitIdle h.waitRound _ _) fun result => ?_
  cases result with
  | error e => exact h.actPure _
  | ok isDone =>
    cases isDone with
    | true => exact h.actPure _
    | false => exact h.actPure _

/-! ## Reading -/

theorem finishRound {want patience : Nat} (got : List UInt8)
    (hrest : ∀ deadline, Act.Obeys R (u.receive d p want patience deadline got))
    (deadline : Deadline) : Act.Obeys R (u.finishRound d p want patience deadline got) := by
  refine h.actGuarded _ (h.liftBind (h.expired deadline) fun isOver => ?_)
  cases isOver with
  | true => exact h.actPure _
  | false => exact h.roundBind h.waitRound (fun _ => h.actPure _) (hrest deadline)

theorem nextDeadline (deadline : Deadline) (bytes : List UInt8) :
    Obeys R (Uart.nextDeadline p deadline bytes) :=
  h.guarded _ (h.restart deadline)

theorem receive (want patience : Nat) (deadline : Deadline) (got : List UInt8) :
    Act.Obeys R (u.receive d p want patience deadline got) := by
  induction patience generalizing deadline got with
  | zero => exact h.actThrow _
  | succ patience ih =>
    intro b
    have htake := h.take (want - got.length) b
    have hnext := h.nextDeadline deadline (u.takeWaiting d (want - got.length) b).1
      (u.takeWaiting d (want - got.length) b).2
    rw [Act.final, receive_succ]
    exact h.trans htake (h.trans hnext (h.finishRound _ (fun deadline => ih deadline _) _ _))

theorem read (room : Nat) : Act.Obeys R (u.read d p room) :=
  h.actGuarded _ (h.actGuarded _ (h.actGuarded _ (h.actGuarded _
    (h.liftBind (h.begin _) fun deadline => h.receive _ _ deadline _))))

theorem waiting : Obeys R (u.waiting d) := by
  unfold Uart.waiting
  cases u.rxBuffer with
  | some id => exact h.bind (h.ring id) fun _ => h.pure _
  | none =>
    cases u.receives with
    | true => exact h.receivedCount
    | false => exact h.pure _

theorem waitingCount : Obeys R (u.waitingCount d) :=
  h.guarded _ (h.bind h.waiting fun _ => h.pure _)

theorem droppedCount : Obeys R (u.droppedCount (σ := σ)) := by
  refine h.guarded _ (h.bind ?_ fun _ => h.pure _)
  unfold dropped
  cases u.rxBuffer with
  | some id => exact h.bind (h.ring id) fun _ => h.pure _
  | none => exact h.pure _

/-! ## Settings and control -/

theorem setRate (rate : UInt32) : Obeys R (u.setBaudrate d rate) := by
  refine h.guarded _ ?_
  cases Config.checkBaudrate rate with
  | error e => exact h.pure _
  | ok _ =>
    refine h.bind (h.setBaudrate rate) fun result => ?_
    cases result with
    | error e => exact h.pure _
    | ok _ => exact h.bind (h.note _ _) fun _ => h.pure _

theorem poll (flags : PollFlags) : Obeys R (u.poll d flags) := by
  have hwritable (wanted : Bool) (answer : Bool → Except Error PollFlags) :
      Obeys R (if wanted then Uart.canSend d >>= fun yes => pure (answer yes)
        else pure false >>= fun yes => pure (answer yes)) := by
    cases wanted with
    | true => exact h.bind h.canSend fun _ => h.pure _
    | false => exact h.bind (h.pure _) fun _ => h.pure _
  refine h.guarded _ ?_
  dsimp only
  split
  · exact h.bind h.waiting fun _ => hwritable _ _
  · exact h.bind (h.pure _) fun _ => hwritable _ _

theorem control (request : ControlRequest) : Act.Obeys R (u.control d p request) := by
  refine h.actGuarded _ ?_
  cases request with
  | poll flags => exact h.liftBind (h.poll flags) fun _ => h.actPure _
  | flush => exact h.actBind h.flush fun _ => h.actPure _
  | other code => exact h.actPure _

/-! ## Writing -/

section
variable (hsend : ∀ word, Obeys R (d.sendWord word)) (hturn : ∀ high, Obeys R (d.setDirection high))

theorem awaitReady (deadline : Deadline) (patience : Nat) :
    Act.Obeys R (Uart.awaitReady d p deadline patience) := by
  induction patience with
  | zero => exact h.actThrow _
  | succ patience ih =>
    rw [Uart.awaitReady]
    refine h.liftBind h.canSend fun yes => ?_
    cases yes with
    | true => exact h.actPure _
    | false =>
      refine h.liftBind (h.expired deadline) fun isOver => ?_
      cases isOver with
      | true => exact h.actPure _
      | false => exact h.roundBind h.waitRound (fun _ => h.actPure _) ih

include hsend in
theorem sendWords (words : List UInt16) (deadline : Deadline) (written : Nat) :
    Act.Obeys R (u.sendWords d p words deadline written) := by
  induction words generalizing deadline written with
  | nil => exact h.actPure _
  | cons word words ih =>
    rw [Uart.sendWords]
    refine h.actBind (h.awaitReady deadline _) fun answer => ?_
    cases answer with
    | error e => exact h.actPure _
    | ok isReady =>
      cases isReady with
      | false => exact h.liftBind (h.note _ _) fun _ => h.actPure _
      | true =>
        exact h.liftBind (hsend word) fun _ => h.liftBind (h.restart deadline) fun _ => ih _ _

include hturn in
theorem face (high : Bool) :
    Obeys R (if u.hasDirection then d.setDirection high else pure () : StateM (Bench σ) Unit) := by
  cases u.hasDirection with
  | true => exact hturn high
  | false => exact h.pure ()

include hsend hturn in
theorem write (data : List UInt8) : Act.Obeys R (u.write d p data) := by
  refine h.actGuarded _ (h.actGuarded _ (h.actGuarded _ (h.actGuarded _ ?_)))
  refine h.liftBind (h.face hturn _) fun _ => h.liftBind (h.begin _) fun deadline => ?_
  refine h.actBind (h.sendWords hsend _ _ _) fun result => h.actGuarded _ ?_
  refine h.actBind (h.awaitIdle h.waitRound _ _) fun drained => h.liftBind (h.face hturn _) fun _ => ?_
  split
  · exact h.actPure _
  · exact h.actPure _

end

/-! ## Shutting down -/

theorem drain : Act.Obeys R (u.drain d p) := by
  unfold Uart.drain
  cases u.sends with
  | false => exact h.actPure _
  | true =>
    refine h.liftBind (h.begin _) fun deadline => ?_
    refine h.actBind (h.awaitIdle h.workRound _ _) fun drained => ?_
    split
    · exact h.actPure _
    · exact h.liftBind (h.note _ _) fun _ => h.actPure _

/-! ## Any call -/

theorem perform {call : Call} (hcall : call ≠ .shutDown)
    (hwrite : ∀ data, call = .write data → Act.Obeys R (u.write d p data)) (w : World σ) :
    R w.bench (Act.final (u.perform d p call) w).bench := by
  cases call with
  | read room => exact (h.read room).onBench _ _ w
  | write data => exact (hwrite data rfl).onBench _ _ w
  | flush => exact h.flush.onBench _ _ w
  | poll flags => exact h.poll flags w.bench
  | control request => exact (h.control request).onBench _ _ w
  | getBaudrate => exact h.refl _
  | setBaudrate rate => exact h.setRate rate w.bench
  | getTimeout => exact h.refl _
  | setTimeout timeout => exact h.refl _
  | waitingCount => exact h.waitingCount w.bench
  | discardInput => exact h.discard w.bench
  | droppedCount => exact h.droppedCount w.bench
  | takeDropped => exact h.takeDropped w.bench
  | shutDown => exact absurd rfl hcall

end Rule

/-! ## The line after a call -/

variable {u u' : Uart} {d : Driver σ} {p : Platform σ}

/-- The same line, up to the settings that can be changed. -/
def SameLine (u u' : Uart) : Prop :=
  ∃ rate timeout, u' = { u with baudrate := rate, timeout := timeout }

theorem SameLine.refl (u : Uart) : SameLine u u := ⟨u.baudrate, u.timeout, rfl⟩

theorem SameLine.settled {result : Except Error Uart} {reply : Reply}
    (hok : ∀ u'', result = .ok u'' → SameLine u u'') (h : u.settled result = (reply, u')) :
    SameLine u u' := by
  cases result with
  | ok u'' =>
    cases h
    exact hok _ rfl
  | error e =>
    cases h
    exact .refl u

/-- A call on the bench is answered if its act is, and it leaves the line as it was. -/
theorem benchAct_ok {act : Act (Bench σ) α} {answer : α → Reply} {reply : Reply} {w w' : World σ}
    (h : (do return (answer (← World.benchAct act), u) : Act (World σ) (Reply × Uart)) w =
      .ok (reply, u') w') :
    ∃ a b, act w.bench = .ok a b ∧ reply = answer a ∧ u' = u ∧ w' = { w with bench := b } := by
  simp only [World.benchAct, Act.onPart, bind, EStateM.bind] at h
  cases hresult : act w.bench with
  | ok a b =>
    rw [hresult] at h
    cases h
    exact ⟨a, b, rfl, rfl, rfl, rfl⟩
  | error e b =>
    rw [hresult] at h
    cases h

theorem SameLine.of_benchAct {act : Act (Bench σ) α} {answer : α → Reply} {reply : Reply}
    {w w' : World σ} (h : (do return (answer (← World.benchAct act), u) :
      Act (World σ) (Reply × Uart)) w = .ok (reply, u') w') : SameLine u u' := by
  obtain ⟨-, -, -, -, rfl, -⟩ := benchAct_ok h
  exact .refl u'

theorem sameLine_perform {call : Call} {w w' : World σ} {reply : Reply} (hcall : call ≠ .shutDown)
    (h : u.perform d p call w = .ok (reply, u') w') : SameLine u u' := by
  cases call with
  | read room => exact .of_benchAct h
  | write data => exact .of_benchAct h
  | flush => exact .of_benchAct h
  | poll flags => cases h; exact .refl u
  | control request => exact .of_benchAct h
  | getBaudrate => cases h; exact .refl u
  | setBaudrate rate =>
    refine .settled (fun u'' hu => ?_) (EStateM.Result.ok.inj h).1
    exact ⟨rate, u.timeout, setBaudrate_ok (Prod.ext hu rfl : u.setBaudrate d rate w.bench = (_, _))⟩
  | getTimeout => cases h; exact .refl u
  | setTimeout timeout =>
    refine .settled (fun u'' hu => ?_) (EStateM.Result.ok.inj h).1
    exact ⟨u.baudrate, timeout, setTimeout_ok hu⟩
  | waitingCount => cases h; exact .refl u
  | discardInput => cases h; exact .refl u
  | droppedCount => cases h; exact .refl u
  | takeDropped => cases h; exact .refl u
  | shutDown => exact absurd rfl hcall

theorem shutDown_ok (hlive : u.isShut = false) {w w' : World σ} (h : u.shutDown d p w = .ok u' w') :
    u' = u.shut ∧ ∃ b, u.windDown d p w.bench = .ok () b ∧ w'.bench.outside = b.outside := by
  simp only [shutDown, hlive, Bool.false_eq_true, if_false, World.benchAct, Act.onPart, bind,
    EStateM.bind] at h
  cases hend : u.windDown d p w.bench with
  | ok a b =>
    rw [hend] at h
    cases h
    exact ⟨rfl, b, rfl, rfl⟩
  | error e b =>
    rw [hend] at h
    cases h

theorem perform_shutDown {w w' : World σ} {reply : Reply}
    (h : u.perform d p .shutDown w = .ok (reply, u') w') : u.shutDown d p w = .ok u' w' := by
  simp only [perform, bind, EStateM.bind] at h
  cases hend : u.shutDown d p w with
  | ok u'' w'' =>
    rw [hend] at h
    cases h
    rfl
  | error e w'' =>
    rw [hend] at h
    cases h

/-! ## Use of a line -/

/-- What can become of a line and of the world: calls that may be made are answered, and things happen
between them. -/
inductive Used (d : Driver σ) (p : Platform σ) (may : Call → Prop)
    (between : World σ → World σ → Prop) (u : Uart) (w : World σ) : Uart → World σ → Prop where
  | new : Used d p may between u w u w
  | between {u' : Uart} {w' w'' : World σ} (h : Used d p may between u w u' w')
      (hbetween : between w' w'') : Used d p may between u w u' w''
  | call {u' u'' : Uart} {w' w'' : World σ} {call : Call} {reply : Reply}
      (h : Used d p may between u w u' w') (hmay : may call)
      (hcall : u'.perform d p call w' = .ok (reply, u'') w'') : Used d p may between u w u'' w''

end Uart
end SerialLine
