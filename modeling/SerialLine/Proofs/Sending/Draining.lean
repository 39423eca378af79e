import Mathlib.Algebra.Order.Floor.Div
import SerialLine.Proofs.Sending.Interruption
/-! # Waiting for the transmitter

How long a shutdown and a flush wait for the transmitter, and what their ends tell.

* `DrainClock`: a clock that no look at the transmitter turns back.
* `frames_le_drainLimit`: the limit on the wait of a shutdown is enough for 64 characters, with ten
  milliseconds to spare, whatever the rate.
* `awaitIdle_ends`: the wait comes to an end, after as many rounds as the deadline has milliseconds left
  at most. That number is the measure of the induction.
* `windDown_ends`, `flush_ends`: so do the shutdown and the flush.
* `drains_in_time`: all that is promised of the two.
-/
set_option autoImplicit false

namespace SerialLine

variable {σ : Type} {d : Driver σ} {p : Platform σ}

/-- A clock that no look at the transmitter turns back. Nothing else is asked of the transmitter. -/
structure DrainClock (d : Driver σ) (p : Platform σ) extends Clock p where
  isIdle : ∀ b, now b.outside ≤ now (d.isIdle b).2.outside

namespace DrainClock

variable (C : DrainClock d p)

/-- A round of a wait takes time, and counts as one. -/
def Passes (round : StateM (Bench (Recorded σ)) (Except Error Unit)) : Prop :=
  ∀ b, C.time b + 1 ≤ C.time (round b).2 ∧ rounds (round b).2 = rounds b + 1

theorem passes_waitRound : C.Passes p.recorded.waitRound := fun b =>
  ⟨C.recorded.later_waitRound b, rounds_waitRound b⟩

theorem passes_workRound : C.Passes p.recorded.workRound := by
  intro b
  refine ⟨C.background b.unrecorded, ?_⟩
  exact rounds_of_events (Uart.recording_events (fun _ => .background) p.background (b := b) rfl)

/-- From a time on, every look finds the transmitter idle. -/
def IdleFrom (start : Nat) : Prop := ∀ b, start ≤ C.now b.outside → (d.isIdle b).1 = true

variable {C} in
theorem IdleFrom.mono {start later : Nat} (h : C.IdleFrom start) (hlater : start ≤ later) :
    C.IdleFrom later := fun b hb => h b (hlater.trans hb)

/-- A look at the transmitter, and then at the clock, takes less than the time to spare. -/
def Quick : Prop := ∀ b, (p.ticks (d.isIdle b).2).1 < C.now b.outside + Uart.drainSlack

end DrainClock

namespace Uart

variable {u : Uart}

/-! ## The limit on a shutdown -/

theorem frameBits_lt (u : Uart) : u.frameBits < 1024 := by
  have hbits := u.bits.toNat_lt
  have hstop := u.stop.toNat_lt
  have hparity : u.parity.bitCount ≤ 1 := by cases u.parity <;> decide
  unfold frameBits
  omega

theorem drainLimit_eq (hrate : 0 < u.baudrate.toNat) :
    u.drainLimit = (drainChars * u.frameBits * 1000) ⌈/⌉ u.baudrate.toNat + drainSlack := by
  rw [drainLimit, Nat.max_eq_left hrate, Nat.ceilDiv_eq_add_pred_div]

/-- So many milliseconds as 64 characters take, and ten more, are within the limit. -/
theorem frames_le_drainLimit (hrate : 0 < u.baudrate.toNat) {millis : Nat}
    (h : millis * u.baudrate.toNat ≤ drainChars * u.frameBits * 1000) :
    millis + drainSlack ≤ u.drainLimit := by
  rw [drainLimit_eq hrate]
  refine Nat.add_le_add_right ?_ _
  have hceil : drainChars * u.frameBits * 1000 ≤
      u.baudrate.toNat * ((drainChars * u.frameBits * 1000) ⌈/⌉ u.baudrate.toNat) :=
    (ceilDiv_le_iff_le_mul hrate).mp le_rfl
  rw [Nat.mul_comm] at h
  exact Nat.le_of_mul_le_mul_left (h.trans hceil) hrate

/-- What the limit on the wait of a shutdown is. -/
structure LimitSound (u : Uart) : Prop where
  eq : 0 < u.baudrate.toNat → u.drainLimit =
    (64 * (1 + u.bits.toNat + (if u.parity = .none then 0 else 1) + u.stop.toNat) * 1000) ⌈/⌉
      u.baudrate.toNat + 10
  /-- All numbers on the way to it fit in 64 bits. -/
  fits : u.frameBits < 2 ^ 64 ∧ drainChars * u.frameBits * 1000 < 2 ^ 64 ∧ u.drainLimit < 2 ^ 64

theorem limitSound (u : Uart) : LimitSound u where
  eq hrate := by
    have hparity : u.parity.bitCount = if u.parity = .none then 0 else 1 := by
      cases u.parity <;> rfl
    rw [drainLimit_eq hrate, frameBits, hparity]
    rfl
  fits := by
    have hframe := frameBits_lt u
    have hlimit : u.drainLimit ≤ drainChars * u.frameBits * 1000 + drainSlack := by
      unfold drainLimit
      refine Nat.add_le_add_right ?_ _
      have hrate : 0 < max u.baudrate.toNat 1 := lt_max_of_lt_right Nat.one_pos
      generalize max u.baudrate.toNat 1 = rate at hrate
      rw [Nat.div_le_iff_le_mul_add_pred hrate]
      generalize drainChars * u.frameBits * 1000 = bits
      have hmul : bits ≤ rate * bits := Nat.le_mul_of_pos_left bits hrate
      omega
    simp only [drainChars, drainSlack] at hlimit ⊢
    omega

/-! ## One wait -/

section
variable {round : StateM (Bench σ) (Except Error Unit)} {deadline : Deadline} {patience : Nat}
  {b b₁ b₂ b₃ : Bench σ}

theorem awaitIdle_of_idle (h : d.isIdle b = (true, b₁)) :
    awaitIdle d p round (some deadline) (patience + 1) b = .ok (.ok true) b₁ := by
  simp only [awaitIdle, bind, EStateM.bind, liftM, monadLift, MonadLift.monadLift, h]
  rfl

theorem awaitIdle_of_over (h : d.isIdle b = (false, b₁))
    (hover : deadline.expired p b₁ = (true, b₂)) :
    awaitIdle d p round (some deadline) (patience + 1) b = .ok (.ok false) b₂ := by
  simp only [awaitIdle, bind, EStateM.bind, liftM, monadLift, MonadLift.monadLift, h, hover,
    Bool.false_eq_true, if_false]
  rfl

theorem awaitIdle_of_stopped {e : Error} (h : d.isIdle b = (false, b₁))
    (hover : deadline.expired p b₁ = (false, b₂)) (hround : round b₂ = (.error e, b₃)) :
    awaitIdle d p round (some deadline) (patience + 1) b = .ok (.error e) b₃ := by
  simp only [awaitIdle, bind, EStateM.bind, liftM, monadLift, MonadLift.monadLift, h, hover, hround,
    Bool.false_eq_true, if_false]
  rfl

theorem awaitIdle_of_waited (h : d.isIdle b = (false, b₁))
    (hover : deadline.expired p b₁ = (false, b₂)) (hround : round b₂ = (.ok (), b₃)) :
    awaitIdle d p round (some deadline) (patience + 1) b =
      awaitIdle d p round (some deadline) patience b₃ := by
  simp only [awaitIdle, bind, EStateM.bind, liftM, monadLift, MonadLift.monadLift, h, hover, hround,
    Bool.false_eq_true, if_false]

end

/-- The last look found the transmitter busy, and after it the clock told that the deadline was over. -/
def BusyTillOver (d : Driver σ) (p : Platform σ) (deadline : Deadline) : Prop :=
  ∃ b : Bench σ, (d.isIdle b).1 = false ∧
    deadline.limit ≤ (p.ticks (d.isIdle b).2).1 - deadline.start

/-- By induction on the patience, which is more than the deadline has left: a round of the wait takes
from both. -/
theorem awaitIdle_ends (C : DrainClock d p)
    {round : StateM (Bench (Recorded σ)) (Except Error Unit)} (hround : C.Passes round)
    (deadline : Deadline) (patience : Nat) {b : Bench (Recorded σ)} (hstart : deadline.start ≤ C.time b)
    (hpatience : deadline.limit - (C.time b - deadline.start) < patience) :
    ∃ answer b', awaitIdle d.recorded p.recorded round (some deadline) patience b = .ok answer b' ∧
      rounds b' ≤ rounds b + (deadline.limit - (C.time b - deadline.start)) ∧
      (answer = .ok false → BusyTillOver d p deadline) := by
  induction patience generalizing b with
  | zero => exact absurd hpatience (Nat.not_lt_zero _)
  | succ patience ih =>
    have hlooked : C.time b ≤ C.time (d.recorded.isIdle b).2 := C.isIdle b.unrecorded
    have hrounds : rounds (d.recorded.isIdle b).2 = rounds b :=
      rounds_of_events (recording_events .isIdle d.isIdle rfl)
    have hplain : (d.isIdle b.unrecorded).1 = (d.recorded.isIdle b).1 ∧
        (d.isIdle b.unrecorded).2 = (d.recorded.isIdle b).2.unrecorded := ⟨rfl, rfl⟩
    rcases hidle : d.recorded.isIdle b with ⟨yes, b₁⟩
    simp only [hidle] at hlooked hrounds hplain
    cases yes with
    | true => exact ⟨_, b₁, awaitIdle_of_idle hidle, by omega, by simp⟩
    | false =>
      have hclock : C.time b₁ ≤ _ ∧ _ ≤ C.time _ := C.recorded.ticks b₁
      have hrounds₂ := rounds_ticks (p := p) b₁
      have hexpired := expired_eq (p := p.recorded) deadline b₁
      have hread : (p.ticks b₁.unrecorded).1 = (p.recorded.ticks b₁).1 := rfl
      rcases hnow : p.recorded.ticks b₁ with ⟨now, b₂⟩
      simp only [hnow] at hclock hrounds₂ hexpired hread
      by_cases hover : deadline.limit ≤ now - deadline.start
      · rw [decide_eq_true hover] at hexpired
        refine ⟨_, b₂, awaitIdle_of_over hidle hexpired, by omega, fun _ => ⟨b.unrecorded, hplain.1, ?_⟩⟩
        rw [hplain.2, hread]
        exact hover
      · rw [decide_eq_false hover] at hexpired
        obtain ⟨hpassed, hrounds₃⟩ := hround b₂
        rcases hwait : round b₂ with ⟨result, b₃⟩
        simp only [hwait] at hpassed hrounds₃
        cases result with
        | error e => exact ⟨_, b₃, awaitIdle_of_stopped hidle hexpired hwait, by omega, by simp⟩
        | ok _ =>
          obtain ⟨answer, b', hend, hrounds', hgiven⟩ := ih (b := b₃) (by omega) (by omega)
          rw [awaitIdle_of_waited hidle hexpired hwait]
          exact ⟨answer, b', hend, by omega, hgiven⟩

section
variable {deadline : Option Deadline} {limit : Deadline} {heeds : Bool} {es : List Event}
  {answer : Option (Except Error Bool)}

theorem Drains.idle_suffix (h : Drains deadline heeds es answer)
    (hanswer : answer = some (.ok true)) : [.isIdle true] <:+ es := by
  induction h with
  | unfinished => cases hanswer
  | idle => exact List.suffix_rfl
  | expired => cases hanswer
  | canceled => cases hanswer
  | again hlook hrest ih =>
    exact ((ih hanswer).trans (List.suffix_append _ _)).trans (List.suffix_append _ _)

theorem Drains.over_suffix (h : Drains (some limit) heeds es answer)
    (hanswer : answer = some (.ok false)) :
    ∃ now, [.isIdle false, .ticks now] <:+ es ∧ limit.limit ≤ now - limit.start := by
  induction h with
  | unfinished => cases hanswer
  | idle => cases hanswer
  | @expired limit' now hlimit hover =>
    cases hlimit
    exact ⟨now, List.suffix_rfl, hover⟩
  | canceled => cases hanswer
  | again hlook hrest ih =>
    obtain ⟨now, hsuffix, hover⟩ := ih hanswer
    exact ⟨now, (hsuffix.trans (List.suffix_append _ _)).trans (List.suffix_append _ _), hover⟩

theorem Drains.canceled_of_error {e : Error} (h : Drains deadline heeds es answer)
    (hanswer : answer = some (.error e)) : e = .canceled ∧ heeds = true := by
  induction h with
  | unfinished => cases hanswer
  | idle => cases hanswer
  | expired => cases hanswer
  | canceled hlook hheeds =>
    cases hanswer
    exact ⟨rfl, hheeds⟩
  | again hlook hrest ih => exact ih hanswer

theorem Busy.unasked {look : List Event} (h : Busy deadline look) (seen : Bool) :
    Event.isInterrupted seen ∉ look := by
  cases h <;> simp

/-- A wait that does not heed the console interrupt does not look for it. -/
theorem Drains.unasked (h : Drains deadline heeds es answer) (hheeds : heeds = false) (seen : Bool) :
    Event.isInterrupted seen ∉ es := by
  induction h with
  | unfinished => simp
  | idle => simp
  | expired => simp
  | canceled hlook hyes =>
    rw [hheeds] at hyes
    cases hyes
  | again hlook hrest ih =>
    have hround : Event.isInterrupted seen ∉ roundEvents heeds := by simp [roundEvents, hheeds]
    simp only [List.mem_append, not_or]
    exact ⟨hlook.unasked seen, hround, ih⟩

end

/-- What is known of a wait with a limit: of its events, after the look at the clock with which it began,
and of its answer. -/
structure Waited (d : Driver σ) (p : Platform σ) (limit : Nat) (heeds : Bool) (start : Nat)
    (waits : List Event) (answer : Except Error Bool) : Prop where
  drains : Drains (some ⟨start, limit⟩) heeds waits (some answer)
  rounds : waits.count .background ≤ limit
  busy : answer = .ok false → BusyTillOver d p ⟨start, limit⟩

/-- A deadline that begins now, and the wait until it is over. -/
theorem waited_awaitIdle (C : DrainClock d p) {limit : Nat} {heeds : Bool}
    {round : StateM (Bench (Recorded σ)) (Except Error Unit)} (hround : Emits (Rounds heeds) round)
    (hpasses : C.Passes round) (hpatience : limit < p.patience) (b : Bench (Recorded σ)) :
    ∃ start b₁ waits answer b₂,
      (liftM (Deadline.begin p.recorded limit) : Act (Bench (Recorded σ)) Deadline) b =
        .ok ⟨start, limit⟩ b₁ ∧
      awaitIdle d.recorded p.recorded round (some ⟨start, limit⟩) p.recorded.patience b₁ =
        .ok answer b₂ ∧
      b₂.outside.events = b.outside.events ++ .ticks start :: waits ∧
      Waited d p limit heeds start waits answer := by
  have hstart : _ ≤ C.time _ := (C.recorded.ticks b).2
  have hevents : (p.recorded.ticks b).2.outside.events =
      b.outside.events ++ [.ticks (p.recorded.ticks b).1] :=
    recording_events .ticks p.ticks rfl
  obtain ⟨answer, b₂, hwait, hrounds, hbusy⟩ :=
    awaitIdle_ends C hpasses ⟨(p.recorded.ticks b).1, limit⟩ p.recorded.patience hstart
      ((Nat.sub_le _ _).trans_lt hpatience)
  obtain ⟨waits, hwaits, hdrains⟩ := shows_awaitIdle (d := d) (p := p) hround
    (some ⟨(p.recorded.ticks b).1, limit⟩) p.recorded.patience (p.recorded.ticks b).2
  rw [Act.final, hwait] at hwaits
  rw [Act.answer?, hwait] at hdrains
  rw [rounds_of_events hwaits] at hrounds
  refine ⟨_, _, waits, answer, b₂, rfl, hwait, ?_, hdrains, ?_, hbusy⟩
  · rw [hwaits, hevents, List.append_assoc]
    rfl
  · exact (Nat.le_of_add_le_add_left hrounds).trans (Nat.sub_le _ _)

section
variable {limit start : Nat} {heeds : Bool} {waits : List Event} {answer : Except Error Bool}

theorem Waited.over (h : Waited d p limit heeds start waits answer) (hanswer : answer = .ok false) :
    ∃ now, [.isIdle false, .ticks now] <:+ waits ∧ limit ≤ now - start :=
  h.drains.over_suffix (congrArg some hanswer)

theorem Waited.idle (h : Waited d p limit heeds start waits answer) (hanswer : answer = .ok true) :
    [.isIdle true] <:+ waits := h.drains.idle_suffix (congrArg some hanswer)

/-- A wait that does not heed the console interrupt ends in one of two ways. -/
theorem Waited.answered (h : Waited d p limit false start waits answer) :
    ∃ isIdle, answer = .ok isIdle := by
  cases answer with
  | ok isIdle => exact ⟨isIdle, rfl⟩
  | error e => cases (h.drains.canceled_of_error rfl).2

end

/-! ## A shutdown -/

/-- What is promised of the wait in a shutdown. -/
structure Drained (C : DrainClock d p) (u : Uart) (es : List Event) : Prop where
  rounds : es.count .background ≤ u.drainLimit
  /-- The console interrupt is not looked for. -/
  unasked : ∀ seen, Event.isInterrupted seen ∉ es
  mute : u.sends = false → es = []
  /-- The wait ends when the transmitter is idle. It is given up only when the whole limit has passed
  since it began. If the transmitter needs the time of 64 characters at most, it is idle by then; and it
  is seen to be idle, if to look takes no longer than there is to spare. -/
  ends : u.sends = true → ∃ start waits, es = .ticks start :: waits ∧
    ([.isIdle true] <:+ waits ∨
      ∃ now, [.isIdle false, .ticks now] <:+ waits ∧ u.drainLimit ≤ now - start) ∧
    ∀ millis, 0 < u.baudrate.toNat → millis * u.baudrate.toNat ≤ 64 * u.frameBits * 1000 →
      C.IdleFrom (start + millis) →
        ([.isIdle true] <:+ waits ∨
          ∃ now, [.isIdle false, .ticks now] <:+ waits ∧ C.IdleFrom now) ∧
        (C.Quick → [.isIdle true] <:+ waits)

/-- A transmitter that was not idle for all the limit needs longer than 64 characters take. -/
theorem BusyTillOver.needs_more {C : DrainClock d p} {start millis : Nat}
    (h : BusyTillOver d p ⟨start, u.drainLimit⟩) (hrate : 0 < u.baudrate.toNat)
    (hmillis : millis * u.baudrate.toNat ≤ 64 * u.frameBits * 1000) (hquick : C.Quick) :
    ¬ C.IdleFrom (start + millis) := by
  obtain ⟨b, hbusy, hover⟩ := h
  intro hidle
  have hlimit : millis + drainSlack ≤ u.drainLimit := frames_le_drainLimit hrate hmillis
  have hsoon := hquick b
  have hlate : start + millis ≤ C.now b.outside := by
    simp only [drainSlack] at hlimit hsoon
    simp only at hover
    omega
  rw [hidle b hlate] at hbusy
  cases hbusy

theorem drain_ends (C : DrainClock d p) (hpatience : u.drainLimit < p.patience)
    (b : Bench (Recorded σ)) :
    ∃ b' es, u.drain d.recorded p.recorded b = .ok () b' ∧
      b'.outside.events = b.outside.events ++ es ∧ Drained C u es := by
  cases hsends : u.sends with
  | false =>
    refine ⟨b, [], ?_, (List.append_nil _).symm, ⟨Nat.zero_le _, by simp, fun _ => rfl, by simp [hsends]⟩⟩
    rw [drain, hsends]
    rfl
  | true =>
    obtain ⟨start, b₁, waits, answer, b₂, hbegin, hwait, hevents, hwaited⟩ :=
      waited_awaitIdle C emits_workRound C.passes_workRound hpatience b
    obtain ⟨b₃, hdrain, houtside⟩ : ∃ b₃, u.drain d.recorded p.recorded b = .ok () b₃ ∧
        b₃.outside = b₂.outside := by
      rw [drain, hsends, if_pos rfl, Act.bind_of_ok hbegin, Act.bind_of_ok hwait]
      split
      · exact ⟨b₂, rfl, rfl⟩
      · exact ⟨_, rfl, rfl⟩
    rw [← houtside] at hevents
    refine ⟨b₃, _, hdrain, hevents, ?_, ?_, by simp [hsends], fun _ => ⟨start, waits, rfl, ?_, ?_⟩⟩
    · rw [List.count_cons_of_ne (by simp)]
      exact hwaited.rounds
    · simpa using hwaited.drains.unasked rfl
    · obtain ⟨isIdle, hanswer⟩ := hwaited.answered
      cases isIdle with
      | true => exact .inl (hwaited.idle hanswer)
      | false => exact .inr (hwaited.over hanswer)
    · intro millis hrate hmillis hidle
      obtain ⟨isIdle, hanswer⟩ := hwaited.answered
      cases isIdle with
      | true => exact ⟨.inl (hwaited.idle hanswer), fun _ => hwaited.idle hanswer⟩
      | false =>
        obtain ⟨now, hgiven, hover⟩ := hwaited.over hanswer
        have hlimit : millis + drainSlack ≤ u.drainLimit := frames_le_drainLimit hrate hmillis
        have hlate : start + millis ≤ now := by
          simp only [drainSlack] at hlimit
          omega
        refine ⟨.inr ⟨now, hgiven, hidle.mono hlate⟩, fun hquick => ?_⟩
        exact absurd hidle ((hwaited.busy hanswer).needs_more hrate hmillis hquick)

/-- What a shutdown does after the wait. -/
def close (u : Uart) (d : Driver σ) : StateM (Bench σ) Unit := do
  u.faceReceiving d
  d.disable
  noteDropped (← u.dropped)

theorem emits_close : Emits (fun es _ => es = u.backEvents ++ [.disable]) (u.close d.recorded) := by
  refine emits_faceReceiving.andThen ?_
  rintro - - rfl
  refine (emits_recording (fun _ => .disable) d.disable).andThen ?_
  rintro - - rfl
  refine emits_dropped.andThen ?_
  rintro - count rfl
  refine (emits_noteDropped count).mono ?_
  rintro - - rfl
  rfl

theorem windDown_of_drained {b b₁ : Bench σ}
    (h : u.drain d p (d.stopReceiving b).2 = .ok () b₁) :
    u.windDown d p b = .ok () (u.close d b₁).2 :=
  Act.bind_of_ok (g := fun _ => (liftM (u.close d) : Act (Bench σ) Unit)) h

theorem windDown_of_undrained {b b₁ : Bench σ} {e : Halt}
    (h : u.drain d p (d.stopReceiving b).2 = .error e b₁) : u.windDown d p b = .error e b₁ :=
  Act.bind_of_error (g := fun _ => (liftM (u.close d) : Act (Bench σ) Unit)) h

theorem Rule.close {R : Bench σ → Bench σ → Prop} (h : u.Rule R d p)
    (hturn : ∀ high, Obeys R (d.setDirection high)) (hdisable : Obeys R d.disable) :
    Obeys R (u.close d) := by
  refine h.bind (h.face hturn _) fun _ => h.bind hdisable fun _ => h.bind ?_ h.noteDropped
  unfold dropped
  cases u.rxBuffer with
  | none => exact h.pure _
  | some id => exact h.bind (h.ring id) fun _ => h.pure _

/-- What a shutdown obeys after its first step. -/
theorem Rule.windDown {R : Bench σ → Bench σ → Prop} (h : u.Rule R d p)
    (hturn : ∀ high, Obeys R (d.setDirection high)) (hdisable : Obeys R d.disable) (b : Bench σ) :
    R (d.stopReceiving b).2 (Act.final (u.windDown d p) b) := by
  have hdrain := h.drain (d.stopReceiving b).2
  cases hend : u.drain d p (d.stopReceiving b).2 with
  | error e b₁ =>
    rw [Act.final, hend] at hdrain
    rw [Act.final, windDown_of_undrained hend]
    exact hdrain
  | ok _ b₁ =>
    rw [Act.final, hend] at hdrain
    rw [Act.final, windDown_of_drained hend]
    exact h.trans hdrain (h.close hturn hdisable b₁)

theorem windDown_ends (C : DrainClock d p) (hpatience : u.drainLimit < p.patience)
    (b : Bench (Recorded σ)) :
    ∃ b' es, u.windDown d.recorded p.recorded b = .ok () b' ∧ b'.outside.events =
      b.outside.events ++ .stopReceiving :: (es ++ (u.backEvents ++ [.disable])) ∧ Drained C u es := by
  have hstop : (d.recorded.stopReceiving b).2.outside.events = b.outside.events ++ [.stopReceiving] :=
    recording_events (fun _ => .stopReceiving) d.stopReceiving rfl
  obtain ⟨b₁, es, hdrain, hes, hdrained⟩ := drain_ends C hpatience (d.recorded.stopReceiving b).2
  obtain ⟨_, hclose, rfl⟩ := emits_close (u := u) (d := d) b₁
  refine ⟨_, es, windDown_of_drained hdrain, ?_, hdrained⟩
  rw [hclose, hes, hstop]
  simp

/-- What is promised of a shutdown: of the line and the world after it. -/
structure ShutsInTime (C : DrainClock d p) (u u' : Uart) (w w' : World (Recorded σ)) : Prop where
  isShut : u'.isShut = true
  freed : u'.rxBuffer = none
  held : u'.pins = []
  released : ∀ pin, w'.pins.isClaimed pin = true ↔
    w.pins.isClaimed pin = true ∧ pin.number.toNat ∉ Pin.numbers u.pins
  /-- Reception stops, then comes the wait, then the line is turned around and the peripheral disabled. -/
  events : ∃ es, w'.bench.outside.events =
    w.bench.outside.events ++ .stopReceiving :: (es ++ (u.backEvents ++ [.disable])) ∧ Drained C u es

theorem shutDown_of_wound {w : World σ} {b : Bench σ} (hlive : u.isShut = false)
    (h : u.windDown d p w.bench = .ok () b) : ∃ w', u.shutDown d p w = .ok u.shut w' ∧
      w'.pins = w.pins.releaseAll u.pins ∧ w'.bench.outside = b.outside := by
  simp only [shutDown, hlive, Bool.false_eq_true, if_false, World.benchAct, Act.onPart, bind,
    EStateM.bind, h]
  exact ⟨_, rfl, rfl, rfl⟩

theorem shutDown_ends (C : DrainClock d p) (hlive : u.isShut = false)
    (hpatience : u.drainLimit < p.patience) (w : World (Recorded σ)) :
    ∃ u' w', u.shutDown d.recorded p.recorded w = .ok u' w' ∧ ShutsInTime C u u' w w' := by
  obtain ⟨b, es, hwind, hes, hdrained⟩ := windDown_ends C hpatience w.bench
  obtain ⟨w', hshut, hpins, houtside⟩ := shutDown_of_wound hlive hwind
  refine ⟨u.shut, w', hshut, rfl, rfl, rfl, fun pin => ?_, es, ?_, hdrained⟩
  · rw [hpins]
    exact PinRegistry.isClaimed_releaseAll _ _ _
  · rw [houtside]
    exact hes

/-- Whatever the platform would say about the console interrupt, it is not asked. -/
theorem awaitIdle_unheeding (look : StateM (Bench σ) Bool) (deadline : Option Deadline)
    (patience : Nat) : awaitIdle d { p with isInterrupted := look }
      ({ p with isInterrupted := look } : Platform σ).workRound deadline patience =
        awaitIdle d p p.workRound deadline patience := by
  induction patience with
  | zero => rfl
  | succ patience ih =>
    rw [awaitIdle, awaitIdle, ih]
    rfl

theorem shutDown_unheeding (u : Uart) (d : Driver σ) (p : Platform σ)
    (look : StateM (Bench σ) Bool) :
    u.shutDown d { p with isInterrupted := look } = u.shutDown d p := by
  have hdrain : u.drain d { p with isInterrupted := look } = u.drain d p := by
    unfold drain
    simp only [awaitIdle_unheeding]
    rfl
  unfold shutDown windDown
  rw [hdrain]

/-! ## A flush -/

/-- What is promised of a flush: of its answer and of the events that it adds. -/
def FlushesInTime (u : Uart) (answer : Except Error Unit) (es : List Event) : Prop :=
  ∃ start waits, es = .ticks start :: waits ∧ waits.count .background ≤ u.patienceMillis ∧
    (answer = .ok () → [.isIdle true] <:+ waits) ∧
    (answer = .error .shouldWait →
      ∃ now, [.isIdle false, .ticks now] <:+ waits ∧ u.patienceMillis ≤ now - start)

theorem flush_ends (C : DrainClock d p) (hlive : u.isShut = false) (hsends : u.sends = true)
    (hpatience : u.patienceMillis < p.patience) (b : Bench (Recorded σ)) :
    ∃ answer b' es, u.flush d.recorded p.recorded b = .ok answer b' ∧
      b'.outside.events = b.outside.events ++ es ∧ FlushesInTime u answer es := by
  obtain ⟨start, b₁, waits, answer, b₂, hbegin, hwait, hevents, hwaited⟩ :=
    waited_awaitIdle C emits_waitRound C.passes_waitRound hpatience b
  rw [flush, hlive, hsends, if_neg (by simp), if_neg (by simp), Act.bind_of_ok hbegin,
    Act.bind_of_ok hwait]
  cases answer with
  | error e =>
    obtain rfl := (hwaited.drains.canceled_of_error rfl).1
    exact ⟨_, b₂, _, rfl, hevents, start, waits, rfl, hwaited.rounds, nofun, nofun⟩
  | ok isIdle =>
    cases isIdle with
    | true =>
      exact ⟨_, b₂, _, rfl, hevents, start, waits, rfl, hwaited.rounds, fun _ => hwaited.idle rfl, nofun⟩
    | false =>
      exact ⟨_, b₂, _, rfl, hevents, start, waits, rfl, hwaited.rounds, nofun, fun _ => hwaited.over rfl⟩

/-! ## Both -/

/-- On a platform whose clock moves on, whatever driver and line: a shutdown ends within its limit, not
earlier for the console interrupt, and leaves the line shut, its buffer and pins given up and the
peripheral disabled; a flush ends within the timeout and tells whether the transmitter was idle. -/
theorem drains_in_time (C : DrainClock d p) (hlive : u.isShut = false)
    (hdrain : u.drainLimit < p.patience) (hflush : u.patienceMillis < p.patience)
    (w : World (Recorded σ)) :
    LimitSound u ∧
      (∃ u' w', u.shutDown d.recorded p.recorded w = .ok u' w' ∧ ShutsInTime C u u' w w') ∧
      (∀ look, u.shutDown d { p with isInterrupted := look } = u.shutDown d p) ∧
      (u.sends = true → ∃ answer b' es, u.flush d.recorded p.recorded w.bench = .ok answer b' ∧
        b'.outside.events = w.bench.outside.events ++ es ∧ FlushesInTime u answer es) :=
  ⟨limitSound u, shutDown_ends C hlive hdrain w, shutDown_unheeding u d p,
    fun hsends => flush_ends C hlive hsends hflush w.bench⟩

/-- A peripheral that sends until six milliseconds have passed. -/
def busySending : Driver Nat :=
  { Driver.inert with isIdle := fun b => (decide (6 ≤ b.outside), b) }

def busyClock : DrainClock busySending steady where
  toClock := steadyClock
  isIdle b := Nat.le_refl b.outside

theorem idleFrom_busyClock : busyClock.IdleFrom 6 := fun _ h => decide_eq_true h

/-- The events of a wait that finds the transmitter busy at so many milliseconds, one after the other. -/
def busyRounds (heeds : Bool) (times : List Nat) : List Event :=
  times.flatMap fun now => [.isIdle false, .ticks now, .background] ++
    if heeds then [.isInterrupted false] else []

/-- At 9600 baud a shutdown waits 77 milliseconds at most. It waits for the transmitter, which is idle
after six. A flush with a timeout of four gives up before. -/
theorem drains_in_time_busy :
    let line : Uart := { briefLine with baudrate := 9600, bits := 8, stop := 1 }
    let w : World (Recorded Nat) := { pins := PinRegistry.create 0, bench := { outside := ⟨0, []⟩ } }
    line.drainLimit = 77 ∧ busyClock.IdleFrom 6 ∧
      (∃ u' w', line.shutDown busySending.recorded steady.recorded w = .ok u' w' ∧
        w'.bench.outside.events = .stopReceiving :: .ticks 0 ::
          (busyRounds false [0, 1, 2, 3, 4, 5] ++ [.isIdle true, .disable]) ∧
        ShutsInTime busyClock line u' w w') ∧
      ∃ b' es, line.flush busySending.recorded steady.recorded w.bench =
          .ok (.error .shouldWait) b' ∧
        b'.outside.events = es ∧
        es = .ticks 0 :: (busyRounds true [0, 1, 2, 3] ++ [.isIdle false, .ticks 4]) ∧
        FlushesInTime line (.error .shouldWait) es := by
  intro line w
  have hlimit : line.drainLimit = 77 := by decide
  have hmillis : line.patienceMillis = 4 := patienceMillis_briefLine
  have hshown : (Act.final (line.shutDown busySending.recorded steady.recorded) w).bench.outside.events =
      .stopReceiving :: .ticks 0 :: (busyRounds false [0, 1, 2, 3, 4, 5] ++ [.isIdle true, .disable]) := by
    decide +kernel
  have hflush : line.flush busySending.recorded steady.recorded w.bench = .ok (.error .shouldWait)
      (Act.final (line.flush busySending.recorded steady.recorded) w.bench) :=
    Act.ok_of_answer? (by decide +kernel)
  have hflushed : (Act.final (line.flush busySending.recorded steady.recorded) w.bench).outside.events =
      .ticks 0 :: (busyRounds true [0, 1, 2, 3] ++ [.isIdle false, .ticks 4]) := by
    decide +kernel
  obtain ⟨-, ⟨u', w', hend, hshuts⟩, -, hflushes⟩ :=
    drains_in_time (u := line) busyClock rfl (hlimit ▸ by decide) (hmillis ▸ by decide) w
  rw [Act.final, hend] at hshown
  obtain ⟨answer, b', es, hanswer, hes, htold⟩ := hflushes rfl
  cases hflush.symm.trans hanswer
  exact ⟨hlimit, idleFrom_busyClock, ⟨u', w', hend, hshown, hshuts⟩, _, es, hflush, hes,
    hes.symm.trans hflushed, htold⟩

end Uart
end SerialLine
