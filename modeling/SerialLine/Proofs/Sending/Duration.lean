import SerialLine.Proofs.Lines.Clocks
import SerialLine.Proofs.Sending.Course
/-! # How long a transmission takes

On a platform whose clock moves on in every round of background work, no wait for leave to send lasts
longer than the timeout.

* `Clocked`: a clock that nothing a transmission asks turns back.
* `rounds`: the rounds of background work done so far.
* `awaitReady_ends`: the wait for one character comes to an end, after as many rounds as the deadline has
  milliseconds left at most. That number is the measure of the induction.
* `sendWords_ends`: a transmission ends after as many rounds for each character at most.
-/
set_option autoImplicit false

namespace SerialLine

variable {σ : Type} {d : Driver σ} {p : Platform σ}

/-- A clock that no operation of a transmission turns back. -/
structure Clocked (d : Driver σ) (p : Platform σ) extends Clock p where
  isReady : ∀ b, now b.outside ≤ now (d.isReady b).2.outside
  clearToSend : ∀ b, now b.outside ≤ now (d.clearToSend b).2.outside
  sendWord : ∀ word b, now b.outside ≤ now (d.sendWord word b).2.outside

/-- The rounds of background work among the events so far. -/
def rounds (b : Bench (Recorded σ)) : Nat := b.outside.events.count .background

/-- The characters handed over among the events so far. -/
def sent (b : Bench (Recorded σ)) : Nat := (Uart.sentWords b.outside.events).length

theorem sent_of_events {b b' : Bench (Recorded σ)} {es : List Event}
    (h : b'.outside.events = b.outside.events ++ es) :
    sent b' = sent b + (Uart.sentWords es).length := by
  rw [sent, h, Uart.sentWords_append, List.length_append]
  rfl

theorem rounds_of_events {b b' : Bench (Recorded σ)} {es : List Event}
    (h : b'.outside.events = b.outside.events ++ es) :
    rounds b' = rounds b + es.count .background := by
  rw [rounds, h, List.count_append]
  rfl

theorem rounds_canSend (b : Bench (Recorded σ)) : rounds (Uart.canSend d.recorded b).2 = rounds b := by
  obtain ⟨es, hes, ⟨rfl, -⟩ | ⟨hrefused, -⟩⟩ := Uart.emits_canSend (d := d) b
  · exact rounds_of_events hes
  · rw [rounds_of_events hes]
    cases hrefused <;> rfl

theorem rounds_ticks (b : Bench (Recorded σ)) : rounds (p.recorded.ticks b).2 = rounds b :=
  rounds_of_events (Uart.recording_events .ticks p.ticks rfl)

theorem rounds_waitRound (b : Bench (Recorded σ)) :
    rounds (p.recorded.waitRound b).2 = rounds b + 1 := by
  obtain ⟨es, hes, hround⟩ := emits_waitRound (p := p) b
  rw [rounds_of_events hes]
  generalize (p.recorded.waitRound b).1 = result at hround
  cases hround <;> rfl

theorem Clocked.later_canSend (C : Clocked d p) :
    Obeys C.recorded.Later (Uart.canSend d.recorded) := by
  have hlater := C.recorded.onward_later
  refine hlater.bind (fun b => C.isReady b.unrecorded) fun ready => ?_
  cases ready with
  | true => exact fun b => C.clearToSend b.unrecorded
  | false => exact hlater.pure false

namespace Uart

variable {u : Uart} {deadline : Deadline} {patience : Nat}

/-! ## One wait -/

section
variable {b b₁ b₂ b₃ : Bench σ}

theorem awaitReady_of_ready (h : canSend d b = (true, b₁)) :
    awaitReady d p deadline (patience + 1) b = .ok (.ok true) b₁ := by
  simp only [awaitReady, bind, EStateM.bind, liftM, monadLift, MonadLift.monadLift, h]
  rfl

theorem awaitReady_of_over (h : canSend d b = (false, b₁))
    (hover : deadline.expired p b₁ = (true, b₂)) :
    awaitReady d p deadline (patience + 1) b = .ok (.ok false) b₂ := by
  simp only [awaitReady, bind, EStateM.bind, liftM, monadLift, MonadLift.monadLift, h, hover,
    Bool.false_eq_true, if_false]
  rfl

theorem awaitReady_of_canceled {e : Error} (h : canSend d b = (false, b₁))
    (hover : deadline.expired p b₁ = (false, b₂)) (hwait : p.waitRound b₂ = (.error e, b₃)) :
    awaitReady d p deadline (patience + 1) b = .ok (.error e) b₃ := by
  simp only [awaitReady, bind, EStateM.bind, liftM, monadLift, MonadLift.monadLift, h, hover, hwait,
    Bool.false_eq_true, if_false]
  rfl

theorem awaitReady_of_waited (h : canSend d b = (false, b₁))
    (hover : deadline.expired p b₁ = (false, b₂)) (hwait : p.waitRound b₂ = (.ok (), b₃)) :
    awaitReady d p deadline (patience + 1) b = awaitReady d p deadline patience b₃ := by
  simp only [awaitReady, bind, EStateM.bind, liftM, monadLift, MonadLift.monadLift, h, hover, hwait,
    Bool.false_eq_true, if_false]

theorem expired_eq (deadline : Deadline) (b : Bench σ) : deadline.expired p b =
    (decide (deadline.limit ≤ (p.ticks b).1 - deadline.start), (p.ticks b).2) := rfl

end

/-- By induction on the patience, which is more than the deadline has left: a round of the wait takes
from both. -/
theorem awaitReady_ends (C : Clocked d p) {b : Bench (Recorded σ)}
    (hstart : deadline.start ≤ C.time b)
    (hpatience : deadline.limit - (C.time b - deadline.start) < patience) :
    ∃ answer b', awaitReady d.recorded p.recorded deadline patience b = .ok answer b' ∧
      rounds b' ≤ rounds b + (deadline.limit - (C.time b - deadline.start)) ∧
      C.time b ≤ C.time b' := by
  induction patience generalizing b with
  | zero => exact absurd hpatience (Nat.not_lt_zero _)
  | succ patience ih =>
    have hlooked : C.time b ≤ C.time (canSend d.recorded b).2 := C.later_canSend b
    have hrounds := rounds_canSend (d := d) b
    rcases hcan : canSend d.recorded b with ⟨yes, b₁⟩
    simp only [hcan] at hlooked hrounds
    cases yes with
    | true => exact ⟨_, b₁, awaitReady_of_ready hcan, by omega, hlooked⟩
    | false =>
      have hclock : C.time b₁ ≤ _ ∧ _ ≤ C.time _ := C.recorded.ticks b₁
      have hrounds₂ := rounds_ticks (p := p) b₁
      have hexpired := expired_eq (p := p.recorded) deadline b₁
      rcases hnow : p.recorded.ticks b₁ with ⟨now, b₂⟩
      simp only [hnow] at hclock hrounds₂ hexpired
      by_cases hover : deadline.limit ≤ now - deadline.start
      · rw [decide_eq_true hover] at hexpired
        exact ⟨_, b₂, awaitReady_of_over hcan hexpired, by omega, by omega⟩
      · rw [decide_eq_false hover] at hexpired
        have hpassed : C.time b₂ + 1 ≤ C.time _ := C.recorded.later_waitRound b₂
        have hrounds₃ := rounds_waitRound (p := p) b₂
        rcases hwait : p.recorded.waitRound b₂ with ⟨result, b₃⟩
        simp only [hwait] at hpassed hrounds₃
        cases result with
        | error e => exact ⟨_, b₃, awaitReady_of_canceled hcan hexpired hwait, by omega, by omega⟩
        | ok _ =>
          obtain ⟨answer, b', hend, hrounds', htime⟩ := ih (b := b₃) (by omega) (by omega)
          rw [awaitReady_of_waited hcan hexpired hwait]
          exact ⟨answer, b', hend, by omega, by omega⟩

/-! ## A transmission -/

/-- Every character handed over begins a deadline of its own, so the wait for the next one may take as
many rounds as the first. -/
theorem sendWords_ends (C : Clocked d p) (words : List UInt16) (deadline : Deadline) (written : Nat)
    {b : Bench (Recorded σ)} (hstart : deadline.start ≤ C.time b)
    (hpatience : deadline.limit < p.patience) :
    ∃ result b', u.sendWords d.recorded p.recorded words deadline written b = .ok result b' ∧
      sent b ≤ sent b' ∧
      rounds b' ≤ rounds b + min words.length (sent b' - sent b + 1) * deadline.limit := by
  induction words generalizing deadline written b with
  | nil => exact ⟨_, b, rfl, le_rfl, by simp⟩
  | cons word words ih =>
    obtain ⟨answer, b₁, hwait, hrounds, htime⟩ := awaitReady_ends C hstart
      (show _ < p.recorded.patience from (Nat.sub_le _ _).trans_lt hpatience)
    have hsent : sent b₁ = sent b := by
      obtain ⟨es, hes, hwaits⟩ := shows_awaitReady (d := d) (p := p) deadline p.recorded.patience b
      rw [Act.final, hwait] at hes
      rw [sent_of_events hes, hwaits.passive.sendsNothing]
      rfl
    have hstay : rounds b₁ ≤
        rounds b + min (words.length + 1) (sent b₁ - sent b + 1) * deadline.limit := by
      have hone : min (words.length + 1) (sent b₁ - sent b + 1) = 1 := by omega
      rw [hone]
      omega
    rw [sendWords, Act.bind_of_ok hwait, List.length_cons]
    cases answer with
    | error e => exact ⟨_, b₁, rfl, hsent.ge, hstay⟩
    | ok ready =>
      cases ready with
      | false => exact ⟨_, _, rfl, hsent.ge, hstay⟩
      | true =>
        have htime₂ : C.time b₁ ≤ C.time (d.recorded.sendWord word b₁).2 :=
          C.sendWord word b₁.unrecorded
        have hevents :=
          recording_events (fun _ => .sendWord word) (d.sendWord word) (b := b₁) rfl
        have hrounds₂ : rounds (d.recorded.sendWord word b₁).2 = rounds b₁ :=
          rounds_of_events hevents
        have hsent₂ : sent (d.recorded.sendWord word b₁).2 = sent b₁ + 1 := sent_of_events hevents
        generalize hb₂ : (d.recorded.sendWord word b₁).2 = b₂ at htime₂ hrounds₂ hsent₂
        have hclock : C.time b₂ ≤ _ ∧ _ ≤ C.time _ := C.recorded.ticks b₂
        have hrounds₃ := rounds_ticks (p := p) b₂
        have hsent₃ : sent (p.recorded.ticks b₂).2 = sent b₂ :=
          sent_of_events (recording_events .ticks p.ticks rfl)
        obtain ⟨result, b', hend, hsent', hrounds'⟩ :=
          ih { deadline with start := (p.recorded.ticks b₂).1 } (written + u.width.bytes) hclock.2
            hpatience
        have hmin : min (words.length + 1) (sent b' - sent b + 1) =
            min words.length (sent b' - sent (p.recorded.ticks b₂).2 + 1) + 1 := by omega
        refine ⟨result, b', ?_, by omega, ?_⟩
        · rw [← hend, ← hb₂]
          rfl
        · rw [hmin, Nat.succ_mul]
          simp only at hrounds'
          omega

end Uart
end SerialLine
