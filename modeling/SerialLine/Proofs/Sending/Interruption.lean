import SerialLine.Proofs.Events.Kinds
import SerialLine.Proofs.Sending.Direction
/-! # The console interrupt

Which calls answer that the console interrupt ended them.

* `Interrupted`: a round of a wait found the interrupt pending. `Reported`: the answer tells so.
* `Waits.reported`, `Sends.reported`, `Drains.reported`: read off the grammar of waits and transmissions.
* `Writes.telling`: a write tells of the interrupt if and only if it was found, unless nothing could be
  sent before the timeout. Then it says that, also when the interrupt ended the wait for the transmitter.
* `shows_read`, `shows_flush`: reads and flushes tell of the interrupt if and only if it was found.
* `interrupt_reported`: all of it, for any line.
-/
set_option autoImplicit false

namespace SerialLine.Uart

variable {σ α : Type} {u : Uart} {d : Driver σ} {p : Platform σ} {es es' : List Event}

/-- A look for the console interrupt found it pending. -/
def Interrupted (es : List Event) : Prop := Event.isInterrupted true ∈ es

instance : Decidable (Interrupted es) := inferInstanceAs (Decidable (_ ∈ es))

theorem interrupted_append : Interrupted (es ++ es') ↔ Interrupted es ∨ Interrupted es' :=
  List.mem_append

/-- The answer, if there is one, tells of the interrupt if and only if it was found pending. -/
def Reported (es : List Event) (answer : Option (Except Error α)) : Prop :=
  ∀ result, answer = some result → (result = .error .canceled ↔ Interrupted es)

theorem reported_none : Reported es (none : Option (Except Error α)) := nofun

theorem reported_calm {result : Except Error α} (hresult : result ≠ .error .canceled)
    (hcalm : ¬ Interrupted es) : Reported es (some result) := by
  rintro _ ⟨⟩
  exact iff_of_false hresult hcalm

theorem reported_told (hseen : Interrupted es) :
    Reported es (some (.error .canceled : Except Error α)) := by
  rintro _ ⟨⟩
  exact iff_of_true rfl hseen

/-- What comes before an answer and is no interrupt does not matter to it. -/
theorem Reported.after {answer : Option (Except Error α)} (h : Reported es' answer)
    (hcalm : ¬ Interrupted es) : Reported (es ++ es') answer := by
  intro result hresult
  rw [interrupted_append, h result hresult]
  exact (or_iff_right hcalm).symm

/-! ## Waits and transmissions -/

theorem Refused.calm {look : List Event} (h : Refused look) : ¬ Interrupted look := by
  cases h <;> simp [Interrupted]

theorem Busy.calm {deadline : Option Deadline} {look : List Event} (h : Busy deadline look) :
    ¬ Interrupted look := by
  cases h <;> simp [Interrupted]

theorem calm_round (heeds : Bool) : ¬ Interrupted (roundEvents heeds) := by
  cases heeds <;> simp [Interrupted, roundEvents]

theorem Waits.reported {deadline : Deadline} {answer : Option (Except Error Bool)}
    (h : Waits deadline es answer) : Reported es answer := by
  induction h with
  | unfinished => exact reported_none
  | ready => exact reported_calm (by simp) (by simp [Interrupted])
  | @expired look now hlook =>
    have hclock : Reported [.ticks now] (some (.ok false)) :=
      reported_calm (by simp) (by simp [Interrupted])
    exact hclock.after hlook.calm
  | canceled hlook => exact reported_told (by simp [Interrupted])
  | @again look es now answer hlook hleft hrest ih =>
    have hround : ¬ Interrupted [.ticks now, .background, .isInterrupted false] := by
      simp [Interrupted]
    exact (ih.after hround).after hlook.calm

theorem Drains.reported {deadline : Option Deadline} {answer : Option (Except Error Bool)}
    (h : Drains deadline true es answer) : Reported es answer := by
  induction h with
  | unfinished => exact reported_none
  | idle => exact reported_calm (by simp) (by simp [Interrupted])
  | expired => exact reported_calm (by simp) (by simp [Interrupted])
  | canceled => exact reported_told (by simp [Interrupted])
  | again hlook hrest ih => exact (ih.after (calm_round _)).after hlook.calm

theorem Sends.reported {width written : Nat} {words : List UInt16} {deadline : Deadline}
    {answer : Option (Except Error Nat)} (h : Sends width words deadline written es answer) :
    Reported es answer := by
  induction h with
  | done => exact reported_calm (by simp) (by simp [Interrupted])
  | @sent word words deadline written now es es' answer hwait hrest ih =>
    have hcalm : ¬ Interrupted es := mt (hwait.reported _ rfl).mpr (by simp)
    have hsent : ¬ Interrupted [.sendWord word, .ticks now] := by simp [Interrupted]
    exact (ih.after hsent).after hcalm
  | stalled hwait =>
    refine reported_calm ?_ (mt (hwait.reported _ rfl).mpr (by simp))
    unfold Uart.stalled
    split <;> simp
  | canceled hwait =>
    obtain rfl := hwait.canceled_of_error rfl
    exact reported_told ((hwait.reported _ rfl).mp rfl)
  | unfinished => exact reported_none

/-- A wait for the transmitter that the interrupt ended looked at it last, and once. -/
theorem Drains.interrupted_last {deadline : Option Deadline} {heeds : Bool}
    {answer : Option (Except Error Bool)} (h : Drains deadline heeds es answer)
    (hanswer : answer = some (.error .canceled)) :
    ∃ before, es = before ++ [.isInterrupted true] ∧ ¬ Interrupted before := by
  induction h with
  | unfinished => cases hanswer
  | idle => cases hanswer
  | expired => cases hanswer
  | @canceled look hlook =>
    refine ⟨look ++ [.background], by simp, ?_⟩
    rw [interrupted_append, not_or]
    exact ⟨hlook.calm, by simp [Interrupted]⟩
  | @again look es answer hlook hrest ih =>
    obtain ⟨before, rfl, hcalm⟩ := ih hanswer
    refine ⟨look ++ (roundEvents heeds ++ before), by simp, ?_⟩
    rw [interrupted_append, interrupted_append, not_or, not_or]
    exact ⟨hlook.calm, calm_round heeds, hcalm⟩

/-! ## Writing -/

/-- How the answer of a write tells of the interrupt. -/
structure Telling (u : Uart) (es : List Event) (result : Except Error Nat) : Prop where
  /-- It does so if the interrupt was found, and only then; but a write that could send nothing before
  the timeout says that instead. -/
  canceled_iff : result = .error .canceled ↔ Interrupted es ∧ result ≠ .error .shouldWait
  /-- In that case the line has a direction output, the whole timeout went by without a character handed
  over, and the interrupt was not found before the wait for the transmitter, which it ended. -/
  withheld : Interrupted es → result = .error .shouldWait →
    u.hasDirection = true ∧ sentWords es = [] ∧ Stalled u.patienceMillis es ∧
      ∃ before, es = before ++ [.isInterrupted true, .setDirection u.directionInverted] ∧
        ¬ Interrupted before

/-- A write tells of the interrupt in its answer, if it comes to one. -/
def TellsWritten (u : Uart) (es : List Event) (answer : Option (Except Error Nat)) : Prop :=
  ∀ result, answer = some result → Telling u es result

theorem telling_of_iff {result : Except Error Nat}
    (h : result = .error .canceled ↔ Interrupted es) : Telling u es result where
  canceled_iff := by
    refine ⟨fun hcanceled => ⟨h.mp hcanceled, ?_⟩, fun hseen => h.mpr hseen.1⟩
    rw [hcanceled]
    simp
  withheld hseen hshould := by
    rw [h.mpr hseen] at hshould
    cases hshould

theorem drainedAnswer_canceled_iff {n : Nat} {drained : Except Error Bool} :
    drainedAnswer (.ok n) drained = .error .canceled ↔ drained = .error .canceled := by
  unfold drainedAnswer
  split
  · simp_all
  · simp_all

theorem drainedAnswer_of_error {e : Error} {drained : Except Error Bool} :
    drainedAnswer (.error e) drained = .error e := rfl

theorem Writes.telling {data : List UInt8} {result : Except Error Nat} (hdata : u.Transmits data)
    (h : Writes u data es (some result)) : Telling u es result := by
  have hcounts := h.counts hdata
  cases h with
  | @plain start es _ hplain hsend =>
    have hclock : ¬ Interrupted [.ticks start] := by simp [Interrupted]
    exact telling_of_iff ((hsend.reported.after hclock) _ rfl)
  | @drained start es es' result drained hdirection hsend hdrain =>
    have hsent := hsend.reported _ rfl
    have hdrained := hdrain.reported _ rfl
    have hall : Interrupted (.setDirection (!u.directionInverted) :: .ticks start ::
        (es ++ (es' ++ [.setDirection u.directionInverted]))) ↔
        result = .error .canceled ∨ drained = .error .canceled := by
      rw [hsent, hdrained]
      simp [Interrupted]
    cases result with
    | ok n =>
      refine telling_of_iff ?_
      rw [hall, drainedAnswer_canceled_iff]
      simp
    | error e =>
      rw [drainedAnswer_of_error] at hcounts ⊢
      rcases hsend.error_cases rfl with rfl | rfl
      · refine ⟨by simp, fun hseen _ => ?_⟩
        have hends : drained = .error .canceled := by simpa using hall.mp hseen
        have hcalm : ¬ Interrupted es := mt hsent.mpr (by simp)
        obtain ⟨before, rfl, hbefore⟩ := hdrain.interrupted_last (congrArg some hends)
        obtain ⟨k, -, hwords, -, hshould⟩ := hcounts
        obtain ⟨rfl, hstall⟩ := hshould rfl
        refine ⟨hdirection, by rw [hwords, List.take_zero], hstall,
          .setDirection (!u.directionInverted) :: .ticks start :: (es ++ before), by simp, ?_⟩
        have hhead : ¬ Interrupted [.setDirection (!u.directionInverted), .ticks start] := by
          simp [Interrupted]
        have hrest : ¬ Interrupted (es ++ before) := by
          rw [interrupted_append, not_or]
          exact ⟨hcalm, hbefore⟩
        exact fun hmem => (interrupted_append.mp hmem).elim hhead hrest
      · exact telling_of_iff (by rw [hall]; simp)

/-! ## Reading and flushing -/

/-- The answer to a read tells of the interrupt if and only if it was found pending. -/
def TellsRead (es : List Event) (reply : Option ReadReply) : Prop :=
  Reported es (reply.map (·.outcome))

theorem emits_takeWaiting (room : Nat) :
    Emits (fun es _ => ¬ Interrupted es) (u.takeWaiting d.recorded room) := by
  intro b
  have hwithin : Obeys (Within (· ≠ .isInterrupted true)) (u.takeWaiting d.recorded room) :=
    within_takeWaiting (by simp) (by simp) room
  obtain ⟨es, hes, hkind⟩ := hwithin b
  exact ⟨es, hes, fun hseen => hkind _ hseen rfl⟩

theorem emits_nextDeadline (deadline : Deadline) (bytes : List UInt8) :
    Emits (fun es _ => ¬ Interrupted es) (nextDeadline p.recorded deadline bytes) := by
  unfold nextDeadline
  split
  · exact emits_pure (by simp [Interrupted])
  · refine (emits_restart deadline).mono ?_
    rintro - deadline' ⟨now, rfl, rfl⟩
    simp [Interrupted]

theorem shows_finishRound {want patience : Nat} {deadline : Deadline} {got : List UInt8}
    (hrest : Shows TellsRead (u.receive d.recorded p.recorded want patience deadline got)) :
    Shows TellsRead (u.finishRound d.recorded p.recorded want patience deadline got) := by
  unfold finishRound
  split
  · exact shows_pure (reported_calm (by simp) (by simp [Interrupted]))
  · refine (emits_expired deadline).bind ?_
    rintro - isOver ⟨now, rfl, -⟩
    cases isOver with
    | true => exact shows_pure (reported_calm (by dsimp only; split <;> simp) (by simp [Interrupted]))
    | false =>
      refine emits_waitRound.bind ?_
      rintro - - (- | -)
      · exact shows_pure (reported_told (by simp [Interrupted]))
      · refine hrest.mono fun es reply hreply => ?_
        exact (hreply.after (calm_round true)).after (by simp [Interrupted])

theorem shows_receive (want patience : Nat) (deadline : Deadline) (got : List UInt8) :
    Shows TellsRead (u.receive d.recorded p.recorded want patience deadline got) := by
  induction patience generalizing deadline got with
  | zero => exact shows_throw reported_none
  | succ patience ih =>
    have hround : u.receive d.recorded p.recorded want (patience + 1) deadline got = (do
        let bytes ← u.takeWaiting d.recorded (want - got.length)
        let deadline ← nextDeadline p.recorded deadline bytes
        u.finishRound d.recorded p.recorded want patience deadline (got ++ bytes)) :=
      funext fun b => receive_succ b
    rw [hround]
    refine (emits_takeWaiting _).bind fun es bytes hcalm => ?_
    refine (emits_nextDeadline deadline bytes).bind fun es' deadline' hcalm' => ?_
    refine (shows_finishRound (ih _ _)).mono fun es'' reply hreply => ?_
    exact (hreply.after hcalm').after hcalm

theorem shows_read (room : Nat) : Shows TellsRead (u.read d.recorded p.recorded room) := by
  have hprompt {outcome : Except Error Nat} (houtcome : outcome ≠ .error .canceled) :
      TellsRead [] (some ⟨outcome, []⟩) := reported_calm houtcome (by simp [Interrupted])
  refine .guarded (fun _ => hprompt (by simp)) fun _ => .guarded (fun _ => hprompt (by simp)) fun _ =>
    .guarded (fun _ => hprompt (by simp)) fun _ => .guarded (fun _ => hprompt (by simp)) fun _ => ?_
  refine (emits_begin _).bind ?_
  rintro - deadline ⟨start, rfl, rfl⟩
  exact (shows_receive _ _ _ _).mono fun es reply hreply => hreply.after (by simp [Interrupted])

theorem shows_flush : Shows Reported (u.flush d.recorded p.recorded) := by
  have hprompt {result : Except Error Unit} (hresult : result ≠ .error .canceled) :
      Reported [] (some result) := reported_calm hresult (by simp [Interrupted])
  refine .guarded (fun _ => hprompt (by simp)) fun _ => .guarded (fun _ => hprompt (by simp)) fun _ => ?_
  refine (emits_begin _).bind ?_
  rintro - deadline ⟨start, rfl, rfl⟩
  refine (shows_awaitIdle emits_waitRound _ _).bind (fun es _ => reported_none) fun es answer hdrain => ?_
  have hseen := hdrain.reported _ rfl
  have hcalm : ¬ Interrupted [.ticks start] := by simp [Interrupted]
  have hend {result : Except Error Unit}
      (hresult : result = .error .canceled ↔ answer = .error .canceled) :
      Reported (.ticks start :: es) (some result) := by
    have hreported : Reported es (some result) := by
      rintro _ ⟨⟩
      exact hresult.trans hseen
    exact hreported.after hcalm
  cases answer with
  | error e => exact shows_pure (by simpa using hend (by simp))
  | ok isIdle =>
    cases isIdle with
    | true => exact shows_pure (by simpa using hend (by simp))
    | false => exact shows_pure (by simpa using hend (by simp))

/-! ## Every call -/

theorem shows_telling (data : List UInt8) : Shows (TellsWritten u)
    (u.write d.recorded p.recorded data) := by
  by_cases hdata : u.Transmits data
  · refine (shows_write hdata).mono fun es answer hwrites => ?_
    rintro result rfl
    exact hwrites.telling hdata
  · have hprompt {result : Except Error Nat} (hresult : result ≠ .error .canceled) :
        TellsWritten u [] (some result) := by
      rintro _ ⟨⟩
      exact telling_of_iff (iff_of_false hresult (by simp [Interrupted]))
    refine .guarded (fun _ => hprompt (by simp)) fun hlive =>
      .guarded (fun _ => hprompt (by simp)) fun hsends =>
        .guarded (fun _ => hprompt (by simp)) fun hwhole =>
          .guarded (fun _ => hprompt (by simp)) fun hnonempty => ?_
    refine absurd ⟨?_, ?_, ?_, ?_⟩ hdata
    · simpa using hlive
    · simpa using hsends
    · simpa using hwhole
    · simpa using hnonempty

/-- Whatever line, driver and platform: the answers to reads, flushes and writes tell that the console
interrupt ended the call if and only if a round of a wait in it found the interrupt pending. A write that
sent nothing before the timeout is the one exception. -/
theorem interrupt_reported (u : Uart) (d : Driver σ) (p : Platform σ) :
    (∀ room, Shows TellsRead (u.read d.recorded p.recorded room)) ∧
      Shows Reported (u.flush d.recorded p.recorded) ∧
      ∀ data, Shows (TellsWritten u) (u.write d.recorded p.recorded data) :=
  ⟨shows_read, shows_flush, shows_telling⟩

/-- A peripheral that is neither ready for a character nor done with those before. -/
def Driver.occupied : Driver Nat :=
  { Driver.inert with isIdle := pure false }

/-- A platform on which no time passes and the console interrupt is pending. -/
def pending : Platform Nat where
  ticks := pure 0
  isInterrupted := pure true
  patience := 1

/-- The timeout is over at the first look at the transmitter, and only then the interrupt is found. -/
theorem stalled_write_withholds_interrupt :
    let line := ofConfig { halfDuplex with timeout := ⟨0⟩ } none
    let call := line.write Driver.occupied.recorded pending.recorded [0x41]
    Act.answer? call { outside := ⟨0, []⟩ } = some (.error .shouldWait) ∧
      Interrupted (Act.final call { outside := ⟨0, []⟩ }).outside.events := by
  exact ⟨by rfl, by decide +kernel⟩

end SerialLine.Uart
