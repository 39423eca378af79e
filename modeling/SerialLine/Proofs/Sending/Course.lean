import SerialLine.Proofs.Events.Kinds
import SerialLine.Uart.Sending
/-! # The course of a transmission

The events of a transmission as words of a small grammar. Everything that is said of transmissions
elsewhere is read off the grammar, not off the loops.

* `Waits`: waiting for leave to send one character.
* `Sends`: handing over the characters of a call one after the other.
* `Drains`: waiting until everything handed over is out.
* `Writes`: a call that transmits, with the direction output around it if the line has one.
* `shows_awaitReady`, `shows_sendWords`, `shows_awaitIdle`, `shows_write`: the code keeps to the grammar,
  whatever driver and platform do, and also if it never comes to an answer.
-/
set_option autoImplicit false

namespace SerialLine.Uart

variable {σ : Type} {u : Uart} {d : Driver σ} {p : Platform σ}

/-! ## The grammar -/

/-- A look whether a character may be sent that finds it may not. -/
inductive Refused : List Event → Prop where
  | busy : Refused [.isReady false]
  | held : Refused [.isReady true, .clearToSend false]

/-- A wait for leave to send, under a deadline. Without an answer, it has not come to its end. -/
inductive Waits (deadline : Deadline) : List Event → Option (Except Error Bool) → Prop where
  | unfinished : Waits deadline [] none
  | ready : Waits deadline [.isReady true, .clearToSend true] (some (.ok true))
  | expired {look : List Event} {now : Nat} (hlook : Refused look)
      (hover : deadline.limit ≤ now - deadline.start) :
      Waits deadline (look ++ [.ticks now]) (some (.ok false))
  | canceled {look : List Event} {now : Nat} (hlook : Refused look)
      (hleft : now - deadline.start < deadline.limit) :
      Waits deadline (look ++ [.ticks now, .background, .isInterrupted true])
        (some (.error .canceled))
  | again {look es : List Event} {now : Nat} {answer : Option (Except Error Bool)}
      (hlook : Refused look) (hleft : now - deadline.start < deadline.limit)
      (hrest : Waits deadline es answer) :
      Waits deadline (look ++ .ticks now :: .background :: .isInterrupted false :: es) answer

/-- What a transmission answers when the deadline comes before the next character. -/
def stalled (written : Nat) : Except Error Nat :=
  if written = 0 then .error .shouldWait else .ok written

/-- The transmission of words of `width` bytes each, after `written` bytes. -/
inductive Sends (width : Nat) :
    List UInt16 → Deadline → Nat → List Event → Option (Except Error Nat) → Prop where
  | done {deadline : Deadline} {written : Nat} :
      Sends width [] deadline written [] (some (.ok written))
  | sent {word : UInt16} {words : List UInt16} {deadline : Deadline} {written now : Nat}
      {es es' : List Event} {answer : Option (Except Error Nat)}
      (hwait : Waits deadline es (some (.ok true)))
      (hrest : Sends width words { deadline with start := now } (written + width) es' answer) :
      Sends width (word :: words) deadline written (es ++ .sendWord word :: .ticks now :: es') answer
  | stalled {word : UInt16} {words : List UInt16} {deadline : Deadline} {written : Nat}
      {es : List Event} (hwait : Waits deadline es (some (.ok false))) :
      Sends width (word :: words) deadline written es (some (stalled written))
  | canceled {word : UInt16} {words : List UInt16} {deadline : Deadline} {written : Nat}
      {es : List Event} {e : Error} (hwait : Waits deadline es (some (.error e))) :
      Sends width (word :: words) deadline written es (some (.error e))
  | unfinished {word : UInt16} {words : List UInt16} {deadline : Deadline} {written : Nat}
      {es : List Event} (hwait : Waits deadline es none) :
      Sends width (word :: words) deadline written es none

/-- A look at a transmitter that is busy, and at the clock if there is a deadline, which is not over. -/
inductive Busy : Option Deadline → List Event → Prop where
  | unbounded : Busy none [.isIdle false]
  | bounded {deadline : Deadline} {now : Nat} (hleft : now - deadline.start < deadline.limit) :
      Busy (some deadline) [.isIdle false, .ticks now]

/-- A wait for the transmitter to be idle. -/
inductive Drains (deadline : Option Deadline) (heeds : Bool) :
    List Event → Option (Except Error Bool) → Prop where
  | unfinished : Drains deadline heeds [] none
  | idle : Drains deadline heeds [.isIdle true] (some (.ok true))
  | expired {limit : Deadline} {now : Nat} (hlimit : deadline = some limit)
      (hover : limit.limit ≤ now - limit.start) :
      Drains deadline heeds [.isIdle false, .ticks now] (some (.ok false))
  | canceled {look : List Event} (hlook : Busy deadline look) (hheeds : heeds = true) :
      Drains deadline heeds (look ++ [.background, .isInterrupted true]) (some (.error .canceled))
  | again {look es : List Event} {answer : Option (Except Error Bool)} (hlook : Busy deadline look)
      (hrest : Drains deadline heeds es answer) :
      Drains deadline heeds (look ++ (roundEvents heeds ++ es)) answer

/-- What a call answers on a line with a direction output, when it also waited for the transmitter. -/
def drainedAnswer (result : Except Error Nat) (drained : Except Error Bool) : Except Error Nat :=
  match result, drained with
  | .ok _, .error .canceled => .error .canceled
  | result, _ => result

/-- The data are such that a call to write them transmits something. -/
structure Transmits (u : Uart) (data : List UInt8) : Prop where
  live : u.isShut = false
  sends : u.sends = true
  whole : data.length % u.width.bytes = 0
  nonempty : data ≠ []

/-- A call that transmits. -/
inductive Writes (u : Uart) (data : List UInt8) : List Event → Option (Except Error Nat) → Prop where
  | plain {start : Nat} {es : List Event} {answer : Option (Except Error Nat)}
      (hplain : u.hasDirection = false)
      (hsend : Sends u.width.bytes (u.width.decode data) ⟨start, u.patienceMillis⟩ 0 es answer) :
      Writes u data (.ticks start :: es) answer
  | unsent {start : Nat} {es : List Event} (hdirection : u.hasDirection = true)
      (hsend : Sends u.width.bytes (u.width.decode data) ⟨start, u.patienceMillis⟩ 0 es none) :
      Writes u data (.setDirection (!u.directionInverted) :: .ticks start :: es) none
  | undrained {start : Nat} {es es' : List Event} {result : Except Error Nat}
      (hdirection : u.hasDirection = true)
      (hsend : Sends u.width.bytes (u.width.decode data) ⟨start, u.patienceMillis⟩ 0 es (some result))
      (hdrain : Drains none true es' none) :
      Writes u data (.setDirection (!u.directionInverted) :: .ticks start :: (es ++ es')) none
  | drained {start : Nat} {es es' : List Event} {result : Except Error Nat}
      {drained : Except Error Bool} (hdirection : u.hasDirection = true)
      (hsend : Sends u.width.bytes (u.width.decode data) ⟨start, u.patienceMillis⟩ 0 es (some result))
      (hdrain : Drains none true es' (some drained)) :
      Writes u data (.setDirection (!u.directionInverted) :: .ticks start ::
        (es ++ (es' ++ [.setDirection u.directionInverted]))) (some (drainedAnswer result drained))

/-! ## Passive events -/

/-- The words that the peripheral was given to send, first one first. -/
def sentWords (es : List Event) : List UInt16 :=
  es.filterMap fun
    | .sendWord word => some word
    | _ => none

@[simp] theorem sentWords_append (es es' : List Event) :
    sentWords (es ++ es') = sentWords es ++ sentWords es' :=
  List.filterMap_append

/-- A character is handed over. -/
def IsSend (e : Event) : Prop := ∃ word, e = .sendWord word

/-- The line is turned around. -/
def IsTurn (e : Event) : Prop := ∃ high, e = .setDirection high

/-- Events by which no character is handed over and the line is not turned around. -/
def Passive (es : List Event) : Prop := ∀ e ∈ es, ¬ IsSend e ∧ ¬ IsTurn e

theorem passive_nil : Passive [] := fun _ hmem => absurd hmem List.not_mem_nil

theorem Passive.append {es es' : List Event} (h : Passive es) (h' : Passive es') :
    Passive (es ++ es') := by
  intro e hmem
  rcases List.mem_append.mp hmem with hmem | hmem
  · exact h e hmem
  · exact h' e hmem

theorem Passive.sendsNothing {es : List Event} (h : Passive es) : sentWords es = [] := by
  refine List.filterMap_eq_nil_iff.mpr fun e hmem => ?_
  split
  · exact absurd ⟨_, rfl⟩ (h _ hmem).1
  · rfl

theorem passive_of_routine {es : List Event} (h : Routine es) : Passive es := by
  intro e hmem
  have hroutine := h e hmem
  refine ⟨?_, ?_⟩
  · rintro ⟨word, rfl⟩
    cases hroutine
  · rintro ⟨high, rfl⟩
    cases hroutine

theorem passive_ticks (now : Nat) : Passive [.ticks now] := passive_of_routine (routine_ticks now)

theorem Refused.routine {look : List Event} (h : Refused look) : Routine look := by
  cases h <;> exact routine_of_all rfl

theorem Busy.routine {deadline : Option Deadline} {look : List Event} (h : Busy deadline look) :
    Routine look := by
  cases h <;> exact routine_of_all rfl

theorem Waits.routine {deadline : Deadline} {es : List Event} {answer : Option (Except Error Bool)}
    (h : Waits deadline es answer) : Routine es := by
  induction h with
  | unfinished => exact nofun
  | ready => exact routine_of_all rfl
  | expired hlook => exact hlook.routine.append (routine_ticks _)
  | canceled hlook => exact hlook.routine.append (routine_of_all rfl)
  | @again look es now answer hlook hleft hrest ih =>
    exact hlook.routine.append ((routine_ticks now).append ((routine_round true).append ih))

theorem Drains.routine {deadline : Option Deadline} {heeds : Bool} {es : List Event}
    {answer : Option (Except Error Bool)} (h : Drains deadline heeds es answer) : Routine es := by
  induction h with
  | unfinished => exact nofun
  | idle => exact routine_of_all rfl
  | expired => exact routine_of_all rfl
  | canceled hlook => exact hlook.routine.append (routine_of_all rfl)
  | again hlook hrest ih => exact hlook.routine.append ((routine_round _).append ih)

theorem Refused.passive {look : List Event} (h : Refused look) : Passive look :=
  passive_of_routine h.routine

theorem Waits.passive {deadline : Deadline} {es : List Event} {answer : Option (Except Error Bool)}
    (h : Waits deadline es answer) : Passive es := passive_of_routine h.routine

theorem Drains.passive {deadline : Option Deadline} {heeds : Bool} {es : List Event}
    {answer : Option (Except Error Bool)} (h : Drains deadline heeds es answer) : Passive es :=
  passive_of_routine h.routine

/-! ## The code keeps to it -/

theorem emits_canSend : Emits (fun es yes =>
    es = [.isReady true, .clearToSend true] ∧ yes = true ∨ Refused es ∧ yes = false)
    (canSend d.recorded) := by
  refine (emits_recording .isReady d.isReady).andThen ?_
  rintro es ready rfl
  cases ready with
  | true =>
    refine (emits_recording .clearToSend d.clearToSend).mono ?_
    rintro es clear rfl
    cases clear with
    | true => exact .inl ⟨rfl, rfl⟩
    | false => exact .inr ⟨.held, rfl⟩
  | false => exact emits_pure (.inr ⟨.busy, rfl⟩)

theorem shows_awaitReady (deadline : Deadline) (patience : Nat) :
    Shows (Waits deadline) (awaitReady d.recorded p.recorded deadline patience) := by
  induction patience with
  | zero => exact shows_throw .unfinished
  | succ patience ih =>
    rw [awaitReady]
    refine emits_canSend.bind ?_
    rintro look yes (⟨rfl, rfl⟩ | ⟨hlook, rfl⟩)
    · exact shows_pure .ready
    · refine (emits_expired deadline).bind ?_
      rintro - isOver ⟨now, rfl, rfl⟩
      by_cases hover : deadline.limit ≤ now - deadline.start
      · rw [decide_eq_true hover]
        exact shows_pure (by simpa using Waits.expired hlook hover)
      · rw [decide_eq_false hover]
        refine emits_waitRound.bind ?_
        rintro - - (- | -)
        · exact shows_pure (by simpa using Waits.canceled hlook (Nat.not_le.mp hover))
        · refine ih.mono fun es answer hrest => ?_
          simpa [roundEvents] using Waits.again hlook (Nat.not_le.mp hover) hrest

theorem shows_sendWords (words : List UInt16) (deadline : Deadline) (written : Nat) :
    Shows (Sends u.width.bytes words deadline written)
      (u.sendWords d.recorded p.recorded words deadline written) := by
  induction words generalizing deadline written with
  | nil => exact shows_pure .done
  | cons word words ih =>
    rw [sendWords]
    refine (shows_awaitReady deadline _).bind (fun es hwait => .unfinished hwait) ?_
    intro es answer hwait
    cases answer with
    | error e => exact shows_pure (by simpa using Sends.canceled hwait)
    | ok ready =>
      cases ready with
      | false =>
        refine (emits_logNote _ _).bind ?_
        rintro - - rfl
        exact shows_pure (by simpa [stalled] using Sends.stalled hwait)
      | true =>
        refine (emits_recording (fun _ => .sendWord word) (d.sendWord word)).bind ?_
        rintro - - rfl
        refine (emits_restart deadline).bind ?_
        rintro - - ⟨now, rfl, rfl⟩
        refine (ih _ _).mono fun es' answer hrest => ?_
        simpa using Sends.sent hwait hrest

/-- A round of a wait, of one of the two kinds. -/
theorem shows_awaitIdle {round : StateM (Bench (Recorded σ)) (Except Error Unit)} {heeds : Bool}
    (hround : Emits (Rounds heeds) round) (deadline : Option Deadline) (patience : Nat) :
    Shows (Drains deadline heeds) (awaitIdle d.recorded p.recorded round deadline patience) := by
  induction patience with
  | zero => exact shows_throw .unfinished
  | succ patience ih =>
    have hgoOn {look : List Event} (hlook : Busy deadline look)
        {onward : Except Error Unit → Act (Bench (Recorded σ)) (Except Error Bool)}
        (hstop : ∀ e, onward (.error e) = pure (.error e))
        (hgo : onward (.ok ()) = awaitIdle d.recorded p.recorded round deadline patience) :
        Shows (fun es => Drains deadline heeds (look ++ es)) (liftM round >>= onward) := by
      refine hround.bind ?_
      rintro - - (hheeds | -)
      · rw [hstop]
        exact shows_pure (.canceled hlook hheeds)
      · rw [hgo]
        exact ih.mono fun es answer hrest => .again hlook hrest
    rw [awaitIdle]
    refine (emits_recording .isIdle d.isIdle).bind ?_
    rintro - isIdle rfl
    cases isIdle with
    | true => exact shows_pure .idle
    | false =>
      cases deadline with
      | none =>
        simp only [Bool.false_eq_true, if_false, pure_bind]
        exact hgoOn .unbounded (fun _ => rfl) rfl
      | some deadline =>
        refine (emits_expired deadline).bind ?_
        rintro - isOver ⟨now, rfl, rfl⟩
        by_cases hover : deadline.limit ≤ now - deadline.start
        · rw [decide_eq_true hover]
          exact shows_pure (.expired rfl hover)
        · rw [decide_eq_false hover]
          exact hgoOn (.bounded (Nat.not_le.mp hover)) (fun _ => rfl) rfl

theorem emits_faceSending : Emits (fun es _ =>
    es = if u.hasDirection then [.setDirection (!u.directionInverted)] else [])
    (u.faceSending d.recorded) := by
  unfold faceSending
  cases u.hasDirection with
  | true => exact emits_recording (fun _ => .setDirection (!u.directionInverted)) _
  | false => exact emits_pure rfl

theorem emits_faceReceiving : Emits (fun es _ =>
    es = if u.hasDirection then [.setDirection u.directionInverted] else [])
    (u.faceReceiving d.recorded) := by
  unfold faceReceiving
  cases u.hasDirection with
  | true => exact emits_recording (fun _ => .setDirection u.directionInverted) _
  | false => exact emits_pure rfl

theorem shows_write {data : List UInt8} (h : u.Transmits data) :
    Shows (Writes u data) (u.write d.recorded p.recorded data) := by
  rw [write, h.live, h.sends, if_neg (by simp), if_neg (by simp), if_neg (by simp [h.whole]),
    if_neg (by simp [h.nonempty])]
  refine emits_faceSending.bind ?_
  rintro - - rfl
  refine (emits_begin _).bind ?_
  rintro - deadline ⟨start, rfl, rfl⟩
  cases hdirection : u.hasDirection with
  | false =>
    refine (shows_sendWords _ _ _).bind (fun es hsend => .plain hdirection hsend) ?_
    intro es result hsend
    exact shows_pure (by simpa using Writes.plain hdirection hsend)
  | true =>
    refine (shows_sendWords _ _ _).bind (fun es hsend => .unsent hdirection hsend) ?_
    intro es result hsend
    refine (shows_awaitIdle emits_waitRound none _).bind ?_ ?_
    · intro es' hdrain
      simpa using Writes.undrained hdirection hsend hdrain
    · intro es' drained hdrain
      refine emits_faceReceiving.bind ?_
      rintro - - rfl
      rw [hdirection]
      have hend := Writes.drained hdirection hsend hdrain
      unfold drainedAnswer at hend
      simp only [if_pos]
      split
      · exact shows_pure (by simpa using hend)
      · exact shows_pure (by simpa using hend)

end SerialLine.Uart
