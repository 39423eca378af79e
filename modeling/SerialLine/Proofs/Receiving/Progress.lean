import SerialLine.Proofs.Lines.Clocks
/-! # Reads that go on

Whatever driver and platform do.

* `GoesOn`: how a read is answered that had something already. `goesOn_receive`: so is every such read.
* `ReadClock`: a clock that nothing a read asks turns back.
* `receive_ends`: with such a clock the loop comes to an end. The measure of the induction is a timeout
  for every byte that is still to come, and what is left of the present one.
-/
set_option autoImplicit false

namespace SerialLine

variable {σ : Type} {d : Driver σ} {p : Platform σ}

/-- A clock that no operation of a read turns back. -/
structure ReadClock (d : Driver σ) (p : Platform σ) extends Clock p where
  takeWord : ∀ b, now b.outside ≤ now (d.takeWord b).2.outside
  resumeReceiving : ∀ b, now b.outside ≤ now (d.resumeReceiving b).2.outside

namespace ReadClock

variable (C : ReadClock d p)

/-- The same clock under a recording. -/
def recorded : ReadClock d.recorded p.recorded where
  toClock := C.toClock.recorded
  takeWord b := C.takeWord b.unrecorded
  resumeReceiving b := C.resumeReceiving b.unrecorded

theorem later_takeFromPeripheral (w : CharWidth) (n : Nat) :
    Obeys C.Later (Uart.takeFromPeripheral d w n) := by
  induction n with
  | zero => exact C.onward_later.pure _
  | succ n ih =>
    refine C.onward_later.bind C.takeWord fun word => ?_
    cases word with
    | none => exact C.onward_later.pure _
    | some word => exact C.onward_later.bind ih fun _ => C.onward_later.pure _

theorem later_takeWaiting (u : Uart) (room : Nat) : Obeys C.Later (u.takeWaiting d room) := by
  unfold Uart.takeWaiting
  cases u.rxBuffer with
  | none => exact C.later_takeFromPeripheral _ _
  | some id =>
    have hpop : Obeys C.Later (Bench.pop id room) := fun _ => le_rfl
    refine C.onward_later.bind hpop fun bytes => ?_
    dsimp only
    split
    · exact C.onward_later.bind C.resumeReceiving fun _ => C.onward_later.pure _
    · exact C.onward_later.pure _

end ReadClock

namespace Uart

variable {u : Uart} {want patience : Nat} {deadline : Deadline} {got : List UInt8} {b b' : Bench σ}
  {reply : ReadReply}

/-! ## Reads that have something -/

/-- How a read is answered that had some bytes already: it keeps them, and nothing but the interrupt makes
it fail. -/
structure GoesOn (got : List UInt8) (reply : ReadReply) : Prop where
  kept : got <+: reply.bytes
  outcome : reply.outcome = .ok reply.bytes.length ∨ reply.outcome = .error .canceled

theorem goesOn_finishRound (hsome : got ≠ []) (hrest : ∀ b,
      u.receive d p want patience deadline got b = .ok reply b' → GoesOn got reply)
    (h : u.finishRound d p want patience deadline got b = .ok reply b') : GoesOn got reply := by
  by_cases hfull : got.length = want
  · rw [finishRound_of_full hfull] at h
    cases h
    exact ⟨List.prefix_rfl, .inl rfl⟩
  · rcases hover : deadline.expired p b with ⟨isOver, b₁⟩
    cases isOver with
    | true =>
      rw [finishRound_of_over hfull hover, List.isEmpty_eq_false_iff.mpr hsome] at h
      cases h
      exact ⟨List.prefix_rfl, .inl rfl⟩
    | false =>
      rcases hwait : p.waitRound b₁ with ⟨ending, b₂⟩
      cases ending with
      | error e =>
        rw [finishRound_of_canceled hfull hover hwait] at h
        cases h
        obtain rfl := waitRound_error hwait
        exact ⟨List.prefix_rfl, .inr rfl⟩
      | ok _ =>
        rw [finishRound_of_waited hfull hover hwait] at h
        exact hrest b₂ h

/-- Later rounds only add to what a read has. -/
theorem goesOn_receive (hsome : got ≠ [])
    (h : u.receive d p want patience deadline got b = .ok reply b') : GoesOn got reply := by
  induction patience generalizing deadline got b with
  | zero => cases h
  | succ patience ih =>
    rw [receive_succ] at h
    rcases htaken : u.takeWaiting d (want - got.length) b with ⟨bytes, b₁⟩
    rcases hnext : nextDeadline p deadline bytes b₁ with ⟨deadline', b₂⟩
    simp only [htaken, hnext] at h
    have hmore : got ++ bytes ≠ [] := List.append_ne_nil_of_left_ne_nil hsome bytes
    obtain ⟨hkept, houtcome⟩ := goesOn_finishRound hmore (fun b h => ih hmore h) h
    exact ⟨(List.prefix_append got bytes).trans hkept, houtcome⟩

/-! ## Ends of reads -/

theorem length_takeFromPeripheral_le (w : CharWidth) (n : Nat) (b : Bench σ) :
    (takeFromPeripheral d w n b).1.length ≤ n * w.bytes := by
  induction n generalizing b with
  | zero => exact Nat.zero_le _
  | succ n ih =>
    rcases htake : d.takeWord b with ⟨word, b₁⟩
    simp only [takeFromPeripheral, bind, StateT.bind, htake]
    cases word with
    | none => exact Nat.zero_le _
    | some word =>
      have hrest := ih b₁
      show (w.encodeWord word ++ (takeFromPeripheral d w n b₁).1).length ≤ _
      rw [List.length_append, CharWidth.length_encodeWord, Nat.succ_mul]
      omega

/-- With a receive buffer, what is taken is popped off it. -/
theorem takeWaiting_bytes {id : BufferId} (hbuffer : u.rxBuffer = some id) (d : Driver σ) (room : Nat)
    (b : Bench σ) : (u.takeWaiting d room b).1 = ((b.buffers.ring id).pop room).1 := by
  have hpop : (Bench.pop id room b).1 = ((b.buffers.ring id).pop room).1 := rfl
  rw [← hpop, takeWaiting, hbuffer]
  rcases htaken : Bench.pop id room b with ⟨bytes, b₁⟩
  simp only [bind, StateT.bind, htaken]
  split <;> rfl

theorem length_takeWaiting_le (u : Uart) (d : Driver σ) (room : Nat) (b : Bench σ) :
    (u.takeWaiting d room b).1.length ≤ room := by
  cases hbuffer : u.rxBuffer with
  | none =>
    rw [takeWaiting, hbuffer]
    exact (length_takeFromPeripheral_le _ _ b).trans (Nat.div_mul_le_self _ _)
  | some id =>
    rw [takeWaiting_bytes hbuffer, RingBuffer.pop_bytes, CharWidth.length_encode]
    exact (Nat.mul_le_mul_right _ (List.length_take_le _ _)).trans (Nat.div_mul_le_self _ _)

/-- The rounds that a read may still wait: a timeout for every byte that is still to come, and what is left
of the present one. -/
def roundsLeft (want got : Nat) (deadline : Deadline) (now : Nat) : Nat :=
  (want - got) * deadline.limit + (deadline.limit - (now - deadline.start))

/-- A round in which nothing was taken uses up a millisecond of the present timeout. -/
theorem roundsLeft_waited {got now now' : Nat} (hlate : now < now') (hstart : deadline.start ≤ now)
    (hopen : now - deadline.start < deadline.limit) :
    roundsLeft want got deadline now' < roundsLeft want got deadline now := by
  unfold roundsLeft
  omega

/-- One in which something was taken uses up a millisecond of what a byte had been allowed. -/
theorem roundsLeft_taken {got n start now now' : Nat} (hpos : 0 < n) (hroom : n ≤ want - got)
    (hlimit : 0 < deadline.limit) (hlate : start < now') :
    roundsLeft want (got + n) { deadline with start := start } now' <
      roundsLeft want got deadline now := by
  have hless : (want - (got + n) + 1) * deadline.limit ≤ (want - got) * deadline.limit :=
    Nat.mul_le_mul_right _ (by omega)
  rw [Nat.succ_mul] at hless
  simp only [roundsLeft]
  omega

theorem finishRound_ends (C : ReadClock d p) (hrest : ∀ b₁, C.now b.outside < C.now b₁.outside →
      C.now b.outside - deadline.start < deadline.limit →
      ∃ reply b', u.receive d p want patience deadline got b₁ = .ok reply b') :
    ∃ reply b', u.finishRound d p want patience deadline got b = .ok reply b' := by
  by_cases hfull : got.length = want
  · exact ⟨_, _, finishRound_of_full hfull b⟩
  · obtain ⟨hbefore, hafter⟩ := C.ticks b
    have hover : deadline.expired p b =
      (decide (deadline.limit ≤ (p.ticks b).1 - deadline.start), (p.ticks b).2) := rfl
    by_cases hlate : deadline.limit ≤ (p.ticks b).1 - deadline.start
    · rw [decide_eq_true hlate] at hover
      exact ⟨_, _, finishRound_of_over hfull hover⟩
    · rw [decide_eq_false hlate] at hover
      have hpassed := C.later_waitRound (p.ticks b).2
      rcases hwait : p.waitRound (p.ticks b).2 with ⟨ending, b₁⟩
      rw [hwait] at hpassed
      simp only at hpassed
      cases ending with
      | error e => exact ⟨_, _, finishRound_of_canceled hfull hover hwait⟩
      | ok _ =>
        rw [finishRound_of_waited hfull hover hwait]
        exact hrest b₁ (by omega) (by omega)

theorem receive_ends (C : ReadClock d p) (hstart : deadline.start ≤ C.now b.outside)
    (hpatience : roundsLeft want got.length deadline (C.now b.outside) < patience) :
    ∃ reply b', u.receive d p want patience deadline got b = .ok reply b' := by
  induction patience generalizing deadline got b with
  | zero => exact absurd hpatience (Nat.not_lt_zero _)
  | succ patience ih =>
    rw [receive_succ]
    have htook : C.now b.outside ≤ _ := C.later_takeWaiting u (want - got.length) b
    have hroom := length_takeWaiting_le u d (want - got.length) b
    rcases htaken : u.takeWaiting d (want - got.length) b with ⟨bytes, b₁⟩
    simp only [htaken] at htook hroom
    -- either way, the measure is less once a round was waited
    cases bytes with
    | nil =>
      have hnext : nextDeadline p deadline [] b₁ = (deadline, b₁) := rfl
      simp only [hnext, List.append_nil]
      refine finishRound_ends C fun b₂ hpassed hopen => ih (by omega) ?_
      have hless : roundsLeft want got.length deadline (C.now b₂.outside) <
          roundsLeft want got.length deadline (C.now b.outside) :=
        roundsLeft_waited (htook.trans_lt hpassed) hstart (by omega)
      omega
    | cons byte bytes =>
      have hnext : nextDeadline p deadline (byte :: bytes) b₁ =
        ({ deadline with start := (p.ticks b₁).1 }, (p.ticks b₁).2) := rfl
      simp only [hnext]
      have hclock := (C.ticks b₁).2
      refine finishRound_ends C fun b₂ hpassed hopen => ih (by simp only; omega) ?_
      rw [List.length_append]
      have hless : roundsLeft want (got.length + (byte :: bytes).length)
          { deadline with start := (p.ticks b₁).1 } (C.now b₂.outside) <
            roundsLeft want got.length deadline (C.now b.outside) :=
        roundsLeft_taken (Nat.succ_pos bytes.length) hroom (Nat.zero_lt_of_lt hopen)
          (hclock.trans_lt hpassed)
      exact Nat.lt_of_lt_of_le hless (Nat.le_of_lt_succ hpatience)

/-- A read is answered if it may wait for as long as all the bytes that fit take to come in. -/
theorem read_ends (C : ReadClock d p) {room : Nat} (hlive : u.isShut = false)
    (hreceives : u.receives = true) (hroom : u.width.bytes ≤ room)
    (hpatience : (room + 1) * u.patienceMillis < p.patience) (b : Bench σ) :
    ∃ reply b', u.read d p room b = .ok reply b' := by
  rw [read_accepted hlive hreceives hroom]
  have hwant : room / u.width.bytes * u.width.bytes * u.patienceMillis ≤ room * u.patienceMillis :=
    Nat.mul_le_mul_right _ (Nat.div_mul_le_self _ _)
  refine receive_ends C (C.ticks b).2 (Nat.lt_of_le_of_lt ?_ hpatience)
  rw [Nat.succ_mul]
  exact Nat.add_le_add hwant (Nat.sub_le _ _)

end Uart
end SerialLine
