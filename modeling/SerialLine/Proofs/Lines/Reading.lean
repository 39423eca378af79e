import SerialLine.Uart.Receiving
/-! # Calls and rounds of a read

* `read_rejected`, `read_accepted`: a read is answered at once or enters the loop.
* `receive_succ`: a round takes what waits, begins the deadline anew if that was something, and finishes.
* `finishRound_of_*`: the four ways to finish. The buffer is full, the deadline is over, the console
  interrupt ends the wait, or another round follows.
-/
set_option autoImplicit false

namespace SerialLine.Uart

variable {σ : Type} {u : Uart} {d : Driver σ} {p : Platform σ} {want patience : Nat}
  {deadline : Deadline} {got : List UInt8}

/-! ## Calls -/

/-- The answer to a read that is not let through to the peripheral. -/
def rejection (u : Uart) (room : Nat) : ReadReply :=
  if u.receives = false then ⟨.error .notSupported, []⟩
  else if room = 0 then ⟨.ok 0, []⟩
  else ⟨.error .invalidArgs, []⟩

theorem read_rejected {τ : Type} {d : Driver τ} {p : Platform τ} {room : Nat}
    (hlive : u.isShut = false) (h : u.receives = false ∨ room < u.width.bytes) (b : Bench τ) :
    u.read d p room b = .ok (u.rejection room) b := by
  unfold read rejection
  cases hreceives : u.receives with
  | false =>
    rw [hlive]
    rfl
  | true =>
    have hshort : room < u.width.bytes := h.resolve_left (by simp [hreceives])
    simp only [hlive, Bool.not_true, Bool.false_eq_true, if_false, Bool.true_eq_false]
    by_cases hnone : room = 0
    · rw [if_pos hnone, if_pos hnone]
      rfl
    · rw [if_neg hnone, if_neg hnone, if_pos hshort]
      rfl

/-- A read that is let through begins a deadline and enters the loop. -/
theorem read_accepted {room : Nat} (hlive : u.isShut = false) (hreceives : u.receives = true)
    (hroom : u.width.bytes ≤ room) (b : Bench σ) :
    u.read d p room b =
      u.receive d p (room / u.width.bytes * u.width.bytes) p.patience
        (Deadline.begin p u.patienceMillis b).1 (u.width.encode [])
        (Deadline.begin p u.patienceMillis b).2 := by
  have hwidth := u.width.bytes_pos
  have hwhole : room / u.width.bytes * u.width.bytes = room - room % u.width.bytes := by
    have := Nat.div_add_mod' room u.width.bytes
    omega
  unfold read
  rw [hlive, hreceives, hwhole, if_neg (by simp), if_neg (by simp), if_neg (by omega),
    if_neg (by omega)]
  rfl

/-! ## Rounds -/

/-- The deadline after a round in which `bytes` were taken. -/
def nextDeadline (p : Platform σ) (deadline : Deadline) (bytes : List UInt8) :
    StateM (Bench σ) Deadline :=
  if bytes.isEmpty then pure deadline else deadline.restart p

/-- The rest of a round, from the look whether the buffer is full. -/
def finishRound (u : Uart) (d : Driver σ) (p : Platform σ) (want patience : Nat)
    (deadline : Deadline) (got : List UInt8) : Act (Bench σ) ReadReply := do
  if got.length = want then return ⟨.ok got.length, got⟩
  if ← deadline.expired p then
    return ⟨if got.isEmpty then .error .shouldWait else .ok got.length, got⟩
  match ← p.waitRound with
  | .error e => return ⟨.error e, got⟩
  | .ok () => u.receive d p want patience deadline got

theorem receive_succ (b : Bench σ) :
    u.receive d p want (patience + 1) deadline got b =
      let (bytes, b₁) := u.takeWaiting d (want - got.length) b
      let (deadline, b₂) := nextDeadline p deadline bytes b₁
      u.finishRound d p want patience deadline (got ++ bytes) b₂ := by
  rw [receive]
  rcases htaken : u.takeWaiting d (want - got.length) b with ⟨bytes, b₁⟩
  simp only [bind, EStateM.bind, liftM, monadLift, MonadLift.monadLift, htaken, nextDeadline]
  by_cases hnone : bytes.isEmpty = true
  · rw [if_pos hnone, if_pos hnone]
    rfl
  · rw [if_neg hnone, if_neg hnone]
    rfl

theorem finishRound_of_full (h : got.length = want) (b : Bench σ) :
    u.finishRound d p want patience deadline got b = .ok ⟨.ok got.length, got⟩ b := by
  rw [finishRound, if_pos h]
  rfl

theorem finishRound_of_over {b b₁ : Bench σ} (h : got.length ≠ want)
    (hover : deadline.expired p b = (true, b₁)) :
    u.finishRound d p want patience deadline got b =
      .ok ⟨if got.isEmpty then .error .shouldWait else .ok got.length, got⟩ b₁ := by
  rw [finishRound, if_neg h]
  simp only [bind, EStateM.bind, liftM, monadLift, MonadLift.monadLift, hover]
  rfl

theorem finishRound_of_canceled {b b₁ b₂ : Bench σ} {e : Error} (h : got.length ≠ want)
    (hover : deadline.expired p b = (false, b₁)) (hwait : p.waitRound b₁ = (.error e, b₂)) :
    u.finishRound d p want patience deadline got b = .ok ⟨.error e, got⟩ b₂ := by
  rw [finishRound, if_neg h]
  simp only [bind, EStateM.bind, liftM, monadLift, MonadLift.monadLift, hover, hwait,
    Bool.false_eq_true, if_false]
  rfl

theorem finishRound_of_waited {b b₁ b₂ : Bench σ} (h : got.length ≠ want)
    (hover : deadline.expired p b = (false, b₁)) (hwait : p.waitRound b₁ = (.ok (), b₂)) :
    u.finishRound d p want patience deadline got b = u.receive d p want patience deadline got b₂ := by
  rw [finishRound, if_neg h]
  simp only [bind, EStateM.bind, liftM, monadLift, MonadLift.monadLift, hover, hwait,
    Bool.false_eq_true, if_false]

/-- A wait is ended by nothing but the console interrupt. -/
theorem waitRound_error {b b' : Bench σ} {e : Error} (h : p.waitRound b = (.error e, b')) :
    e = .canceled := by
  rcases hback : p.background b with ⟨⟨⟩, b₁⟩
  rcases hlook : p.isInterrupted b₁ with ⟨interrupted, b₂⟩
  simp only [Platform.waitRound, bind, StateT.bind, hback, hlook] at h
  cases interrupted with
  | true =>
    cases h
    rfl
  | false => cases h

end SerialLine.Uart
