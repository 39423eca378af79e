import SerialLine.Proofs.Lines.Reading
import SerialLine.Proofs.Reception.Window
/-! # Readers over a block

What a reader gets from a line over a PL011 block, whatever else goes on while a call waits.

* `Traffic`: a relation on benches, with the bytes that a reader gets and the counts of dropped characters
  that it takes, which what goes on obeys.
* `Traffic.takeWaiting`, `Traffic.read`: a round of a read and the call obey it with the bytes that they put
  into the buffer of the caller.
* `Traffic.takeDropped`: so does taking the count of dropped characters.
-/
set_option autoImplicit false

namespace SerialLine.Pl011.Window

variable {σ : Type} {r : Registers σ} {chip : Place σ Chip} {W : Window r chip} {id : BufferId}

/-- What the answer to a read says of the bytes that it comes with. -/
def Truthful (reply : ReadReply) : Prop :=
  reply.outcome = .ok reply.bytes.length ∨ reply.outcome = .error .canceled ∨ reply.bytes = []

/-- What goes on around the readers of a line obeys `R`, from benches on where `G` holds. -/
structure Traffic (W : Window r chip) (id : BufferId) (p : Platform σ) (G : Bench σ → Prop)
    (R : Bench σ → Bench σ → List UInt8 → Nat → Prop) : Prop where
  holds : ∀ b, G b → b.buffers.Holds id
  keep : ∀ b b' out n, G b → R b b' out n → G b'
  quiet : ∀ b b', W.Quiet id b b' → R b b' [] 0
  trans : ∀ b b' b'' out out' n n', R b b' out n → R b' b'' out' n' → R b b'' (out ++ out') (n + n')
  pop : ∀ room b, G b → R b (Bench.pop id room b).2 (Bench.pop id room b).1 0
  take : ∀ b, G b → R b (Bench.ringDo id RingBuffer.takeDropped b).2 []
    (Bench.ringDo id RingBuffer.takeDropped b).1
  ticks : ∀ b, G b → R b (p.ticks b).2 [] 0
  background : ∀ b, G b → R b (p.background b).2 [] 0
  isInterrupted : ∀ b, G b → R b (p.isInterrupted b).2 [] 0

namespace Traffic

variable {p : Platform σ} {G : Bench σ → Prop} {R : Bench σ → Bench σ → List UInt8 → Nat → Prop}
  {u : Uart} {b b' b'' : Bench σ} {out : List UInt8} {n : Nat} {α β : Type}
variable (h : W.Traffic id p G R)
include h

theorem refl (b : Bench σ) : R b b [] 0 := h.quiet b b (.refl W id b)

theorem thenSilent (hfirst : R b b' out n) (hrest : R b' b'' [] 0) : R b b'' out n := by
  have hboth := h.trans _ _ _ _ _ _ _ hfirst hrest
  rwa [List.append_nil, Nat.add_zero] at hboth

theorem silentThen (hfirst : R b b' [] 0) (hrest : R b' b'' out n) : R b b'' out n := by
  have hboth := h.trans _ _ _ _ _ _ _ hfirst hrest
  rwa [List.nil_append, Nat.zero_add] at hboth

/-! ## Waits -/

omit h in
/-- Something by which a reader gets nothing. -/
def Silent (G : Bench σ → Prop) (R : Bench σ → Bench σ → List UInt8 → Nat → Prop)
    (f : StateM (Bench σ) α) : Prop := ∀ b, G b → R b (f b).2 [] 0

theorem silent_quiets {f : StateM (Bench σ) α} (hf : W.Quiets id f) : Silent G R f :=
  fun b _ => h.quiet _ _ (hf b)

theorem silent_pure (a : α) : Silent G R (pure a : StateM (Bench σ) α) :=
  h.silent_quiets (quiets_pure a)

theorem silent_bind {f : StateM (Bench σ) α} {g : α → StateM (Bench σ) β} (hf : Silent G R f)
    (hg : ∀ a, Silent G R (g a)) : Silent G R (f >>= g) := fun b hb =>
  h.silentThen (hf b hb) (hg (f b).1 (f b).2 (h.keep _ _ _ _ hb (hf b hb)))

theorem silent_begin (limit : Nat) : Silent G R (Deadline.begin p limit) :=
  h.silent_bind h.ticks fun _ => h.silent_pure _

theorem silent_restart (deadline : Deadline) : Silent G R (deadline.restart p) :=
  h.silent_bind h.ticks fun _ => h.silent_pure _

theorem silent_expired (deadline : Deadline) : Silent G R (deadline.expired p) :=
  h.silent_bind (h.silent_bind h.ticks fun _ => h.silent_pure _) fun _ => h.silent_pure _

theorem silent_waitRound : Silent G R p.waitRound := by
  refine h.silent_bind h.background fun _ => h.silent_bind h.isInterrupted fun interrupted => ?_
  cases interrupted with
  | true => exact h.silent_quiets ((quiets_logNote _ _).bind fun _ => quiets_pure _)
  | false => exact h.silent_pure _

theorem silent_nextDeadline (deadline : Deadline) (bytes : List UInt8) :
    Silent G R (Uart.nextDeadline p deadline bytes) := by
  unfold Uart.nextDeadline
  by_cases hnone : bytes.isEmpty = true
  · rw [if_pos hnone]
    exact h.silent_pure _
  · rw [if_neg hnone]
    exact h.silent_restart deadline

/-! ## Reading -/

theorem takeWaiting (hbuffer : u.rxBuffer = some id) (room : Nat) (hb : G b) :
    R b (u.takeWaiting (driver r chip) room b).2 (u.takeWaiting (driver r chip) room b).1 0 := by
  have hpop := h.pop room b hb
  rcases htaken : Bench.pop id room b with ⟨bytes, b₁⟩
  rw [htaken] at hpop
  have hresume : W.Quiet id b₁ ((driver r chip).resumeReceiving b₁).2 := quiets_resumeReceiving b₁
  by_cases hnone : bytes.isEmpty = true
  · have heq : u.takeWaiting (driver r chip) room b = (bytes, b₁) := by
      simp only [Uart.takeWaiting, hbuffer, bind, StateT.bind, htaken, hnone]
      rfl
    rw [heq]
    exact hpop
  · have heq : u.takeWaiting (driver r chip) room b =
        (bytes, ((driver r chip).resumeReceiving b₁).2) := by
      simp only [Uart.takeWaiting, hbuffer, bind, StateT.bind, htaken, hnone]
      rfl
    rw [heq]
    exact h.thenSilent hpop (h.quiet _ _ hresume)

/-- The rest of a round of a read adds what the rounds after it add. -/
theorem finishRound {want patience : Nat} {deadline : Deadline} {got : List UInt8} {reply : ReadReply}
    (hrest : ∀ deadline b, G b →
      u.receive (driver r chip) p want patience deadline got b = .ok reply b' →
      Truthful reply ∧ ∃ out, reply.bytes = got ++ out ∧ R b b' out 0)
    (hb : G b) (hend : u.finishRound (driver r chip) p want patience deadline got b = .ok reply b') :
    Truthful reply ∧ ∃ out, reply.bytes = got ++ out ∧ R b b' out 0 := by
  by_cases hfull : got.length = want
  · rw [Uart.finishRound_of_full hfull] at hend
    cases hend
    exact ⟨.inl rfl, [], (List.append_nil got).symm, h.refl b⟩
  · have hexpired := h.silent_expired deadline b hb
    rcases hover : deadline.expired p b with ⟨isOver, b₁⟩
    rw [hover] at hexpired
    have hb₁ := h.keep _ _ _ _ hb hexpired
    cases isOver with
    | true =>
      rw [Uart.finishRound_of_over hfull hover] at hend
      cases hend
      refine ⟨?_, [], (List.append_nil got).symm, hexpired⟩
      by_cases hnone : got.isEmpty = true
      · exact .inr (.inr (List.isEmpty_iff.mp hnone))
      · refine .inl ?_
        simp only
        rw [if_neg hnone]
    | false =>
      have hwait := h.silent_waitRound b₁ hb₁
      rcases hwaited : p.waitRound b₁ with ⟨ending, b₂⟩
      rw [hwaited] at hwait
      cases ending with
      | error e =>
        rw [Uart.finishRound_of_canceled hfull hover hwaited] at hend
        cases hend
        refine ⟨.inr (.inl ?_), [], (List.append_nil got).symm, h.silentThen hexpired hwait⟩
        rw [Uart.waitRound_error hwaited]
      | ok _ =>
        rw [Uart.finishRound_of_waited hfull hover hwaited] at hend
        obtain ⟨htruthful, out, hbytes, hrest⟩ := hrest _ _ (h.keep _ _ _ _ hb₁ hwait) hend
        exact ⟨htruthful, out, hbytes, h.silentThen hexpired (h.silentThen hwait hrest)⟩

/-- The loop of a read obeys the relation with the bytes that it adds to those it has got already. -/
theorem receive (hbuffer : u.rxBuffer = some id) {want : Nat} (patience : Nat) {deadline : Deadline}
    {got : List UInt8} {reply : ReadReply} (hb : G b)
    (hend : u.receive (driver r chip) p want patience deadline got b = .ok reply b') :
    Truthful reply ∧ ∃ out, reply.bytes = got ++ out ∧ R b b' out 0 := by
  induction patience generalizing deadline got b with
  | zero => cases hend
  | succ patience ih =>
    rw [Uart.receive_succ] at hend
    have htake := h.takeWaiting hbuffer (want - got.length) hb
    rcases htaken : u.takeWaiting (driver r chip) (want - got.length) b with ⟨bytes, b₁⟩
    rw [htaken] at htake
    have hb₁ := h.keep _ _ _ _ hb htake
    have hnext := h.silent_nextDeadline deadline bytes b₁ hb₁
    rcases hrestarted : Uart.nextDeadline p deadline bytes b₁ with ⟨deadline', b₂⟩
    rw [hrestarted] at hnext
    simp only [htaken, hrestarted] at hend
    obtain ⟨htruthful, out, hbytes, hrest⟩ :=
      h.finishRound (fun _ _ hb' hend' => ih hb' hend') (h.keep _ _ _ _ hb₁ hnext) hend
    -- the bytes are taken before the clock is looked at, so they come first
    refine ⟨htruthful, bytes ++ out, ?_, h.trans _ _ _ _ _ _ _ (h.thenSilent htake hnext) hrest⟩
    rw [hbytes, List.append_assoc]

/-- A read obeys the relation with the bytes that it puts into the buffer of its caller. -/
theorem read (hbuffer : u.rxBuffer = some id) (room : Nat) {reply : ReadReply} (hb : G b)
    (hend : u.read (driver r chip) p room b = .ok reply b') :
    Truthful reply ∧ R b b' reply.bytes 0 := by
  unfold Uart.read at hend
  by_cases hshut : u.isShut = true
  · rw [if_pos hshut] at hend
    cases hend
    exact ⟨.inr (.inr rfl), h.refl b⟩
  · rw [if_neg hshut] at hend
    by_cases hdeaf : (!u.receives) = true
    · rw [if_pos hdeaf] at hend
      cases hend
      exact ⟨.inr (.inr rfl), h.refl b⟩
    · rw [if_neg hdeaf] at hend
      by_cases hnone : room = 0
      · rw [if_pos hnone] at hend
        cases hend
        exact ⟨.inl rfl, h.refl b⟩
      · rw [if_neg hnone] at hend
        by_cases hshort : room < u.width.bytes
        · rw [if_pos hshort] at hend
          cases hend
          exact ⟨.inr (.inr rfl), h.refl b⟩
        · rw [if_neg hshort] at hend
          have hbegin := h.silent_begin u.patienceMillis b hb
          rcases hbegun : Deadline.begin p u.patienceMillis b with ⟨deadline, b₁⟩
          rw [hbegun] at hbegin
          simp only [bind, EStateM.bind, liftM, monadLift, MonadLift.monadLift, hbegun] at hend
          obtain ⟨htruthful, out, hbytes, hrest⟩ :=
            h.receive hbuffer _ (h.keep _ _ _ _ hb hbegin) hend
          rw [List.nil_append] at hbytes
          rw [hbytes]
          exact ⟨htruthful, h.silentThen hbegin hrest⟩

end Traffic
end SerialLine.Pl011.Window
