import SerialLine.Proofs.Lines.Frame
import SerialLine.Proofs.Receiving.Intake
import SerialLine.Proofs.Ring.Admission
/-! # How much waits

The number of the waiting characters. It is right also where the counters of a receive buffer have wrapped,
when its contents need not be what came in.

* `waiting_buffered`, `waiting_unbuffered`, `Holdings.waitingCount_eq`: what a line tells of it.
* `Holdings.Grows`: a queue that nothing was taken from.
* `takeWaiting_of_empty`: nothing is taken if nothing waits.
* `receive_at_once`: a read without a timeout takes what waits and is over.
-/
set_option autoImplicit false

namespace SerialLine

theorem RingBuffer.Fed.available_eq {r r' : RingBuffer} {new : List UInt16} (h : r.Fed new r')
    (hr : r.Sound) : r'.available = r.available + new.length := by
  induction h with
  | refl => rfl
  | @taken new r' word h hroom ih =>
    have hcap := (h.sound hr).capacity_lt
    rw [push_of_room hroom, List.length_append, List.length_singleton, ← Nat.add_assoc, ← ih]
    exact available_head_succ (by omega) _
  | dropped _ ih => exact ih

namespace Uart

variable {σ : Type} {u : Uart} {d : Driver σ} {p : Platform σ}

theorem waitingCount_live (hlive : u.isShut = false) (b : Bench σ) :
    (u.waitingCount d b).1 = .ok (u.waiting d b).1 := by
  rw [waitingCount, hlive, if_neg Bool.false_ne_true]
  rfl

theorem waiting_buffered {id : BufferId} (hbuffer : u.rxBuffer = some id) (b : Bench σ) :
    (u.waiting d b).1 = (b.buffers.ring id).available := by
  rw [waiting, hbuffer]
  rfl

theorem waiting_unbuffered (hbuffer : u.rxBuffer = none) (b : Bench σ) :
    (u.waiting d b).1 = if u.receives then (d.receivedCount b).1 else 0 := by
  rw [waiting, hbuffer]
  cases u.receives <;> rfl

namespace Holdings

variable {H : Holdings σ} {b b' b'' : Bench σ}

theorem length_waiting_of_some {id : BufferId} (hbuffer : u.rxBuffer = some id) (b : Bench σ) :
    (H.waiting u b).length = (b.buffers.ring id).available := by
  rw [waiting, hbuffer]
  exact RingBuffer.length_contents _

/-- A line tells how many characters wait, if its peripheral can count those that it holds. -/
theorem waitingCount_eq (H : Holdings σ) (hlive : u.isShut = false) (hreceives : u.receives = true)
    (hcount : u.rxBuffer = none → (d.receivedCount b).1 = (H.held b.outside).length) :
    (u.waitingCount d b).1 = .ok (H.waiting u b).length := by
  rw [waitingCount_live hlive]
  cases hbuffer : u.rxBuffer with
  | some id => rw [length_waiting_of_some hbuffer, waiting_buffered hbuffer]
  | none => rw [waiting_unbuffered hbuffer, if_pos hreceives, hcount hbuffer, waiting, hbuffer]

/-- At most new characters came to the queue of a line. -/
structure Grows (H : Holdings σ) (u : Uart) (b b' : Bench σ) : Prop where
  ready : H.Ready u b'
  taken : H.taken b.outside <+: H.taken b'.outside
  length_waiting : (H.waiting u b').length + (H.taken b.outside).length =
    (H.waiting u b).length + (H.taken b'.outside).length

theorem Grows.refl (hb : H.Ready u b) : H.Grows u b b := ⟨hb, List.prefix_rfl, rfl⟩

theorem Grows.trans (h : H.Grows u b b') (h' : H.Grows u b' b'') : H.Grows u b b'' where
  ready := h'.ready
  taken := h.taken.trans h'.taken
  length_waiting := by
    have := h.length_waiting
    have := h'.length_waiting
    omega

theorem Arrives.length_waiting {new : List UInt16} (h : H.Arrives u new b b') (hb : H.Ready u b) :
    (H.waiting u b').length = (H.waiting u b).length + new.length := by
  cases hbuffer : u.rxBuffer with
  | none =>
    rw [waiting, waiting, hbuffer]
    dsimp only
    rw [h.held hbuffer, List.length_append]
  | some id =>
    rw [length_waiting_of_some hbuffer, length_waiting_of_some hbuffer,
      (h.ring id hbuffer).available_eq (hb id hbuffer).2.sound]

theorem grows_of_admits (h : H.Admits u b b') (hb : H.Ready u b) : H.Grows u b b' := by
  obtain ⟨new, harrives⟩ := h fun id hbuffer => (hb id hbuffer).1
  refine ⟨(gets_of_arrives harrives).ready hb, ⟨new, harrives.taken.symm⟩, ?_⟩
  rw [harrives.length_waiting hb, harrives.taken, List.length_append]
  omega

theorem Grows.empty (h : H.Grows u b b') (hsame : H.taken b'.outside = H.taken b.outside)
    (hempty : H.waiting u b = []) : H.waiting u b' = [] := by
  have hlength := h.length_waiting
  rw [hsame, hempty, List.length_nil, Nat.zero_add, Nat.add_eq_right] at hlength
  exact List.eq_nil_of_length_eq_zero hlength

/-- If nothing was taken between two moments, nothing was taken until any moment between them. -/
theorem taken_between (h : H.taken b.outside <+: H.taken b'.outside)
    (h' : H.taken b'.outside <+: H.taken b''.outside)
    (hsame : H.taken b''.outside = H.taken b.outside) : H.taken b'.outside = H.taken b.outside :=
  (h.eq_of_length_le (by rw [← hsame]; exact h'.length_le)).symm

end Holdings

/-! ## One round of a read -/

section
variable (I : Intake u d p) {room : Nat} {b : Bench σ}

/-- Nothing is taken if nothing waits and nothing comes in. -/
theorem takeWaiting_of_empty (hb : I.Ready u b) (hempty : I.waiting u b = [])
    (hsame : I.taken (u.takeWaiting d room b).2.outside = I.taken b.outside) :
    (u.takeWaiting d room b).1 = [] := by
  cases hbuffer : u.rxBuffer with
  | some id =>
    have hbytes := (Holdings.gets_pop hbuffer room hb).1
    rw [hempty, List.take_nil, CharWidth.encode_nil] at hbytes
    rcases hpop : Bench.pop id room b with ⟨bytes, b₁⟩
    rw [hpop] at hbytes
    simp only at hbytes
    simp only [takeWaiting, hbuffer, bind, StateT.bind, hpop, hbytes, List.isEmpty_nil, Bool.not_true,
      Bool.false_eq_true, if_false]
    rfl
  | none =>
    obtain ⟨out, new, hbytes, htook⟩ := took_takeWaiting I room hb
    have htaken := htook.gets.taken
    rw [hsame, List.self_eq_append_right] at htaken
    have hqueue := htook.gets.waiting hb (fun hsome => by rw [hbuffer] at hsome; cases hsome)
    rw [hempty, htaken, List.nil_append] at hqueue
    rw [hbytes, (List.append_eq_nil_iff.mp hqueue.symm).1, CharWidth.encode_nil]

/-! ## Reads that do not wait -/

/-- Without a timeout, the first round is the last one. -/
theorem receive_at_once (want patience : Nat) {deadline : Deadline} (got : List UInt8)
    (hlimit : deadline.limit = 0) (hb : I.Ready u b) :
    ∃ reply b', u.receive d p want (patience + 1) deadline got b = .ok reply b' ∧
      I.Grows u (u.takeWaiting d (want - got.length) b).2 b' ∧
      (got.length ≠ want → (u.takeWaiting d (want - got.length) b).1 = [] →
        reply = ⟨if got.isEmpty then .error .shouldWait else .ok got.length, got⟩) := by
  obtain ⟨out, new, -, htook⟩ := took_takeWaiting I (want - got.length) hb
  have hready := htook.gets.ready hb
  rw [receive_succ]
  rcases htaken : u.takeWaiting d (want - got.length) b with ⟨bytes, b₁⟩
  rw [htaken] at hready
  obtain ⟨hgrows, hnext⟩ : I.Grows u b₁ (nextDeadline p deadline bytes b₁).2 ∧
      (nextDeadline p deadline bytes b₁).1.limit = 0 := by
    unfold nextDeadline
    split
    · exact ⟨.refl hready, hlimit⟩
    · exact ⟨Holdings.grows_of_admits (I.ticks b₁) hready, hlimit⟩
  rcases hdeadline : nextDeadline p deadline bytes b₁ with ⟨deadline', b₂⟩
  rw [hdeadline] at hgrows hnext
  simp only [hdeadline] at hnext ⊢
  by_cases hfull : (got ++ bytes).length = want
  · refine ⟨⟨.ok (got ++ bytes).length, got ++ bytes⟩, b₂, finishRound_of_full hfull b₂, hgrows,
      fun hopen hnone => ?_⟩
    rw [hnone, List.append_nil] at hfull
    exact absurd hfull hopen
  · have hover : deadline'.expired p b₂ = (true, (p.ticks b₂).2) := by
      show (decide (deadline'.limit ≤ _), _) = _
      rw [hnext, decide_eq_true (Nat.zero_le _)]
    refine ⟨_, _, finishRound_of_over hfull hover,
      hgrows.trans (Holdings.grows_of_admits (I.ticks b₂) hgrows.ready), fun _ hnone => ?_⟩
    rw [hnone, List.append_nil]

/-- A read without a timeout of a queue that nothing waits in and nothing comes to. -/
theorem read_of_empty (hlive : u.isShut = false) (hreceives : u.receives = true)
    (hpatience : 0 < p.patience) (hzero : u.patienceMillis = 0) (hroom : u.width.bytes ≤ room)
    (hb : I.Ready u b) (hempty : I.waiting u b = [])
    (hsame : I.taken (Act.final (u.read d p room) b).outside = I.taken b.outside) :
    ∃ b', u.read d p room b = .ok ⟨.error .shouldWait, []⟩ b' := by
  have hbegun := Holdings.grows_of_admits (I.ticks b) hb
  have hbegin : Deadline.begin p u.patienceMillis b = (⟨(p.ticks b).1, 0⟩, (p.ticks b).2) := by
    rw [← hzero]
    rfl
  have hlimit : (Deadline.mk (p.ticks b).1 0).limit = 0 := rfl
  have hpos : 0 < room / u.width.bytes * u.width.bytes :=
    Nat.mul_pos (Nat.div_pos hroom u.width.bytes_pos) u.width.bytes_pos
  obtain ⟨patience, hsucc⟩ := Nat.exists_eq_succ_of_ne_zero hpatience.ne'
  obtain ⟨reply, b', hend, hgrows, hreply⟩ := receive_at_once I
    (room / u.width.bytes * u.width.bytes) patience (u.width.encode []) hlimit hbegun.ready
  have hread : u.read d p room b = .ok reply b' := by
    rw [read_accepted hlive hreceives hroom, hbegin, hsucc]
    exact hend
  obtain ⟨out, new, -, htook⟩ := took_takeWaiting I
    (room / u.width.bytes * u.width.bytes - (u.width.encode []).length) hbegun.ready
  have htaken : I.taken (p.ticks b).2.outside <+: I.taken _ := ⟨new, htook.gets.taken.symm⟩
  rw [Act.final, hread] at hsame
  have hbefore := Holdings.taken_between hbegun.taken (htaken.trans hgrows.taken) hsame
  have hafter := Holdings.taken_between htaken hgrows.taken (hsame.trans hbefore.symm)
  have hnothing := takeWaiting_of_empty I hbegun.ready (hbegun.empty hbefore hempty) hafter
  rw [hread, hreply hpos.ne hnothing]
  exact ⟨b', rfl⟩

end

end Uart
end SerialLine
