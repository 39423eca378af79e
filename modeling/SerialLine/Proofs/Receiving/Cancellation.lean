import SerialLine.Proofs.Receiving.Delivery
/-! # Interrupted reads

Where the characters are after a read that the console interrupt ended.

* `Answers.split`: a read that did not use up its room took all that waited when it began, and the first of
  the characters that came in.
* `canceled_read_keeps`: so did an interrupted one. These characters stand in the buffer of its caller,
  and the later ones wait. Nothing is lost between the two, but the answer does not tell how many there
  are.
-/
set_option autoImplicit false

namespace SerialLine.Uart

variable {σ : Type} {u : Uart} {d : Driver σ} {p : Platform σ} {I : Intake u d p} {b b' : Bench σ}
  {reply : ReadReply}

theorem Answers.split {room : Nat} {out new : List UInt16} (h : Answers I room [] out new b b' reply)
    (hb : I.Ready u b) (hfew : I.Few u b') (hroom : out.length < room) :
    ∃ early, out = I.waiting u b ++ early ∧ new = early ++ I.waiting u b' := by
  obtain ⟨early, rfl⟩ := h.drains hfew hroom
  refine ⟨early, rfl, ?_⟩
  have hqueue := h.gets.waiting hb hfew
  rw [List.append_assoc] at hqueue
  exact List.append_cancel_left hqueue

theorem rejection_outcome_ne {room : Nat} : (u.rejection room).outcome ≠ .error .canceled := by
  unfold rejection
  split_ifs <;> simp

/-- A read that the console interrupt ended had taken all that waited when it began, and the first
characters that came in. It put them into the buffer of its caller, where there was room for more. The
characters that came in later wait, in order, for the next read. -/
theorem canceled_read_keeps (I : Intake u d p) (hlive : u.isShut = false) (buffer : List UInt8)
    (hb : I.Ready u b) (hfew : I.Few u b') (h : u.read d p buffer.length b = .ok reply b')
    (hcanceled : reply.outcome = .error .canceled) :
    ∃ early, I.taken b'.outside = I.taken b.outside ++ (early ++ I.waiting u b') ∧
      (I.waiting u b ++ early).length < buffer.length / u.width.bytes ∧
      overlay reply.bytes buffer = u.width.encode (I.waiting u b ++ early) ++
        buffer.drop ((I.waiting u b ++ early).length * u.width.bytes) := by
  by_cases hno : u.receives = false ∨ buffer.length < u.width.bytes
  · rw [read_rejected hlive hno b] at h
    cases h
    exact absurd hcanceled rejection_outcome_ne
  · obtain ⟨hreceives, hroom⟩ := not_or.mp hno
    obtain ⟨out, new, hanswers⟩ := answers_read (I := I) hlive (by simpa using hreceives)
      (Nat.not_lt.mp hroom) hb h
    have hopen := (hanswers.canceled hcanceled).1
    have hreports := hanswers.reports
    rw [List.nil_append] at hopen hreports
    obtain ⟨early, rfl, rfl⟩ := hanswers.split hb hfew hopen
    exact ⟨early, hanswers.gets.taken, hopen, hreports.overlay_eq⟩

/-! ## Reads that are interrupted -/

/-- The console interrupt is pending once all characters have come in. -/
def interrupting : Platform Feed :=
  { feeding with isInterrupted := fun b => (b.outside.coming.isEmpty, b) }

def interruptedIntake : Intake nineBitLine Driver.inert interrupting :=
  Inlet.toIntake
    { feedInlet with isInterrupted := fun _ => ⟨rfl, rfl, fun _ _ => rfl, fun _ _ h => h⟩ }

/-- The bench after an interrupted read into eight bytes. -/
def interruptedBench : Bench Feed :=
  Act.final (nineBitLine.read Driver.inert interrupting 8) feedBench

theorem read_interrupted : nineBitLine.read Driver.inert interrupting 8 feedBench =
    .ok ⟨.error .canceled, [0x01, 0x01, 0x02, 0x01]⟩ interruptedBench := by
  have hread : Act.answer? (nineBitLine.read Driver.inert interrupting 8) feedBench =
      some ⟨.error .canceled, [0x01, 0x01, 0x02, 0x01]⟩ := by rfl
  exact Act.ok_of_answer? hread

/-- One character waits and two come in. The interrupt is found together with the second, when the first
is in the buffer already. -/
theorem canceled_read_keeps_fed :
    interruptedIntake.Few nineBitLine interruptedBench ∧
      ∃ early, interruptedIntake.taken interruptedBench.outside =
          interruptedIntake.taken feedBench.outside ++
            (early ++ interruptedIntake.waiting nineBitLine interruptedBench) ∧
        (interruptedIntake.waiting nineBitLine feedBench ++ early).length < 4 ∧
        [0x01, 0x01, 0x02, 0x01, 9, 9, 9, 9] =
          CharWidth.wide.encode (interruptedIntake.waiting nineBitLine feedBench ++ early) ++
            (List.replicate 8 9).drop
              ((interruptedIntake.waiting nineBitLine feedBench ++ early).length * 2) := by
  have hfew : interruptedIntake.Few nineBitLine interruptedBench := fun _ => by decide +kernel
  exact ⟨hfew, canceled_read_keeps interruptedIntake rfl (List.replicate 8 9) ready_feedBench hfew
    read_interrupted rfl⟩

/-- Two characters come in during every round, and the console interrupt is pending. -/
def bursting : Platform Feed where
  ticks := pure 0
  background := do
    Feed.background
    Feed.background
  isInterrupted := pure true
  patience := 1

/-- The counters of the buffer are about to wrap, and its capacity does not divide the number of values
that they go through. -/
def wrappingBench : Bench Feed where
  buffers := (({} : RxBuffers).add
    { storage := Array.replicate 6 0, capacity := 3, width := .wide, head := 0 - 1, tail := 0 - 1 }).2
  outside := ⟨[0x102, 0x103], []⟩

/-- After an interrupted read, the queue is not what it was with the new characters behind it: of the
three characters, two are in the buffer of the caller. And once 2^64 characters have come in, a buffer may
give one twice in place of another, whether or not a read took any. -/
theorem canceled_read_takes_characters :
    (nineBitLine.read Driver.inert interrupting 8 feedBench =
        .ok ⟨.error .canceled, [0x01, 0x01, 0x02, 0x01]⟩ interruptedBench ∧
      interruptedIntake.waiting nineBitLine feedBench = [0x101] ∧
      interruptedIntake.taken feedBench.outside = [0x101] ∧
      interruptedIntake.taken interruptedBench.outside = [0x101, 0x102, 0x103] ∧
      interruptedIntake.waiting nineBitLine interruptedBench = [0x103]) ∧
    Act.answer? (nineBitLine.read Driver.inert bursting 8) wrappingBench = some ⟨.error .canceled, []⟩ ∧
      ((Act.final (nineBitLine.read Driver.inert bursting 8) wrappingBench).buffers.ring ⟨0⟩).contents =
        [0x103, 0x103] := by
  refine ⟨?_, ?_, ?_⟩
  · exact ⟨read_interrupted, by decide +kernel⟩
  · rfl
  · decide +kernel

end SerialLine.Uart
