import SerialLine.Proofs.Reception.Moving
import SerialLine.Proofs.Reception.Traffic
/-! # The flow of received characters

How received characters move from the block through the receive buffer to the reader.

* `Beat`: the four things that can happen to them. A character moves from the block to the buffer only
  if the buffer has room.
* `Flow`: several beats in order, with the bytes that readers got and the counts of dropped characters
  that were taken on the way.
* `flow_serve`, `Meanwhile.flow`: serving the interrupt of a block with flow control and whatever goes on
  between and inside calls are flows. `traffic_flow`: so they are with readers.
-/
set_option autoImplicit false

namespace SerialLine.Pl011.Window

variable {σ α : Type} {r : Registers σ} {chip : Place σ Chip} {W : Window r chip} {id : BufferId}

/-- One thing that happens to received characters, with the bytes that a reader gets by it and the
count of dropped characters that is taken. -/
inductive Beat (W : Window r chip) (id : BufferId) :
    Bench σ → Bench σ → List UInt8 → Nat → Prop where
  /-- Characters arrive in the block. -/
  | quiet {b b' : Bench σ} (h : W.Quiet id b b') : Beat W id b b' [] 0
  /-- The oldest one moves into the buffer, which has room. -/
  | move {b b' : Bench σ} {word : UInt32} {rest new : List UInt32} (hkeeps : Keeps chip id b b')
      (hroom : 0 < (b.buffers.ring id).space) (hwaiting : W.waiting b.outside = word :: rest)
      (hring : b'.buffers.ring id = moved (b.buffers.ring id) word)
      (hwaiting' : W.waiting b'.outside = rest ++ new)
      (haccepted' : W.accepted b'.outside = W.accepted b.outside ++ new) : Beat W id b b' [] 0
  /-- A reader gets the oldest ones of the buffer. -/
  | pop {b b' : Bench σ} (room : Nat) (hkeeps : Keeps chip id b b')
      (hring : b'.buffers.ring id = ((b.buffers.ring id).pop room).2)
      (harrives : W.Arrives b.outside b'.outside) :
      Beat W id b b' ((b.buffers.ring id).pop room).1 0
  /-- The count of dropped characters is taken. -/
  | take {b b' : Bench σ} (hkeeps : Keeps chip id b b')
      (hring : b'.buffers.ring id = (b.buffers.ring id).takeDropped.2)
      (harrives : W.Arrives b.outside b'.outside) :
      Beat W id b b' [] (b.buffers.ring id).takeDropped.1

/-- Several beats in order, with all the bytes that readers got and the sum of the counts taken. -/
inductive Flow (W : Window r chip) (id : BufferId) :
    Bench σ → Bench σ → List UInt8 → Nat → Prop where
  | refl (b : Bench σ) : Flow W id b b [] 0
  | beat {b b' b'' : Bench σ} {out out' : List UInt8} {n n' : Nat} (h : Flow W id b b' out n)
      (hbeat : W.Beat id b' b'' out' n') : Flow W id b b'' (out ++ out') (n + n')

theorem Beat.flow {b b' : Bench σ} {out : List UInt8} {n : Nat} (h : W.Beat id b b' out n) :
    W.Flow id b b' out n := by
  have hflow := (Flow.refl b).beat h
  rwa [List.nil_append, Nat.zero_add] at hflow

theorem Quiet.flow {b b' : Bench σ} (h : W.Quiet id b b') : W.Flow id b b' [] 0 :=
  (Beat.quiet h).flow

theorem Flow.trans {b b' b'' : Bench σ} {out out' : List UInt8} {n n' : Nat}
    (h : W.Flow id b b' out n) (h' : W.Flow id b' b'' out' n') :
    W.Flow id b b'' (out ++ out') (n + n') := by
  induction h' with
  | refl =>
    rw [List.append_nil, Nat.add_zero]
    exact h
  | beat _ hbeat ih =>
    rw [← List.append_assoc, ← Nat.add_assoc]
    exact ih.beat hbeat

theorem Flow.then {b b' b'' : Bench σ} {out : List UInt8} {n : Nat} (h : W.Flow id b b' [] 0)
    (h' : W.Flow id b' b'' out n) : W.Flow id b b'' out n := by
  have hflow := h.trans h'
  rwa [List.nil_append, Nat.zero_add] at hflow

theorem Flow.thenSilent {b b' b'' : Bench σ} {out : List UInt8} {n : Nat}
    (h : W.Flow id b b' out n) (h' : W.Flow id b' b'' [] 0) : W.Flow id b b'' out n := by
  have hflow := h.trans h'
  rwa [List.append_nil, Nat.add_zero] at hflow

theorem Flow.thenQuiet {b b' b'' : Bench σ} {out : List UInt8} {n : Nat}
    (h : W.Flow id b b' out n) (h' : W.Quiet id b' b'') : W.Flow id b b'' out n :=
  h.thenSilent h'.flow

theorem Beat.keeps {b b' : Bench σ} {out : List UInt8} {n : Nat} (h : W.Beat id b b' out n) :
    Keeps chip id b b' := by
  cases h with
  | quiet h => exact ⟨h.holds, h.chip⟩
  | move hkeeps => exact hkeeps
  | pop room hkeeps => exact hkeeps
  | take hkeeps => exact hkeeps

theorem Flow.keeps {b b' : Bench σ} {out : List UInt8} {n : Nat} (h : W.Flow id b b' out n) :
    Keeps chip id b b' := by
  induction h with
  | refl => exact ⟨fun hb => hb, rfl⟩
  | beat _ hbeat ih => exact ih.trans hbeat.keeps

/-! ## Serving the interrupt -/

theorem beat_moveOne {b : Bench σ} (hold : Bool) (hholds : b.buffers.Holds id)
    (hroom : 0 < (b.buffers.ring id).space) (hwaiting : W.waiting b.outside ≠ []) :
    W.Beat id b (Interrupt.moveOne ⟨id, hold⟩ r b).2 [] 0 := by
  obtain ⟨word, rest, hword⟩ := List.exists_cons_of_ne_nil hwaiting
  obtain ⟨-, new, hmoves⟩ := moves_moveOne hold hholds hword
  have hrest := hmoves.waiting
  rw [hword] at hrest
  exact .move hmoves.keeps hroom hword hmoves.ring (List.cons.inj hrest).2.symm hmoves.accepted

/-- The service of a block with flow control looks for room before it takes a character. -/
theorem flow_moveAll (rounds count : Nat) {b : Bench σ} (hholds : b.buffers.Holds id) :
    W.Flow id b (Interrupt.moveAll ⟨id, true⟩ r rounds count b).2 [] 0 := by
  induction rounds generalizing count b with
  | zero => exact .refl b
  | succ rounds ih =>
    have hquiet : W.Quiet id b { b with outside := (r.read fr b.outside).2 } :=
      quiets_outsideDo (leaves_read (by decide)) b
    have hlook : Bench.outsideDo (r.read fr) b =
        ((r.read fr b.outside).1, { b with outside := (r.read fr b.outside).2 }) := rfl
    by_cases hempty : (r.read fr b.outside).1 &&& frRxEmpty ≠ 0
    · rw [Interrupt.moveAll_of_empty hlook hempty]
      exact hquiet.flow
    · have hsome : (r.read fr b.outside).1 &&& frRxEmpty = 0 := Decidable.not_not.mp hempty
      by_cases hfull : (b.buffers.ring id).space = 0
      · rw [Interrupt.moveAll_of_held hlook hsome rfl hfull]
        exact hquiet.flow.thenQuiet (quiets_outsideDo (leaves_clearBits_imsc _) _)
      · have hbeat := beat_moveOne (W := W) true (hquiet.holds hholds) (Nat.pos_of_ne_zero hfull)
          (W.waiting_of_flags hsome)
        rcases hmove : Interrupt.moveOne ⟨id, true⟩ r { b with outside := (r.read fr b.outside).2 }
          with ⟨yes, b'⟩
        rw [hmove] at hbeat
        rw [Interrupt.moveAll_of_moved hlook hsome (fun _ => hfull) hmove]
        exact hquiet.flow.then (hbeat.flow.then (ih _ (hbeat.keeps.holds (hquiet.holds hholds))))

theorem flow_serve (rounds : Nat) {b : Bench σ} (hholds : b.buffers.Holds id) :
    W.Flow id b (Interrupt.serve ⟨id, true⟩ r rounds b).2 [] 0 := by
  have hquiet : W.Quiet id b (Bench.outsideDo (r.read mis) b).2 :=
    quiets_outsideDo (leaves_read (by decide)) b
  rcases hlook : Bench.outsideDo (r.read mis) b with ⟨raised, b₁⟩
  rw [hlook] at hquiet
  have hclear (b' : Bench σ) : W.Quiet id b' (Bench.outsideDo (r.write icr raised) b').2 :=
    quiets_outsideDo (leaves_write (by decide) _) b'
  by_cases hraised : raised &&& intAll ≠ 0
  · have hmove := flow_moveAll (W := W) rounds 0 (hquiet.holds hholds)
    rcases hmoved : Interrupt.moveAll ⟨id, true⟩ r rounds 0 b₁ with ⟨count, b₂⟩
    rw [hmoved] at hmove
    cases count with
    | none =>
      rw [Interrupt.serve_of_unfinished hlook hraised hmoved]
      exact hquiet.flow.then hmove
    | some n =>
      rw [Interrupt.serve_of_moved hlook hraised hmoved]
      exact hquiet.flow.then (hmove.thenQuiet (hclear b₂))
  · rw [Interrupt.serve_of_idle hlook (Decidable.not_not.mp hraised)]
    exact hquiet.flow.thenQuiet (hclear b₁)

/-! ## Between and inside calls -/

/-- The buffer exists, and the driver has the interrupt of the block served into it with flow control. -/
structure Installed (chip : Place σ Chip) (id : BufferId) (b : Bench σ) : Prop where
  holds : b.buffers.Holds id
  interrupt : (chip.get b.outside).interrupt = some ⟨id, true⟩

theorem Installed.keep {b b' : Bench σ} (h : Installed chip id b) (hkeeps : Keeps chip id b b') :
    Installed chip id b' :=
  ⟨hkeeps.holds h.holds, by rw [hkeeps.chip]; exact h.interrupt⟩

theorem Installed.flow {b b' : Bench σ} {out : List UInt8} {n : Nat} (h : Installed chip id b)
    (hflow : W.Flow id b b' out n) : Installed chip id b' :=
  h.keep hflow.keeps

/-- What goes on between calls and in the background of waits: characters arrive in the block, the
interrupt is served as it is installed, and other things happen that do not concern the line. -/
inductive Meanwhile (W : Window r chip) (id : BufferId) : Bench σ → Bench σ → Prop where
  | refl (b : Bench σ) : Meanwhile W id b b
  | quiet {b b' b'' : Bench σ} (h : Meanwhile W id b b') (hquiet : W.Quiet id b' b'') :
      Meanwhile W id b b''
  | serve {b b' : Bench σ} {i : Interrupt} (rounds : Nat) (h : Meanwhile W id b b')
      (hinstalled : (chip.get b'.outside).interrupt = some i) :
      Meanwhile W id b (i.serve r rounds b').2

theorem Meanwhile.flow {b b' : Bench σ} (h : W.Meanwhile id b b') (hb : Installed chip id b) :
    W.Flow id b b' [] 0 := by
  induction h with
  | refl => exact .refl _
  | quiet _ hquiet ih => exact ih.thenQuiet hquiet
  | serve rounds _ hinstalled ih =>
    have hb' := hb.flow ih
    obtain rfl := Option.some.inj (hb'.interrupt.symm.trans hinstalled)
    exact ih.then (flow_serve rounds hb'.holds)

/-- A platform on which nothing else goes on while a call waits or looks at the clock, once reception
is installed. -/
structure Suits (W : Window r chip) (id : BufferId) (p : Platform σ) : Prop where
  ticks : ∀ b, Installed chip id b → W.Meanwhile id b (p.ticks b).2
  background : ∀ b, Installed chip id b → W.Meanwhile id b (p.background b).2
  isInterrupted : ∀ b, Installed chip id b → W.Meanwhile id b (p.isInterrupted b).2

/-- Readers and what goes on meanwhile make a flow. -/
theorem traffic_flow {p : Platform σ} (hp : W.Suits id p) :
    W.Traffic id p (Installed chip id) (W.Flow id) where
  holds _ hb := hb.holds
  keep _ _ _ _ hb hflow := hb.flow hflow
  quiet _ _ hquiet := hquiet.flow
  trans _ _ _ _ _ _ _ hflow hflow' := hflow.trans hflow'
  pop room b hb := by
    have hpop : W.Beat id b (Bench.pop id room b).2 (Bench.pop id room b).1 0 :=
      .pop room ⟨fun h => h.set _, rfl⟩ (RxBuffers.ring_set_self hb.holds _) (.refl _ _)
    exact hpop.flow
  take b hb := by
    have htake : W.Beat id b (Bench.ringDo id RingBuffer.takeDropped b).2 []
        (Bench.ringDo id RingBuffer.takeDropped b).1 :=
      .take ⟨fun h => h.set _, rfl⟩ (RxBuffers.ring_set_self hb.holds _) (.refl _ _)
    exact htake.flow
  ticks b hb := (hp.ticks b hb).flow hb
  background b hb := (hp.background b hb).flow hb
  isInterrupted b hb := (hp.isInterrupted b hb).flow hb

end SerialLine.Pl011.Window
