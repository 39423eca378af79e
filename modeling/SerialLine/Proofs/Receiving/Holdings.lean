import SerialLine.Proofs.Ring.Life
import SerialLine.Uart.Receiving
/-! # The queue of received characters

Received characters of a line wait in its receive buffer, or in the peripheral if it has none.

* `Holdings`: what waits in a peripheral, and all that the queue of a line has taken.
* `Holdings.Ready`: the buffer exists and has the life of one of the line's width.
* `Holdings.Gets`: between two benches a reader got some characters and others came in. `Gets.trans` puts
  steps together.
* `Holdings.gets_pop`: popping the buffer gives the oldest characters that fit.
-/
set_option autoImplicit false

namespace SerialLine.Uart

variable {σ : Type}

/-- Characters that wait in a peripheral, oldest first, and all the characters that the queue of a line
has taken so far. The latter is history; nothing has to remember it. -/
structure Holdings (σ : Type) where
  held : σ → List UInt16
  taken : σ → List UInt16

namespace Holdings

section
variable (H : Holdings σ) (u : Uart)

/-- Nothing happened to received characters. -/
structure Still (b b' : Bench σ) : Prop where
  held : H.held b'.outside = H.held b.outside
  taken : H.taken b'.outside = H.taken b.outside
  ring : ∀ id, u.rxBuffer = some id → b'.buffers.ring id = b.buffers.ring id
  holds : ∀ id, u.rxBuffer = some id → b.buffers.Holds id → b'.buffers.Holds id

/-- The queue of a line took new characters. -/
structure Arrives (new : List UInt16) (b b' : Bench σ) : Prop where
  held : u.rxBuffer = none → H.held b'.outside = H.held b.outside ++ new
  taken : H.taken b'.outside = H.taken b.outside ++ new
  ring : ∀ id, u.rxBuffer = some id → (b.buffers.ring id).Fed new (b'.buffers.ring id)
  holds : ∀ id, u.rxBuffer = some id → b.buffers.Holds id → b'.buffers.Holds id

/-- At most new characters come in. -/
def Admits (b b' : Bench σ) : Prop :=
  (∀ id, u.rxBuffer = some id → b.buffers.Holds id) → ∃ new, H.Arrives u new b b'

/-- The characters that could be read without waiting. -/
def waiting (b : Bench σ) : List UInt16 :=
  match u.rxBuffer with
  | some id => (b.buffers.ring id).contents
  | none => H.held b.outside

/-- The receive buffer of the line, if it has one, was made for characters of its width and has taken
the characters that it is known to have taken. -/
def Ready (b : Bench σ) : Prop :=
  ∀ id, u.rxBuffer = some id → b.buffers.Holds id ∧
    (b.buffers.ring id).Life u.width (H.taken b.outside)

/-- A receive buffer has taken so few characters that no counter has wrapped. -/
def Few (b : Bench σ) : Prop := u.rxBuffer.isSome = true → (H.taken b.outside).length < 2 ^ 64

/-- A reader got the characters `out`, and the characters `new` came in. -/
structure Gets (out new : List UInt16) (b b' : Bench σ) : Prop where
  taken : H.taken b'.outside = H.taken b.outside ++ new
  ready : H.Ready u b → H.Ready u b'
  waiting : H.Ready u b → H.Few u b' → H.waiting u b ++ new = out ++ H.waiting u b'

end

variable {H : Holdings σ} {u : Uart} {out out' new new' : List UInt16} {b b' b'' : Bench σ}

theorem Gets.few (h : H.Gets u out new b b') (hfew : H.Few u b') : H.Few u b := by
  intro hbuffer
  have hlt := hfew hbuffer
  rw [h.taken, List.length_append] at hlt
  exact (Nat.le_add_right _ _).trans_lt hlt

theorem Gets.refl (H : Holdings σ) (u : Uart) (b : Bench σ) : H.Gets u [] [] b b :=
  ⟨(List.append_nil _).symm, id, fun _ _ => List.append_nil _⟩

theorem Gets.trans (h : H.Gets u out new b b') (h' : H.Gets u out' new' b' b'') :
    H.Gets u (out ++ out') (new ++ new') b b'' where
  taken := by rw [h'.taken, h.taken, List.append_assoc]
  ready hb := h'.ready (h.ready hb)
  waiting hb hfew := by
    rw [← List.append_assoc, h.waiting hb (h'.few hfew), List.append_assoc,
      h'.waiting (h.ready hb) hfew, List.append_assoc]

theorem Still.refl (H : Holdings σ) (u : Uart) (b : Bench σ) (log : Log) :
    H.Still u b { b with log := log } :=
  ⟨rfl, rfl, fun _ _ => rfl, fun _ _ h => h⟩

/-- Where nothing happens, no characters come in. -/
theorem Still.arrives (h : H.Still u b b') : H.Arrives u [] b b' where
  held _ := by rw [h.held, List.append_nil]
  taken := by rw [h.taken, List.append_nil]
  ring id hbuffer := by
    rw [h.ring id hbuffer]
    exact .refl
  holds := h.holds

theorem Still.admits (h : H.Still u b b') : H.Admits u b b' := fun _ => ⟨[], h.arrives⟩

theorem gets_of_arrives (h : H.Arrives u new b b') : H.Gets u [] new b b' := by
  refine ⟨h.taken, fun hb id hbuffer => ?_, fun hb hfew => ?_⟩
  · rw [h.taken]
    exact ⟨h.holds id hbuffer (hb id hbuffer).1, (hb id hbuffer).2.fed (h.ring id hbuffer)⟩
  · rw [List.nil_append]
    unfold waiting
    cases hbuffer : u.rxBuffer with
    | none => exact (h.held hbuffer).symm
    | some id =>
      have hlt := hfew (by rw [hbuffer]; rfl)
      rw [h.taken, List.length_append] at hlt
      obtain ⟨hunwrapped, hhead⟩ := (hb id hbuffer).2.unwrapped (by omega)
      exact ((h.ring id hbuffer).contents hunwrapped (by omega)).2.1.symm

theorem gets_of_admits (h : H.Admits u b b') (hb : H.Ready u b) : ∃ new, H.Gets u [] new b b' := by
  obtain ⟨new, harrives⟩ := h fun id hbuffer => (hb id hbuffer).1
  exact ⟨new, gets_of_arrives harrives⟩

theorem Gets.thenStill (h : H.Gets u out new b b') (h' : H.Still u b' b'') :
    H.Gets u out new b b'' := by
  have hboth := h.trans (gets_of_arrives h'.arrives)
  rwa [List.append_nil, List.append_nil] at hboth

theorem gets_pop {id : BufferId} (hbuffer : u.rxBuffer = some id) (room : Nat) {b : Bench σ}
    (hb : H.Ready u b) :
    (Bench.pop id room b).1 = u.width.encode ((H.waiting u b).take (room / u.width.bytes)) ∧
      H.Gets u ((H.waiting u b).take (room / u.width.bytes)) [] b (Bench.pop id room b).2 := by
  obtain ⟨hholds, hlife⟩ := hb id hbuffer
  have hwaiting (b : Bench σ) : H.waiting u b = (b.buffers.ring id).contents := by
    rw [waiting, hbuffer]
  have hring : (Bench.pop id room b).2.buffers.ring id = ((b.buffers.ring id).pop room).2 :=
    RxBuffers.ring_set_self hholds _
  refine ⟨?_, ?_, fun _ id' hbuffer' => ?_, fun _ _ => ?_⟩
  · rw [hwaiting, ← hlife.width_eq]
    exact RingBuffer.pop_bytes _ _
  · exact (List.append_nil _).symm
  · obtain rfl := Option.some.inj (hbuffer.symm.trans hbuffer')
    rw [hring]
    exact ⟨hholds.set _, hlife.popped room⟩
  · rw [hwaiting, hwaiting, hring, RingBuffer.contents_pop, hlife.width_eq, List.append_nil,
      List.take_append_drop]

end Holdings
end SerialLine.Uart
