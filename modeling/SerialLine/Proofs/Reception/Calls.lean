import SerialLine.Proofs.Lines.Ownership
import SerialLine.Proofs.Reception.Traffic
/-! # The calls of a reader

Reading, looking at what was received, setting the rate and taking the count of dropped characters, over
a PL011 block with reception installed.

* `received`, `countTaken`: what a reader gets by a call and its reply.
* `Traffic.perform`: each call obeys what goes on around the readers obeys, with what the reader gets by it.
-/
set_option autoImplicit false

namespace SerialLine.Pl011

variable {σ : Type} {r : Registers σ} {chip : Place σ Chip} {W : Window r chip} {id : BufferId}

/-! ## The calls of a reader -/

/-- A call that receives, looks at what was received, or sets the rate. -/
def isReaderCall : Uart.Call → Bool
  | .read _ => true
  | .poll _ => true
  | .waitingCount => true
  | .setBaudrate _ => true
  | .takeDropped => true
  | _ => false

/-- Whether a reply says that the console interrupt ended a read. -/
def isCanceled : Uart.Reply → Bool
  | .filled _ ⟨.error .canceled, _⟩ => true
  | _ => false

/-- The bytes that a reply returns to a reader. -/
def received : Uart.Reply → List UInt8
  | .filled _ ⟨.ok n, bytes⟩ => bytes.take n
  | _ => []

/-- The count of dropped characters that a call takes. -/
def countTaken : Uart.Call → Uart.Reply → Nat
  | .takeDropped, .number (.ok n) => n
  | _, _ => 0

namespace Window

variable {p : Platform σ} {u u' : Uart} {w w' : World σ} {reply : Uart.Reply}

theorem received_of_truthful {room : Nat} {answer : ReadReply} (h : Truthful answer)
    (hcanceled : isCanceled (.filled room answer) = false) :
    received (.filled room answer) = answer.bytes := by
  obtain ⟨outcome, bytes⟩ := answer
  rcases h with h | h | h
  · simp only at h
    subst h
    exact List.take_length
  · simp only at h
    subst h
    cases hcanceled
  · simp only at h
    subst h
    cases outcome with
    | ok n => exact List.take_nil
    | error e => rfl

theorem quiets_waiting (hbuffer : u.rxBuffer = some id) :
    W.Quiets id (u.waiting (driver r chip)) := by
  unfold Uart.waiting
  rw [hbuffer]
  exact (quiets_ring id).bind fun _ => quiets_pure _

theorem quiets_poll (hbuffer : u.rxBuffer = some id) (flags : PollFlags) :
    W.Quiets id (u.poll (driver r chip) flags) := by
  have hwritable (wanted : Bool) (answer : Bool → Except Error PollFlags) :
      W.Quiets id (if wanted then Uart.canSend (driver r chip) >>= fun yes => pure (answer yes)
        else pure false >>= fun yes => pure (answer yes)) := by
    cases wanted with
    | true => exact quiets_canSend.bind fun _ => quiets_pure _
    | false => exact (quiets_pure _).bind fun _ => quiets_pure _
  unfold Uart.poll
  by_cases hshut : u.isShut = true
  · rw [if_pos hshut]
    exact quiets_pure _
  · rw [if_neg hshut]
    dsimp only
    split
    · exact (quiets_waiting hbuffer).bind fun _ => hwritable _ _
    · exact (quiets_pure _).bind fun _ => hwritable _ _

theorem quiets_waitingCount (hbuffer : u.rxBuffer = some id) :
    W.Quiets id (u.waitingCount (driver r chip)) := by
  unfold Uart.waitingCount
  by_cases hshut : u.isShut = true
  · rw [if_pos hshut]
    exact quiets_pure _
  · rw [if_neg hshut]
    exact (quiets_waiting hbuffer).bind fun _ => quiets_pure _

theorem quiets_uartSetBaudrate (rate : UInt32) :
    W.Quiets id (u.setBaudrate (driver r chip) rate) := by
  intro b
  by_cases hshut : u.isShut = true
  · rw [Uart.setBaudrate, if_pos hshut]
    exact .refl _ _ _
  · have hset : W.Quiet id b ((driver r chip).setBaudrate rate b).2 := quiets_setBaudrate rate b
    rcases Uart.setBaudrate_of_live (Bool.eq_false_iff.mpr hshut) (driver r chip) rate b with
      ⟨e, heq⟩ | ⟨e, b', hdriver, heq⟩ | ⟨b', hdriver, heq⟩
    · rw [heq]
      exact .refl _ _ _
    · rw [heq]
      rw [hdriver] at hset
      exact hset
    · rw [heq]
      rw [hdriver] at hset
      exact hset.trans (quiets_logNote _ _ b')

theorem quiet_performSetBaudrate {rate : UInt32}
    (h : u.perform (driver r chip) p (.setBaudrate rate) w = .ok (reply, u') w') :
    u'.rxBuffer = u.rxBuffer ∧ received reply = [] ∧ W.Quiet id w.bench w'.bench := by
  have hquiet : W.Quiet id w.bench (u.setBaudrate (driver r chip) rate w.bench).2 :=
    quiets_uartSetBaudrate rate w.bench
  have heq : u.perform (driver r chip) p (.setBaudrate rate) w =
      .ok (u.settled (u.setBaudrate (driver r chip) rate w.bench).1)
        { w with bench := (u.setBaudrate (driver r chip) rate w.bench).2 } := rfl
  rcases hset : u.setBaudrate (driver r chip) rate w.bench with ⟨result, b⟩
  rw [heq, hset] at h
  rw [hset] at hquiet
  cases result with
  | error e =>
    cases h
    exact ⟨rfl, rfl, hquiet⟩
  | ok u'' =>
    cases h
    rw [Uart.setBaudrate_ok hset]
    exact ⟨rfl, rfl, hquiet⟩

namespace Traffic

variable {G : Bench σ → Prop} {R : Bench σ → Bench σ → List UInt8 → Nat → Prop}
variable (h : W.Traffic id p G R)
include h

theorem takeDropped (hbuffer : u.rxBuffer = some id) {b : Bench σ} (hb : G b) :
    R b (u.takeDropped b).2 [] (countTaken .takeDropped (.number (u.takeDropped b).1)) := by
  unfold Uart.takeDropped
  by_cases hshut : u.isShut = true
  · rw [if_pos hshut]
    exact h.refl b
  · rw [if_neg hshut, hbuffer]
    exact h.thenSilent (h.take b hb) (h.quiet _ _ (quiets_noteDropped _ _))

theorem performRead {room : Nat} (hbuffer : u.rxBuffer = some id) (hw : G w.bench)
    (hend : u.perform (driver r chip) p (.read room) w = .ok (reply, u') w')
    (hcanceled : isCanceled reply = false) :
    u' = u ∧ R w.bench w'.bench (received reply) 0 := by
  simp only [Uart.perform, World.benchAct, Act.onPart, bind, EStateM.bind] at hend
  cases hread : u.read (driver r chip) p room w.bench with
  | error e b =>
    rw [hread] at hend
    cases hend
  | ok answer b =>
    rw [hread] at hend
    cases hend
    obtain ⟨htruthful, hrest⟩ := h.read hbuffer room hw hread
    rw [received_of_truthful htruthful hcanceled]
    exact ⟨rfl, hrest⟩

/-- The calls of a reader obey the relation with the bytes that they return and the counts that they take.
A read that the console interrupt ends does not: what it had taken is lost to its caller. -/
theorem perform {call : Uart.Call} (hbuffer : u.rxBuffer = some id) (hw : G w.bench)
    (hcall : isReaderCall call = true)
    (hend : u.perform (driver r chip) p call w = .ok (reply, u') w')
    (hcanceled : isCanceled reply = false) :
    u'.rxBuffer = some id ∧ R w.bench w'.bench (received reply) (countTaken call reply) := by
  cases call with
  | read room =>
    obtain ⟨rfl, hrest⟩ := h.performRead hbuffer hw hend hcanceled
    exact ⟨hbuffer, hrest⟩
  | poll flags =>
    cases hend
    exact ⟨hbuffer, h.quiet _ _ (quiets_poll hbuffer flags w.bench)⟩
  | waitingCount =>
    cases hend
    exact ⟨hbuffer, h.quiet _ _ (quiets_waitingCount hbuffer w.bench)⟩
  | setBaudrate rate =>
    obtain ⟨hsame, hnothing, hquiet⟩ := quiet_performSetBaudrate hend
    rw [hsame, hnothing]
    exact ⟨hbuffer, h.quiet _ _ hquiet⟩
  | takeDropped =>
    cases hend
    exact ⟨hbuffer, h.takeDropped hbuffer hw⟩
  | write data => cases hcall
  | flush => cases hcall
  | control request => cases hcall
  | getBaudrate => cases hcall
  | getTimeout => cases hcall
  | setTimeout timeout => cases hcall
  | discardInput => cases hcall
  | droppedCount => cases hcall
  | shutDown => cases hcall

end Traffic

end Window
end SerialLine.Pl011
