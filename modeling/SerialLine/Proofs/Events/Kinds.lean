import SerialLine.Proofs.Events.Shown
/-! # Events of a kind

What a call may ask of driver and platform, said of every single event that it adds.

* `Within`: between two benches, only events of a kind were added.
* `Event.isRoutine`: what is asked in all calls but the making, the shutdown and, in part, the writes.
* `within_takeWaiting`: taking what waits asks for words and tells that there is room.
* `within_rule`: every kind that has the routine events is kept to by the calls.
-/
set_option autoImplicit false

namespace SerialLine

variable {σ α : Type} {kind : Event → Prop}

/-- The later bench has seen events of a kind only. -/
def Within (kind : Event → Prop) (b b' : Bench (Recorded σ)) : Prop :=
  ∃ es, b'.outside.events = b.outside.events ++ es ∧ ∀ e ∈ es, kind e

theorem onward_within : Onward (Within (σ := σ) kind) where
  refl b := ⟨[], (List.append_nil _).symm, nofun⟩
  trans := by
    rintro b b' b'' ⟨es, hes, hkind⟩ ⟨es', hes', hkind'⟩
    refine ⟨es ++ es', by rw [hes', hes, List.append_assoc], fun e hmem => ?_⟩
    exact (List.mem_append.mp hmem).elim (hkind e) (hkind' e)
  log b log := ⟨[], (List.append_nil _).symm, nofun⟩

theorem within_recording {event : α → Event} {f : StateM (Bench σ) α} (h : ∀ a, kind (event a)) :
    Obeys (Within kind) (recording event f) :=
  fun b => ⟨[event (f b.unrecorded).1], Uart.recording_events event f rfl, by simpa using h _⟩

theorem within_ringDo (id : BufferId) (f : RingBuffer → α × RingBuffer) :
    Obeys (Within (σ := σ) kind) (Bench.ringDo id f) :=
  fun _ => ⟨[], (List.append_nil _).symm, nofun⟩

/-- What is asked apart from the making and the shutdown of a line, from handing characters over and
from turning the line around. -/
def Event.isRoutine : Event → Bool
  | configure _ => false
  | startReceiving _ => false
  | stopReceiving => false
  | sendWord _ => false
  | setDirection _ => false
  | disable => false
  | _ => true

/-- Routine events only. -/
def Routine (es : List Event) : Prop := ∀ e ∈ es, e.isRoutine = true

/-- For events written out, `rfl` shows that all are routine. -/
theorem routine_of_all {es : List Event} (h : es.all Event.isRoutine = true) : Routine es :=
  List.all_eq_true.mp h

theorem Routine.append {es es' : List Event} (h : Routine es) (h' : Routine es') :
    Routine (es ++ es') := by
  intro e hmem
  exact (List.mem_append.mp hmem).elim (h e) (h' e)

theorem routine_ticks (now : Nat) : Routine [.ticks now] := routine_of_all rfl

theorem routine_round (heeds : Bool) : Routine (roundEvents heeds) := by
  cases heeds <;> exact routine_of_all rfl

namespace Uart

variable {u : Uart} {d : Driver σ} {p : Platform σ}

theorem within_takeWaiting (hword : ∀ word, kind (.takeWord word)) (hresume : kind .resumeReceiving)
    (room : Nat) : Obeys (Within kind) (u.takeWaiting d.recorded room) :=
  onward_within.takeWaiting (within_recording hword) (within_recording fun _ => hresume)
    (fun id _ => within_ringDo id _) room

theorem within_rule (h : ∀ e : Event, e.isRoutine = true → kind e) :
    u.Rule (Within kind) d.recorded p.recorded where
  toOnward := onward_within
  ticks := within_recording fun _ => h _ rfl
  background := within_recording fun _ => h _ rfl
  isInterrupted := within_recording fun _ => h _ rfl
  isReady := within_recording fun _ => h _ rfl
  clearToSend := within_recording fun _ => h _ rfl
  isIdle := within_recording fun _ => h _ rfl
  receivedCount := within_recording fun _ => h _ rfl
  setBaudrate _ := within_recording fun _ => h _ rfl
  take := within_takeWaiting (fun _ => h _ rfl) (h _ rfl)
  discard := onward_within.discardInput (within_recording fun _ => h _ rfl)
    (within_recording fun _ => h _ rfl) (fun id => within_ringDo id _) (within_recording fun _ => h _ rfl)
  takeDropped := onward_within.takeDropped fun id _ => within_ringDo id _

end Uart
end SerialLine
