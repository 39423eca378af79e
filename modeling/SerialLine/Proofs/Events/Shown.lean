import SerialLine.Proofs.Lines.Creation
import SerialLine.Proofs.Lines.Frame
/-! # What an act shows

The events that a computation on a recorded bench adds, together with its answer.

* `Emits`, `Shows`: whatever the bench, the events added and the answer are as said. `Shows.bind` and
  `Emits.bind` put an act together from its parts; what is shown by the rest is said of the events from
  the beginning on.
* `Preceded`: before every event of a kind, the events so far are as said.
* `emits_*`: looks at the clock, rounds of a wait, looks whether a character may be sent.
-/
set_option autoImplicit false

namespace SerialLine

variable {σ α β : Type}

/-! ## Events and answers -/

/-- Adds events, and gives an answer, of which `P` holds. -/
def Emits (P : List Event → α → Prop) (f : StateM (Bench (Recorded σ)) α) : Prop :=
  ∀ b, ∃ es, (f b).2.outside.events = b.outside.events ++ es ∧ P es (f b).1

/-- Adds events, and comes to an answer or to none, of which `P` holds. -/
def Shows (P : List Event → Option α → Prop) (act : Act (Bench (Recorded σ)) α) : Prop :=
  ∀ b, ∃ es, (Act.final act b).outside.events = b.outside.events ++ es ∧ P es (Act.answer? act b)

section
variable {P : List Event → α → Prop} {R : List Event → β → Prop} {Q : List Event → Option α → Prop}
  {S : List Event → Option β → Prop}

theorem Emits.mono {P' : List Event → α → Prop} {f : StateM (Bench (Recorded σ)) α} (h : Emits P f)
    (himp : ∀ es a, P es a → P' es a) : Emits P' f := by
  intro b
  obtain ⟨es, hes, hP⟩ := h b
  exact ⟨es, hes, himp _ _ hP⟩

theorem Shows.mono {Q' : List Event → Option α → Prop} {act : Act (Bench (Recorded σ)) α}
    (h : Shows Q act) (himp : ∀ es a, Q es a → Q' es a) : Shows Q' act := by
  intro b
  obtain ⟨es, hes, hQ⟩ := h b
  exact ⟨es, hes, himp _ _ hQ⟩

theorem emits_pure {a : α} (h : P [] a) : Emits (σ := σ) P (pure a) :=
  fun _ => ⟨[], (List.append_nil _).symm, h⟩

theorem shows_pure {a : α} (h : Q [] (some a)) : Shows (σ := σ) Q (pure a) :=
  fun _ => ⟨[], (List.append_nil _).symm, h⟩

theorem shows_throw {e : Halt} (h : Q [] none) : Shows (σ := σ) Q (throw e) :=
  fun _ => ⟨[], (List.append_nil _).symm, h⟩

theorem Emits.andThen {f : StateM (Bench (Recorded σ)) α} {g : α → StateM (Bench (Recorded σ)) β}
    (hf : Emits P f) (hg : ∀ es a, P es a → Emits (fun es' => R (es ++ es')) (g a)) :
    Emits R (f >>= g) := by
  intro b
  obtain ⟨es, hes, hP⟩ := hf b
  obtain ⟨es', hes', hR⟩ := hg es (f b).1 hP (f b).2
  refine ⟨es ++ es', ?_, hR⟩
  rw [← List.append_assoc, ← hes]
  exact hes'

theorem Emits.bind {f : StateM (Bench (Recorded σ)) α} {g : α → Act (Bench (Recorded σ)) β}
    (hf : Emits P f) (hg : ∀ es a, P es a → Shows (fun es' => S (es ++ es')) (g a)) :
    Shows S (liftM f >>= g) := by
  intro b
  obtain ⟨es, hes, hP⟩ := hf b
  obtain ⟨es', hes', hS⟩ := hg es (f b).1 hP (f b).2
  refine ⟨es ++ es', ?_, hS⟩
  rw [← List.append_assoc, ← hes]
  exact hes'

theorem Shows.bind {act : Act (Bench (Recorded σ)) α} {g : α → Act (Bench (Recorded σ)) β}
    (hact : Shows Q act) (hhalt : ∀ es, Q es none → S es none)
    (hg : ∀ es a, Q es (some a) → Shows (fun es' => S (es ++ es')) (g a)) :
    Shows S (act >>= g) := by
  intro b
  obtain ⟨es, hes, hQ⟩ := hact b
  cases hend : act b with
  | error e b' =>
    simp only [Act.final, Act.answer?, hend] at hes hQ
    simp only [Act.final, Act.answer?, Act.bind_of_error hend]
    exact ⟨es, hes, hhalt es hQ⟩
  | ok a b' =>
    simp only [Act.final, Act.answer?, hend] at hes hQ
    obtain ⟨es', hes', hS⟩ := hg es a hQ b'
    simp only [Act.final, Act.answer?, Act.bind_of_ok hend]
    refine ⟨es ++ es', ?_, hS⟩
    rw [← List.append_assoc, ← hes]
    exact hes'

/-- An answer given early, without any event, and otherwise the rest. -/
theorem Shows.guarded {c : Prop} [Decidable c] {a : α} {act : Act (Bench (Recorded σ)) α}
    (hearly : c → Q [] (some a)) (hact : ¬ c → Shows Q act) :
    Shows Q (if c then pure a else act) := by
  by_cases hc : c
  · rw [if_pos hc]
    exact shows_pure (hearly hc)
  · rw [if_neg hc]
    exact hact hc

/-- An act shows what its last part shows if nothing else is done in it. -/
theorem Emits.lift {f : StateM (Bench (Recorded σ)) α} (hf : Emits P f) :
    Shows (fun es r => ∃ a, r = some a ∧ P es a) (liftM f : Act (Bench (Recorded σ)) α) := by
  intro b
  obtain ⟨es, hes, hP⟩ := hf b
  exact ⟨es, hes, _, rfl, hP⟩

theorem emits_recording (event : α → Event) (f : StateM (Bench σ) α) :
    Emits (fun es a => es = [event a]) (recording event f) :=
  fun _ => ⟨[event _], Uart.recording_events event f rfl, rfl⟩

theorem emits_logNote (level : Level) (text : String) :
    Emits (σ := σ) (fun es _ => es = []) (logNote (W := Bench (Recorded σ)) level text) :=
  fun _ => ⟨[], (List.append_nil _).symm, rfl⟩

end

/-! ## What comes before -/

/-- Before every event of a kind, the events so far are as said. -/
def Preceded (kind : Event → Prop) (Q : List Event → Prop) (es : List Event) : Prop :=
  ∀ before e after, es = before ++ e :: after → kind e → Q before

section
variable {kind : Event → Prop} {Q : List Event → Prop} {es es' : List Event}

theorem Preceded.of_none (h : ∀ e ∈ es, ¬ kind e) : Preceded kind Q es := by
  rintro before e after rfl hkind
  exact absurd hkind (h e (by simp))

theorem preceded_nil : Preceded kind Q [] := .of_none fun _ hmem => absurd hmem List.not_mem_nil

theorem Preceded.append (h : Preceded kind Q es) (h' : Preceded kind Q es')
    (hQ : ∀ es', Q es' → Q (es ++ es')) : Preceded kind Q (es ++ es') := by
  intro before e after hsplit hkind
  rcases List.append_eq_append_iff.mp hsplit with ⟨mid, rfl, hmid⟩ | ⟨mid, hmid, hafter⟩
  · exact hQ _ (h' mid e after hmid hkind)
  · cases mid with
    | nil =>
      rw [List.append_nil] at hmid
      rw [← hmid, ← List.append_nil es]
      exact hQ _ (h' [] e after hafter.symm hkind)
    | cons e' mid =>
      cases hafter
      exact h before e mid hmid hkind

theorem Preceded.concat {e : Event} (h : Preceded kind Q es) (he : kind e → Q es) :
    Preceded kind Q (es ++ [e]) := by
  intro before e' after hsplit hkind
  rcases List.append_eq_append_iff.mp hsplit with ⟨mid, rfl, hmid⟩ | ⟨mid, rfl, hafter⟩
  · cases mid with
    | nil =>
      cases hmid
      rw [List.append_nil]
      exact he hkind
    | cons e'' mid => simp at hmid
  · cases mid with
    | nil =>
      cases hafter
      rw [List.append_nil] at he
      exact he hkind
    | cons e'' mid =>
      cases hafter
      exact h before e' mid rfl hkind

end

/-! ## Clock, rounds of a wait, leave to send -/

variable {d : Driver σ} {p : Platform σ}

theorem emits_begin (limit : Nat) : Emits (fun es deadline => ∃ now, es = [.ticks now] ∧
    deadline = ⟨now, limit⟩) (Deadline.begin p.recorded limit) := by
  refine (emits_recording .ticks p.ticks).andThen fun es now hes => emits_pure ⟨now, ?_, rfl⟩
  rw [List.append_nil, hes]

theorem emits_restart (deadline : Deadline) : Emits (fun es deadline' => ∃ now, es = [.ticks now] ∧
    deadline' = { deadline with start := now }) (deadline.restart p.recorded) := by
  refine (emits_recording .ticks p.ticks).andThen fun es now hes => emits_pure ⟨now, ?_, rfl⟩
  rw [List.append_nil, hes]

theorem emits_expired (deadline : Deadline) : Emits (fun es isOver => ∃ now, es = [.ticks now] ∧
    isOver = decide (deadline.limit ≤ now - deadline.start)) (deadline.expired p.recorded) := by
  refine Emits.andThen (P := fun es elapsed => ∃ now, es = [.ticks now] ∧
    elapsed = now - deadline.start) ?_ ?_
  · refine (emits_recording .ticks p.ticks).andThen fun es now hes => emits_pure ⟨now, ?_, rfl⟩
    rw [List.append_nil, hes]
  · rintro es elapsed ⟨now, rfl, rfl⟩
    exact emits_pure ⟨now, List.append_nil _, rfl⟩

/-- A round of a wait after which the wait goes on. Whether it heeds the console interrupt depends on
the wait. -/
def roundEvents (heeds : Bool) : List Event :=
  if heeds then [.background, .isInterrupted false] else [.background]

/-- A round of a wait with its answer. -/
inductive Rounds (heeds : Bool) : List Event → Except Error Unit → Prop where
  | canceled (hheeds : heeds = true) :
      Rounds heeds [.background, .isInterrupted true] (.error .canceled)
  | passed : Rounds heeds (roundEvents heeds) (.ok ())

theorem emits_waitRound : Emits (Rounds true) p.recorded.waitRound := by
  refine (emits_recording (fun _ => .background) p.background).andThen ?_
  rintro - - rfl
  refine (emits_recording .isInterrupted p.isInterrupted).andThen ?_
  rintro - interrupted rfl
  cases interrupted with
  | true =>
    refine (emits_logNote _ _).andThen ?_
    rintro - - rfl
    exact emits_pure (.canceled rfl)
  | false => exact emits_pure .passed

theorem emits_workRound : Emits (Rounds false) p.recorded.workRound := by
  refine (emits_recording (fun _ => .background) p.background).andThen ?_
  rintro - - rfl
  exact emits_pure .passed

end SerialLine
