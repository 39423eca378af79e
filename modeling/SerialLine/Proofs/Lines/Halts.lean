import SerialLine.Proofs.Lines.Frame
/-! # What halts a call

A call of a line is halted only by a wait that never ends. A use is aborted by its user or by a transfer,
and a session then shuts its line down all the same.

* `Act.Unaborted`: no run is aborted. `unaborted_read`, `unaborted_write`, `unaborted_shutDown`: so it is
  with the calls that have loops.
* `Act.EndsIn`: the end of a run, by an answer or by an abort.
* `session_ends`: a session is its use followed by a shutdown, however the use ends. `run_session`: so it
  is in a fleet.
-/
set_option autoImplicit false

namespace SerialLine

variable {σ α β : Type}

/-! ## Ends and halts -/

namespace Act

variable {W : Type}

/-- An act comes to its end in a state: with an answer, or aborted, after which others go on. -/
def EndsIn (act : Act W α) (w w' : W) : Prop := (∃ a, act w = .ok a w') ∨ act w = .error .aborted w'

/-- No run is aborted. -/
def Unaborted (act : Act W α) : Prop := ∀ w w', act w ≠ .error .aborted w'

theorem unaborted_pure (a : α) : Unaborted (pure a : Act W α) := nofun

theorem unaborted_unfinished : Unaborted (throw .unfinished : Act W α) := nofun

theorem unaborted_bind {act : Act W α} {next : α → Act W β} (hact : Unaborted act)
    (hnext : ∀ a, Unaborted (next a)) : Unaborted (act >>= next) := by
  intro w w'
  cases hend : act w with
  | ok a w₁ =>
    rw [bind_of_ok hend]
    exact hnext a w₁ w'
  | error e w₁ =>
    rw [bind_of_error hend]
    rintro ⟨⟩
    exact hact w w' hend

theorem unaborted_lift (f : StateM W α) : Unaborted (liftM f : Act W α) := nofun

theorem unaborted_lift_bind {f : StateM W α} {next : α → Act W β}
    (hnext : ∀ a, Unaborted (next a)) : Unaborted (liftM f >>= next) :=
  unaborted_bind (unaborted_lift f) hnext

/-- A step that may fail, and what goes on after it in both cases. -/
theorem unaborted_lift_except {f : StateM W (Except Error Unit)}
    {next : Except Error Unit → Act W α} (herror : ∀ e, Unaborted (next (.error e)))
    (hok : Unaborted (next (.ok ()))) : Unaborted (liftM f >>= next) := by
  refine unaborted_lift_bind fun ending => ?_
  cases ending with
  | error e => exact herror e
  | ok _ => exact hok

theorem unaborted_guarded {c : Prop} [Decidable c] {act act' : Act W α} (hact : Unaborted act)
    (hact' : Unaborted act') : Unaborted (if c then act else act') := by
  split
  · exact hact
  · exact hact'

theorem Unaborted.map {act : Act W α} (h : Unaborted act) (f : α → β) : Unaborted (f <$> act) := by
  rw [map_eq_pure_bind]
  exact unaborted_bind h fun _ => unaborted_pure _

end Act

namespace Uart

open Act

variable {u : Uart} {d : Driver σ} {p : Platform σ}

/-! ## Calls -/

theorem unaborted_awaitReady (deadline : Deadline) (patience : Nat) :
    Unaborted (awaitReady d p deadline patience) := by
  induction patience with
  | zero => exact unaborted_unfinished
  | succ patience ih =>
    rw [awaitReady]
    refine unaborted_lift_bind fun yes => unaborted_guarded (unaborted_pure _) ?_
    refine unaborted_lift_bind fun isOver => unaborted_guarded (unaborted_pure _) ?_
    exact unaborted_lift_except (fun _ => unaborted_pure _) ih

theorem unaborted_sendWords (words : List UInt16) (deadline : Deadline) (written : Nat) :
    Unaborted (u.sendWords d p words deadline written) := by
  induction words generalizing deadline written with
  | nil => exact unaborted_pure _
  | cons word words ih =>
    rw [sendWords]
    refine unaborted_bind (unaborted_awaitReady deadline _) fun answer => ?_
    rcases answer with e | _ | _
    · exact unaborted_pure _
    · exact unaborted_lift_bind fun _ => unaborted_pure _
    · exact unaborted_lift_bind fun _ => unaborted_lift_bind fun _ => ih _ _

theorem unaborted_awaitIdle (round : StateM (Bench σ) (Except Error Unit)) (deadline : Option Deadline)
    (patience : Nat) : Unaborted (awaitIdle d p round deadline patience) := by
  induction patience with
  | zero => exact unaborted_unfinished
  | succ patience ih =>
    rw [awaitIdle]
    refine unaborted_lift_bind fun isIdle => unaborted_guarded (unaborted_pure _) ?_
    cases deadline with
    | none =>
      refine unaborted_bind (unaborted_pure false) fun isOver => unaborted_guarded (unaborted_pure _) ?_
      exact unaborted_lift_except (fun _ => unaborted_pure _) ih
    | some deadline =>
      refine unaborted_lift_bind fun isOver => unaborted_guarded (unaborted_pure _) ?_
      exact unaborted_lift_except (fun _ => unaborted_pure _) ih

theorem unaborted_write (data : List UInt8) : Unaborted (u.write d p data) := by
  refine unaborted_guarded (unaborted_pure _) (unaborted_guarded (unaborted_pure _) ?_)
  refine unaborted_guarded (unaborted_pure _) (unaborted_guarded (unaborted_pure _) ?_)
  refine unaborted_lift_bind fun _ => unaborted_lift_bind fun deadline => ?_
  refine unaborted_bind (unaborted_sendWords _ deadline 0) fun result => ?_
  refine unaborted_guarded (unaborted_pure _) ?_
  refine unaborted_bind (unaborted_awaitIdle _ _ _) fun drained => unaborted_lift_bind fun _ => ?_
  split <;> exact unaborted_pure _

theorem unaborted_receive (want patience : Nat) (deadline : Deadline) (got : List UInt8) :
    Unaborted (u.receive d p want patience deadline got) := by
  induction patience generalizing deadline got with
  | zero => exact unaborted_unfinished
  | succ patience ih =>
    have hfinish (deadline : Deadline) (got : List UInt8) :
        Unaborted (u.finishRound d p want patience deadline got) := by
      refine unaborted_guarded (unaborted_pure _) (unaborted_lift_bind fun isOver => ?_)
      exact unaborted_guarded (unaborted_pure _)
        (unaborted_lift_except (fun _ => unaborted_pure _) (ih deadline got))
    intro b b'
    rw [receive_succ]
    exact hfinish _ _ _ b'

theorem unaborted_read (room : Nat) : Unaborted (u.read d p room) := by
  refine unaborted_guarded (unaborted_pure _) (unaborted_guarded (unaborted_pure _) ?_)
  refine unaborted_guarded (unaborted_pure _) (unaborted_guarded (unaborted_pure _) ?_)
  exact unaborted_lift_bind fun deadline => unaborted_receive _ _ deadline _

theorem unaborted_drain : Unaborted (u.drain d p) := by
  refine unaborted_guarded ?_ (unaborted_pure _)
  refine unaborted_lift_bind fun deadline => unaborted_bind (unaborted_awaitIdle _ _ _) fun drained => ?_
  split
  · exact unaborted_pure _
  · exact unaborted_lift _

theorem unaborted_windDown : Unaborted (u.windDown d p) := by
  refine unaborted_lift_bind fun _ => unaborted_bind unaborted_drain fun _ => ?_
  refine unaborted_lift_bind fun _ => unaborted_lift_bind fun _ => unaborted_lift_bind fun count => ?_
  exact unaborted_lift _

theorem unaborted_benchAct {act : Act (Bench σ) α} (h : Unaborted act) :
    Unaborted (World.benchAct act) := by
  intro w w' hend
  simp only [World.benchAct, Act.onPart] at hend
  cases hact : act w.bench with
  | ok a b =>
    rw [hact] at hend
    cases hend
  | error e b =>
    rw [hact] at hend
    cases hend
    exact h w.bench b hact

theorem unaborted_shutDown : Unaborted (u.shutDown d p) := by
  refine unaborted_guarded (unaborted_pure _) (unaborted_bind (unaborted_benchAct unaborted_windDown) ?_)
  exact fun _ => unaborted_lift_bind fun _ => unaborted_lift_bind fun _ => unaborted_pure _

/-! ## Sessions -/

variable {u₁ u₂ : Uart} {w w₁ w₂ : World σ} {use : Use σ α}

theorem endSession_of_shutDown (h : u.shutDown d p w = .ok u₁ w₁) :
    endSession d p (u, w) = .ok () (u₁, w₁) := by
  have hcall : (do return ((), ← u.shutDown d p) : Act (World σ) (Unit × Uart)) w = .ok ((), u₁) w₁ :=
    bind_of_ok h
  simp only [endSession, Use.call, hcall]

theorem endSession_of_halt {e : Halt} (h : u.shutDown d p w = .error e w₁) :
    endSession d p (u, w) = .error e (u, w₁) := by
  have hcall : (do return ((), ← u.shutDown d p) : Act (World σ) (Unit × Uart)) w = .error e w₁ :=
    bind_of_error h
  simp only [endSession, Use.call, hcall]

/-- A session that was given an answer gives it on after the shutdown. -/
theorem session_of_ok {a : α} (huse : use (u, w) = .ok a (u₁, w₁))
    (hend : u₁.shutDown d p w₁ = .ok u₂ w₂) : session d p use (u, w) = .ok a (u₂, w₂) := by
  simp only [session, huse]
  exact bind_of_ok (endSession_of_shutDown hend)

/-- A session that is aborted shuts its line down before it passes that on. -/
theorem session_of_aborted (huse : use (u, w) = .error .aborted (u₁, w₁))
    (hend : u₁.shutDown d p w₁ = .ok u₂ w₂) :
    session d p use (u, w) = .error .aborted (u₂, w₂) := by
  simp only [session, huse]
  exact bind_of_ok (endSession_of_shutDown hend)

/-- Where the shutdown is halted, that is what becomes of the session. -/
theorem session_of_halt {e : Halt} (huse : use.EndsIn (u, w) (u₁, w₁))
    (hend : u₁.shutDown d p w₁ = .error e w₂) : session d p use (u, w) = .error e (u₁, w₂) := by
  rcases huse with ⟨a, huse⟩ | huse
  · simp only [session, huse]
    exact bind_of_error (endSession_of_halt hend)
  · simp only [session, huse]
    exact bind_of_error (endSession_of_halt hend)

/-- However the use of a session ends, the session is that use followed by a shutdown. -/
theorem session_ends (huse : use.EndsIn (u, w) (u₁, w₁))
    (h : (session d p use).EndsIn (u, w) (u₂, w₂)) : u₁.shutDown d p w₁ = .ok u₂ w₂ := by
  cases hend : u₁.shutDown d p w₁ with
  | ok u' w' =>
    have hlast : (u', w') = (u₂, w₂) := by
      rcases huse with ⟨a, huse⟩ | huse
      · rw [EndsIn, session_of_ok huse hend] at h
        rcases h with ⟨a', h⟩ | h
        · cases h
          rfl
        · cases h
      · rw [EndsIn, session_of_aborted huse hend] at h
        rcases h with ⟨a', h⟩ | h
        · cases h
        · cases h
          rfl
    cases hlast
    rfl
  | error e w' =>
    rw [EndsIn, session_of_halt huse hend] at h
    rcases h with ⟨a, h⟩ | h
    · cases h
    · cases h
      exact absurd hend (unaborted_shutDown w₁ _)

end Uart

/-- A session whose use leaves a device as some calls do is the same as these calls and then its end, also
if the use is aborted. -/
theorem Fleet.run_session {f : Fleet σ} {i : Nat} {dev : Device σ} {calls : List Uart.Call}
    {replies : List Uart.Reply} {u₁ u₂ : Uart} {w₁ w₂ : World σ} {use : Uart.Use σ α}
    (hdev : f.devices[i]? = some dev)
    (hcalls : Uart.performAll dev.driver dev.platform calls dev.uart f.world = .ok (replies, u₁) w₁)
    (huse : use.EndsIn (dev.uart, f.world) (u₁, w₁))
    (hsession : (Uart.session dev.driver dev.platform use).EndsIn (dev.uart, f.world) (u₂, w₂)) :
    f.run (calls.map (.call i) ++ [.endSession i]) = ⟨w₂, f.devices.set i { dev with uart := u₂ }⟩ := by
  have hend := Uart.session_ends huse hsession
  have hlt := (List.getElem?_eq_some_iff.mp hdev).1
  have hdev' : (f.devices.set i { dev with uart := u₁ })[i]? = some { dev with uart := u₁ } :=
    List.getElem?_set_self hlt
  rw [run_append, run_calls hdev hcalls, run, List.foldl_cons, List.foldl_nil, step]
  simp only [hdev', bind, EStateM.bind, hend, pure, EStateM.pure, used, List.set_set]

end SerialLine
