import SerialLine.Proofs.Lines.Halts
import SerialLine.Proofs.Sending.Direction
import SerialLine.Proofs.Streams.Requests
/-! # The life of a line

From the making of a line to its last drop, whatever it is used for.

* `Handled`: any use of a line, by its calls, as a stream, and in sessions with any use, also one that is
  aborted.
* `Ended`, `Unended`: the events of a life that is over, with one shutdown at its end, and those of one
  that is not.
* `Traced.perform`, `Traced.request`, `Traced.shutDown`: each step of a use goes on with such events, and
  with none at all once the line is shut down. `Handled.traced`: so does the use as a whole.
* `perform_of_shut`, `refusing_of_shut`: a line that was shut down refuses every call.
* `ends_once`: all of it.
-/
set_option autoImplicit false

namespace SerialLine.Uart

variable {σ : Type}

/-- Any use of a line. A request is followed to its end also if it is halted there, as one for more bytes
than there can be is. A session is given any use that only handles the line, whether it comes to an answer
or is aborted. -/
inductive Handled (d : Driver σ) (p : Platform σ) (between : World σ → World σ → Prop) :
    Uart → World σ → Uart → World σ → Prop where
  | new {u : Uart} {w : World σ} : Handled d p between u w u w
  | between {u u' : Uart} {w w' w'' : World σ} (h : Handled d p between u w u' w')
      (hbetween : between w' w'') : Handled d p between u w u' w''
  | call {u u' u'' : Uart} {w w' w'' : World σ} {call : Call} {reply : Reply}
      (h : Handled d p between u w u' w')
      (hcall : u'.perform d p call w' = .ok (reply, u'') w'') : Handled d p between u w u'' w''
  | request {u u' : Uart} {w w' : World σ} (h : Handled d p between u w u' w')
      (request : Stream.Request) :
      Handled d p between u w u' (Act.final (World.benchAct (request.run (u'.stream d p))) w')
  | session {u u' u₁ u₂ : Uart} {w w' w₁ w₂ : World σ} {α : Type} {use : Use σ α}
      (h : Handled d p between u w u' w') (hinside : Handled d p between u' w' u₁ w₁)
      (huse : use.EndsIn (u', w') (u₁, w₁)) (hsession : (session d p use).EndsIn (u', w') (u₂, w₂)) :
      Handled d p between u w u₂ w₂

/-! ## After the shutdown -/

/-- The answer to a call on a line that was shut down. Shutting it down again is no error. -/
def Call.refusal : Call → Reply
  | read room => .filled room ⟨.error .deinitialized, []⟩
  | write _ => .number (.error .deinitialized)
  | flush => .done (.error .deinitialized)
  | poll _ => .number (.error .deinitialized)
  | control _ => .number (.error .deinitialized)
  | getBaudrate => .number (.error .deinitialized)
  | setBaudrate _ => .done (.error .deinitialized)
  | getTimeout => .seconds (.error .deinitialized)
  | setTimeout _ => .done (.error .deinitialized)
  | waitingCount => .number (.error .deinitialized)
  | discardInput => .done (.error .deinitialized)
  | droppedCount => .number (.error .deinitialized)
  | takeDropped => .number (.error .deinitialized)
  | shutDown => .done (.ok ())

section
variable {u : Uart} {d : Driver σ} {p : Platform σ} (hshut : u.isShut = true)
include hshut

theorem refusing_of_shut (b : Bench σ) : (u.stream d p).Refusing .deinitialized b where
  read buffer := by
    show u.read d p buffer.length b = _
    rw [read, hshut]
    rfl
  write data := by
    show u.write d p data b = _
    rw [write, hshut]
    rfl
  control request := by
    show u.control d p request b = _
    unfold Uart.control
    rw [hshut]
    rfl

theorem perform_of_shut (call : Call) (w : World σ) :
    u.perform d p call w = .ok (call.refusal, u) w := by
  have hlive : u.checkLive = .error .deinitialized := by rw [checkLive, if_pos hshut]
  cases call with
  | read room =>
    rw [perform, read, hshut]
    rfl
  | write data =>
    rw [perform, write, hshut]
    rfl
  | flush =>
    rw [perform, Uart.flush, hshut]
    rfl
  | poll flags =>
    rw [perform, Uart.poll, hshut]
    rfl
  | control request =>
    have hcontrol : u.control d p request w.bench = .ok (.error .deinitialized) w.bench :=
      (refusing_of_shut hshut w.bench).control request
    rw [perform]
    simp only [World.benchAct, Act.onPart, bind, EStateM.bind, hcontrol]
    rfl
  | getBaudrate =>
    rw [perform, Uart.getBaudrate, hlive]
    rfl
  | setBaudrate rate =>
    rw [perform, Uart.setBaudrate, hshut]
    rfl
  | getTimeout =>
    rw [perform, Uart.getTimeout, hlive]
    rfl
  | setTimeout timeout =>
    rw [perform, Uart.setTimeout, hlive]
    rfl
  | waitingCount =>
    rw [perform, Uart.waitingCount, hshut]
    rfl
  | discardInput =>
    rw [perform, Uart.discardInput, hshut]
    rfl
  | droppedCount =>
    rw [perform, Uart.droppedCount, hshut]
    rfl
  | takeDropped =>
    rw [perform, Uart.takeDropped, hshut]
    rfl
  | shutDown => exact Act.bind_of_ok (shutDown_of_shut hshut)

end

/-! ## The events of a life -/

/-- Reception is not stopped and the peripheral is not disabled. -/
def Ordinary (e : Event) : Prop := e ≠ .stopReceiving ∧ e ≠ .disable

theorem ordinary_of_routine {e : Event} (h : e.isRoutine = true) : Ordinary e := by
  refine ⟨?_, ?_⟩
  · rintro rfl
    cases h
  · rintro rfl
    cases h

/-- The events of a life that goes on. -/
def Unended (es : List Event) : Prop := ∀ e ∈ es, Ordinary e

/-- The events of a life that is over: reception was stopped once, later the peripheral was disabled
once, and that was the last thing that was asked of driver and platform. -/
def Ended (es : List Event) : Prop :=
  ∃ before waits, es = before ++ .stopReceiving :: (waits ++ [.disable]) ∧ Unended before ∧ Unended waits

theorem Unended.append {es es' : List Event} (h : Unended es) (h' : Unended es') :
    Unended (es ++ es') := by
  intro e hmem
  exact (List.mem_append.mp hmem).elim (h e) (h' e)

theorem WindsDown.ends {u : Uart} {es es' : List Event} (h : WindsDown u es') (hes : Unended es) :
    Ended (es ++ es') := by
  obtain ⟨waits, hwaits, rfl⟩ := h
  refine ⟨es, waits ++ u.backEvents, by simp, hes, ?_⟩
  have hback : Unended u.backEvents := by
    unfold backEvents
    split <;> simp [Unended, Ordinary]
  exact Unended.append (fun e hmem => ordinary_of_routine (hwaits e hmem)) hback

/-- A line and the world after the events `base` and those of the life of the line. -/
def Traced (base : List Event) (u : Uart) (w : World (Recorded σ)) : Prop :=
  ∃ es, w.bench.outside.events = base ++ es ∧ (u.isShut = false → Unended es) ∧
    (u.isShut = true → Ended es)

variable {u u' : Uart} {d : Driver σ} {p : Platform σ} {w w' : World (Recorded σ)} {base : List Event}

/-- Nothing was asked. -/
def Unasked (_ : Event) : Prop := False

theorem Traced.stays (h : Traced base u w) (hwithin : Within Unasked w.bench w'.bench) :
    Traced base u w' := by
  obtain ⟨es, hes, hlife⟩ := h
  obtain ⟨es', hes', hnone⟩ := hwithin
  obtain rfl : es' = [] := List.eq_nil_iff_forall_not_mem.mpr hnone
  rw [List.append_nil] at hes'
  exact ⟨es, hes'.trans hes, hlife⟩

/-- Ordinary events do not end a life. -/
theorem Traced.goesOn (h : Traced base u w) (hlive : u.isShut = false) (hsame : u'.isShut = false)
    (hwithin : Within Ordinary w.bench w'.bench) : Traced base u' w' := by
  obtain ⟨es, hes, hunended, -⟩ := h
  obtain ⟨es', hes', hordinary⟩ := hwithin
  refine ⟨es ++ es', by rw [hes', hes, List.append_assoc], fun _ => ?_, fun hshut => ?_⟩
  · exact (hunended hlive).append hordinary
  · rw [hsame] at hshut
    cases hshut

theorem Traced.shutDown (h : Traced base u w)
    (hend : u.shutDown d.recorded p.recorded w = .ok u' w') :
    Traced base u' w' ∧ u'.isShut = true := by
  obtain ⟨hshut, rfl, rfl⟩ | ⟨hlive, rfl, es', hes', hwinds⟩ := shutDown_events hend
  · exact ⟨h, hshut⟩
  · obtain ⟨es, hes, hunended, -⟩ := h
    refine ⟨⟨es ++ es', by rw [hes', hes, List.append_assoc], nofun, fun _ => ?_⟩, rfl⟩
    exact hwinds.ends (hunended hlive)

theorem ordinary_rule : u.Rule (Within Ordinary) d.recorded p.recorded :=
  within_rule fun _ => ordinary_of_routine

theorem ordinary_write (data : List UInt8) :
    Act.Obeys (Within Ordinary) (u.write d.recorded p.recorded data) :=
  ordinary_rule.write (fun _ => within_recording fun _ => ⟨nofun, nofun⟩)
    (fun _ => within_recording fun _ => ⟨nofun, nofun⟩) data

theorem Traced.perform {call : Call} {reply : Reply} (h : Traced base u w)
    (hcall : u.perform d.recorded p.recorded call w = .ok (reply, u') w') : Traced base u' w' := by
  by_cases hend : call = .shutDown
  · subst hend
    exact (h.shutDown (perform_shutDown hcall)).1
  · cases hshut : u.isShut with
    | true =>
      rw [perform_of_shut hshut] at hcall
      cases hcall
      exact h
    | false =>
      have hwithin := ordinary_rule.perform hend (fun data _ => ordinary_write data) w
        (u := u) (d := d.recorded) (p := p.recorded)
      rw [Act.final, hcall] at hwithin
      obtain ⟨rate, timeout, rfl⟩ := sameLine_perform hend hcall
      exact h.goesOn hshut hshut hwithin

/-- Nothing is asked for a request to a line that was shut down, also if it can be answered. -/
theorem unasked_run (hshut : u.isShut = true) (request : Stream.Request) :
    Act.Obeys (Within Unasked) (request.run (u.stream d.recorded p.recorded)) := by
  have hrefused {α : Type} {act : Act (Bench (Recorded σ)) α} {a : α} (hact : ∀ b, act b = .ok a b) :
      Act.Obeys (Within Unasked) act := by
    intro b
    rw [Act.final, hact b]
    exact onward_within.refl b
  exact Stream.obeys_run onward_within
    (fun buffer => hrefused fun b => (refusing_of_shut hshut b).read buffer)
    (fun data => hrefused fun b => (refusing_of_shut hshut b).write data)
    (fun request => hrefused fun b => (refusing_of_shut hshut b).control request) request

theorem bench_final {α : Type} (act : Act (Bench σ) α) (w : World σ) :
    (Act.final (World.benchAct act) w).bench = Act.final act w.bench := by
  simp only [World.benchAct, Act.onPart, Act.final]
  cases act w.bench with
  | ok a b => rfl
  | error e b => rfl

theorem Traced.request (h : Traced base u w) (request : Stream.Request) :
    Traced base u (Act.final (World.benchAct (request.run (u.stream d.recorded p.recorded))) w) := by
  cases hshut : u.isShut with
  | true =>
    refine h.stays ?_
    rw [bench_final]
    exact unasked_run hshut request w.bench
  | false =>
    refine h.goesOn hshut hshut ?_
    rw [bench_final]
    exact Stream.obeys_run onward_within (fun buffer => ordinary_rule.read buffer.length)
      ordinary_write (fun request => ordinary_rule.control request) request w.bench

theorem Handled.traced (h : Handled d.recorded p.recorded Aside u w u' w') (hw : Traced base u w) :
    Traced base u' w' := by
  induction h with
  | new => exact hw
  | between _ hbetween ih =>
    obtain ⟨es, hes, hlife⟩ := ih hw
    exact ⟨es, Eq.trans hbetween hes, hlife⟩
  | call _ hcall ih => exact (ih hw).perform hcall
  | request _ request ih => exact (ih hw).request request
  | session _ _ huse hsession ih ihInside =>
    exact ((ihInside (ih hw)).shutDown (session_ends huse hsession)).1

theorem traced_create {c : Config} {w₀ : World (Recorded σ)} (h : create d.recorded c w₀ = (.ok u, w)) :
    Traced w₀.bench.outside.events u w := by
  obtain ⟨-, -, ring, b, -, hprogram, hbench⟩ := create_ok h
  obtain ⟨id, rfl⟩ := program_ok_config hprogram
  refine ⟨programEvents c (ofConfig c id) ++ facingEvents c, ?_, fun _ => ?_, nofun⟩
  · rw [hbench, logNote_outside, faceReceiving_events, program_events hprogram, List.append_assoc]
  · refine Unended.append ?_ ?_
    · simp [Unended, Ordinary, programEvents]
    · unfold facingEvents
      split <;> simp [Unended, Ordinary]

/-! ## The whole life -/

/-- What a line that was shut down answers: that it was, and nothing else happens. -/
structure Refuses (u : Uart) (d : Driver σ) (p : Platform σ) : Prop where
  /-- Shutting down again is no error. -/
  calls : ∀ call w, u.perform d p call w = .ok (call.refusal, u) w
  requests : ∀ request : Stream.Request, request.NeedsStream →
    ∀ b, request.run (u.stream d p) b = .ok (request.refusal .deinitialized) b
  /-- A transfer of more bytes than there can be is halted before the line is asked. -/
  oversized : ∀ size, maxBytes < size →
    ∀ b, (u.stream d p).readSized size b = .error .aborted b

theorem refuses_of_shut {d : Driver σ} {p : Platform σ} (hshut : u.isShut = true) : Refuses u d p where
  calls := perform_of_shut hshut
  requests _ hneeds b := Stream.run_of_refusing (refusing_of_shut hshut b) (by decide) hneeds
  oversized _ hbig _ := Stream.readSized_of_big hbig

/-- Whatever driver and platform do and whatever a line is used for from its making to its last drop:
reception is stopped once and the peripheral disabled once, in this order, and nothing is asked after
that. A line that was shut down is dropped without any effect, and refuses everything else. -/
theorem ends_once {c : Config} {w₀ x : World (Recorded σ)} {v : Uart}
    (hcreate : create d.recorded c w₀ = (.ok u, w))
    (hhandled : Handled d.recorded p.recorded Aside u w u' w')
    (hdrop : u'.shutDown d.recorded p.recorded w' = .ok v x) :
    (∃ es, x.bench.outside.events = w₀.bench.outside.events ++ es ∧ Ended es) ∧
      (u'.isShut = true → v = u' ∧ x = w') ∧
      ∀ (τ : Type) (d : Driver τ) (p : Platform τ), Refuses v d p := by
  obtain ⟨⟨es, hes, -, hended⟩, hshut⟩ := (hhandled.traced (traced_create hcreate)).shutDown hdrop
  refine ⟨⟨es, hes, hended hshut⟩, fun hdone => ?_, fun _ _ _ => refuses_of_shut hshut⟩
  rw [shutDown_of_shut hdone] at hdrop
  cases hdrop
  exact ⟨rfl, rfl⟩

/-! ## A life -/

/-- The use of a session that asks for more bytes than there can be. -/
def overreach : Use (Recorded Nat) (Except Error (Option (List UInt8))) :=
  .call fun u => do
    return (← World.benchAct ((u.stream eager.recorded steady.recorded).readSized (2 ^ 63)), u)

def endedWorld : World (Recorded Nat) :=
  Act.final ((ofConfig halfDuplex none).shutDown eager.recorded steady.recorded) writtenWorld

theorem overreach_aborted (u : Uart) (w : World (Recorded Nat)) :
    overreach (u, w) = .error .aborted (u, w) := by
  have hread : (u.stream eager.recorded steady.recorded).readSized (2 ^ 63) w.bench =
      .error .aborted w.bench :=
    Stream.readSized_of_big (by decide +kernel)
  simp only [overreach, Use.call, World.benchAct, Act.onPart, bind, EStateM.bind, hread]

/-- A line sends a character. The use of its session is aborted; the line is shut down then, and not once
more when it is dropped. -/
theorem ends_once_in_session :
    session eager.recorded steady.recorded overreach (ofConfig halfDuplex none, writtenWorld) =
        .error .aborted ((ofConfig halfDuplex none).shut, endedWorld) ∧
      endedWorld.bench.outside.events = writtenWorld.bench.outside.events ++
        [.stopReceiving, .ticks 0, .isIdle true, .setDirection false, .disable] ∧
      (∃ es, endedWorld.bench.outside.events = freshWorld.bench.outside.events ++ es ∧ Ended es) ∧
      ∀ (τ : Type) (d : Driver τ) (p : Platform τ), Refuses (ofConfig halfDuplex none).shut d p := by
  have hcreate : create eager.recorded halfDuplex freshWorld =
      (.ok (ofConfig halfDuplex none), turningWorld) := Prod.ext (by rfl) rfl
  have hwrite : (ofConfig halfDuplex none).perform eager.recorded steady.recorded (.write [0x41])
      turningWorld = .ok (.number (.ok 1), ofConfig halfDuplex none) writtenWorld := by rfl
  have hend : (ofConfig halfDuplex none).shutDown eager.recorded steady.recorded writtenWorld =
      .ok (ofConfig halfDuplex none).shut endedWorld := by rfl
  have huse := overreach_aborted (ofConfig halfDuplex none) writtenWorld
  have hsession := session_of_aborted huse hend
  have hdrop : (ofConfig halfDuplex none).shut.shutDown eager.recorded steady.recorded endedWorld =
      .ok (ofConfig halfDuplex none).shut endedWorld := shutDown_of_shut rfl
  have hlife : Handled eager.recorded steady.recorded Aside (ofConfig halfDuplex none) turningWorld
      (ofConfig halfDuplex none).shut endedWorld :=
    .session (.call .new hwrite) .new (.inr huse) (.inr hsession)
  obtain ⟨hended, -, hrefuses⟩ := ends_once hcreate hlife hdrop
  exact ⟨hsession, by decide +kernel, hended, hrefuses⟩

/-- A request for more bytes than there can be is not refused, although the line was shut down. -/
theorem oversized_read_is_halted :
    (ofConfig halfDuplex none).perform eager.recorded steady.recorded .shutDown writtenWorld =
        .ok (.done (.ok ()), (ofConfig halfDuplex none).shut) endedWorld ∧
      ((ofConfig halfDuplex none).shut.stream eager.recorded steady.recorded).readSized (2 ^ 63)
        endedWorld.bench = .error .aborted endedWorld.bench :=
  ⟨by rfl, Stream.readSized_of_big (by decide +kernel)⟩

end SerialLine.Uart
