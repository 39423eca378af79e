import SerialLine.Proofs.Sending.Delivery
import SerialLine.Uart.Shutdown
/-! # The direction output

A line with a direction output holds it at one level while it sends and at the other all the time else.

* `facing`: the level that was set last.
* `Disciplined`: characters are handed over at the level for sending only, and the level is not left
  there. Events of several calls, one after the other, are disciplined if those of each call are.
* `Writes.disciplined`, `WindsDown.disciplined`, `quietly_rule`: so are the events of a write, of a
  shutdown and of all the other calls, which do not touch the level.
* `Writes.turnsBack`: a write goes back to receiving because the transmitter was found idle, or because
  the console interrupt was found pending.
* `direction_disciplined`: all of it, for any use of a line.
-/
set_option autoImplicit false

namespace SerialLine.Uart

variable {σ α : Type} {u : Uart} {d : Driver σ} {p : Platform σ} {es es' : List Event}

/-! ## Levels -/

/-- The level of the direction output that was set last. -/
def facing (es : List Event) : Option Bool :=
  (es.filterMap fun
    | .setDirection high => some high
    | _ => none).getLast?

theorem facing_append (es es' : List Event) : facing (es ++ es') = (facing es').or (facing es) := by
  unfold facing
  rw [List.filterMap_append, List.getLast?_append]

theorem facing_append_eq_none_iff : facing (es ++ es') = none ↔ facing es = none ∧ facing es' = none := by
  rw [facing_append, Option.or_eq_none_iff, and_comm]

theorem facing_turn (high : Bool) : facing [.setDirection high] = some high := rfl

theorem facing_eq_none_iff : facing es = none ↔ ∀ e ∈ es, ¬ IsTurn e := by
  unfold facing
  rw [List.getLast?_eq_none_iff, List.filterMap_eq_nil_iff]
  refine forall₂_congr fun e _ => ?_
  cases e <;> simp [IsTurn]

theorem Passive.facing (h : Passive es) : facing es = none :=
  facing_eq_none_iff.mpr fun e hmem => (h e hmem).2

/-- Events of a line that hands characters over at the level for sending only and never leaves the
output at that level; without the output, there is nothing to set. -/
structure Disciplined (u : Uart) (es : List Event) : Prop where
  sending : u.hasDirection = true →
    Preceded IsSend (fun before => facing before = some (!u.directionInverted)) es
  receiving : u.hasDirection = true → facing es ≠ some (!u.directionInverted)
  untouched : u.hasDirection = false → facing es = none

theorem Disciplined.append (h : Disciplined u es) (h' : Disciplined u es') :
    Disciplined u (es ++ es') where
  sending hdirection := by
    refine (h.sending hdirection).append (h'.sending hdirection) fun es' hlevel => ?_
    rw [facing_append, hlevel]
    rfl
  receiving hdirection := by
    rw [facing_append]
    intro hleft
    rcases Option.or_eq_some_iff.mp hleft with hleft | ⟨-, hleft⟩
    · exact h'.receiving hdirection hleft
    · exact h.receiving hdirection hleft
  untouched hdirection :=
    facing_append_eq_none_iff.mpr ⟨h.untouched hdirection, h'.untouched hdirection⟩

theorem Passive.disciplined (h : Passive es) : Disciplined u es where
  sending _ := .of_none fun e hmem => (h e hmem).1
  receiving _ := by
    rw [h.facing]
    simp
  untouched _ := h.facing

/-- Turning to receiving, if there is an output to be turned. -/
def backEvents (u : Uart) : List Event :=
  if u.hasDirection then [.setDirection u.directionInverted] else []

theorem facing_back (hdirection : u.hasDirection = true) :
    facing u.backEvents = some u.directionInverted := by
  unfold backEvents
  rw [if_pos hdirection]
  rfl

theorem disciplined_back : Disciplined u u.backEvents := by
  unfold backEvents
  cases hdirection : u.hasDirection with
  | true =>
    refine ⟨fun _ => .of_none (by simp [IsSend]), fun _ => ?_, fun hplain => ?_⟩
    · rw [if_pos rfl, facing_turn]
      simp
    · rw [hdirection] at hplain
      cases hplain
  | false => exact passive_nil.disciplined

/-! ## Writing -/

theorem Sends.facing {width written : Nat} {words : List UInt16} {deadline : Deadline}
    {answer : Option (Except Error Nat)} (h : Sends width words deadline written es answer) :
    facing es = none := by
  induction h with
  | done => rfl
  | sent hwait hrest ih => exact facing_append_eq_none_iff.mpr ⟨hwait.passive.facing, ih⟩
  | stalled hwait => exact hwait.passive.facing
  | canceled hwait => exact hwait.passive.facing
  | unfinished hwait => exact hwait.passive.facing

/-- Whatever is done between turning to sending and turning back. -/
theorem disciplined_turned (hdirection : u.hasDirection = true) (h : facing es = none) :
    Disciplined u (.setDirection (!u.directionInverted) :: es ++ [.setDirection u.directionInverted]) where
  sending _ := by
    refine Preceded.concat (fun before e after hsplit hsent => ?_) (by simp [IsSend])
    cases before with
    | nil =>
      cases hsplit
      exact absurd hsent (by simp [IsSend])
    | cons e' before =>
      cases hsplit
      have hcons := facing_append [.setDirection (!u.directionInverted)] before
      rw [(facing_append_eq_none_iff.mp h).1] at hcons
      exact hcons
  receiving _ := by
    rw [facing_append]
    simp [facing_turn]
  untouched hplain := by
    rw [hplain] at hdirection
    cases hdirection

theorem Writes.disciplined {data : List UInt8} {answer : Except Error Nat}
    (h : Writes u data es (some answer)) : Disciplined u es := by
  cases h with
  | @plain start es _ hplain hsend =>
    have hnone : facing (.ticks start :: es) = none := hsend.facing
    refine ⟨fun h => ?_, fun h => ?_, fun _ => hnone⟩
    · rw [hplain] at h
      cases h
    · rw [hplain] at h
      cases h
  | @drained start es es' _ _ hdirection hsend hdrain =>
    have hnone : facing (.ticks start :: (es ++ es')) = none :=
      facing_append_eq_none_iff.mpr ⟨hsend.facing, hdrain.passive.facing⟩
    simpa using disciplined_turned hdirection hnone

theorem Drains.last_of_answer {heeds : Bool} {drained : Except Error Bool}
    {answer : Option (Except Error Bool)} (h : Drains none heeds es answer)
    (hanswer : answer = some drained) : [.isIdle true] <:+ es ∨ [.isInterrupted true] <:+ es := by
  induction h with
  | unfinished => cases hanswer
  | idle => exact .inl List.suffix_rfl
  | expired hlimit => cases hlimit
  | canceled hlook => exact .inr ((List.suffix_cons _ _).trans (List.suffix_append _ _))
  | again hlook hrest ih =>
    have hlonger {e : Event} {es : List Event} (look : List Event) (h : [e] <:+ es) :
        [e] <:+ look ++ (roundEvents heeds ++ es) :=
      (h.trans (List.suffix_append _ _)).trans (List.suffix_append _ _)
    exact (ih hanswer).imp (hlonger _) (hlonger _)

/-- The transmitter was found idle, or the console interrupt pending, right before the line was turned
back to receiving. -/
def TurnsBack (u : Uart) (es : List Event) : Prop :=
  Preceded (· = .setDirection u.directionInverted)
    (fun before => [.isIdle true] <:+ before ∨ [.isInterrupted true] <:+ before) es

theorem turnsBack_of_facing (h : facing es = none) : TurnsBack u es := by
  refine .of_none fun e hmem hback => ?_
  exact facing_eq_none_iff.mp h e hmem ⟨_, hback⟩

/-- Turning to sending is not turning back, and what comes earlier does not matter. -/
theorem TurnsBack.turned (h : TurnsBack u es) :
    TurnsBack u (.setDirection (!u.directionInverted) :: es) := by
  have hturn : TurnsBack u [.setDirection (!u.directionInverted)] := .of_none (by simp)
  refine hturn.append h fun es' hlast => ?_
  have hlonger {e : Event} (h : [e] <:+ es') :
      [e] <:+ [.setDirection (!u.directionInverted)] ++ es' := h.trans (List.suffix_append _ _)
  exact hlast.imp hlonger hlonger

theorem Writes.turnsBack {data : List UInt8} {answer : Option (Except Error Nat)}
    (h : Writes u data es answer) : TurnsBack u es := by
  cases h with
  | @plain start es _ hplain hsend =>
    have hnone : facing (.ticks start :: es) = none := hsend.facing
    exact turnsBack_of_facing hnone
  | @unsent start es hdirection hsend =>
    have hnone : facing (.ticks start :: es) = none := hsend.facing
    exact (turnsBack_of_facing hnone).turned
  | @undrained start es es' _ hdirection hsend hdrain =>
    have hnone : facing (.ticks start :: (es ++ es')) = none :=
      facing_append_eq_none_iff.mpr ⟨hsend.facing, hdrain.passive.facing⟩
    exact (turnsBack_of_facing hnone).turned
  | @drained start es es' _ _ hdirection hsend hdrain =>
    have hnone : facing (.ticks start :: (es ++ es')) = none :=
      facing_append_eq_none_iff.mpr ⟨hsend.facing, hdrain.passive.facing⟩
    have hlonger {e : Event} (h : [e] <:+ es') : [e] <:+ .ticks start :: (es ++ es') :=
      h.trans ((List.suffix_append es es').trans (List.suffix_cons _ _))
    have hback : TurnsBack u (.ticks start :: (es ++ es') ++ [.setDirection u.directionInverted]) :=
      Preceded.concat (turnsBack_of_facing hnone) fun _ =>
        (hdrain.last_of_answer rfl).imp hlonger hlonger
    simpa using hback.turned

/-! ## Shutting down -/

theorem shows_drain : Shows (fun es _ => Routine es) (u.drain d.recorded p.recorded) := by
  unfold drain
  cases u.sends with
  | false => exact shows_pure nofun
  | true =>
    refine (emits_begin _).bind ?_
    rintro - deadline ⟨start, rfl, rfl⟩
    refine (shows_awaitIdle emits_workRound _ _).bind ?_ ?_
    · exact fun es hdrain => (routine_ticks start).append hdrain.routine
    · intro es drained hdrain
      have hroutine := (routine_ticks start).append hdrain.routine
      split
      · exact shows_pure (by simpa using hroutine)
      · refine (emits_logNote _ _).lift.mono ?_
        rintro - - ⟨-, -, rfl⟩
        simpa using hroutine

theorem emits_dropped : Emits (σ := σ) (fun es _ => es = []) (u.dropped) := by
  unfold dropped
  cases u.rxBuffer with
  | none => exact emits_pure rfl
  | some id => exact fun _ => ⟨[], (List.append_nil _).symm, rfl⟩

theorem emits_noteDropped (count : Nat) : Emits (σ := σ) (fun es _ => es = []) (noteDropped count) := by
  unfold noteDropped
  by_cases hpos : 0 < count
  · rw [if_pos hpos]
    exact emits_logNote _ _
  · rw [if_neg hpos]
    exact emits_pure rfl

/-- The course of a shutdown that comes to its end. -/
def WindsDown (u : Uart) (es : List Event) : Prop :=
  ∃ waits, Routine waits ∧ es = .stopReceiving :: (waits ++ (u.backEvents ++ [.disable]))

theorem shows_windDown : Shows (fun es r => r.isSome = true → WindsDown u es)
    (u.windDown d.recorded p.recorded) := by
  refine (emits_recording (fun _ => .stopReceiving) d.stopReceiving).bind ?_
  rintro - - rfl
  refine shows_drain.bind nofun ?_
  intro waits _ hwaits
  refine emits_faceReceiving.bind ?_
  rintro - - rfl
  refine (emits_recording (fun _ => .disable) d.disable).bind ?_
  rintro - - rfl
  refine emits_dropped.bind ?_
  rintro - count rfl
  refine (emits_noteDropped count).lift.mono ?_
  rintro - - ⟨-, -, rfl⟩ -
  exact ⟨waits, hwaits, rfl⟩

/-- The output is set to receiving before the peripheral is disabled, however long the transmitter is
busy. -/
theorem WindsDown.disciplined (h : WindsDown u es) : Disciplined u es := by
  obtain ⟨waits, hwaits, rfl⟩ := h
  have hstop : Passive [.stopReceiving] := by simp [Passive, IsSend, IsTurn]
  have hdisable : Passive [.disable] := by simp [Passive, IsSend, IsTurn]
  show Disciplined u ([.stopReceiving] ++ (waits ++ (u.backEvents ++ [.disable])))
  exact hstop.disciplined.append ((passive_of_routine hwaits).disciplined.append
    (disciplined_back.append hdisable.disciplined))

/-! ## All the other calls -/

/-- The later bench has seen passive events only. -/
def Quietly (b b' : Bench (Recorded σ)) : Prop :=
  ∃ es, b'.outside.events = b.outside.events ++ es ∧ Passive es

theorem quietly_rule : u.Rule Quietly d.recorded p.recorded := by
  refine within_rule fun e hroutine => ?_
  have hone : Routine [e] := by simpa [Routine] using hroutine
  exact passive_of_routine hone e List.mem_cons_self

/-! ## Calls in a row -/

/-- The same direction output. -/
def SameOutput (u u' : Uart) : Prop :=
  u'.hasDirection = u.hasDirection ∧ u'.directionInverted = u.directionInverted

theorem SameLine.output {u u' : Uart} (h : SameLine u u') : SameOutput u u' := by
  obtain ⟨rate, timeout, rfl⟩ := h
  exact ⟨rfl, rfl⟩

theorem Disciplined.congr {u' : Uart} (h : Disciplined u' es) (hsame : SameOutput u u') :
    Disciplined u es := by
  obtain ⟨hdirection, hinverted⟩ := hsame
  obtain ⟨hsending, hreceiving, huntouched⟩ := h
  rw [hdirection, hinverted] at hsending hreceiving
  rw [hdirection] at huntouched
  exact ⟨hsending, hreceiving, huntouched⟩

/-- Disciplined events leave the output at the level for receiving if it was there. -/
theorem Disciplined.facing_append (h : Disciplined u es') (hdirection : u.hasDirection = true)
    (hes : facing es = some u.directionInverted) : facing (es ++ es') = some u.directionInverted := by
  have hreceiving := h.receiving hdirection
  rw [Uart.facing_append, hes]
  cases hlast : facing es' with
  | none => rfl
  | some high =>
    rw [hlast] at hreceiving
    have hlevel : high = u.directionInverted := by simpa using hreceiving
    rw [hlevel]
    rfl

variable {u' : Uart} {w w' : World (Recorded σ)}

theorem disciplined_performWrite {data : List UInt8} {reply : Reply}
    (h : u.perform d.recorded p.recorded (.write data) w = .ok (reply, u') w') :
    ∃ es, w'.bench.outside.events = w.bench.outside.events ++ es ∧ Disciplined u es := by
  obtain ⟨result, b, hwrite, -, -, rfl⟩ := benchAct_ok h
  by_cases hdata : u.Transmits data
  · obtain ⟨es, hes, hwrites⟩ := shows_write (d := d) (p := p) hdata w.bench
    rw [Act.final, hwrite] at hes
    rw [Act.answer?, hwrite] at hwrites
    exact ⟨es, hes, hwrites.disciplined⟩
  · obtain ⟨answer, hend, -⟩ := write_idle (d := d.recorded) (p := p.recorded) hdata w.bench
    rw [hwrite] at hend
    cases hend
    exact ⟨[], (List.append_nil _).symm, passive_nil.disciplined⟩

/-- A shutdown winds the line down once, and does nothing after that. -/
theorem shutDown_events (h : u.shutDown d.recorded p.recorded w = .ok u' w') :
    u.isShut = true ∧ u' = u ∧ w' = w ∨ u.isShut = false ∧ u' = u.shut ∧
      ∃ es, w'.bench.outside.events = w.bench.outside.events ++ es ∧ WindsDown u es := by
  cases hshut : u.isShut with
  | true =>
    rw [shutDown_of_shut hshut] at h
    cases h
    exact .inl ⟨rfl, rfl, rfl⟩
  | false =>
    obtain ⟨rfl, b, hwind, houtside⟩ := shutDown_ok hshut h
    obtain ⟨es, hes, hshown⟩ := shows_windDown (u := u) (d := d) (p := p) w.bench
    rw [Act.final, hwind] at hes
    rw [Act.answer?, hwind] at hshown
    rw [houtside]
    exact .inr ⟨rfl, rfl, es, hes, hshown rfl⟩

theorem disciplined_shutDown (h : u.shutDown d.recorded p.recorded w = .ok u' w') :
    SameOutput u u' ∧
      ∃ es, w'.bench.outside.events = w.bench.outside.events ++ es ∧ Disciplined u es := by
  obtain ⟨-, rfl, rfl⟩ | ⟨-, rfl, es, hes, hwinds⟩ := shutDown_events h
  · exact ⟨⟨rfl, rfl⟩, [], (List.append_nil _).symm, passive_nil.disciplined⟩
  · exact ⟨⟨rfl, rfl⟩, es, hes, hwinds.disciplined⟩

theorem disciplined_perform {call : Call} {reply : Reply}
    (h : u.perform d.recorded p.recorded call w = .ok (reply, u') w') :
    SameOutput u u' ∧
      ∃ es, w'.bench.outside.events = w.bench.outside.events ++ es ∧ Disciplined u es := by
  by_cases hshut : call = .shutDown
  · subst hshut
    exact disciplined_shutDown (perform_shutDown h)
  · refine ⟨(sameLine_perform hshut h).output, ?_⟩
    by_cases hwrite : ∃ data, call = .write data
    · obtain ⟨data, rfl⟩ := hwrite
      exact disciplined_performWrite h
    · obtain ⟨es, hes, hpassive⟩ := quietly_rule.perform hshut
        (fun data hcall => absurd ⟨data, hcall⟩ hwrite) w (u := u) (d := d.recorded) (p := p.recorded)
      rw [Act.final, h] at hes
      exact ⟨es, hes, hpassive.disciplined⟩

/-! ## Any use -/

/-- Nothing is asked of the driver. -/
def Aside (w w' : World (Recorded σ)) : Prop := w'.bench.outside.events = w.bench.outside.events

theorem disciplined_used {may : Call → Prop} (h : Used d.recorded p.recorded may Aside u w u' w') :
    SameOutput u u' ∧
      ∃ es, w'.bench.outside.events = w.bench.outside.events ++ es ∧ Disciplined u es := by
  induction h with
  | new => exact ⟨⟨rfl, rfl⟩, [], (List.append_nil _).symm, passive_nil.disciplined⟩
  | between _ hbetween ih =>
    obtain ⟨hsame, es, hes, hdisciplined⟩ := ih
    exact ⟨hsame, es, Eq.trans hbetween hes, hdisciplined⟩
  | call _ _ hcall ih =>
    obtain ⟨hsame, es, hes, hdisciplined⟩ := ih
    obtain ⟨hsame', es', hes', hdisciplined'⟩ := disciplined_perform hcall
    refine ⟨⟨hsame'.1.trans hsame.1, hsame'.2.trans hsame.2⟩, es ++ es', ?_, ?_⟩
    · rw [hes', hes, List.append_assoc]
    · exact hdisciplined.append (hdisciplined'.congr hsame)

/-- A new line has been turned to receiving, if it can be turned. -/
theorem created_output {c : Config} {w₀ : World (Recorded σ)}
    (h : create d.recorded c w₀ = (.ok u, w)) :
    u.hasDirection = c.direction.isSome ∧ u.directionInverted = c.directionInverted ∧
      ∃ es, w.bench.outside.events = w₀.bench.outside.events ++ es ∧ Disciplined u es ∧
        (u.hasDirection = true → facing es = some u.directionInverted) := by
  obtain ⟨-, -, ring, b, -, hprogram, hbench⟩ := create_ok h
  obtain ⟨id, rfl⟩ := program_ok_config hprogram
  refine ⟨rfl, rfl, programEvents c (ofConfig c id) ++ (ofConfig c id).backEvents, ?_, ?_, ?_⟩
  · rw [hbench, logNote_outside, faceReceiving_events, program_events hprogram, List.append_assoc]
    rfl
  · have hprogramming : Passive (programEvents c (ofConfig c id)) := by
      simp [Passive, programEvents, IsSend, IsTurn]
    exact hprogramming.disciplined.append disciplined_back
  · intro hdirection
    rw [Uart.facing_append, facing_back hdirection]
    rfl

/-- What is promised of the direction output: of the events from the making of a line on, and of those
that one more call adds. -/
structure DirectionContract (c : Config) (d : Driver σ) (p : Platform σ) (u : Uart)
    (w : World (Recorded σ)) (es : List Event) : Prop where
  /-- Every character was handed over at the level for sending. -/
  sending : c.direction.isSome = true →
    Preceded IsSend (fun before => facing before = some (!c.directionInverted)) es
  /-- Between calls the output is at the level for receiving. -/
  receiving : c.direction.isSome = true → facing es = some c.directionInverted
  plain : c.direction = none → ∀ e ∈ es, ¬ IsTurn e
  /-- A write turns back only when the transmitter is idle or the console interrupt is pending. -/
  turnsBack : ∀ data, ∃ es', (Act.final (u.write d.recorded p.recorded data) w.bench).outside.events =
      w.bench.outside.events ++ es' ∧ Preceded (· = .setDirection c.directionInverted)
      (fun before => [.isIdle true] <:+ before ∨ [.isInterrupted true] <:+ before) es'
  /-- A write that is rejected or empty asks nothing of the driver. -/
  rejected : ∀ data, ¬ u.Transmits data →
    ∃ answer, u.write d.recorded p.recorded data w.bench = .ok answer w.bench
  /-- No other call but shutdown turns the line. -/
  other : ∀ call, call ≠ .shutDown → (∀ data, call ≠ .write data) → ∃ es',
    (Act.final (u.perform d.recorded p.recorded call) w).bench.outside.events =
      w.bench.outside.events ++ es' ∧ ∀ e ∈ es', ¬ IsTurn e

/-- The direction output is kept in order, whatever the driver and the platform do and whatever the
line is used for, from its making on. -/
theorem direction_disciplined {c : Config} {w₀ : World (Recorded σ)}
    (hcreate : create d.recorded c w₀ = (.ok u, w))
    (hused : Used d.recorded p.recorded (fun _ => True) Aside u w u' w') :
    ∃ es, w'.bench.outside.events = w₀.bench.outside.events ++ es ∧
      DirectionContract c d p u' w' es := by
  obtain ⟨hdirection, hinverted, es, hes, hdisciplined, hfacing⟩ := created_output hcreate
  obtain ⟨⟨-, hinverted'⟩, es', hes', hdisciplined'⟩ := disciplined_used hused
  have hall := hdisciplined.append hdisciplined'
  refine ⟨es ++ es', by rw [hes', hes, List.append_assoc], ?_⟩
  have hturned {yes : Bool} (hyes : c.direction.isSome = yes) : u.hasDirection = yes :=
    hdirection.trans hyes
  refine ⟨fun hsome => ?_, fun hsome => ?_, fun hnone => ?_, fun data => ?_, fun data hdata => ?_, ?_⟩
  · rw [← hinverted]
    exact hall.sending (hturned hsome)
  · rw [← hinverted]
    exact hdisciplined'.facing_append (hturned hsome) (hfacing (hturned hsome))
  · exact facing_eq_none_iff.mp (hall.untouched (hturned (by rw [hnone]; rfl)))
  · by_cases hdata : u'.Transmits data
    · obtain ⟨es'', hes'', hwrites⟩ := shows_write (d := d) (p := p) hdata w'.bench
      rw [← hinverted, ← hinverted']
      exact ⟨es'', hes'', hwrites.turnsBack⟩
    · obtain ⟨answer, hend, -⟩ := write_idle (d := d.recorded) (p := p.recorded) hdata w'.bench
      rw [Act.final, hend]
      exact ⟨[], (List.append_nil _).symm, preceded_nil⟩
  · obtain ⟨answer, hend, -⟩ := write_idle (d := d.recorded) (p := p.recorded) hdata w'.bench
    exact ⟨answer, hend⟩
  · intro call hshut hwrite
    obtain ⟨es'', hes'', hpassive⟩ := (quietly_rule (u := u') (d := d) (p := p)).perform hshut
      (fun data hcall => absurd hcall (hwrite data)) w'
    exact ⟨es'', hes'', fun e hmem => (hpassive e hmem).2⟩

/-! ## A line with an output, in use -/

/-- A peripheral that is always ready and idle. -/
def eager : Driver Nat :=
  { Driver.inert with isReady := pure true }

def halfDuplex : Config where
  tx := some { number := 1 }
  direction := some { number := 2 }

def freshWorld : World (Recorded Nat) where
  pins := .create 8
  bench := { outside := { inner := 0 } }

def turningWorld : World (Recorded Nat) := (create eager.recorded halfDuplex freshWorld).2

def writtenWorld : World (Recorded Nat) :=
  Act.final ((ofConfig halfDuplex none).perform eager.recorded steady.recorded (.write [0x41]))
    turningWorld

/-- A character is written, the line turns to sending for it, and turns back once it is out. -/
theorem direction_disciplined_written :
    writtenWorld.bench.outside.events =
        [.configure halfDuplex.settings, .setDirection false, .setDirection true, .ticks 0, .isReady true,
          .clearToSend true, .sendWord 0x41, .ticks 0, .isIdle true, .setDirection false] ∧
      DirectionContract halfDuplex eager steady (ofConfig halfDuplex none) writtenWorld
        writtenWorld.bench.outside.events := by
  have hcreate : create eager.recorded halfDuplex freshWorld =
      (.ok (ofConfig halfDuplex none), turningWorld) := Prod.ext (by rfl) rfl
  have hwrite : (ofConfig halfDuplex none).perform eager.recorded steady.recorded (.write [0x41])
      turningWorld = .ok (.number (.ok 1), ofConfig halfDuplex none) writtenWorld := by rfl
  obtain ⟨es, hes, hcontract⟩ := direction_disciplined hcreate (.call .new trivial hwrite)
  have hevents : writtenWorld.bench.outside.events = es := hes
  rw [hevents]
  refine ⟨?_, hcontract⟩
  rw [← hevents]
  decide +kernel

end SerialLine.Uart
