import SerialLine.Proofs.Lines.Lifecycle
import SerialLine.Proofs.Registers.Turning
/-! # The direction output at rest

The level of the direction output over the life of a line, from its making to its shutdown and after it.

* `windDown_turns`: a shutdown keeps the output where it is until it clears the control register.
* `rested_create`, `Rested.perform`: a new line has the output at the level for receiving, and every call
  leaves it there.
* `output_rests`: all that is promised of the output, for any use of a line.
* `output_rises`: a shutdown leaves the output high, also on a line that receives while it is low.
-/
set_option autoImplicit false

namespace SerialLine

namespace Uart

variable {σ : Type} {u : Uart} {d : Driver σ} {p : Platform σ}

theorem close_outside (b : Bench σ) :
    (u.close d b).2.outside = (d.disable (u.faceReceiving d b).2).2.outside := by
  have hnote (count : Nat) (b : Bench σ) : (noteDropped count b).2.outside = b.outside := by
    unfold noteDropped
    by_cases hpos : 0 < count
    · rw [if_pos hpos]
      rfl
    · rw [if_neg hpos]
      rfl
  have hdropped (b : Bench σ) : (u.dropped b).2 = b := by
    unfold dropped
    cases u.rxBuffer with
    | none => rfl
    | some id => rfl
  show (noteDropped _ (u.dropped (d.disable (u.faceReceiving d b).2).2).2).2.outside = _
  rw [hnote, hdropped]

end Uart

namespace Pl011

variable {σ : Type} {r : Registers σ} {chip : Place σ Chip}

namespace RegisterFile

variable {F : RegisterFile r chip [cr]} {s s' s'' : Noted σ} {level : Bool} {u : Uart}
  {p : Platform (Noted σ)}

/-! ## Shutting down -/

/-- Between two states the block was disabled. The output was at a level until the last write, which
cleared the control register. -/
structure Disables (F : RegisterFile r chip [cr]) (level : Bool) (s s' : Noted σ) : Prop where
  writes : ∃ new last, s'.writes = s.writes ++ (new ++ [last]) ∧ last.asked = (cr, 0) ∧
    (∀ e ∈ new, e.offset ≠ dr) ∧ ∀ e ∈ new ++ [last], F.output e.before = level
  word : F.word cr s'.inner = 0

theorem Disables.sends {level' : Bool} (h : F.Disables level s s') : F.Sends level' s s' := by
  obtain ⟨⟨new, last, hnew, hlast, hdata, -⟩, -⟩ := h
  refine sends_of_ne hnew (fun e he => ?_) level'
  have hcontrol : last.offset = cr := congrArg Prod.fst hlast
  rcases List.mem_append.mp he with he | he
  · exact hdata e he
  · rw [List.mem_singleton.mp he, hcontrol]
    decide

theorem Disables.output (h : F.Disables level s s') : F.output s'.inner = true := by
  unfold RegisterFile.output
  rw [h.word]
  decide

theorem disables_disable (b : Bench (Noted σ)) (hb : F.output b.outside.inner = level) :
    F.Disables level b.outside (disable r.noted chip.noted b).2.outside := by
  let s₁ := (r.noted.write imsc 0 b.outside).2
  let s₂ := (r.noted.write icr icrAll s₁).2
  have hcleared : F.Untouched b.outside s₂ :=
    (untouched_write (by decide) _ _).trans (untouched_write (by decide) _ _)
  have hstays : F.Stays (· ≠ dr) level b.outside s₂ := hcleared.stays (fun _ h => h) level
  obtain ⟨new, hnew, hmay, hall⟩ := hstays
  obtain ⟨hlevel, hbefore⟩ := hall hb
  refine ⟨⟨new, ⟨s₂.inner, cr, 0⟩, ?_, rfl, hmay, fun e he => ?_⟩, ?_⟩
  · show s₂.writes ++ [_] = _
    rw [hnew, List.append_assoc]
    rfl
  · rcases List.mem_append.mp he with he | he
    · exact hbefore e he
    · rw [List.mem_singleton.mp he]
      exact hlevel
  · show F.word cr (chip.set _ (r.write cr 0 s₂.inner).2) = 0
    rw [F.word_set _ _ _ (by decide), F.word_write _ _ _ (by decide)]

/-- What happens before the block is disabled, at the same level. -/
theorem Disables.after (h : F.Disables level s' s'') (hstays : F.Stays (· ≠ dr) level s s')
    (hs : F.output s.inner = level) : F.Disables level s s'' := by
  obtain ⟨new, hnew, hmay, hall⟩ := hstays
  obtain ⟨⟨new', last, hnew', hlast, hdata, hbefore⟩, hword⟩ := h
  refine ⟨⟨new ++ new', last, by simp [hnew', hnew], hlast, fun e he => ?_, fun e he => ?_⟩, hword⟩
  · exact (List.mem_append.mp he).elim (hmay e) (hdata e)
  · rw [List.append_assoc] at he
    exact (List.mem_append.mp he).elim ((hall hs).2 e) (hbefore e)

/-- A shutdown that comes to its end disables the block, and one that does not leaves the output alone. -/
theorem windDown_turns (hp : F.Spares p) (hdirection : u.hasDirection = true) (b : Bench (Noted σ))
    (hb : F.output b.outside.inner = u.directionInverted) :
    (∃ e b', u.windDown (driver r.noted chip.noted) p b = .error e b' ∧
      F.Untouched b.outside b'.outside) ∨
    ∃ b', u.windDown (driver r.noted chip.noted) p b = .ok () b' ∧
      F.Disables u.directionInverted b.outside b'.outside := by
  let b₁ := (stopReceiving r.noted chip.noted b).2
  have hstop : F.Untouched b.outside b₁.outside := untouched_stopReceiving b
  have hdrain := (untouched_rule (u := u) hp).drain b₁
  cases hend : u.drain (driver r.noted chip.noted) p b₁ with
  | error e b₂ =>
    rw [Act.final, hend] at hdrain
    exact .inl ⟨e, b₂, Uart.windDown_of_undrained hend, hstop.trans hdrain⟩
  | ok _ b₂ =>
    rw [Act.final, hend] at hdrain
    refine .inr ⟨_, Uart.windDown_of_drained hend, ?_⟩
    have hwaited := (hstop.trans hdrain).stays (fun _ h => h) u.directionInverted
    have hback : F.Stays (· ≠ dr) u.directionInverted b₂.outside
        (setDirection r.noted u.directionInverted b₂).2.outside := stays_setDirection _ b₂
    have hface : u.faceReceiving (driver r.noted chip.noted) =
        setDirection r.noted u.directionInverted := by
      rw [Uart.faceReceiving, hdirection]
      rfl
    rw [Uart.close_outside, hface]
    exact (disables_disable _ (F.noted.output_setDirection _ b₂)).after (hwaited.trans hback) hb

/-! ## The life of a line -/

variable {c : Config} {u' : Uart} {w w' w₀ : World (Noted σ)}

/-- A line with a direction output and its world, some time after it was made. -/
structure Rested (F : RegisterFile r chip [cr]) (c : Config) (w₀ : World (Noted σ)) (u : Uart)
    (w : World (Noted σ)) : Prop where
  hasDirection : u.hasDirection = true
  inverted : u.directionInverted = c.directionInverted
  /-- Every character since then was sent at the level for sending. -/
  sends : F.Sends (!c.directionInverted) w₀.bench.outside w.bench.outside
  /-- While the line is in use the output rests at the level for receiving. -/
  rests : u.isShut = false → F.output w.bench.outside.inner = c.directionInverted
  /-- Once the line was shut down, the control register is clear. -/
  shut : u.isShut = true → F.word cr w.bench.outside.inner = 0

/-- Whatever goes on beside the line, if it leaves the output alone. -/
theorem Rested.untouched (h : F.Rested c w₀ u w)
    (hbetween : F.Untouched w.bench.outside w'.bench.outside) : F.Rested c w₀ u w' where
  hasDirection := h.hasDirection
  inverted := h.inverted
  sends := h.sends.trans (hbetween.sends _)
  rests hlive := (output_of_word F hbetween.word).trans (h.rests hlive)
  shut hshut := hbetween.word.trans (h.shut hshut)

theorem sends_configure {settings : LineSettings} {b b' : Bench (Noted σ)}
    (h : configure r.noted chip.noted settings b = (.ok (), b')) (level : Bool) :
    F.Sends level b.outside b'.outside := by
  obtain ⟨divisor, line, log, -, rfl⟩ := configure_planned h
  obtain ⟨new, hnew, hoffsets⟩ := offsets_writeAll (r := r)
    (programFor divisor line (controlFor settings)) b.outside
  have hdata : ∀ offset ∈ (programFor divisor line (controlFor settings)).map Prod.fst, offset ≠ dr := by
    show ∀ offset ∈ [cr, lcrh, ibrd, fbrd, lcrh, icr, ifls, imsc, cr], offset ≠ dr
    decide
  refine sends_of_ne hnew (fun e he => hdata _ ?_) level
  rw [← hoffsets]
  exact List.mem_map_of_mem he

theorem rested_create (h : Uart.create (driver r.noted chip.noted) c w₀ = (.ok u, w))
    (hdirection : c.direction.isSome = true) : F.Rested c w₀ u w := by
  obtain ⟨-, -, ring, b, -, hprogram, hbench⟩ := Uart.create_ok h
  have hline : u.hasDirection = true ∧ u.directionInverted = c.directionInverted ∧ u.isShut = false := by
    obtain ⟨id, rfl⟩ := Uart.program_ok_config hprogram
    exact ⟨hdirection, rfl, rfl⟩
  have hprogrammed : F.Sends (!c.directionInverted) w₀.bench.outside b.outside := by
    obtain ⟨b₁, hconfigure, ⟨-, -, rfl⟩ | ⟨ring', id, b₂, -, hadd, hstart, -⟩⟩ := Uart.program_ok hprogram
    · exact sends_configure hconfigure _
    · have hstarted := untouched_startReceiving (F := F) id b₂
      rw [show (startReceiving r.noted chip.noted id b₂).2 = b from congrArg Prod.snd hstart] at hstarted
      refine (sends_configure hconfigure _).trans ?_
      rw [← Uart.addRing_outside hadd]
      exact Untouched.sends hstarted _
  have hface : w.bench.outside = (setDirection r.noted u.directionInverted b).2.outside := by
    rw [hbench, Uart.logNote_outside, Uart.faceReceiving, hline.1]
    rfl
  refine ⟨hline.1, hline.2.1, ?_, fun _ => ?_, fun hshut => ?_⟩
  · rw [hface]
    exact hprogrammed.trans (sends_setDirection _ _ b)
  · rw [hface, ← hline.2.1]
    exact F.noted.output_setDirection _ b
  · rw [hline.2.2] at hshut
    cases hshut

theorem Rested.shutDown (hp : F.Spares p) (h : F.Rested c w₀ u w) (hlive : u.isShut = false)
    (hend : u.shutDown (driver r.noted chip.noted) p w = .ok u' w') : F.Rested c w₀ u' w' := by
  obtain ⟨rfl, b, hwind, houtside⟩ := Uart.shutDown_ok hlive hend
  have hlevel : F.output w.bench.outside.inner = u.directionInverted :=
    (h.rests hlive).trans h.inverted.symm
  rcases windDown_turns hp h.hasDirection w.bench hlevel with ⟨e, b', hhalt, -⟩ | ⟨b', hwound, hdisables⟩
  · rw [hhalt] at hwind
    cases hwind
  · rw [hwound] at hwind
    cases hwind
    rw [← houtside] at hdisables
    exact ⟨h.hasDirection, h.inverted, h.sends.trans hdisables.sends, nofun, fun _ => hdisables.word⟩

theorem Rested.write (hp : F.Spares p) (h : F.Rested c w₀ u w) (hlive : u.isShut = false)
    {data : List UInt8} {reply : Uart.Reply}
    (hcall : u.perform (driver r.noted chip.noted) p (.write data) w = .ok (reply, u') w') :
    F.Rested c w₀ u' w' := by
  obtain ⟨answer, b, hwrite, -, rfl, rfl⟩ := Uart.benchAct_ok hcall
  obtain ⟨hsends, hback⟩ := write_turns hp h.hasDirection data w.bench
  rw [Act.final, Act.answer?, hwrite, h.inverted] at hback
  rw [Act.final, hwrite, h.inverted] at hsends
  refine ⟨h.hasDirection, h.inverted, h.sends.trans hsends, fun _ => hback (h.rests hlive) rfl,
    fun hshut => ?_⟩
  rw [hlive] at hshut
  cases hshut

theorem Rested.perform (hp : F.Spares p) (h : F.Rested c w₀ u w) {call : Uart.Call} {reply : Uart.Reply}
    (hcall : u.perform (driver r.noted chip.noted) p call w = .ok (reply, u') w') :
    F.Rested c w₀ u' w' := by
  cases hshut : u.isShut with
  | true =>
    rw [Uart.perform_of_shut hshut] at hcall
    cases hcall
    exact h
  | false =>
    -- a shutdown and a write turn the line; every other call leaves the output alone
    by_cases hend : call = .shutDown
    · subst hend
      exact h.shutDown hp hshut (Uart.perform_shutDown hcall)
    · by_cases hwrite : ∃ data, call = .write data
      · obtain ⟨data, rfl⟩ := hwrite
        exact h.write hp hshut hcall
      · have hrest := (untouched_rule (u := u) hp).perform hend
          (fun data hdata => absurd ⟨data, hdata⟩ hwrite) w
        rw [Act.final, hcall] at hrest
        obtain ⟨rate, timeout, rfl⟩ := Uart.sameLine_perform hend hcall
        have hnext : F.Rested c w₀ u w' := h.untouched hrest
        exact ⟨hnext.hasDirection, hnext.inverted, hnext.sends, hnext.rests, hnext.shut⟩

/-- The use of a line, beside which nothing else turns it or sends on it. -/
abbrev Used (F : RegisterFile r chip [cr]) (p : Platform (Noted σ)) (u : Uart) (w : World (Noted σ))
    (u' : Uart) (w' : World (Noted σ)) : Prop :=
  Uart.Used (driver r.noted chip.noted) p (fun _ => True)
    (fun w w' => F.Untouched w.bench.outside w'.bench.outside) u w u' w'

theorem Used.rested (h : F.Used p u w u' w') (hp : F.Spares p) (hw : F.Rested c w₀ u w) :
    F.Rested c w₀ u' w' := by
  induction h with
  | new => exact hw
  | between _ hbetween ih => exact ih.untouched hbetween
  | call _ _ hcall ih => exact ih.perform hp hcall

/-! ## The promise -/

/-- What is promised of the direction output of a line: of all that was written since the line was made,
and of every call that is made now. -/
structure TurningContract (F : RegisterFile r chip [cr]) (c : Config) (p : Platform (Noted σ))
    (w₀ : World (Noted σ)) (u : Uart) (w : World (Noted σ)) : Prop extends F.Rested c w₀ u w where
  /-- The block of a line that was shut down has its output high. -/
  raised : u.isShut = true → F.output w.bench.outside.inner = true
  /-- No other call but a write or a shutdown changes the output, even for a moment, or sends anything. -/
  calls : ∀ call, call ≠ .shutDown → (∀ data, call ≠ .write data) → F.Untouched w.bench.outside
    (Act.final (u.perform (driver r.noted chip.noted) p call) w).bench.outside
  /-- A write sends at the level for sending, and leaves the output at the level for receiving unless it
  never comes to an answer. -/
  writes : ∀ data, F.Sends (!c.directionInverted) w.bench.outside
      (Act.final (u.write (driver r.noted chip.noted) p data) w.bench).outside ∧
    (u.isShut = false → (Act.answer? (u.write (driver r.noted chip.noted) p data) w.bench).isSome = true →
      F.output (Act.final (u.write (driver r.noted chip.noted) p data) w.bench).outside.inner =
        c.directionInverted)
  /-- A shutdown keeps the output at the level for receiving up to its last write to the block. -/
  shutdowns : u.isShut = false →
    (∃ e b, u.windDown (driver r.noted chip.noted) p w.bench = .error e b ∧
      F.Untouched w.bench.outside b.outside) ∨
    ∃ b, u.windDown (driver r.noted chip.noted) p w.bench = .ok () b ∧
      F.Disables c.directionInverted w.bench.outside b.outside
  /-- Turning the line sets the output and no other bit of the control register. -/
  turns : ∀ high (b : Bench σ), F.output (setDirection r high b).2.outside = high ∧
    F.word cr (setDirection r high b).2.outside &&& ~~~crOut1 = F.word cr b.outside &&& ~~~crOut1

/-- Whatever a line with a direction output is used for, the output is at the level for receiving except
during a write, and characters are sent at the other level only, until the shutdown disables the block:
then the output is high. -/
theorem output_rests (hcreate : Uart.create (driver r.noted chip.noted) c w₀ = (.ok u, w))
    (hdirection : c.direction.isSome = true) (hp : F.Spares p) (hused : F.Used p u w u' w') :
    F.TurningContract c p w₀ u' w' := by
  have hrested := Used.rested hused hp (rested_create hcreate hdirection)
  refine ⟨hrested, fun hshut => ?_, fun call hend hwrite => ?_, fun data => ?_, fun hlive => ?_,
    fun high b => ⟨F.output_setDirection high b, F.other_setDirection high b⟩⟩
  · unfold RegisterFile.output
    rw [hrested.shut hshut]
    decide
  · exact (untouched_rule (u := u') hp).perform hend (fun data hdata => absurd hdata (hwrite data)) w'
  · obtain ⟨hsends, hback⟩ := write_turns hp hrested.hasDirection data w'.bench
    rw [hrested.inverted] at hsends hback
    exact ⟨hsends, fun hlive => hback (hrested.rests hlive)⟩
  · rw [← hrested.inverted]
    exact windDown_turns hp hrested.hasDirection w'.bench
      ((hrested.rests hlive).trans hrested.inverted.symm)

end RegisterFile

/-! ## A line that turns -/

namespace Latched

def control : RegisterFile registers place [cr] := file.restrict (by decide)

/-- Serves the interrupt as it is installed. -/
def serveNoted (b : Bench (Noted Latched)) : Unit × Bench (Noted Latched) :=
  match b.outside.inner.chip.interrupt with
  | none => ((), b)
  | some i => ((), (i.serve registers.noted RegisterBlock.queueSize.succ b).2)

/-- A platform whose clock stands still and that serves the interrupt in every round of a wait. -/
def notedPlatform : Platform (Noted Latched) where
  ticks := pure 0
  background := serveNoted
  patience := 10

theorem spares_platform : control.Spares notedPlatform where
  ticks := (RegisterFile.onward_untouched control).pure 0
  background b := by
    show Outside control.Untouched b (serveNoted b).2
    unfold serveNoted
    cases b.outside.inner.chip.interrupt with
    | none => exact (RegisterFile.onward_untouched control).refl b
    | some i => exact RegisterFile.untouched_serve i _ b
  isInterrupted := (RegisterFile.onward_untouched control).pure false

def turningConfig : Config where
  tx := some { number := 0 }
  direction := some { number := 4 }

def turningLine : Uart := Uart.ofConfig turningConfig none

def unturnedWorld : World (Noted Latched) where
  pins := .create 8
  bench := { outside := { inner := fresh } }

def turnedWorld : World (Noted Latched) :=
  (Uart.create (driver registers.noted place.noted) turningConfig unturnedWorld).2

def turnedBackWorld : World (Noted Latched) :=
  Act.final (turningLine.perform (driver registers.noted place.noted) notedPlatform (.write [0x41]))
    turnedWorld

def disabledWorld : World (Noted Latched) :=
  Act.final (turningLine.perform (driver registers.noted place.noted) notedPlatform .shutDown) turnedBackWorld

set_option maxRecDepth 1024 in
theorem shutDown_turnedBack :
    turningLine.perform (driver registers.noted place.noted) notedPlatform .shutDown turnedBackWorld =
      .ok (.done (.ok ()), turningLine.shut) disabledWorld := by rfl

end Latched

namespace RegisterFile

/-- A line is made, sends a character and is shut down: the writes after it was programmed, with the
level that they found the output at. -/
theorem output_rests_written :
    (Latched.disabledWorld.bench.outside.writes.drop 9).map
        (fun e => (e.offset, Latched.control.output e.before)) =
      [(cr, true), (cr, false), (dr, true), (cr, true), (imsc, false), (cr, false), (imsc, false),
        (icr, false), (cr, false)] ∧
      Latched.control.TurningContract Latched.turningConfig Latched.notedPlatform Latched.unturnedWorld
        Latched.turningLine.shut Latched.disabledWorld := by
  have hcreate : Uart.create (driver Latched.registers.noted Latched.place.noted) Latched.turningConfig
      Latched.unturnedWorld = (.ok Latched.turningLine, Latched.turnedWorld) := Prod.ext (by rfl) rfl
  have hwrite : Latched.turningLine.perform (driver Latched.registers.noted Latched.place.noted)
      Latched.notedPlatform (.write [0x41]) Latched.turnedWorld =
        .ok (.number (.ok 1), Latched.turningLine) Latched.turnedBackWorld := by rfl
  exact ⟨by decide +kernel, output_rests hcreate (by decide) Latched.spares_platform
    (.call (.call .new trivial hwrite) trivial Latched.shutDown_turnedBack)⟩

/-- The output was at the level for receiving, which is low, and a shutdown leaves it high. -/
theorem output_rises :
    Latched.control.output Latched.turnedBackWorld.bench.outside.inner =
        Latched.turningConfig.directionInverted ∧
      Latched.turningLine.perform (driver Latched.registers.noted Latched.place.noted)
          Latched.notedPlatform .shutDown Latched.turnedBackWorld =
        .ok (.done (.ok ()), Latched.turningLine.shut) Latched.disabledWorld ∧
      Latched.control.output Latched.disabledWorld.bench.outside.inner ≠
        Latched.turningConfig.directionInverted :=
  ⟨by decide +kernel, Latched.shutDown_turnedBack, by decide +kernel⟩

end RegisterFile
end Pl011
end SerialLine
