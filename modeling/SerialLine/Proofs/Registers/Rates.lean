import SerialLine.Proofs.Lines.Ownership
import SerialLine.Proofs.Registers.Files
/-! # Changing the rate of a programmed block

A block that was programmed and then given another rate, against the same block programmed with that
rate from the start.

* `planFor`: what a block is programmed with, if it knows the frame and can divide its clock.
* `configure_of_planned`, `setBaudrate_of_divided`: the two ways to program it as functions of its state.
  A refused plan or rate leaves the bench as it was.
* `word_retimed_configured`, `setBaudrate_like_configure`: both ways leave the same words, and all else
  alike.
* `latches_retimed`: the divisor is in place when the line control register is written.
* `setBaudrate_reprograms`: all that is promised of a change of rate, of the block and of a line.
-/
set_option autoImplicit false

namespace SerialLine.Pl011

variable {σ : Type} {r : Registers σ} {chip : Place σ Chip} {s : LineSettings} {e : Error}
  {divisor divisor' : Divisor} {line : UInt32} {b b₀ b₁ : Bench σ}

/-! ## Two ways to program a block -/

/-- The divisor and the line control value for some settings. -/
def planFor (clock : UInt32) (s : LineSettings) : Except Error (Divisor × UInt32) := do
  let line ← lineControl s.bits s.parity s.stop
  let divisor ← Divisor.nearest? clock s.baudrate
  return (divisor, line)

/-- The state of a block after it was programmed. -/
def configured (r : Registers σ) (chip : Place σ Chip) (s : LineSettings) (divisor : Divisor)
    (line : UInt32) (state : σ) : σ :=
  let state := (writeAll r (programFor divisor line (controlFor s)) state).2
  chip.set { chip.get state with flowControl := s.rts } state

/-- The state of a block after its divisor was changed. -/
def retimed (r : Registers σ) (divisor : Divisor) (state : σ) : σ :=
  let state := (writeAll r [(ibrd, divisor.whole), (fbrd, divisor.fraction)] state).2
  (r.write lcrh (r.read lcrh state).1 (r.read lcrh state).2).2

theorem configure_of_refused (h : planFor (chip.get b.outside).clock s = .error e) :
    configure r chip s b = (.error e, b) := by
  have hlook : remembered chip b = (chip.get b.outside, b) := rfl
  simp only [configure, bind, StateT.bind, hlook]
  unfold planFor at h
  cases hline : lineControl s.bits s.parity s.stop with
  | error e' =>
    rw [hline] at h
    cases h
    rfl
  | ok line =>
    rw [hline] at h
    cases hdivisor : Divisor.nearest? (chip.get b.outside).clock s.baudrate with
    | error e' =>
      rw [hdivisor] at h
      cases h
      rfl
    | ok divisor =>
      rw [hdivisor] at h
      cases h

theorem planFor_ok {clock : UInt32} (h : planFor clock s = .ok (divisor, line)) :
    lineControl s.bits s.parity s.stop = .ok line ∧
      Divisor.nearest? clock s.baudrate = .ok divisor := by
  unfold planFor at h
  cases hline : lineControl s.bits s.parity s.stop with
  | error e =>
    rw [hline] at h
    cases h
  | ok line' =>
    rw [hline] at h
    cases hdivisor : Divisor.nearest? clock s.baudrate with
    | error e =>
      rw [hdivisor] at h
      cases h
    | ok divisor' =>
      rw [hdivisor] at h
      cases h
      exact ⟨rfl, rfl⟩

/-- For a frame that the block knows, the plan depends on the rate alone. -/
theorem planFor_of_line (h : lineControl s.bits s.parity s.stop = .ok line) (clock rate : UInt32) :
    planFor clock { s with baudrate := rate } =
      (Divisor.nearest? clock rate).map fun divisor => (divisor, line) := by
  unfold planFor
  simp only [h]
  cases Divisor.nearest? clock rate with
  | error e => rfl
  | ok divisor => rfl

theorem configure_of_planned (h : planFor (chip.get b.outside).clock s = .ok (divisor, line)) :
    ∃ log, configure r chip s b =
      (.ok (), ⟨b.buffers, log, configured r chip s divisor line b.outside⟩) := by
  have hlook : remembered chip b = (chip.get b.outside, b) := rfl
  obtain ⟨hline, hdivisor⟩ := planFor_ok h
  refine ⟨(configure r chip s b).2.log, ?_⟩
  simp only [configure, bind, StateT.bind, hlook, hline, hdivisor]
  rfl

theorem setBaudrate_of_refused {rate : UInt32}
    (h : Divisor.nearest? (chip.get b.outside).clock rate = .error e) :
    setBaudrate r chip rate b = (.error e, b) := by
  have hlook : remembered chip b = (chip.get b.outside, b) := rfl
  simp only [setBaudrate, bind, StateT.bind, hlook, h]
  rfl

theorem setBaudrate_of_divided {rate : UInt32}
    (h : Divisor.nearest? (chip.get b.outside).clock rate = .ok divisor) :
    setBaudrate r chip rate b = (.ok (), { b with outside := retimed r divisor b.outside }) := by
  have hlook : remembered chip b = (chip.get b.outside, b) := rfl
  simp only [setBaudrate, bind, StateT.bind, hlook, h]
  rfl

theorem configure_planned {settings : LineSettings} (h : configure r chip settings b₀ = (.ok (), b₁)) :
    ∃ divisor line log, planFor (chip.get b₀.outside).clock settings = .ok (divisor, line) ∧
      b₁ = ⟨b₀.buffers, log, configured r chip settings divisor line b₀.outside⟩ := by
  cases hplan : planFor (chip.get b₀.outside).clock settings with
  | error e =>
    rw [configure_of_refused hplan] at h
    cases h
  | ok plan =>
    obtain ⟨divisor, line⟩ := plan
    obtain ⟨log, hend⟩ := configure_of_planned (r := r) hplan
    rw [hend] at h
    cases h
    exact ⟨divisor, line, log, rfl, rfl⟩

theorem setBaudrate_cases (r : Registers σ) (chip : Place σ Chip) (rate : UInt32) (b : Bench σ) :
    (∃ e, Divisor.nearest? (chip.get b.outside).clock rate = .error e ∧
      setBaudrate r chip rate b = (.error e, b)) ∨
    ∃ divisor, Divisor.nearest? (chip.get b.outside).clock rate = .ok divisor ∧
      setBaudrate r chip rate b = (.ok (), { b with outside := retimed r divisor b.outside }) := by
  cases h : Divisor.nearest? (chip.get b.outside).clock rate with
  | error e => exact .inl ⟨e, rfl, setBaudrate_of_refused h⟩
  | ok divisor => exact .inr ⟨divisor, rfl, setBaudrate_of_divided h⟩

/-! ## What they leave behind -/

theorem Remembers.chip_configured (h : Remembers r chip) (s : LineSettings) (divisor : Divisor)
    (line : UInt32) (state : σ) : chip.get (configured r chip s divisor line state) =
      { chip.get state with flowControl := s.rts } := by
  rw [configured, h.chip_set, h.chip_writeAll]

theorem Remembers.chip_retimed (h : Remembers r chip) (divisor : Divisor) (state : σ) :
    chip.get (retimed r divisor state) = chip.get state := by
  rw [retimed, h.chip_write, h.chip_read, h.chip_writeAll]

/-- A block that was programmed takes another rate if and only if it could have been programmed with
that rate. -/
theorem Remembers.configure_then_setBaudrate (h : Remembers r chip)
    (hok : configure r chip s b₀ = (.ok (), b₁)) (rate : UInt32) :
    (∃ e, setBaudrate r chip rate b₁ = (.error e, b₁) ∧
      configure r chip { s with baudrate := rate } b₀ = (.error e, b₀)) ∨
    ∃ divisor divisor' line log, b₁.buffers = b₀.buffers ∧
      b₁.outside = configured r chip s divisor line b₀.outside ∧
      setBaudrate r chip rate b₁ = (.ok (), { b₁ with outside := retimed r divisor' b₁.outside }) ∧
      configure r chip { s with baudrate := rate } b₀ = (.ok (), ⟨b₀.buffers, log,
        configured r chip { s with baudrate := rate } divisor' line b₀.outside⟩) := by
  obtain ⟨divisor, line, log, hplan, rfl⟩ := configure_planned hok
  have hother := planFor_of_line (planFor_ok hplan).1 (chip.get b₀.outside).clock rate
  have hclock : (chip.get (configured r chip s divisor line b₀.outside)).clock =
      (chip.get b₀.outside).clock := by rw [h.chip_configured]
  rcases setBaudrate_cases r chip rate ⟨b₀.buffers, log, configured r chip s divisor line b₀.outside⟩
    with ⟨e, hnone, hset⟩ | ⟨divisor', hsome, hset⟩
  · rw [hclock] at hnone
    rw [hnone] at hother
    exact .inl ⟨e, hset, configure_of_refused hother⟩
  · rw [hclock] at hsome
    rw [hsome] at hother
    obtain ⟨log', hconfigure⟩ := configure_of_planned (r := r) hother
    exact .inr ⟨divisor, divisor', line, log', rfl, rfl, hset, hconfigure⟩

namespace RegisterFile

variable {kept : List Nat} (F : RegisterFile r chip kept) {offset : Nat}

theorem word_configured (hkept : offset ∈ kept) (s : LineSettings) (divisor : Divisor) (line : UInt32)
    (state : σ) : F.word offset (configured r chip s divisor line state) =
      lastWritten offset (F.word offset state) (programFor divisor line (controlFor s)) := by
  rw [configured, F.word_set _ _ _ hkept, F.word_writeAll hkept (inRange_program _ _ _)]

theorem word_retimed (hline : lcrh ∈ kept) (hkept : offset ∈ kept) (divisor : Divisor) (state : σ) :
    F.word offset (retimed r divisor state) = lastWritten offset (F.word offset state)
      [(ibrd, divisor.whole), (fbrd, divisor.fraction)] := by
  rw [retimed, F.word_rewrite hkept hline (by decide), F.word_writeAll hkept (inRange_divisor _)]

theorem word_retimed_of_ne (hline : lcrh ∈ kept) (hkept : offset ∈ kept) (hwhole : offset ≠ ibrd)
    (hfraction : offset ≠ fbrd) (divisor : Divisor) (state : σ) :
    F.word offset (retimed r divisor state) = F.word offset state := by
  rw [F.word_retimed hline hkept, lastWritten, lastWritten, lastWritten, if_neg hwhole.symm,
    if_neg hfraction.symm]

/-- Of all that programs a block only the divisor depends on the rate. -/
theorem lastWritten_program (offset : Nat) (word : UInt32) (divisor divisor' : Divisor)
    (line control : UInt32) :
    lastWritten offset (lastWritten offset word (programFor divisor line control))
        [(ibrd, divisor'.whole), (fbrd, divisor'.fraction)] =
      lastWritten offset word (programFor divisor' line control) := by
  -- both divisor registers are written last by the change of rate, and every other one by the program
  by_cases hwhole : ibrd = offset
  · subst hwhole
    rfl
  · by_cases hfraction : fbrd = offset
    · subst hfraction
      rfl
    · simp only [programFor, lastWritten, if_neg hwhole, if_neg hfraction]

theorem word_retimed_configured (hline : lcrh ∈ kept) (hkept : offset ∈ kept) (s : LineSettings)
    (divisor divisor' : Divisor) (line : UInt32) (rate : UInt32) (state : σ) :
    F.word offset (retimed r divisor' (configured r chip s divisor line state)) =
      F.word offset (configured r chip { s with baudrate := rate } divisor' line state) := by
  rw [F.word_retimed hline hkept, F.word_configured hkept, F.word_configured hkept]
  exact lastWritten_program offset _ divisor divisor' line _

/-- A block that took a rate is in no way different from one that was programmed with it. -/
theorem setBaudrate_like_configure (hline : lcrh ∈ kept) {rate : UInt32} {b₂ b₂' : Bench σ}
    (hok : configure r chip s b₀ = (.ok (), b₁)) (hset : setBaudrate r chip rate b₁ = (.ok (), b₂))
    (hconfigure : configure r chip { s with baudrate := rate } b₀ = (.ok (), b₂')) :
    (∀ offset ∈ kept, F.word offset b₂.outside = F.word offset b₂'.outside) ∧
      chip.get b₂.outside = chip.get b₂'.outside ∧ b₂.buffers = b₂'.buffers := by
  rcases F.configure_then_setBaudrate hok rate with
    ⟨e, hset', -⟩ | ⟨divisor, divisor', line, log, hbuffers, houtside, hset', hconfigure'⟩
  · rw [hset'] at hset
    cases hset
  · rw [hset'] at hset
    rw [hconfigure'] at hconfigure
    cases hset
    cases hconfigure
    rw [houtside]
    refine ⟨fun offset hoffset => ?_, ?_, hbuffers⟩
    · exact F.word_retimed_configured hline hoffset s divisor divisor' line rate b₀.outside
    · exact (F.chip_retimed _ _).trans ((F.chip_configured s divisor line _).trans
        (F.chip_configured { s with baudrate := rate } divisor' line _).symm)

/-- Between two states the divisor was written, and then the line control value that was there already:
at that moment the divisor was in place. -/
def Latches (F : RegisterFile r chip kept) (divisor : Divisor) (s s' : Noted σ) : Prop :=
  ∃ whole fraction last : Entry σ, s'.writes = s.writes ++ [whole, fraction, last] ∧
    whole.asked = (ibrd, divisor.whole) ∧ fraction.asked = (fbrd, divisor.fraction) ∧
    last.asked = (lcrh, F.word lcrh s.inner) ∧ F.word ibrd last.before = divisor.whole ∧
    F.word fbrd last.before = divisor.fraction

theorem latches_retimed (hwhole : ibrd ∈ kept) (hfraction : fbrd ∈ kept) (hline : lcrh ∈ kept)
    (divisor : Divisor) (s : Noted σ) : F.Latches divisor s (retimed r.noted divisor s) := by
  let mid := (writeAll r [(ibrd, divisor.whole), (fbrd, divisor.fraction)] s.inner).2
  have hmid {offset : Nat} (hkept : offset ∈ kept) : F.word offset (r.read lcrh mid).2 =
      lastWritten offset (F.word offset s.inner) [(ibrd, divisor.whole), (fbrd, divisor.fraction)] := by
    rw [F.word_read _ _ _ hkept]
    exact F.word_writeAll hkept (inRange_divisor _) _
  refine ⟨⟨s.inner, ibrd, divisor.whole⟩, ⟨(r.write ibrd divisor.whole s.inner).2, fbrd, divisor.fraction⟩,
    ⟨(r.read lcrh mid).2, lcrh, (r.read lcrh mid).1⟩, ?_, rfl, rfl, ?_, hmid hwhole, hmid hfraction⟩
  · show s.writes ++ [_] ++ [_] ++ [_] = _
    rw [List.append_assoc, List.append_assoc]
    rfl
  · rw [Entry.asked, F.read_word _ _ hline, ← F.word_read _ lcrh _ hline, hmid hline]
    rfl

end RegisterFile

/-! ## The rate of a line -/

section
variable {u : Uart} {rate : UInt32}

theorem line_setBaudrate_refused (hlive : u.isShut = false)
    (h : Divisor.nearest? (chip.get b.outside).clock rate = .error e) :
    u.setBaudrate (driver r chip) rate b = (.error e, b) := by
  simp only [Uart.setBaudrate, hlive, Bool.false_eq_true, if_false]
  by_cases hzero : rate = 0
  · rw [Divisor.nearest?, if_pos hzero] at h
    cases h
    rw [Config.checkBaudrate, if_pos hzero]
    rfl
  · have hset : (driver r chip).setBaudrate rate b = (.error e, b) := setBaudrate_of_refused h
    simp only [Config.checkBaudrate, if_neg hzero, bind, StateT.bind, hset]
    rfl

theorem line_setBaudrate_divided (hlive : u.isShut = false)
    (h : Divisor.nearest? (chip.get b.outside).clock rate = .ok divisor) :
    ∃ log, u.setBaudrate (driver r chip) rate b =
      (.ok { u with baudrate := rate }, ⟨b.buffers, log, retimed r divisor b.outside⟩) := by
  have hset : (driver r chip).setBaudrate rate b =
      (.ok (), { b with outside := retimed r divisor b.outside }) := setBaudrate_of_divided h
  have hzero : rate ≠ 0 := by
    rintro rfl
    cases h
  refine ⟨(u.setBaudrate (driver r chip) rate b).2.log, ?_⟩
  simp only [Uart.setBaudrate, hlive, Bool.false_eq_true, if_false, Config.checkBaudrate, if_neg hzero,
    bind, StateT.bind, hset]
  rfl

end

/-! ## The promise -/

/-- A change between two worlds that leaves all but the log and the words of the divisor registers. -/
structure Retimed {kept : List Nat} (F : RegisterFile r chip kept) (w w' : World (Noted σ)) : Prop where
  pins : w'.pins = w.pins
  buffers : w'.bench.buffers = w.bench.buffers
  chip : chip.get w'.bench.outside.inner = chip.get w.bench.outside.inner
  words : ∀ offset ∈ kept, offset ≠ ibrd → offset ≠ fbrd →
    F.word offset w'.bench.outside.inner = F.word offset w.bench.outside.inner

/-- What is promised of a change of rate. -/
structure RateContract {kept : List Nat} (F : RegisterFile r chip kept) : Prop where
  /-- Settings that are refused are not even begun to be programmed. -/
  unconfigured : ∀ s e b, (configure r.noted chip.noted s b).1 = .error e →
    (configure r.noted chip.noted s b).2 = b
  /-- Changing the rate of a programmed block fails or succeeds as programming it anew would have. -/
  answer : ∀ s rate b₀ b₁, configure r.noted chip.noted s b₀ = (.ok (), b₁) →
    (setBaudrate r.noted chip.noted rate b₁).1 =
      (configure r.noted chip.noted { s with baudrate := rate } b₀).1
  unchanged : ∀ rate e b, (setBaudrate r.noted chip.noted rate b).1 = .error e →
    (setBaudrate r.noted chip.noted rate b).2 = b
  /-- If it succeeds all is as if the block had been programmed with that rate. -/
  equal : ∀ s rate b₀ b₁ b₂ b₂', configure r.noted chip.noted s b₀ = (.ok (), b₁) →
    setBaudrate r.noted chip.noted rate b₁ = (.ok (), b₂) →
    configure r.noted chip.noted { s with baudrate := rate } b₀ = (.ok (), b₂') →
    (∀ offset ∈ kept, F.word offset b₂.outside.inner = F.word offset b₂'.outside.inner) ∧
      chip.get b₂.outside.inner = chip.get b₂'.outside.inner ∧ b₂.buffers = b₂'.buffers
  latches : ∀ rate b b', setBaudrate r.noted chip.noted rate b = (.ok (), b') →
    ∃ divisor, Divisor.nearest? (chip.get b.outside.inner).clock rate = .ok divisor ∧
      F.Latches divisor b.outside b'.outside
  /-- A live line answers as the block does, and keeps all but its rate. -/
  line : ∀ (u : Uart) p rate w, u.isShut = false →
    ∃ result u' w', u.perform (driver r.noted chip.noted) p (.setBaudrate rate) w =
        .ok (.done result, u') w' ∧
      result = (setBaudrate r.noted chip.noted rate w.bench).1 ∧
      (∀ e, result = .error e → u' = u ∧ w' = w) ∧
      (result = .ok () → u' = { u with baudrate := rate } ∧ Retimed F w w')

section
variable {kept : List Nat} (F : RegisterFile r chip kept)

theorem RegisterFile.retimed_world (hline : lcrh ∈ kept) (w : World (Noted σ)) (log : Log)
    (divisor : Divisor) :
    Retimed F w ⟨w.pins, w.bench.buffers, log, retimed r.noted divisor w.bench.outside⟩ where
  pins := rfl
  buffers := rfl
  chip := F.noted.chip_retimed divisor w.bench.outside
  words _ hkept hwhole hfraction :=
    F.noted.word_retimed_of_ne hline hkept hwhole hfraction divisor w.bench.outside

theorem RegisterFile.line_setBaudrate (hline : lcrh ∈ kept) {u : Uart} (p : Platform (Noted σ))
    (rate : UInt32) (w : World (Noted σ)) (hlive : u.isShut = false) :
    ∃ result u' w', u.perform (driver r.noted chip.noted) p (.setBaudrate rate) w =
        .ok (.done result, u') w' ∧
      result = (setBaudrate r.noted chip.noted rate w.bench).1 ∧
      (∀ e, result = .error e → u' = u ∧ w' = w) ∧
      (result = .ok () → u' = { u with baudrate := rate } ∧ Retimed F w w') := by
  have hcall : u.perform (driver r.noted chip.noted) p (.setBaudrate rate) w =
      .ok (u.settled (u.setBaudrate (driver r.noted chip.noted) rate w.bench).1)
        { w with bench := (u.setBaudrate (driver r.noted chip.noted) rate w.bench).2 } := rfl
  rcases setBaudrate_cases r.noted chip.noted rate w.bench with
    ⟨e, hnone, hset⟩ | ⟨divisor, hsome, hset⟩
  · rw [line_setBaudrate_refused hlive hnone] at hcall
    refine ⟨.error e, u, w, hcall, ?_, fun _ _ => ⟨rfl, rfl⟩, nofun⟩
    rw [hset]
  · obtain ⟨log, hend⟩ := line_setBaudrate_divided (r := r.noted) hlive hsome
    rw [hend] at hcall
    refine ⟨.ok (), _, _, hcall, ?_, nofun, fun _ => ⟨rfl, ?_⟩⟩
    · rw [hset]
    · exact F.retimed_world hline w log divisor

/-- Whatever a block is programmed with, changing its rate is like programming it with that rate, and
what fails leaves everything as it was. -/
theorem setBaudrate_reprograms (hkept : [ibrd, fbrd, lcrh, cr, imsc, ifls] ⊆ kept) : RateContract F where
  unconfigured s e b hfail := by
    cases hplan : planFor (chip.noted.get b.outside).clock s with
    | error e' => rw [configure_of_refused hplan]
    | ok plan =>
      obtain ⟨divisor, line⟩ := plan
      obtain ⟨log, hend⟩ := configure_of_planned (r := r.noted) hplan
      rw [hend] at hfail
      cases hfail
  answer s rate b₀ b₁ hok := by
    rcases F.noted.configure_then_setBaudrate hok rate with
      ⟨e, hset, hconfigure⟩ | ⟨divisor, divisor', line, log, -, -, hset, hconfigure⟩
    · rw [hset, hconfigure]
    · rw [hset, hconfigure]
  unchanged rate e b hfail := by
    rcases setBaudrate_cases r.noted chip.noted rate b with
      ⟨e', -, hset⟩ | ⟨divisor, -, hset⟩
    · rw [hset]
    · rw [hset] at hfail
      cases hfail
  equal s rate b₀ b₁ b₂ b₂' := F.noted.setBaudrate_like_configure (hkept (by decide))
  latches rate b b' hset := by
    rcases setBaudrate_cases r.noted chip.noted rate b with
      ⟨e', -, hset'⟩ | ⟨divisor, hdivisor, hset'⟩
    · rw [hset'] at hset
      cases hset
    · rw [hset'] at hset
      cases hset
      exact ⟨divisor, hdivisor, F.latches_retimed (hkept (by decide)) (hkept (by decide))
        (hkept (by decide)) divisor b.outside⟩
  line u p rate w := F.line_setBaudrate (hkept (by decide)) p rate w

end

namespace Latched

def slowSettings : LineSettings where
  baudrate := 9600
  bits := 8
  parity := .none
  stop := 1
  tx := true
  rx := true
  rts := false
  cts := false
  direction := false

/-- A block that was programmed for 9600 baud, and what was written to it. -/
def slowBench : Bench (Noted Latched) :=
  (configure registers.noted place.noted slowSettings { outside := { inner := fresh } }).2

def fastBench : Bench (Noted Latched) := (setBaudrate registers.noted place.noted 115200 slowBench).2

end Latched

/-- A block goes from 9600 to 115200 baud. It does not take a rate of zero. -/
theorem setBaudrate_reprograms_faster :
    Latched.latches.map (fun offset => Latched.file.word offset Latched.slowBench.outside.inner) =
        [156, 16, 0x70, 0x301, 0, 0] ∧
      Latched.latches.map (fun offset => Latched.file.word offset Latched.fastBench.outside.inner) =
        [13, 1, 0x70, 0x301, 0, 0] ∧
      (Latched.fastBench.outside.writes.drop 9).map Entry.asked = [(ibrd, 13), (fbrd, 1), (lcrh, 0x70)] ∧
      (setBaudrate Latched.registers.noted Latched.place.noted 0 Latched.slowBench).1 =
        .error (.config (.invalidBaudrate 0)) ∧
      RateContract Latched.file :=
  ⟨by decide +kernel, by decide +kernel, by decide +kernel, rfl,
    setBaudrate_reprograms Latched.file (by decide)⟩

end SerialLine.Pl011
