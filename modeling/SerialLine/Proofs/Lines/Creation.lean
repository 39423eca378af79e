import SerialLine.Proofs.Pins.Claims
import SerialLine.Recording
import SerialLine.Uart
/-! # Making a line is all or nothing

What `Uart.create` does to the pins and what the driver sees of it, for every configuration, world and
driver.

* `create_of_*`: one equation for each way to fail and one for the rest.
* `create_error_pins`: after a failure the registry is as it was. Giving the pins back restores it only
  because the claim found them free and different from each other.
* `create_ok`: after a success exactly the pins of the configuration are claimed in addition.
* `create_all_or_nothing`: all of that together with the calls that the driver saw.
-/
set_option autoImplicit false

namespace SerialLine

/-- Whether an error says that a value of a configuration is out of its range. -/
def Error.isValueFault : Error → Bool
  | .config .noPins => true
  | .config (.invalidBits _) => true
  | .config (.invalidStop _) => true
  | .config .invalidTimeout => true
  | .config (.invalidBaudrate _) => true
  | _ => false

theorem Config.check_isValueFault {c : Config} {e : Error} (h : c.check = .error e) :
    e.isValueFault = true := by
  unfold Config.check Timeout.check Config.checkBaudrate at h
  simp only [bind, Except.bind, throw, throwThe, MonadExceptOf.throw] at h
  split_ifs at h <;> cases h <;> rfl

namespace Uart

variable {σ : Type} {d : Driver σ} {c : Config} {e : Error} {ring : Option RingBuffer}

theorem bufferFor_eq_noMemory (h : bufferFor c = .error e) : e = .noMemory := by
  unfold bufferFor RingBuffer.create at h
  split at h
  · simp only at h
    split at h <;> cases h
    rfl
  · cases h

theorem bufferFor_isSome (h : bufferFor c = .ok ring) :
    ring.isSome = (c.rx.isSome && decide (0 < c.receiveCapacity)) := by
  unfold bufferFor at h
  by_cases hwant : (c.rx.isSome && decide (0 < c.receiveCapacity)) = true
  · rw [if_pos hwant] at h
    cases hnew : RingBuffer.create c.receiveCapacity c.bits with
    | error _ =>
      rw [hnew] at h
      cases h
    | ok r =>
      rw [hnew] at h
      cases h
      rw [hwant]
      rfl
  · rw [if_neg hwant] at h
    cases h
    rw [Bool.eq_false_iff.mpr hwant]
    rfl

theorem create_of_bufferFor {r : RingBuffer} (h : bufferFor c = .ok (some r)) :
    RingBuffer.create c.receiveCapacity c.bits = .ok r := by
  unfold bufferFor at h
  split at h
  · cases hnew : RingBuffer.create c.receiveCapacity c.bits with
    | error _ =>
      rw [hnew] at h
      cases h
    | ok r' =>
      rw [hnew] at h
      cases h
      rfl
  · cases h

/-! ## Programming the peripheral -/

theorem program_of_refused {b b' : Bench σ} (h : d.configure c.settings b = (.error e, b')) :
    program d c ring b = (.error e, (logNote (W := Bench σ) .error
      s!"UART: peripheral rejected configuration: {e.message}" b').2) := by
  simp only [program, bind, StateT.bind, h]
  rfl

theorem program_unbuffered {b b' : Bench σ} (h : d.configure c.settings b = (.ok (), b')) :
    program d c none b = (.ok (ofConfig c none), b') := by
  simp only [program, bind, StateT.bind, h]
  rfl

theorem program_of_noReception {r : RingBuffer} {id : BufferId} {b b₁ b₂ b₃ : Bench σ}
    (h : d.configure c.settings b = (.ok (), b₁)) (hadd : Bench.addRing r b₁ = (id, b₂))
    (hstart : d.startReceiving id b₂ = (.error e, b₃)) :
    program d c (some r) b = (.error e, (d.disable (logNote (W := Bench σ) .error
      s!"UART: failed to install receive path: {e.message}" b₃).2).2) := by
  simp only [program, bind, StateT.bind, h, hadd, hstart]
  rfl

theorem program_buffered {r : RingBuffer} {id : BufferId} {b b₁ b₂ b₃ : Bench σ}
    (h : d.configure c.settings b = (.ok (), b₁)) (hadd : Bench.addRing r b₁ = (id, b₂))
    (hstart : d.startReceiving id b₂ = (.ok (), b₃)) :
    program d c (some r) b = (.ok (ofConfig c (some id)), b₃) := by
  simp only [program, bind, StateT.bind, h, hadd, hstart]
  rfl

/-- A peripheral that was programmed accepted the settings and, if there is a buffer, reception. -/
theorem program_ok {b b' : Bench σ} {u : Uart} (h : program d c ring b = (.ok u, b')) :
    ∃ b₁, d.configure c.settings b = (.ok (), b₁) ∧
      (ring = none ∧ u = ofConfig c none ∧ b' = b₁ ∨
        ∃ r id b₂, ring = some r ∧ Bench.addRing r b₁ = (id, b₂) ∧
          d.startReceiving id b₂ = (.ok (), b') ∧ u = ofConfig c (some id)) := by
  rcases hconf : d.configure c.settings b with ⟨reply, b₁⟩
  cases reply with
  | error e =>
    rw [program_of_refused hconf] at h
    cases h
  | ok _ =>
    refine ⟨b₁, rfl, ?_⟩
    cases ring with
    | none =>
      rw [program_unbuffered hconf] at h
      cases h
      exact .inl ⟨rfl, rfl, rfl⟩
    | some r =>
      rcases hadd : Bench.addRing r b₁ with ⟨id, b₂⟩
      rcases hstart : d.startReceiving id b₂ with ⟨reply, b₃⟩
      cases reply with
      | error e =>
        rw [program_of_noReception hconf hadd hstart] at h
        cases h
      | ok _ =>
        rw [program_buffered hconf hadd hstart] at h
        cases h
        exact .inr ⟨r, id, b₂, rfl, hadd, hstart, rfl⟩

theorem program_ok_config {b b' : Bench σ} {u : Uart} (h : program d c ring b = (.ok u, b')) :
    ∃ id, u = ofConfig c id := by
  obtain ⟨b₁, -, ⟨-, rfl, -⟩ | ⟨r, id, b₂, -, -, -, rfl⟩⟩ := program_ok h
  · exact ⟨none, rfl⟩
  · exact ⟨some id, rfl⟩

/-! ## The ways to end -/

section
variable {w : World σ} {reg : PinRegistry}

theorem create_of_badValue (h : c.check = .error e) : create d c w = (.error e, w) := by
  simp only [create, h]
  rfl

theorem create_of_noRoom (h : c.check = .ok ()) (hroom : bufferFor c = .error e) :
    create d c w = (.error e, w) := by
  simp only [create, h, hroom]
  rfl

theorem create_of_badPins (h : c.check = .ok ()) (hroom : bufferFor c = .ok ring)
    (hpins : w.pins.claimAll c.pins = .error e) :
    create d c w = (.error e, { w with bench := { w.bench with
      log := PinRegistry.claimNote w.bench.log e } }) := by
  simp only [create, h, hroom, bind, StateT.bind, World.claimAll, hpins]
  rfl

theorem create_of_unprogrammed {b : Bench σ} (h : c.check = .ok ()) (hroom : bufferFor c = .ok ring)
    (hpins : w.pins.claimAll c.pins = .ok reg) (hprog : program d c ring w.bench = (.error e, b)) :
    create d c w = (.error e, { pins := w.pins, bench := b }) := by
  simp only [create, h, hroom, bind, StateT.bind, World.claimAll, hpins, World.benchDo, onPart, hprog]
  rw [← PinRegistry.releaseAll_claimAll hpins]
  rfl

theorem create_of_programmed {b : Bench σ} {u : Uart} (h : c.check = .ok ())
    (hroom : bufferFor c = .ok ring) (hpins : w.pins.claimAll c.pins = .ok reg)
    (hprog : program d c ring w.bench = (.ok u, b)) :
    create d c w =
      (.ok u, ⟨reg, (logNote (W := Bench σ) .info (announcement c) (u.faceReceiving d b).2).2⟩) := by
  simp only [create, h, hroom, bind, StateT.bind, World.claimAll, hpins, World.benchDo, onPart, hprog]
  rfl

/-- The ways in which making a line ends. -/
theorem create_cases (d : Driver σ) (c : Config) (w : World σ) :
    (∃ e, c.check = .error e) ∨ c.check = .ok () ∧
      ((∃ e, bufferFor c = .error e) ∨ ∃ ring, bufferFor c = .ok ring ∧
        ((∃ e, w.pins.claimAll c.pins = .error e) ∨ ∃ reg, w.pins.claimAll c.pins = .ok reg ∧
          ((∃ e b, program d c ring w.bench = (.error e, b)) ∨
            ∃ u b, program d c ring w.bench = (.ok u, b)))) := by
  cases hcheck : c.check with
  | error e => exact .inl ⟨e, rfl⟩
  | ok _ =>
    refine .inr ⟨rfl, ?_⟩
    cases hroom : bufferFor c with
    | error e => exact .inl ⟨e, rfl⟩
    | ok ring =>
      refine .inr ⟨ring, rfl, ?_⟩
      cases hpins : w.pins.claimAll c.pins with
      | error e => exact .inl ⟨e, rfl⟩
      | ok reg =>
        refine .inr ⟨reg, rfl, ?_⟩
        obtain ⟨reply, b⟩ := program d c ring w.bench
        cases reply with
        | error e => exact .inl ⟨e, b, rfl⟩
        | ok u => exact .inr ⟨u, b, rfl⟩

/-- After a failure the registry is as it was. -/
theorem create_error_pins {w' : World σ} (h : create d c w = (.error e, w')) : w'.pins = w.pins := by
  rcases create_cases d c w with ⟨_, hcheck⟩ | ⟨hcheck, hroom | ⟨ring, hroom, hpins | ⟨reg, hpins, hprog⟩⟩⟩
  · rw [create_of_badValue hcheck] at h
    cases h
    rfl
  · obtain ⟨_, hroom⟩ := hroom
    rw [create_of_noRoom hcheck hroom] at h
    cases h
    rfl
  · obtain ⟨_, hpins⟩ := hpins
    rw [create_of_badPins hcheck hroom hpins] at h
    cases h
    rfl
  · rcases hprog with ⟨_, _, hprog⟩ | ⟨_, _, hprog⟩
    · rw [create_of_unprogrammed hcheck hroom hpins hprog] at h
      cases h
      rfl
    · rw [create_of_programmed hcheck hroom hpins hprog] at h
      cases h

/-- After a success the values were in range, the pins are claimed and the line is the one that the
configuration describes. -/
theorem create_ok {u : Uart} {w' : World σ} (h : create d c w = (.ok u, w')) :
    c.check = .ok () ∧ w.pins.claimAll c.pins = .ok w'.pins ∧ ∃ ring b, bufferFor c = .ok ring ∧
      program d c ring w.bench = (.ok u, b) ∧
      w'.bench = (logNote (W := Bench σ) .info (announcement c) (u.faceReceiving d b).2).2 := by
  rcases create_cases d c w with ⟨_, hcheck⟩ | ⟨hcheck, hroom | ⟨ring, hroom, hpins | ⟨reg, hpins, hprog⟩⟩⟩
  · rw [create_of_badValue hcheck] at h
    cases h
  · obtain ⟨_, hroom⟩ := hroom
    rw [create_of_noRoom hcheck hroom] at h
    cases h
  · obtain ⟨_, hpins⟩ := hpins
    rw [create_of_badPins hcheck hroom hpins] at h
    cases h
  · rcases hprog with ⟨_, _, hprog⟩ | ⟨_, b, hprog⟩
    · rw [create_of_unprogrammed hcheck hroom hpins hprog] at h
      cases h
    · rw [create_of_programmed hcheck hroom hpins hprog] at h
      cases h
      exact ⟨hcheck, hpins, ring, b, hroom, hprog, rfl⟩

end

/-! ## What the driver sees -/

theorem recording_events {α : Type} (event : α → Event) (f : StateM (Bench σ) α)
    {b b' : Bench (Recorded σ)} {a : α} (h : recording event f b = (a, b')) :
    b'.outside.events = b.outside.events ++ [event a] := by
  simp only [recording] at h
  cases h
  rfl

theorem addRing_outside {r : RingBuffer} {id : BufferId} {b b' : Bench σ}
    (h : Bench.addRing r b = (id, b')) : b'.outside = b.outside := by
  cases h
  rfl

theorem addRing_holds {r : RingBuffer} {id : BufferId} {b b' : Bench σ}
    (h : Bench.addRing r b = (id, b')) : b'.buffers.Holds id ∧ b'.buffers.ring id = r := by
  cases h
  exact ⟨by simp [RxBuffers.Holds], b.buffers.ring_add_self r⟩

theorem logNote_outside (level : Level) (text : String) (b : Bench σ) :
    (logNote (W := Bench σ) level text b).2.outside = b.outside := rfl

def programEvents (c : Config) (u : Uart) : List Event :=
  .configure c.settings :: u.rxBuffer.toList.map .startReceiving

def facingEvents (c : Config) : List Event :=
  if c.direction.isSome then [.setDirection c.directionInverted] else []

theorem configure_events {s : LineSettings} {reply : Except Error Unit} {b b' : Bench (Recorded σ)}
    (h : d.recorded.configure s b = (reply, b')) :
    b'.outside.events = b.outside.events ++ [.configure s] :=
  recording_events (fun _ => .configure s) (d.configure s) h

theorem startReceiving_events {id : BufferId} {reply : Except Error Unit}
    {b b' : Bench (Recorded σ)} (h : d.recorded.startReceiving id b = (reply, b')) :
    b'.outside.events = b.outside.events ++ [.startReceiving id] :=
  recording_events (fun _ => .startReceiving id) (d.startReceiving id) h

theorem program_events {b b' : Bench (Recorded σ)} {u : Uart}
    (h : program d.recorded c ring b = (.ok u, b')) :
    b'.outside.events = b.outside.events ++ programEvents c u := by
  obtain ⟨b₁, hconf, ⟨-, rfl, rfl⟩ | ⟨r, id, b₂, -, hadd, hstart, rfl⟩⟩ := program_ok h
  · exact configure_events hconf
  · rw [startReceiving_events hstart, addRing_outside hadd, configure_events hconf,
      List.append_assoc]
    rfl

theorem faceReceiving_events (c : Config) (id : Option BufferId) (b : Bench (Recorded σ)) :
    ((ofConfig c id).faceReceiving d.recorded b).2.outside.events =
      b.outside.events ++ facingEvents c := by
  have hdirection : (ofConfig c id).hasDirection = c.direction.isSome := rfl
  unfold faceReceiving facingEvents
  rw [hdirection]
  by_cases hdir : c.direction.isSome = true
  · rw [if_pos hdir, if_pos hdir]
    rfl
  · rw [if_neg hdir, if_neg hdir, List.append_nil]
    rfl

/-- What making a line from a configuration in a world answers, what it leaves behind and which calls
the driver sees, by the first thing that fails. -/
structure CreateContract (d : Driver σ) (c : Config) (w : World (Recorded σ))
    (result : Except Error Uart) (w' : World (Recorded σ)) : Prop where
  restored : ∀ e, result = .error e → w'.pins = w.pins
  /-- A value out of its range comes before everything else. -/
  badValue : ∀ e, c.check = .error e →
    result = .error e ∧ e.isValueFault = true ∧ w'.bench.outside = w.bench.outside
  /-- Missing memory comes before the pins. -/
  noRoom : ∀ e, c.check = .ok () → bufferFor c = .error e →
    result = .error e ∧ e = .noMemory ∧ w'.bench.outside = w.bench.outside
  badPins : ∀ ring e, c.check = .ok () → bufferFor c = .ok ring →
    w.pins.claimAll c.pins = .error e →
    result = .error e ∧ e.isPinFault = true ∧ w'.bench.outside = w.bench.outside
  refused : ∀ ring reg e b, c.check = .ok () → bufferFor c = .ok ring →
    w.pins.claimAll c.pins = .ok reg → d.recorded.configure c.settings w.bench = (.error e, b) →
    result = .error e ∧
      w'.bench.outside.events = w.bench.outside.events ++ [.configure c.settings]
  noReception : ∀ ring reg id e b₁ b₂ b₃, c.check = .ok () → bufferFor c = .ok (some ring) →
    w.pins.claimAll c.pins = .ok reg → d.recorded.configure c.settings w.bench = (.ok (), b₁) →
    Bench.addRing ring b₁ = (id, b₂) → d.recorded.startReceiving id b₂ = (.error e, b₃) →
    result = .error e ∧ w'.bench.outside.events =
      w.bench.outside.events ++ [.configure c.settings, .startReceiving id, .disable]
  /-- A line that is made holds its pins, which were free, in addition to the pins claimed before. -/
  claimed : ∀ u, result = .ok u →
    (∀ pin, w'.pins.isClaimed pin = true ↔
      w.pins.isClaimed pin = true ∨ pin.number.toNat ∈ Pin.numbers c.pins) ∧
    (Pin.numbers c.pins).Nodup ∧ (∀ pin ∈ c.pins, w.pins.isClaimed pin = false)
  live : ∀ u, result = .ok u → u.isShut = false ∧ u.pins = c.pins ∧
    u.rxBuffer.isSome = (c.rx.isSome && decide (0 < c.receiveCapacity))
  seen : ∀ u, result = .ok u → w'.bench.outside.events =
    w.bench.outside.events ++ (programEvents c u ++ facingEvents c)
  /-- Nothing else fails. -/
  complete : ∀ ring reg b₁, c.check = .ok () → bufferFor c = .ok ring →
    w.pins.claimAll c.pins = .ok reg → d.recorded.configure c.settings w.bench = (.ok (), b₁) →
    (∀ r id b₂, ring = some r → Bench.addRing r b₁ = (id, b₂) →
      ∃ b₃, d.recorded.startReceiving id b₂ = (.ok (), b₃)) →
    ∃ u, result = .ok u

/-- Making a line is all or nothing. -/
theorem create_all_or_nothing (d : Driver σ) (c : Config) (w : World (Recorded σ)) :
    CreateContract d c w (create d.recorded c w).1 (create d.recorded c w).2 where
  restored e h := create_error_pins (Prod.ext h rfl)
  badValue e h := by
    rw [create_of_badValue h]
    exact ⟨rfl, Config.check_isValueFault h, rfl⟩
  noRoom e h hroom := by
    rw [create_of_noRoom h hroom]
    exact ⟨rfl, bufferFor_eq_noMemory hroom, rfl⟩
  badPins ring e h hroom hpins := by
    rw [create_of_badPins h hroom hpins]
    exact ⟨rfl, PinRegistry.claimAll_fault hpins, rfl⟩
  refused ring reg e b h hroom hpins hconf := by
    rw [create_of_unprogrammed h hroom hpins (program_of_refused hconf)]
    refine ⟨rfl, ?_⟩
    rw [logNote_outside]
    exact configure_events hconf
  noReception ring reg id e b₁ b₂ b₃ h hroom hpins hconf hadd hstart := by
    rw [create_of_unprogrammed h hroom hpins (program_of_noReception hconf hadd hstart)]
    refine ⟨rfl, ?_⟩
    show b₃.outside.events ++ [Event.disable] = _
    rw [startReceiving_events hstart, addRing_outside hadd, configure_events hconf,
      List.append_assoc, List.append_assoc]
    rfl
  claimed u h := by
    obtain ⟨-, hpins, -⟩ := create_ok (Prod.ext h rfl : create d.recorded c w = (.ok u, _))
    have hclaim := (PinRegistry.claimAll_eq_ok.mp hpins).1
    refine ⟨PinRegistry.isClaimed_claimAll hpins, hclaim.nodup, fun pin hmem => ?_⟩
    rw [PinRegistry.isClaimed_eq_bit (hclaim.contains pin hmem)]
    exact hclaim.free _ (Pin.mem_numbers_of_mem hmem)
  live u h := by
    obtain ⟨-, -, ring, b, hroom, hprog, -⟩ :=
      create_ok (Prod.ext h rfl : create d.recorded c w = (.ok u, _))
    rw [← bufferFor_isSome hroom]
    obtain ⟨b₁, -, ⟨rfl, rfl, -⟩ | ⟨r, id, b₂, rfl, -, -, rfl⟩⟩ := program_ok hprog
    · exact ⟨rfl, rfl, rfl⟩
    · exact ⟨rfl, rfl, rfl⟩
  seen u h := by
    obtain ⟨-, -, ring, b, hroom, hprog, hbench⟩ :=
      create_ok (Prod.ext h rfl : create d.recorded c w = (.ok u, _))
    obtain ⟨id, rfl⟩ := program_ok_config hprog
    rw [hbench, logNote_outside, faceReceiving_events, program_events hprog, List.append_assoc]
  complete ring reg b₁ h hroom hpins hconf hstarts := by
    cases ring with
    | none =>
      rw [create_of_programmed h hroom hpins (program_unbuffered hconf)]
      exact ⟨_, rfl⟩
    | some r =>
      rcases hadd : Bench.addRing r b₁ with ⟨id, b₂⟩
      obtain ⟨b₃, hstart⟩ := hstarts r id b₂ rfl hadd
      rw [create_of_programmed h hroom hpins (program_buffered hconf hadd hstart)]
      exact ⟨_, rfl⟩

end Uart
end SerialLine
