import SerialLine.Proofs.Lines.Indices
import SerialLine.Proofs.Lines.Lifecycle
import SerialLine.Proofs.Receiving.Freshness
/-! # What a line keeps in order

* `Regular`: the settings of a live line are in range, and it has the receive buffer that its configuration
  asks for, of the size and for the characters that belong to it.
* `regular_create`: a new line is regular. `Kept.perform`, `Kept.request`, `Kept.shutDown`: so is a live one
  after every use, and one that was shut down has let go of its pins and its buffer. `Handled.kept`: all uses.
* `setBaudrate_settles`, `setTimeout_settles`: a setter that fails changes nothing.
* `stays_dependable`: all of it, from the making of a line on. Reads and writes then never leave the
  memory that they are given.
-/
set_option autoImplicit false

namespace SerialLine

/-! ## Configurations that were accepted -/

theorem Config.checkBaudrate_ok {rate : UInt32} (h : checkBaudrate rate = .ok ()) : 1 ≤ rate := by
  unfold checkBaudrate at h
  split at h
  case isTrue => cases h
  case isFalse hrate =>
    have hpos : rate.toNat ≠ 0 := fun hzero => hrate (UInt32.toNat_inj.mp hzero)
    exact UInt32.le_iff_toNat_le.mpr (Nat.one_le_iff_ne_zero.mpr hpos)

/-- What a configuration has that passed its check. -/
structure Config.Accepted (c : Config) : Prop where
  direction : c.tx.isSome = true ∨ c.rx.isSome = true
  bits : c.bits = 7 ∨ c.bits = 8 ∨ c.bits = 9
  stop : c.stop = 1 ∨ c.stop = 2
  timeout : Timeout.check c.timeout = .ok ()
  baudrate : 1 ≤ c.baudrate

theorem Config.accepted_of_check {c : Config} (h : c.check = .ok ()) : c.Accepted := by
  unfold check at h
  simp only [bind, Except.bind, throw, throwThe, MonadExceptOf.throw] at h
  split_ifs at h with hpins hbits hstop
  cases htimeout : Timeout.check c.timeout with
  | error e =>
    rw [htimeout] at h
    cases h
  | ok _ =>
    rw [htimeout] at h
    refine ⟨?_, ?_, ?_, htimeout, checkBaudrate_ok h⟩
    · revert hpins
      cases c.tx <;> cases c.rx <;> simp
    · simp only [Bool.or_eq_true, decide_eq_true_eq, not_or, UInt8.not_lt, UInt8.le_iff_toNat_le] at hbits
      have hseven : (7 : UInt8).toNat = 7 := rfl
      have hnine : (9 : UInt8).toNat = 9 := rfl
      have hnumber : c.bits.toNat = 7 ∨ c.bits.toNat = 8 ∨ c.bits.toNat = 9 := by omega
      exact hnumber.imp UInt8.toNat_inj.mp (Or.imp UInt8.toNat_inj.mp UInt8.toNat_inj.mp)
    · simpa [or_iff_not_imp_left] using hstop

/-- A character takes two bytes if it has nine bits, and one if it has fewer. -/
theorem CharWidth.bytes_ofBits {bits : UInt8} (h : bits = 7 ∨ bits = 8 ∨ bits = 9) :
    (ofBits bits).bytes = 2 ↔ bits = 9 := by
  rcases h with rfl | rfl | rfl <;> decide

namespace Uart

variable {σ : Type} {c : Config} {u u' : Uart} {d : Driver σ} {p : Platform σ} {b b' : Bench σ}
  {w w' : World σ}

/-! ## Live lines -/

/-- A receive buffer as a configuration asks for it, for the characters of a line. -/
structure Fitted (c : Config) (u : Uart) (r : RingBuffer) : Prop where
  sound : r.Sound
  capacity : r.capacity = c.receiveCapacity
  width : r.width = u.width
  wide_iff : r.width.bytes = 2 ↔ u.bits = 9
  storage : r.storage.size = c.receiveCapacity * r.width.bytes

/-- What a live line keeps, made from this configuration. -/
structure Regular (c : Config) (u : Uart) (b : Bench σ) : Prop where
  bits : u.bits = 7 ∨ u.bits = 8 ∨ u.bits = 9
  stop : u.stop = 1 ∨ u.stop = 2
  baudrate : 1 ≤ u.baudrate
  timeout : Timeout.check u.timeout = .ok ()
  sends : u.sends = c.tx.isSome
  receives : u.receives = c.rx.isSome
  direction : u.sends = true ∨ u.receives = true
  buffered_iff : u.rxBuffer.isSome = true ↔ c.rx.isSome = true ∧ 0 < c.receiveCapacity
  buffer : ∀ id, u.rxBuffer = some id → b.buffers.Holds id ∧ Fitted c u (b.buffers.ring id)

theorem fitted_of_shape {r : RingBuffer} (hbits : u.bits = 7 ∨ u.bits = 8 ∨ u.bits = 9) (hr : r.Sound)
    (hshape : r.shape = (c.receiveCapacity, u.width)) : Fitted c u r := by
  obtain ⟨hcapacity, hwidth⟩ := Prod.mk.inj hshape
  refine ⟨hr, hcapacity, hwidth, ?_, ?_⟩
  · rw [hwidth]
    exact CharWidth.bytes_ofBits hbits
  · rw [hr.size_storage, hcapacity]

theorem Fitted.stepped {r r' : RingBuffer} (hbits : u.bits = 7 ∨ u.bits = 8 ∨ u.bits = 9)
    (h : Fitted c u r) (hr : r.Stepped r') : Fitted c u r' :=
  fitted_of_shape hbits (hr.sound h.sound) (hr.shape_eq.trans (Prod.ext h.capacity h.width))

theorem Regular.steps (h : Regular c u b) (hb : b.Steps b') : Regular c u b' :=
  { h with
    buffer := fun id hid => by
      obtain ⟨hholds, hfitted⟩ := h.buffer id hid
      obtain ⟨hholds', hstepped⟩ := hb id hholds
      exact ⟨hholds', hfitted.stepped h.bits hstepped⟩ }

theorem Regular.withSettings (h : Regular c u b) {rate : UInt32} {timeout : Binary32} (hrate : 1 ≤ rate)
    (htimeout : Timeout.check timeout = .ok ()) :
    Regular c { u with baudrate := rate, timeout := timeout } b :=
  { h with
    baudrate := hrate
    timeout := htimeout
    buffer := fun id hid => by
      obtain ⟨hholds, hfitted⟩ := h.buffer id hid
      exact ⟨hholds, { hfitted with }⟩ }

theorem Regular.furnished (h : Regular c u b) : Furnished u b where
  receives hsome := h.receives.trans (h.buffered_iff.mp hsome).1
  holds id hid := (h.buffer id hid).1
  ring id hid := ⟨(h.buffer id hid).2.sound, (h.buffer id hid).2.width⟩

theorem regular_ofConfig {id : Option BufferId} (hc : c.Accepted)
    (hsome : id.isSome = true ↔ c.rx.isSome = true ∧ 0 < c.receiveCapacity)
    (hbuffer : ∀ id', id = some id' →
      b.buffers.Holds id' ∧ (b.buffers.ring id').Sound ∧
        (b.buffers.ring id').shape = (c.receiveCapacity, CharWidth.ofBits c.bits)) :
    Regular c (ofConfig c id) b where
  bits := hc.bits
  stop := hc.stop
  baudrate := hc.baudrate
  timeout := hc.timeout
  sends := rfl
  receives := rfl
  direction := hc.direction
  buffered_iff := hsome
  buffer id' hid := by
    obtain ⟨hholds, hsound, hshape⟩ := hbuffer id' hid
    exact ⟨hholds, fitted_of_shape hc.bits hsound hshape⟩

theorem bufferFor_iff {ring : Option RingBuffer} (h : bufferFor c = .ok ring) :
    ring.isSome = true ↔ c.rx.isSome = true ∧ 0 < c.receiveCapacity := by
  rw [bufferFor_isSome h, Bool.and_eq_true, decide_eq_true_eq]

/-- A line is regular when it has been made. -/
theorem regular_create (hd : d.Heeds Bench.Steps) (h : create d c w = (.ok u, w')) :
    Regular c u w'.bench := by
  obtain ⟨hcheck, -, ring, b, hroom, hprogram, hbench⟩ := create_ok h
  have hc := Config.accepted_of_check hcheck
  have hface : b.Steps w'.bench := by
    rw [hbench]
    refine Bench.onward_steps.trans ?_ (Bench.onward_steps.note _ _ _)
    unfold faceReceiving
    split
    · exact hd.setDirection _ b
    · exact Bench.onward_steps.refl b
  refine Regular.steps ?_ hface
  obtain ⟨b₁, -, ⟨rfl, rfl, -⟩ | ⟨r, id, b₂, rfl, hadd, hstart, rfl⟩⟩ := program_ok hprogram
  · exact regular_ofConfig hc (bufferFor_iff hroom) nofun
  · have hnew := create_of_bufferFor hroom
    obtain ⟨hholds, hring⟩ := addRing_holds hadd
    have hstarted := hd.startReceiving id b₂
    rw [hstart] at hstarted
    refine Regular.steps (regular_ofConfig hc (bufferFor_iff hroom) fun id' hid => ?_) hstarted
    obtain rfl := Option.some.inj hid
    rw [hring]
    refine ⟨hholds, RingBuffer.sound_create hnew, ?_⟩
    obtain ⟨-, rfl⟩ := RingBuffer.create_eq_ok hnew
    rfl

/-! ## Setters -/

/-- A rate is refused at once or by the driver, or it is in range and set. -/
theorem setBaudrate_ends (u : Uart) (d : Driver σ) (rate : UInt32) (b : Bench σ) :
    (∃ e, u.setBaudrate d rate b = (.error e, b)) ∨
      (∃ e b', d.setBaudrate rate b = (.error e, b') ∧ u.setBaudrate d rate b = (.error e, b')) ∨
      ∃ b', 1 ≤ rate ∧ u.setBaudrate d rate b = (.ok { u with baudrate := rate }, b') := by
  by_cases hshut : u.isShut = true
  · refine .inl ⟨.deinitialized, ?_⟩
    rw [setBaudrate, if_pos hshut]
    rfl
  have hlive := Bool.eq_false_iff.mpr hshut
  cases hcheck : Config.checkBaudrate rate with
  | error e =>
    refine .inl ⟨e, ?_⟩
    simp only [setBaudrate, hlive, Bool.false_eq_true, if_false, hcheck]
    rfl
  | ok _ =>
    rcases setBaudrate_of_live hlive d rate b with hrefused | hdriver | ⟨b', -, hset⟩
    · exact .inl hrefused
    · exact .inr (.inl hdriver)
    · exact .inr (.inr ⟨_, Config.checkBaudrate_ok hcheck, hset⟩)

/-- A setter of the rate is answered. One that fails leaves the line as it was, and nothing else happened
than what a driver did that refused. -/
theorem setBaudrate_settles (u : Uart) (d : Driver σ) (p : Platform σ) (rate : UInt32) (w : World σ) :
    ∃ result u' w', u.perform d p (.setBaudrate rate) w = .ok (.done result, u') w' ∧
      (result = .ok () → u' = { u with baudrate := rate } ∧ 1 ≤ rate) ∧
      ∀ e, result = .error e → u' = u ∧ (w' = w ∨ (d.setBaudrate rate w.bench).1 = .error e ∧
        w' = { w with bench := (d.setBaudrate rate w.bench).2 }) := by
  have hperform : u.perform d p (.setBaudrate rate) w =
    .ok (u.settled (u.setBaudrate d rate w.bench).1)
      { w with bench := (u.setBaudrate d rate w.bench).2 } := rfl
  rcases setBaudrate_ends u d rate w.bench with ⟨e, hset⟩ | ⟨e, b, hdriver, hset⟩ | ⟨b, hpositive, hset⟩
  · rw [hset] at hperform
    exact ⟨_, _, _, hperform, nofun, fun _ _ => ⟨rfl, .inl rfl⟩⟩
  · rw [hset] at hperform
    refine ⟨_, _, _, hperform, nofun, fun e' he => ⟨rfl, .inr ?_⟩⟩
    rw [hdriver]
    exact ⟨he, rfl⟩
  · rw [hset] at hperform
    exact ⟨_, _, _, hperform, fun _ => ⟨rfl, hpositive⟩, nofun⟩

theorem check_of_setTimeout {timeout : Binary32} (h : u.setTimeout timeout = .ok u') :
    Timeout.check timeout = .ok () := by
  simp only [setTimeout, checkLive, bind, Except.bind] at h
  split_ifs at h
  cases hcheck : Timeout.check timeout with
  | ok _ => rfl
  | error e =>
    rw [hcheck] at h
    cases h

/-- So is one of the timeout, and only the line may change. -/
theorem setTimeout_settles (u : Uart) (d : Driver σ) (p : Platform σ) (timeout : Binary32) (w : World σ) :
    ∃ result u', u.perform d p (.setTimeout timeout) w = .ok (.done result, u') w ∧
      (result = .ok () → u' = { u with timeout := timeout } ∧ Timeout.check timeout = .ok ()) ∧
      ∀ e, result = .error e → u' = u := by
  have hperform : u.perform d p (.setTimeout timeout) w = .ok (u.settled (u.setTimeout timeout)) w := rfl
  cases hset : u.setTimeout timeout with
  | error e =>
    rw [hset] at hperform
    exact ⟨_, _, hperform, nofun, fun _ _ => rfl⟩
  | ok u' =>
    rw [hset] at hperform
    exact ⟨_, _, hperform, fun _ => ⟨setTimeout_ok hset, check_of_setTimeout hset⟩, nofun⟩

/-! ## Uses -/

/-- What is kept of a line, live or not. -/
structure Kept (c : Config) (u : Uart) (w : World σ) : Prop where
  live : u.isShut = false → Regular c u w.bench
  shut : u.isShut = true → u.pins = [] ∧ u.rxBuffer = none

theorem Kept.furnished (h : Kept c u w) : Furnished u w.bench := by
  by_cases hshut : u.isShut = true
  · have hnone := (h.shut hshut).2
    refine ⟨?_, ?_, ?_⟩
    all_goals
      rw [hnone]
      nofun
  · exact (h.live (Bool.eq_false_iff.mpr hshut)).furnished

theorem Kept.steps (h : Kept c u w) (hw : w.bench.Steps w'.bench) : Kept c u w' where
  live hlive := (h.live hlive).steps hw
  shut := h.shut

theorem Kept.shutDown (h : Kept c u w) (hend : u.shutDown d p w = .ok u' w') : Kept c u' w' := by
  cases hshut : u.isShut with
  | true =>
    rw [shutDown_of_shut hshut] at hend
    cases hend
    exact h
  | false =>
    obtain ⟨rfl, -⟩ := shutDown_ok hshut hend
    exact ⟨nofun, fun _ => ⟨rfl, rfl⟩⟩

theorem line_of_benchAct {α : Type} {act : Act (Bench σ) α} {answer : α → Reply} {reply : Reply}
    (h : (do return (answer (← World.benchAct act), u) : Act (World σ) (Reply × Uart)) w =
      .ok (reply, u') w') : u' = u := by
  obtain ⟨-, -, -, -, hline, -⟩ := benchAct_ok h
  exact hline

/-- A call other than a setter and a shutdown gives the line back as it is. -/
theorem perform_keeps_line {call : Call} {reply : Reply} (hshut : call ≠ .shutDown)
    (hrate : ∀ rate, call ≠ .setBaudrate rate) (htimeout : ∀ timeout, call ≠ .setTimeout timeout)
    (h : u.perform d p call w = .ok (reply, u') w') : u' = u := by
  cases call with
  | read room => exact line_of_benchAct h
  | write data => exact line_of_benchAct h
  | flush => exact line_of_benchAct h
  | control request => exact line_of_benchAct h
  | setBaudrate rate => exact absurd rfl (hrate rate)
  | setTimeout timeout => exact absurd rfl (htimeout timeout)
  | shutDown => exact absurd rfl hshut
  | poll flags => cases h; rfl
  | getBaudrate => cases h; rfl
  | getTimeout => cases h; rfl
  | waitingCount => cases h; rfl
  | discardInput => cases h; rfl
  | droppedCount => cases h; rfl
  | takeDropped => cases h; rfl

section
variable (hd : d.Heeds Bench.Steps) (hp : p.Heeds Bench.Steps)
include hd hp

theorem steps_write (data : List UInt8) : Act.Obeys Bench.Steps (u.write d p data) :=
  (rule_of_heeds hd hp).write hd.sendWord hd.setDirection data

theorem steps_perform {call : Call} {reply : Reply} (hshut : call ≠ .shutDown)
    (h : u.perform d p call w = .ok (reply, u') w') : w.bench.Steps w'.bench := by
  have hsteps := (rule_of_heeds hd hp).perform hshut (fun data _ => steps_write hd hp data) w
    (u := u) (d := d) (p := p)
  rwa [Act.final, h] at hsteps

omit hd hp in
/-- The settings stay in range: a setter that succeeds has checked the new value. -/
theorem Regular.perform {call : Call} {reply : Reply} (h : Regular c u b) (hshut : call ≠ .shutDown)
    (hcall : u.perform d p call w = .ok (reply, u') w') : Regular c u' b := by
  by_cases hrate : ∃ rate, call = .setBaudrate rate
  · obtain ⟨rate, rfl⟩ := hrate
    obtain ⟨result, u₁, w₁, hperform, hok, herror⟩ := setBaudrate_settles u d p rate w
    rw [hperform] at hcall
    cases hcall
    cases result with
    | ok _ =>
      obtain ⟨rfl, hpositive⟩ := hok rfl
      exact h.withSettings hpositive h.timeout
    | error e =>
      obtain ⟨rfl, -⟩ := herror e rfl
      exact h
  by_cases htimeout : ∃ timeout, call = .setTimeout timeout
  · obtain ⟨timeout, rfl⟩ := htimeout
    obtain ⟨result, u₁, hperform, hok, herror⟩ := setTimeout_settles u d p timeout w
    rw [hperform] at hcall
    cases hcall
    cases result with
    | ok _ =>
      obtain ⟨rfl, hcheck⟩ := hok rfl
      exact h.withSettings h.baudrate hcheck
    | error e =>
      obtain rfl := herror e rfl
      exact h
  obtain rfl := perform_keeps_line hshut (fun rate heq => hrate ⟨rate, heq⟩)
    (fun timeout heq => htimeout ⟨timeout, heq⟩) hcall
  exact h

theorem Kept.perform {call : Call} {reply : Reply} (h : Kept c u w)
    (hcall : u.perform d p call w = .ok (reply, u') w') : Kept c u' w' := by
  by_cases hend : call = .shutDown
  · subst hend
    exact h.shutDown (perform_shutDown hcall)
  by_cases hshut : u.isShut = true
  · rw [perform_of_shut hshut] at hcall
    cases hcall
    exact h
  have hregular := (h.live (Bool.eq_false_iff.mpr hshut)).steps (steps_perform hd hp hend hcall)
  refine ⟨fun _ => hregular.perform hend hcall, fun hshut' => ?_⟩
  obtain ⟨rate, timeout, rfl⟩ := sameLine_perform hend hcall
  exact absurd hshut' hshut

theorem Kept.request (h : Kept c u w) (request : Stream.Request) :
    Kept c u (Act.final (World.benchAct (request.run (u.stream d p))) w) := by
  refine h.steps ?_
  have hrule := rule_of_heeds (u := u) hd hp
  rw [bench_final]
  exact Stream.obeys_run Bench.onward_steps (fun buffer => hrule.read buffer.length)
    (steps_write hd hp) hrule.control request w.bench

theorem Handled.kept (h : Handled d p (fun w w' => w.bench.Steps w'.bench) u w u' w')
    (hw : Kept c u w) : Kept c u' w' := by
  induction h with
  | new => exact hw
  | between _ hbetween ih => exact (ih hw).steps hbetween
  | call _ hcall ih => exact (ih hw).perform hd hp hcall
  | request _ request ih => exact (ih hw).request hd hp request
  | session _ _ huse hsession ih ihInside => exact (ihInside (ih hw)).shutDown (session_ends huse hsession)

end

/-! ## What a line may be relied on for -/

/-- What is promised of a line and the world around it. -/
structure Dependable (c : Config) (d : Driver σ) (p : Platform σ) (u : Uart) (w : World σ) : Prop
    extends Kept c u w where
  /-- A setter that fails leaves the line as it was. -/
  setBaudrate : ∀ rate, ∃ result u' w', u.perform d p (.setBaudrate rate) w = .ok (.done result, u') w' ∧
    ∀ e, result = .error e → u' = u ∧ (w' = w ∨ (d.setBaudrate rate w.bench).1 = .error e ∧
      w' = { w with bench := (d.setBaudrate rate w.bench).2 })
  setTimeout : ∀ timeout, ∃ result u', u.perform d p (.setTimeout timeout) w = .ok (.done result, u') w ∧
    ∀ e, result = .error e → u' = u
  /-- A read finds all its indices inside the caller's buffer and the receive buffer. -/
  read : ∀ buffer : List UInt8,
    u.readChecked d p buffer w.bench = (ReadReply.into buffer <$> u.read d p buffer.length) w.bench ∧
      ∀ b, u.readChecked d p buffer w.bench ≠ .error .aborted b
  write : ∀ data : List UInt8, u.writeChecked d p data w.bench = u.write d p data w.bench ∧
    ∀ b, u.writeChecked d p data w.bench ≠ .error .aborted b

theorem Kept.dependable (h : Kept c u w) (hd : d.Heeds Bench.Steps) (hp : p.Heeds Bench.Steps) :
    Dependable c d p u w where
  toKept := h
  setBaudrate rate := by
    obtain ⟨result, u', w', hperform, -, herror⟩ := setBaudrate_settles u d p rate w
    exact ⟨result, u', w', hperform, herror⟩
  setTimeout timeout := by
    obtain ⟨result, u', hperform, -, herror⟩ := setTimeout_settles u d p timeout w
    exact ⟨result, u', hperform, herror⟩
  read buffer := by
    have hchecked := readChecked_eq hd hp h.furnished buffer
    refine ⟨hchecked, fun b => ?_⟩
    rw [hchecked]
    exact ((unaborted_read buffer.length).map _) w.bench b
  write data := by
    rw [writeChecked_eq]
    exact ⟨rfl, unaborted_write data w.bench⟩

/-- Whatever driver and platform answer, and whatever a line is used for from its making on: while it is
live, its settings are in range and it has the receive buffer that belongs to it; once it was shut down,
it holds neither pins nor a buffer. A setter that fails leaves it as it was, and no read or write looks
outside the memory that it is given. -/
theorem stays_dependable {w₀ : World σ} (hd : d.Heeds Bench.Steps) (hp : p.Heeds Bench.Steps)
    (hcreate : create d c w₀ = (.ok u, w))
    (hhandled : Handled d p (fun w w' => w.bench.Steps w'.bench) u w u' w') : Dependable c d p u' w' := by
  have hnew : Kept c u w := by
    refine ⟨fun _ => regular_create hd hcreate, fun hshut => ?_⟩
    obtain ⟨id, rfl⟩ := create_ofConfig hcreate
    cases hshut
  exact (hhandled.kept hd hp hnew).dependable hd hp

/-- A line that receives nine-bit characters. -/
def feedConfig : Config where
  rx := some { number := 1 }
  bits := 9
  receiveCapacity := 4

def feedWorld : World Feed :=
  (create Driver.inert feedConfig { pins := .create 8, bench := { outside := ⟨[0x102, 0x103], []⟩ } }).2

theorem steps_background (b : Bench Feed) : b.Steps (Feed.background b).2 := by
  cases hcoming : b.outside.coming with
  | nil =>
    have heq : (Feed.background b).2 = b := by simp only [Feed.background, hcoming]
    rw [heq]
    exact Bench.onward_steps.refl b
  | cons word rest =>
    refine (Bench.steps_push ⟨0⟩ word b).of_buffers ?_
    simp only [Feed.background, hcoming]
    rfl

theorem heeds_feeding : feeding.Heeds Bench.Steps where
  ticks := Bench.onward_steps.pure _
  background := steps_background
  isInterrupted := Bench.onward_steps.pure _

/-- Two characters come in while a line reads: a read into five bytes takes both and leaves the last byte
alone. If an interrupt has put one into the buffer before, a read into three bytes takes that one; the line
may be relied on after it. -/
theorem stays_dependable_fed :
    ∃ b w, (ofConfig feedConfig (some ⟨0⟩)).readChecked Driver.inert feeding [9, 9, 9, 9, 9]
          feedWorld.bench = .ok (.ok 4, [0x02, 0x01, 0x03, 0x01, 9]) b ∧
      (ofConfig feedConfig (some ⟨0⟩)).perform Driver.inert feeding (.read 3)
          { feedWorld with bench := (Bench.ringStep ⟨0⟩ (.producerPush 0x101) feedWorld.bench).2 } =
        .ok (.filled 3 ⟨.ok 2, [0x01, 0x01]⟩, ofConfig feedConfig (some ⟨0⟩)) w ∧
      Dependable feedConfig Driver.inert feeding (ofConfig feedConfig (some ⟨0⟩)) w := by
  have hcreate : create Driver.inert feedConfig
      { pins := .create 8, bench := { outside := ⟨[0x102, 0x103], []⟩ } } =
        (.ok (ofConfig feedConfig (some ⟨0⟩)), feedWorld) := Prod.ext (by rfl) rfl
  have hinert := Driver.heeds_inert (Bench.onward_steps (σ := Feed))
  have hread : Act.answer? ((ofConfig feedConfig (some ⟨0⟩)).read Driver.inert feeding 5) feedWorld.bench =
      some ⟨.ok 4, [0x02, 0x01, 0x03, 0x01]⟩ := by rfl
  have hshort : Act.answer? ((ofConfig feedConfig (some ⟨0⟩)).perform Driver.inert feeding (.read 3))
      { feedWorld with bench := (Bench.ringStep ⟨0⟩ (.producerPush 0x101) feedWorld.bench).2 } =
        some (.filled 3 ⟨.ok 2, [0x01, 0x01]⟩, ofConfig feedConfig (some ⟨0⟩)) := by rfl
  have hperform := Act.ok_of_answer? hshort
  have hpushed := Bench.steps_ringStep ⟨0⟩ (.producerPush 0x101) feedWorld.bench
  obtain ⟨hchecked, -⟩ := (stays_dependable hinert heeds_feeding hcreate .new).read [9, 9, 9, 9, 9]
  exact ⟨_, _, hchecked.trans (map_of_ok (Act.ok_of_answer? hread) _), hperform,
    stays_dependable hinert heeds_feeding hcreate (.call (.between .new hpushed) hperform)⟩

end Uart
end SerialLine
