import SerialLine.Proofs.Receiving.Delivery
import SerialLine.Proofs.Receiving.Discarding
import SerialLine.Proofs.Receiving.Progress
import SerialLine.Proofs.Receiving.Readiness
import SerialLine.Proofs.Sending.Opening
import SerialLine.Stream.Transfers
/-! # What a poll promises

* `PollFlags.found`: the conditions that a line found.
* `Furnished`: the receive buffer of a line, if it has one, is for its characters. `furnished_used`: so it is
  for every line that was made, whatever it was used for.
* `Stays`, `Keeps`: what waits in the queue of a line is left there until it is read. `keeps_survey`: a PL011
  block leaves it there.
* `poll_eq`, `emits_poll`, `stays_poll`: what a poll answers, which looks it takes and what it leaves.
* `takeWaiting_gives`, `read_goesOn`, `read_full`: a read that is made while something waits.
* `poll_honest`: what a reader and a writer may rely on after a poll.
-/
set_option autoImplicit false

namespace SerialLine

/-! ## Flags -/

namespace PollFlags

variable {flags a b : PollFlags} {read write : Bool}

/-- The conditions that a line found. -/
def found (read write : Bool) : PollFlags :=
  (if read then readable else empty).union (if write then writable else empty)

theorem includes_union (ha : flags.includes a = true) (hb : flags.includes b = true) :
    flags.includes (a.union b) = true := by
  rw [includes, decide_eq_true_eq] at ha hb ⊢
  have hdistrib : flags.bits &&& (a.bits ||| b.bits) =
      (flags.bits &&& a.bits) ||| (flags.bits &&& b.bits) :=
    UInt32.eq_of_toBitVec_eq BitVec.and_or_distrib_left
  rw [union, hdistrib, ha, hb]

theorem includes_empty (flags : PollFlags) : flags.includes empty = true := by
  rw [includes, decide_eq_true_eq]
  exact UInt32.and_zero

theorem includes_found (hread : read = true → flags.includes readable = true)
    (hwrite : write = true → flags.includes writable = true) :
    flags.includes (found read write) = true := by
  refine includes_union ?_ ?_
  · cases read with
    | true => exact hread rfl
    | false => exact includes_empty flags
  · cases write with
    | true => exact hwrite rfl
    | false => exact includes_empty flags

theorem known_found : (readable.union writable).includes (found read write) = true := by
  revert read write
  decide

@[simp] theorem found_readable : (found read write).includes readable = read := by
  revert read write
  decide

@[simp] theorem found_writable : (found read write).includes writable = write := by
  revert read write
  decide

/-- Conditions that a line found are known ones. -/
theorem ofNumber_found : ofNumber (found read write).bits.toNat = found read write := by
  revert read write
  decide

end PollFlags

namespace Uart

variable {σ : Type} {u : Uart} {d : Driver σ} {p : Platform σ} {flags : PollFlags}
  {b b' b'' : Bench σ} {room : Nat}

/-! ## Lines and what waits in them -/

/-- The receive buffer of a line, if it has one, is for its characters. -/
structure Furnished (u : Uart) (b : Bench σ) : Prop where
  receives : u.rxBuffer.isSome = true → u.receives = true
  holds : ∀ id, u.rxBuffer = some id → b.buffers.Holds id
  ring : ∀ id, u.rxBuffer = some id →
    (b.buffers.ring id).Sound ∧ (b.buffers.ring id).width = u.width

theorem buffered_create {c : Config} {w w₀ : World σ} (h : create d c w₀ = (.ok u, w)) :
    u.rxBuffer.isSome = true → u.receives = true := by
  obtain ⟨-, -, ring, b, hroom, hprogram, -⟩ := create_ok h
  have hsome := bufferFor_isSome hroom
  obtain ⟨b₁, -, ⟨rfl, rfl, -⟩ | ⟨ring', id', b₂, rfl, -, -, rfl⟩⟩ := program_ok hprogram
  · exact fun hnone => absurd hnone Bool.false_ne_true
  · intro _
    rw [Option.isSome_some] at hsome
    exact (Bool.and_eq_true_iff.mp hsome.symm).1

/-- So it is from the making of a line on, whatever the line is used for. -/
theorem furnished_used {I : Intake u d p} (hI : I.Admitting) {c : Config} {u' : Uart}
    {w w' w₀ : World σ} (h : create d c w₀ = (.ok u, w)) (hnone : I.taken w₀.bench.outside = [])
    (hused : Used d p (· ≠ .shutDown) (fun w w' => I.Admits u w.bench w'.bench) u w u' w') :
    Furnished u' w'.bench := by
  obtain ⟨⟨rate, timeout, rfl⟩, hready⟩ := ready_used hI h hnone hused
  have hbuffered := buffered_create h
  exact ⟨hbuffered, fun id hid => (hready id hid).1,
    fun id hid => ⟨(hready id hid).2.sound, (hready id hid).2.width_eq⟩⟩

/-- What waits in the queue of a line was left there: its buffer took characters in, if anything, and its
peripheral tells of no fewer. -/
structure Stays (u : Uart) (d : Driver σ) (b b' : Bench σ) : Prop where
  ring : ∀ id, u.rxBuffer = some id → b.buffers.Holds id →
    b'.buffers.Holds id ∧ ∃ new, (b.buffers.ring id).Fed new (b'.buffers.ring id)
  count : u.rxBuffer = none → (d.receivedCount b).1 ≤ (d.receivedCount b').1

/-- A driver and a platform that leave what waits where it is until it is read, and give it out then. -/
structure Keeps (u : Uart) (d : Driver σ) (p : Platform σ) : Prop where
  ticks : Obeys (u.Stays d) p.ticks
  receivedCount : Obeys (u.Stays d) d.receivedCount
  isReady : Obeys (u.Stays d) d.isReady
  clearToSend : Obeys (u.Stays d) d.clearToSend
  /-- A peripheral that tells of characters has one. -/
  takeWord : u.rxBuffer = none → ∀ b, 0 < (d.receivedCount b).1 → (d.takeWord b).1.isSome = true

theorem Keeps.recorded (h : Keeps u d p) : Keeps u d.recorded p.recorded where
  ticks b := ⟨(h.ticks b.unrecorded).ring, (h.ticks b.unrecorded).count⟩
  receivedCount b := ⟨(h.receivedCount b.unrecorded).ring, (h.receivedCount b.unrecorded).count⟩
  isReady b := ⟨(h.isReady b.unrecorded).ring, (h.isReady b.unrecorded).count⟩
  clearToSend b := ⟨(h.clearToSend b.unrecorded).ring, (h.clearToSend b.unrecorded).count⟩
  takeWord hbuffer b := h.takeWord hbuffer b.unrecorded

theorem Stays.refl (u : Uart) (d : Driver σ) (b : Bench σ) : u.Stays d b b :=
  ⟨fun _ _ hholds => ⟨hholds, [], .refl⟩, fun _ => le_rfl⟩

theorem Stays.trans (h : u.Stays d b b') (h' : u.Stays d b' b'') : u.Stays d b b'' where
  ring id hid hholds := by
    obtain ⟨hholds', new, hfed⟩ := h.ring id hid hholds
    obtain ⟨hholds'', new', hfed'⟩ := h'.ring id hid hholds'
    exact ⟨hholds'', _, hfed.trans hfed'⟩
  count hbuffer := (h.count hbuffer).trans (h'.count hbuffer)

theorem Stays.furnished (h : u.Stays d b b') (hb : Furnished u b) : Furnished u b' where
  receives := hb.receives
  holds id hid := (h.ring id hid (hb.holds id hid)).1
  ring id hid := by
    obtain ⟨-, new, hfed⟩ := h.ring id hid (hb.holds id hid)
    obtain ⟨hsound, hwidth⟩ := hb.ring id hid
    exact ⟨hfed.sound hsound, hfed.width_eq.trans hwidth⟩

theorem Stays.waiting_le (h : u.Stays d b b') (hb : Furnished u b) :
    (u.waiting d b).1 ≤ (u.waiting d b').1 := by
  cases hbuffer : u.rxBuffer with
  | some id =>
    obtain ⟨-, new, hfed⟩ := h.ring id hbuffer (hb.holds id hbuffer)
    rw [waiting_buffered hbuffer, waiting_buffered hbuffer, hfed.available_eq (hb.ring id hbuffer).1]
    exact Nat.le_add_right _ _
  | none =>
    rw [waiting_unbuffered hbuffer, waiting_unbuffered hbuffer]
    split
    · exact h.count hbuffer
    · exact le_rfl

theorem receives_of_waiting (hb : Furnished u b) (hsome : 0 < (u.waiting d b).1) :
    u.receives = true := by
  cases hbuffer : u.rxBuffer with
  | some id => exact hb.receives (by rw [hbuffer]; rfl)
  | none =>
    rw [waiting_unbuffered hbuffer] at hsome
    by_contra hdeaf
    rw [if_neg hdeaf] at hsome
    exact Nat.lt_irrefl 0 hsome

/-- Characters that come in while a line is looked at leave what waits where it is, if its peripheral can
count those that it holds or tells at least whether it holds any. -/
theorem Intake.keeps (I : Intake u d p) (htells : I.Counts ∨ I.TellsAny)
    (hcount : ∀ b, I.Admits u b (d.receivedCount b).2) (hready : ∀ b, I.Admits u b (d.isReady b).2)
    (hclear : ∀ b, I.Admits u b (d.clearToSend b).2) : Keeps u d p := by
  have hle {b b' : Bench σ} {new : List UInt16} (h : I.held b'.outside = I.held b.outside ++ new) :
      (d.receivedCount b).1 ≤ (d.receivedCount b').1 := by
    rcases htells with hcounts | hany
    · rw [hcounts, hcounts, h, List.length_append]
      exact Nat.le_add_right _ _
    · rw [hany, hany, h]
      by_cases hnone : I.held b.outside = []
      · rw [if_pos hnone]
        exact Nat.zero_le _
      · rw [if_neg hnone, if_neg (List.append_ne_nil_of_left_ne_nil hnone new)]
  have hstays {b b' : Bench σ} (h : I.Admits u b b') : u.Stays d b b' := by
    refine ⟨fun id hid hholds => ?_, fun hbuffer => ?_⟩
    · obtain ⟨new, harrives⟩ := h fun id' hid' => Option.some.inj (hid.symm.trans hid') ▸ hholds
      exact ⟨harrives.holds id hid hholds, new, harrives.ring id hid⟩
    · obtain ⟨new, harrives⟩ := h fun id hid => by rw [hbuffer] at hid; cases hid
      exact hle (harrives.held hbuffer)
  refine ⟨fun b => hstays (I.ticks b), fun b => hstays (hcount b), fun b => hstays (hready b),
    fun b => hstays (hclear b), fun hbuffer b hpos => ?_⟩
  rw [Option.isSome_iff_ne_none]
  intro hnone
  have hempty := I.takeWord_none hbuffer b hnone
  rcases htells with hcounts | hany
  · rw [hcounts, hempty] at hpos
    exact Nat.lt_irrefl 0 hpos
  · rw [hany, hempty, if_pos rfl] at hpos
    exact Nat.lt_irrefl 0 hpos

/-- A PL011 block keeps what it holds. -/
theorem keeps_survey {r : Pl011.Registers σ} {chip : Pl011.Place σ Pl011.Chip} {W : Pl011.Window r chip}
    (S : Pl011.Survey W u p) : Keeps u (Pl011.driver r chip) p :=
  S.intake.keeps (.inr (tellsAny_survey S)) S.admits_receivedCount
    (fun b => S.admits_outsideDo (Pl011.Window.leaves_read (by decide))
      (fun hsome s => S.read hsome Pl011.fr s) b)
    fun b => (Holdings.Still.refl _ u b b.log).admits

/-! ## The looks of a poll -/

/-- The look at what waits, if it is asked for. -/
def lookRead (u : Uart) (d : Driver σ) (flags : PollFlags) : StateM (Bench σ) Nat :=
  if flags.includes .readable then u.waiting d else pure 0

/-- The look at both sides of the transmission, if it is asked for. -/
def lookWrite (u : Uart) (d : Driver σ) (flags : PollFlags) : StateM (Bench σ) Bool :=
  if flags.includes .writable && u.sends then canSend d else pure false

theorem lookRead_count (u : Uart) (d : Driver σ) (flags : PollFlags) (b : Bench σ) :
    (u.lookRead d flags b).1 = if flags.includes .readable then (u.waiting d b).1 else 0 := by
  rw [lookRead]
  split <;> rfl

theorem lookWrite_iff (u : Uart) (d : Driver σ) (flags : PollFlags) (b : Bench σ) :
    (u.lookWrite d flags b).1 = true ↔
      flags.includes .writable = true ∧ u.sends = true ∧ (canSend d b).1 = true := by
  rw [lookWrite, ← and_assoc, ← Bool.and_eq_true_iff]
  split
  case isTrue hasked => exact (and_iff_right hasked).symm
  case isFalse hasked => exact iff_of_false Bool.false_ne_true fun h => hasked h.1

theorem poll_eq (hlive : u.isShut = false) (d : Driver σ) (flags : PollFlags) :
    u.poll d flags = (do
      let count ← u.lookRead d flags
      let yes ← u.lookWrite d flags
      return .ok (.found (0 < count) yes)) := by
  rw [poll, hlive, if_neg Bool.false_ne_true]
  simp only [lookRead, lookWrite, PollFlags.found, decide_eq_true_eq]
  cases flags.includes .readable <;> cases (flags.includes .writable && u.sends) <;> rfl

theorem stays_lookRead (h : Keeps u d p) (flags : PollFlags) : Obeys (u.Stays d) (u.lookRead d flags) := by
  intro b
  rw [lookRead]
  split
  · rw [waiting]
    cases u.rxBuffer with
    | some id => exact .refl u d b
    | none =>
      dsimp only
      split
      · exact h.receivedCount b
      · exact .refl u d b
  · exact .refl u d b

theorem stays_canSend (h : Keeps u d p) : Obeys (u.Stays d) (canSend d) := by
  intro b
  have hready := h.isReady b
  rcases hlook : d.isReady b with ⟨ready, b₁⟩
  rw [hlook] at hready
  simp only [canSend, bind, StateT.bind, hlook]
  cases ready with
  | true => exact hready.trans (h.clearToSend b₁)
  | false => exact hready

theorem stays_lookWrite (h : Keeps u d p) (flags : PollFlags) :
    Obeys (u.Stays d) (u.lookWrite d flags) := by
  intro b
  rw [lookWrite]
  split
  · exact stays_canSend h b
  · exact .refl u d b

/-- Looking takes nothing. -/
theorem stays_poll (h : Keeps u d p) (hlive : u.isShut = false) (flags : PollFlags) :
    Obeys (u.Stays d) (u.poll d flags) := by
  intro b
  rw [poll_eq hlive]
  exact (stays_lookRead h flags b).trans (stays_lookWrite h flags _)

theorem emits_lookRead (u : Uart) (d : Driver σ) (flags : PollFlags) :
    Emits (fun es _ => sentWords es = []) (u.lookRead d.recorded flags) := by
  rw [lookRead]
  split
  · rw [waiting]
    cases u.rxBuffer with
    | some id => exact fun b => ⟨[], (List.append_nil _).symm, rfl⟩
    | none =>
      dsimp only
      split
      · refine (emits_recording .receivedCount d.receivedCount).mono ?_
        rintro _ count rfl
        rfl
      · exact emits_pure rfl
  · exact emits_pure rfl

theorem emits_lookWrite (u : Uart) (d : Driver σ) (flags : PollFlags) :
    Emits (fun es yes => sentWords es = [] ∧ (yes = true → FoundReady es ∧ u.sends = true))
      (u.lookWrite d.recorded flags) := by
  rw [lookWrite]
  split
  case isTrue hasked =>
    refine emits_canSend.mono ?_
    rintro es yes (⟨rfl, rfl⟩ | ⟨hlook, rfl⟩)
    · exact ⟨rfl, fun _ => ⟨⟨by simp, by simp, rfl⟩, (Bool.and_eq_true_iff.mp hasked).2⟩⟩
    · exact ⟨hlook.passive.sendsNothing, fun hno => absurd hno Bool.false_ne_true⟩
  case isFalse => exact emits_pure ⟨rfl, fun hno => absurd hno Bool.false_ne_true⟩

/-- A poll that finds a line writable has seen both sides ready. -/
theorem emits_poll (hlive : u.isShut = false) (flags : PollFlags) :
    Emits (fun es answer => ∀ ready, answer = .ok ready → ready.includes .writable = true →
      FoundReady es ∧ u.sends = true) (u.poll d.recorded flags) := by
  rw [poll_eq hlive]
  refine (emits_lookRead u d flags).andThen fun es count hes => ?_
  refine (emits_lookWrite u d flags).andThen fun es' yes hyes => ?_
  refine emits_pure fun ready hok hwritable => ?_
  obtain rfl := Except.ok.inj hok
  rw [PollFlags.found_writable] at hwritable
  obtain ⟨⟨hready, hclear, hsent⟩, hsends⟩ := hyes.2 hwritable
  refine ⟨⟨?_, ?_, ?_⟩, hsends⟩
  · exact List.mem_append_right _ (List.mem_append_left _ hready)
  · exact List.mem_append_right _ (List.mem_append_left _ hclear)
  · rw [sentWords_append, hes, List.append_nil, hsent]
    rfl

/-- The answer to a control request has the number of the flags found, and they are read off it again. -/
theorem pollFor_found {read write : Bool} (hlive : u.isShut = false)
    (h : u.poll d flags b = (.ok (.found read write), b')) :
    (u.stream d p).pollFor flags b = .ok (.ok (.found read write)) b' := by
  have hcontrol : u.control d p (.poll flags) b =
      .ok (.ok (PollFlags.found read write).bits.toNat) b' := by
    rw [control, hlive, if_neg Bool.false_ne_true]
    simp only [bind, EStateM.bind, liftM, monadLift, MonadLift.monadLift, h]
    rfl
  refine (Act.bind_of_ok hcontrol).trans ?_
  show EStateM.Result.ok (Except.ok (PollFlags.ofNumber _)) _ = _
  rw [PollFlags.ofNumber_found]

/-- What a poll answers to any flags. -/
structure Polled (u : Uart) (d : Driver σ) (flags : PollFlags) (b : Bench σ) (ready : PollFlags) :
    Prop where
  asked : flags.includes ready = true
  known : (PollFlags.readable.union .writable).includes ready = true
  readable_iff : ready.includes .readable = true ↔
    flags.includes .readable = true ∧ ∃ n, (u.waitingCount d b).1 = .ok n ∧ 0 < n
  /-- The other side is looked at once what waits was counted. -/
  writable_iff : ready.includes .writable = true ↔ flags.includes .writable = true ∧
    u.sends = true ∧ (canSend d (u.lookRead d flags b).2).1 = true
  /-- It is the same over the stream. -/
  over_stream : ∀ p, (u.stream d p).pollFor flags b = .ok (.ok ready) (u.poll d flags b).2

theorem poll_polled (hlive : u.isShut = false) (d : Driver σ) (flags : PollFlags) (b : Bench σ) :
    ∃ ready, (u.poll d flags b).1 = .ok ready ∧ Polled u d flags b ready := by
  have hcount := lookRead_count u d flags b
  rcases hread : u.lookRead d flags b with ⟨count, b₁⟩
  rcases hlook : u.lookWrite d flags b₁ with ⟨yes, b₂⟩
  have hpoll : u.poll d flags b = (.ok (.found (0 < count) yes), b₂) := by
    rw [poll_eq hlive]
    simp only [bind, StateT.bind, hread, hlook]
    rfl
  have hwrite := lookWrite_iff u d flags b₁
  rw [hlook] at hwrite
  rw [hread] at hcount
  simp only at hcount
  subst hcount
  rw [hpoll]
  refine ⟨_, rfl, PollFlags.includes_found (fun hpos => ?_) fun hyes => (hwrite.mp hyes).1,
    PollFlags.known_found, ?_, ?_, fun p => ?_⟩
  · by_contra hnot
    rw [if_neg hnot] at hpos
    exact Nat.lt_irrefl 0 (of_decide_eq_true hpos)
  · rw [PollFlags.found_readable, decide_eq_true_eq, waitingCount_live hlive]
    constructor
    · intro hpos
      split at hpos
      case isTrue hasked => exact ⟨hasked, _, rfl, hpos⟩
      case isFalse => exact absurd hpos (Nat.lt_irrefl 0)
    · rintro ⟨hasked, n, hn, hpos⟩
      rw [if_pos hasked, Except.ok.inj hn]
      exact hpos
  · rw [PollFlags.found_writable, hread]
    exact hwrite
  · rw [pollFor_found hlive hpoll, hpoll]

/-! ## Reads that are made while something waits -/

theorem length_takeWaiting_buffered {id : BufferId} (hbuffer : u.rxBuffer = some id)
    (hb : Furnished u b) (room : Nat) : (u.takeWaiting d room b).1.length =
      min (room / u.width.bytes) (u.waiting d b).1 * u.width.bytes := by
  rw [takeWaiting_bytes hbuffer, RingBuffer.pop_bytes, (hb.ring id hbuffer).2, CharWidth.length_encode,
    List.length_take, RingBuffer.length_contents, waiting_buffered hbuffer]

/-- Something is taken. -/
theorem takeWaiting_gives (h : Keeps u d p) (hb : Furnished u b) (hsome : 0 < (u.waiting d b).1)
    (hroom : u.width.bytes ≤ room) : u.width.bytes ≤ (u.takeWaiting d room b).1.length := by
  have hwidth := u.width.bytes_pos
  have hfits : 0 < room / u.width.bytes := Nat.div_pos hroom hwidth
  cases hbuffer : u.rxBuffer with
  | some id =>
    rw [length_takeWaiting_buffered hbuffer hb]
    exact Nat.le_mul_of_pos_left _ (Nat.lt_min.mpr ⟨hfits, hsome⟩)
  | none =>
    have hreceives := receives_of_waiting hb hsome
    rw [waiting_unbuffered hbuffer, if_pos hreceives] at hsome
    obtain ⟨n, hn⟩ := Nat.exists_eq_succ_of_ne_zero hfits.ne'
    obtain ⟨word, hword⟩ := Option.isSome_iff_exists.mp (h.takeWord hbuffer b hsome)
    rw [takeWaiting, hbuffer, hn]
    rcases htake : d.takeWord b with ⟨word', b₁⟩
    rw [htake] at hword
    simp only at hword
    subst hword
    simp only [takeFromPeripheral, bind, StateT.bind, htake]
    show _ ≤ (u.width.encodeWord word ++ _).length
    rw [List.length_append, CharWidth.length_encodeWord]
    exact Nat.le_add_right _ _

/-- A read that is made while something waits has something after its first round. -/
theorem read_goesOn (h : Keeps u d p) (hlive : u.isShut = false) (hb : Furnished u b)
    (hsome : 0 < (u.waiting d b).1) (hroom : u.width.bytes ≤ room) {reply : ReadReply}
    (hread : u.read d p room b = .ok reply b') :
    ∃ bytes, u.width.bytes ≤ bytes.length ∧ GoesOn bytes reply := by
  have hticks := h.ticks b
  have hfits : u.width.bytes ≤ room / u.width.bytes * u.width.bytes :=
    Nat.le_mul_of_pos_left _ (Nat.div_pos hroom u.width.bytes_pos)
  rw [read_accepted hlive (receives_of_waiting hb hsome) hroom] at hread
  have hgives := takeWaiting_gives h (hticks.furnished hb) (hsome.trans_le (hticks.waiting_le hb)) hfits
  have hbegin : (Deadline.begin p u.patienceMillis b).2 = (p.ticks b).2 := rfl
  cases hpatience : p.patience with
  | zero =>
    rw [hpatience] at hread
    cases hread
  | succ patience =>
    rw [hpatience, receive_succ, CharWidth.encode_nil, List.length_nil, Nat.sub_zero, hbegin] at hread
    rcases htaken : u.takeWaiting d (room / u.width.bytes * u.width.bytes) (p.ticks b).2 with
      ⟨bytes, b₁⟩
    rw [htaken] at hgives
    rcases hnext : nextDeadline p (Deadline.begin p u.patienceMillis b).1 bytes b₁ with
      ⟨deadline, b₂⟩
    simp only [htaken, hnext, List.nil_append] at hread
    have hnonempty : bytes ≠ [] := List.length_pos_iff.mp (u.width.bytes_pos.trans_le hgives)
    exact ⟨bytes, hgives, goesOn_finishRound hnonempty (fun _ => goesOn_receive hnonempty) hread⟩

/-- A read of characters that wait in the receive buffer takes them in its first round. -/
theorem read_full {id : BufferId} (h : Keeps u d p) (hlive : u.isShut = false) (hb : Furnished u b)
    (hbuffer : u.rxBuffer = some id) (hpatience : 0 < p.patience) (hroom : u.width.bytes ≤ room)
    (hwhole : room % u.width.bytes = 0) (hthere : room / u.width.bytes ≤ (u.waiting d b).1) :
    (u.takeWaiting d room (p.ticks b).2).1.length = room ∧
      u.read d p room b = .ok ⟨.ok room, (u.takeWaiting d room (p.ticks b).2).1⟩
        (p.ticks (u.takeWaiting d room (p.ticks b).2).2).2 := by
  have hticks := h.ticks b
  have hcancel := Nat.div_mul_cancel (Nat.dvd_of_mod_eq_zero hwhole)
  have hlength : (u.takeWaiting d room (p.ticks b).2).1.length = room := by
    rw [length_takeWaiting_buffered hbuffer (hticks.furnished hb),
      Nat.min_eq_left (hthere.trans (hticks.waiting_le hb)), hcancel]
  refine ⟨hlength, ?_⟩
  have hbegin : (Deadline.begin p u.patienceMillis b).2 = (p.ticks b).2 := rfl
  obtain ⟨patience, hsucc⟩ := Nat.exists_eq_succ_of_ne_zero hpatience.ne'
  rw [read_accepted hlive (hb.receives (by rw [hbuffer]; rfl)) hroom, hcancel, hsucc, receive_succ,
    CharWidth.encode_nil, List.length_nil, Nat.sub_zero, hbegin]
  rcases htaken : u.takeWaiting d room (p.ticks b).2 with ⟨bytes, b₁⟩
  rw [htaken] at hlength
  have hnext (deadline : Deadline) : nextDeadline p deadline bytes b₁ =
      ({ deadline with start := (p.ticks b₁).1 }, (p.ticks b₁).2) := by
    have hsome : bytes.isEmpty = false := by
      rw [List.isEmpty_eq_false_iff, ← List.length_pos_iff, hlength]
      exact u.width.bytes_pos.trans_le hroom
    rw [nextDeadline, hsome]
    rfl
  simp only [hnext, List.nil_append]
  rw [finishRound_of_full hlength, hlength]

/-! ## The promise -/

/-- What a read finds that is made next, with room for a character or more. -/
structure Readable (u : Uart) (d : Driver σ) (p : Platform σ) (room : Nat) (b : Bench (Recorded σ)) :
    Prop where
  /-- Its answer is not that it would have to wait. -/
  answer : ∀ reply b', u.read d.recorded p.recorded room b = .ok reply b' →
    (reply.outcome = .ok reply.bytes.length ∧ u.width.bytes ≤ reply.bytes.length) ∨
      reply.outcome = .error .canceled
  /-- It comes to an answer if its clock moves on. -/
  answered : Nonempty (ReadClock d p) → (room + 1) * u.patienceMillis < p.patience →
    ∃ reply b', u.read d.recorded p.recorded room b = .ok reply b'
  /-- Characters that wait in the receive buffer are given at once, without any background work. -/
  full : u.rxBuffer.isSome = true → room % u.width.bytes = 0 →
    (∃ n, (u.waitingCount d.recorded b).1 = .ok n ∧ room / u.width.bytes ≤ n) →
    ∃ bytes b' es, u.read d.recorded p.recorded room b = .ok ⟨.ok room, bytes⟩ b' ∧
      bytes.length = room ∧ b'.outside.events = b.outside.events ++ es ∧ .background ∉ es

theorem readable_of_waiting {b : Bench (Recorded σ)} (h : Keeps u d p) (hlive : u.isShut = false)
    (hb : Furnished u b) (hpatience : 0 < p.patience) (hsome : 0 < (u.waiting d.recorded b).1)
    (hroom : u.width.bytes ≤ room) : Readable u d p room b where
  answer reply b' hread := by
    obtain ⟨bytes, hlength, hkept, houtcome⟩ := read_goesOn h.recorded hlive hb hsome hroom hread
    exact houtcome.imp_left fun hok => ⟨hok, hlength.trans hkept.length_le⟩
  answered := by
    rintro ⟨C⟩ hlong
    exact read_ends C.recorded hlive (receives_of_waiting hb hsome) hroom hlong b
  full := by
    rintro hbuffer hwhole ⟨n, hn, hthere⟩
    obtain ⟨id, hid⟩ := Option.isSome_iff_exists.mp hbuffer
    rw [waitingCount_live hlive] at hn
    obtain rfl := Except.ok.inj hn
    obtain ⟨hlength, hread⟩ :=
      read_full h.recorded hlive hb hid hpatience hroom hwhole hthere
    have hticks : Obeys (Within (· ≠ .background)) p.recorded.ticks :=
      within_recording fun _ h => by cases h
    have htake : Obeys (Within (· ≠ .background)) (u.takeWaiting d.recorded room) :=
      within_takeWaiting (fun _ h => by cases h) (fun h => by cases h) room
    obtain ⟨es, hes, hquiet⟩ := onward_within.trans (hticks b)
      (onward_within.trans (htake _) (hticks _))
    exact ⟨_, _, es, hread, hlength, hes, fun hmem => hquiet _ hmem rfl⟩

/-- What may be relied on after a poll, which led from one bench to another. -/
structure Honest (u : Uart) (d : Driver σ) (p : Platform σ) (flags : PollFlags)
    (b : Bench (Recorded σ)) (ready : PollFlags) (b₁ : Bench (Recorded σ)) : Prop
    extends Polled u d.recorded flags b ready where
  reads : Keeps u d p → Furnished u b → ready.includes .readable = true →
    ∀ room, u.width.bytes ≤ room → Readable u d p room b₁
  /-- As long as the driver stays ready, a write begins to go out. -/
  writes : ready.includes .writable = true → ∀ data, ∃ es es',
    b₁.outside.events = b.outside.events ++ es ∧
    (Act.final (u.write d.recorded p.recorded data) b₁).outside.events = b₁.outside.events ++ es' ∧
    (Unchanged (es ++ es') →
      GoesOut u data es' (Act.answer? (u.write d.recorded p.recorded data) b₁))

theorem poll_honest (hlive : u.isShut = false) (hpatience : 0 < p.patience) (d : Driver σ)
    (flags : PollFlags) (b : Bench (Recorded σ)) :
    ∃ ready b₁, u.poll d.recorded flags b = (.ok ready, b₁) ∧ Honest u d p flags b ready b₁ := by
  obtain ⟨ready, hready, hpolled⟩ := poll_polled hlive d.recorded flags b
  refine ⟨ready, (u.poll d.recorded flags b).2, Prod.ext hready rfl, hpolled,
    fun hkeeps hb hreadable room hroom => ?_, fun hwritable data => ?_⟩
  · obtain ⟨-, n, hn, hpos⟩ := hpolled.readable_iff.mp hreadable
    rw [waitingCount_live hlive] at hn
    obtain rfl := Except.ok.inj hn
    have hstays := stays_poll hkeeps.recorded hlive flags b
    exact readable_of_waiting hkeeps hlive (hstays.furnished hb) hpatience
      (hpos.trans_le (hstays.waiting_le hb)) hroom
  · obtain ⟨es, hes, hseen⟩ := emits_poll (d := d) hlive flags b
    obtain ⟨hfound, hsends⟩ := hseen ready hready hwritable
    obtain ⟨es', hes', hgoes⟩ := write_opens hlive hsends hpatience hfound data
      (u.poll d.recorded flags b).2
    exact ⟨es, es', hes, hes', hgoes⟩

/-! ## A line that can be read and written -/

def readyLine : Uart := { nineBitLine with sends := true }

def readyDriver : Driver Feed := { Driver.inert with isReady := pure true }

/-- One character waits in the receive buffer. -/
def readyBench : Bench (Recorded Feed) where
  buffers := feedBench.buffers
  outside := { inner := feedBench.outside }

theorem keeps_ready : Keeps readyLine readyDriver feeding where
  ticks b := .refl readyLine readyDriver b
  receivedCount b := .refl readyLine readyDriver b
  isReady b := .refl readyLine readyDriver b
  clearToSend b := .refl readyLine readyDriver b
  takeWord hbuffer := by cases hbuffer

theorem furnished_ready : Furnished readyLine readyBench where
  receives _ := rfl
  holds id hid := (ready_feedBench id hid).1
  ring id hid := by
    obtain ⟨-, hlife⟩ := ready_feedBench id hid
    exact ⟨hlife.sound, hlife.width_eq⟩

/-- The bench after a poll for everything. -/
def lookedBench : Bench (Recorded Feed) := (readyLine.poll readyDriver.recorded .all readyBench).2

/-- The line is found readable and writable. The character that waits is read at once, and the first of two
characters is handed over at once. -/
theorem poll_honest_ready :
    (readyLine.poll readyDriver.recorded .all readyBench).1 =
        .ok (PollFlags.readable.union .writable) ∧
      Readable readyLine readyDriver feeding 2 lookedBench ∧
      ∃ es answer, GoesOut readyLine [0x41, 0x01, 0x42, 0x00] es answer := by
  have hfound : (readyLine.poll readyDriver.recorded .all readyBench).1 =
    .ok (PollFlags.readable.union .writable) := by decide +kernel
  have hlive : readyLine.isShut = false := rfl
  have hpatience : 0 < feeding.patience := by decide
  obtain ⟨ready, b₁, hpoll, hhonest⟩ := poll_honest hlive hpatience readyDriver .all readyBench
  rw [hpoll] at hfound
  obtain rfl := Except.ok.inj hfound
  have hlooked : lookedBench = b₁ := by rw [lookedBench, hpoll]
  subst hlooked
  obtain ⟨es, es', hes, hes', hgoes⟩ := hhonest.writes (by decide) [0x41, 0x01, 0x42, 0x00]
  rw [hes] at hes'
  have hready : .isReady false ∉ (Act.final (readyLine.write readyDriver.recorded feeding.recorded
    [0x41, 0x01, 0x42, 0x00]) lookedBench).outside.events := by decide +kernel
  have hclear : .clearToSend false ∉ (Act.final (readyLine.write readyDriver.recorded feeding.recorded
    [0x41, 0x01, 0x42, 0x00]) lookedBench).outside.events := by decide +kernel
  have hnone : readyBench.outside.events = [] := rfl
  rw [hes', hnone, List.nil_append] at hready hclear
  exact ⟨by rw [hpoll], hhonest.reads keeps_ready furnished_ready (by decide) 2 (by decide),
    es', _, hgoes (unchanged_of_ready hready hclear)⟩

end Uart
end SerialLine
