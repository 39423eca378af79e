import SerialLine.Proofs.Lines.Frame
import SerialLine.Proofs.Receiving.Inlet
import SerialLine.Recording
/-! # What a read delivers

The characters that a read puts into the buffer of its caller, and those that it leaves waiting.

* `gets_receive`: the loop, when characters come in during the background work only.
* `read_delivers`: what is promised of a read.
-/
set_option autoImplicit false

namespace SerialLine.Uart

variable {σ : Type} {u : Uart} {d : Driver σ} {p : Platform σ} {I : Inlet u d p}

section
variable {room patience : Nat} {words : List UInt16} {deadline : Deadline} {b b' : Bench σ}
  {reply : ReadReply}

/-- Nothing comes in while a read looks at the clock. So if it took nothing, nothing waited. -/
theorem gets_receive (hwords : words.length < room) (hb : I.Ready u b)
    (h : u.receive d p (room * u.width.bytes) patience deadline (u.width.encode words) b =
      .ok reply b') :
    ∃ out new, I.Gets u out new b b' ∧ Reports u.width room (words ++ out) reply ∧
      (I.Few u b' → reply.outcome = .error .shouldWait → I.waiting u b = [] ∧ new = []) := by
  obtain ⟨out, new, hanswers⟩ := answers_receive (I := I.toIntake) hwords hb h
  refine ⟨out, new, hanswers.gets, hanswers.reports, fun hfew hwould =>
    ⟨?_, hanswers.calm I.sheltered hfew hwould⟩⟩
  have hnone := hanswers.reports.nothing hwould
  have hempty := hanswers.drains hfew (by rw [hnone]; exact Nat.zero_lt_of_lt hwords)
  rw [(List.append_eq_nil_iff.mp hnone).2, List.prefix_nil] at hempty
  exact hempty

/-! ## The promise -/

/-- A read is answered at once. It gives no bytes and changes nothing, and neither driver nor platform is
asked anything. -/
structure AnsweredAtOnce (u : Uart) (d : Driver σ) (p : Platform σ) (room : Nat)
    (outcome : Except Error Nat) : Prop where
  answer : ∀ b, u.read d p room b = .ok ⟨outcome, []⟩ b
  unasked : ∀ b, u.read d.recorded p.recorded room b = .ok ⟨outcome, []⟩ b

/-- What is promised of a read into a buffer. -/
structure ReadContract (I : Inlet u d p) (buffer : List UInt8) (b : Bench σ) : Prop where
  deaf : u.receives = false → AnsweredAtOnce u d p buffer.length (.error .notSupported)
  nothing : u.receives = true → buffer = [] → AnsweredAtOnce u d p buffer.length (.ok 0)
  short : u.receives = true → buffer ≠ [] → buffer.length < u.width.bytes →
    AnsweredAtOnce u d p buffer.length (.error .invalidArgs)
  delivers : u.receives = true → u.width.bytes ≤ buffer.length →
    ∀ reply b', u.read d p buffer.length b = .ok reply b' → I.Few u b' →
      ∃ new, I.taken b'.outside = I.taken b.outside ++ new ∧
        (∀ n, reply.outcome = .ok n → 0 < n ∧ u.width.bytes ∣ n ∧
          n ≤ buffer.length - buffer.length % u.width.bytes ∧
          overlay reply.bytes buffer =
            u.width.encode ((I.waiting u b ++ new).take (n / u.width.bytes)) ++ buffer.drop n ∧
          I.waiting u b' = (I.waiting u b ++ new).drop (n / u.width.bytes)) ∧
        (reply.outcome = .error .shouldWait → overlay reply.bytes buffer = buffer ∧
          I.waiting u b = [] ∧ new = [] ∧ I.waiting u b' = [])

theorem answeredAtOnce_of_rejected {room : Nat} (hlive : u.isShut = false)
    (hno : u.receives = false ∨ room < u.width.bytes) {outcome : Except Error Nat}
    (hreply : u.rejection room = ⟨outcome, []⟩) : AnsweredAtOnce u d p room outcome where
  answer b := by rw [read_rejected hlive hno b, hreply]
  unasked b := by rw [read_rejected hlive hno b, hreply]

theorem Reports.delivers {buffer : List UInt8} {words new : List UInt16}
    (hreports : Reports u.width (buffer.length / u.width.bytes) words reply)
    (hgets : I.Gets u words new b b') (hb : I.Ready u b) (hfew : I.Few u b') {n : Nat}
    (hok : reply.outcome = .ok n) :
    0 < n ∧ u.width.bytes ∣ n ∧ n ≤ buffer.length - buffer.length % u.width.bytes ∧
      overlay reply.bytes buffer =
        u.width.encode ((I.waiting u b ++ new).take (n / u.width.bytes)) ++ buffer.drop n ∧
      I.waiting u b' = (I.waiting u b ++ new).drop (n / u.width.bytes) := by
  have hwidth := u.width.bytes_pos
  have hqueue := hgets.waiting hb hfew
  have hoverlay := hreports.overlay_eq
  obtain ⟨hbytes, hfits, houtcome⟩ := hreports
  rw [hbytes, CharWidth.length_encode, hok] at houtcome
  obtain ⟨rfl, hsome⟩ : n = words.length * u.width.bytes ∧ words ≠ [] := by
    rcases houtcome with ⟨hn, hsome⟩ | ⟨hshould, -⟩ | hcanceled
    · exact ⟨Except.ok.inj hn, hsome⟩
    · cases hshould
    · cases hcanceled
  have hcount : words.length * u.width.bytes / u.width.bytes = words.length :=
    Nat.mul_div_cancel _ hwidth
  have hwhole : buffer.length / u.width.bytes * u.width.bytes =
      buffer.length - buffer.length % u.width.bytes := by
    have := Nat.div_add_mod' buffer.length u.width.bytes
    omega
  have hroom : words.length * u.width.bytes ≤ buffer.length / u.width.bytes * u.width.bytes :=
    Nat.mul_le_mul_right _ hfits
  refine ⟨Nat.mul_pos (List.length_pos_iff.mpr hsome) hwidth, Nat.dvd_mul_left _ _, by omega, ?_, ?_⟩
  · rw [hcount, hqueue, List.take_left, hoverlay]
  · rw [hcount, hqueue, List.drop_left]

/-- A read of a live line that cannot be served is refused at once. Any other delivers the characters that
waited and those that came in meanwhile, in order and each once, and leaves the others waiting. -/
theorem read_delivers (I : Inlet u d p) (hlive : u.isShut = false) (buffer : List UInt8)
    (hb : I.Ready u b) : ReadContract I buffer b := by
  refine ⟨fun hdeaf => ?_, fun hreceives hnone => ?_, fun hreceives hsome hshort => ?_,
    fun hreceives hroom reply b' h hfew => ?_⟩
  · refine answeredAtOnce_of_rejected hlive (.inl hdeaf) ?_
    rw [rejection, if_pos hdeaf]
  · subst hnone
    refine answeredAtOnce_of_rejected hlive (.inr u.width.bytes_pos) ?_
    rw [rejection, if_neg (by simp [hreceives])]
    rfl
  · refine answeredAtOnce_of_rejected hlive (.inr hshort) ?_
    rw [rejection, if_neg (by simp [hreceives]), if_neg (by simpa using hsome)]
  · have hwidth := u.width.bytes_pos
    have hfits : ([] : List UInt16).length < buffer.length / u.width.bytes :=
      Nat.div_pos hroom hwidth
    rw [read_accepted hlive hreceives hroom] at h
    have hbegun := I.still_begin u.patienceMillis b
    rcases hbegin : Deadline.begin p u.patienceMillis b with ⟨deadline, b₁⟩
    rw [hbegin] at hbegun h
    have hstart := Holdings.gets_of_arrives hbegun.arrives
    obtain ⟨words, new, hgets, hreports, hnothing⟩ :=
      gets_receive hfits (hstart.ready hb) h
    have hall := hstart.trans hgets
    rw [List.nil_append] at hreports
    refine ⟨new, hall.taken, fun n hok => hreports.delivers hall hb hfew hok, fun hwould => ?_⟩
    obtain ⟨hempty, rfl⟩ := hnothing hfew hwould
    obtain rfl := hreports.nothing hwould
    have hentry : I.waiting u b = [] := by
      have hqueue := hstart.waiting hb (hgets.few hfew)
      rw [hempty] at hqueue
      simpa using hqueue
    have hqueue := hall.waiting hb hfew
    rw [hentry] at hqueue
    refine ⟨?_, hentry, rfl, hqueue.symm⟩
    rw [hreports.bytes_eq]
    exact overlay_nil buffer

end

/-! ## A read that waits -/

/-- Characters that come in one by one while a call waits, and those that the buffer took. -/
structure Feed where
  coming : List UInt16
  taken : List UInt16 := []

def Feed.background (b : Bench Feed) : Unit × Bench Feed :=
  match b.outside.coming with
  | [] => ((), b)
  | word :: rest =>
    let (accepted, buffers) := b.buffers.push ⟨0⟩ word
    let new := if accepted then [(b.buffers.ring ⟨0⟩).width.clip word] else []
    ((), { b with buffers := buffers, outside := ⟨rest, b.outside.taken ++ new⟩ })

/-- A platform whose clock stands still. -/
def feeding : Platform Feed where
  ticks := pure 0
  background := Feed.background
  patience := 10

def nineBitLine : Uart :=
  { (default : Uart) with rxBuffer := some ⟨0⟩, receives := true, bits := 9, timeout := Timeout.standard }

theorem arrives_background (b : Bench Feed)
    (hholds : ∀ id, nineBitLine.rxBuffer = some id → b.buffers.Holds id) :
    ∃ new, Holdings.Arrives ⟨fun _ => [], Feed.taken⟩ nineBitLine new b (feeding.background b).2 := by
  have hid {id : BufferId} (h : nineBitLine.rxBuffer = some id) : id = ⟨0⟩ :=
    (Option.some.inj h).symm
  cases hcoming : b.outside.coming with
  | nil =>
    have heq : (feeding.background b).2 = b := by
      simp only [feeding, Feed.background, hcoming]
    rw [heq]
    exact ⟨[], nofun, (List.append_nil _).symm, fun _ _ => .refl, fun _ _ h => h⟩
  | cons word rest =>
    have heq : (feeding.background b).2 =
        { b with
          buffers := b.buffers.set ⟨0⟩ ((b.buffers.ring ⟨0⟩).push word).2
          outside := ⟨rest, b.outside.taken ++ if ((b.buffers.ring ⟨0⟩).push word).1 then
            [(b.buffers.ring ⟨0⟩).width.clip word] else []⟩ } := by
      simp only [feeding, Feed.background, hcoming]
      rfl
    rw [heq]
    refine ⟨_, nofun, rfl, fun id h => ?_, fun id h hholds => hholds.set _⟩
    obtain rfl := hid h
    rw [RxBuffers.ring_set_self (hholds ⟨0⟩ rfl)]
    exact (b.buffers.ring ⟨0⟩).fed_push word

def feedInlet : Inlet nineBitLine Driver.inert feeding where
  held _ := []
  taken := Feed.taken
  ticks _ := ⟨rfl, rfl, fun _ _ => rfl, fun _ _ h => h⟩
  isInterrupted _ := ⟨rfl, rfl, fun _ _ => rfl, fun _ _ h => h⟩
  background := arrives_background
  resumeReceiving _ := ⟨rfl, rfl, fun _ _ => rfl, fun _ _ h => h⟩
  takeWord_some h := by cases h
  takeWord_none h := by cases h

def wideRing : RingBuffer where
  storage := Array.replicate 8 0
  capacity := 4
  width := .wide

/-- The buffer of the line holds one character, and two more come in. -/
def feedBench : Bench Feed where
  buffers := (({} : RxBuffers).add (wideRing.push 0x101).2).2
  outside := ⟨[0x102, 0x103], [0x101]⟩

theorem ready_feedBench : feedInlet.Ready nineBitLine feedBench := by
  intro id hid
  obtain rfl : id = ⟨0⟩ := (Option.some.inj hid).symm
  have hnew : RingBuffer.create 4 9 = .ok wideRing := rfl
  exact ⟨Nat.zero_lt_one, (RingBuffer.Life.created rfl hnew).fed (RingBuffer.Fed.refl.taken (by decide))⟩

/-- A read into one byte is refused. One into five bytes takes the character that waits, and waits for one
more. -/
theorem read_delivers_fed :
    (∀ b, nineBitLine.read Driver.inert feeding 1 b = .ok ⟨.error .invalidArgs, []⟩ b) ∧
    ∃ b', nineBitLine.read Driver.inert feeding 5 feedBench =
        .ok ⟨.ok 4, [0x01, 0x01, 0x02, 0x01]⟩ b' ∧
      feedInlet.taken b'.outside = [0x101, 0x102] ∧ feedInlet.waiting nineBitLine b' = [] ∧
      ReadContract feedInlet [9, 9, 9, 9, 9] feedBench := by
  have hread : Act.answer? (nineBitLine.read Driver.inert feeding 5) feedBench =
      some ⟨.ok 4, [0x01, 0x01, 0x02, 0x01]⟩ := by rfl
  have hend := Act.ok_of_answer? hread
  have htaken : feedInlet.taken (Act.final (nineBitLine.read Driver.inert feeding 5) feedBench).outside =
      [0x101, 0x102] := by decide +kernel
  have hwaiting : feedInlet.waiting nineBitLine feedBench = [0x101] := by decide +kernel
  have hrefused := read_delivers feedInlet rfl [9] ready_feedBench
  have hcontract := read_delivers feedInlet rfl [9, 9, 9, 9, 9] ready_feedBench
  obtain ⟨new, hnew, hdelivers, -⟩ := hcontract.delivers rfl (by decide) _ _ hend
    fun _ => by decide +kernel
  obtain ⟨-, -, -, -, hrest⟩ := hdelivers 4 rfl
  have hall : [0x101] ++ [0x102] = [0x101] ++ new := htaken.symm.trans hnew
  obtain rfl := List.append_cancel_left hall
  rw [hwaiting] at hrest
  exact ⟨(hrefused.short rfl (by decide) (by decide)).answer, _, hend, htaken, hrest, hcontract⟩

end SerialLine.Uart
