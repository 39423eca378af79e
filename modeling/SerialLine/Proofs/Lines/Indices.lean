import SerialLine.Proofs.Lines.Halts
import SerialLine.Proofs.Lines.Polling
import SerialLine.Proofs.Lines.Sharing
import SerialLine.Proofs.Ring.Bounds
import SerialLine.Proofs.Streams.Filling
/-! # Every index of a read and a write is inside

A read and a write once more, on the caller's own memory, with every part of a buffer, every remainder
and every look at a byte able to fail: then they halt.

* `readChecked`, `writeChecked`: the checked forms.
* `takeWaitingChecked_eq`, `receiveChecked_eq`: what is taken fits where it is put, round after round, as long
  as the receive buffer is for the characters of the line.
* `readChecked_eq`, `writeChecked_eq`: the checked forms do what `read` and `write` do, which nothing halts
  but a wait without an end.
-/
set_option autoImplicit false

namespace SerialLine

variable {σ α β : Type}

/-! ## Parts of a buffer -/

/-- The part of a buffer from one index to before another, if there is such a part. -/
def slice? (buffer : List UInt8) (start stop : Nat) : Option (List UInt8) :=
  if start ≤ stop ∧ stop ≤ buffer.length then some ((buffer.take stop).drop start) else none

/-- Copies bytes over a part of a buffer, which must be as long as they are. -/
def copyOver? (buffer : List UInt8) (start stop : Nat) (bytes : List UInt8) : Option (List UInt8) := do
  let part ← slice? buffer start stop
  if part.length = bytes.length then some (buffer.take start ++ bytes ++ buffer.drop stop) else none

/-- A remainder, which must not be by zero. -/
def remainder? (n divisor : Nat) : Option Nat :=
  if divisor = 0 then none else some (n % divisor)

/-- Halts where there is nothing to go on with. -/
def orAbort {W : Type} : Option α → Act W α
  | some a => return a
  | none => throw .aborted

variable {buffer bytes : List UInt8} {start stop : Nat}

theorem slice?_eq (h : start ≤ stop) (h' : stop ≤ buffer.length) :
    slice? buffer start stop = some ((buffer.take stop).drop start) := if_pos ⟨h, h'⟩

theorem copyOver?_eq (buffer bytes : List UInt8) (start : Nat)
    (h : start + bytes.length ≤ buffer.length) :
    copyOver? buffer start (start + bytes.length) bytes =
      some (buffer.take start ++ bytes ++ buffer.drop (start + bytes.length)) := by
  have hlength : ((buffer.take (start + bytes.length)).drop start).length = bytes.length := by
    rw [List.length_drop, List.length_take_of_le h]
    omega
  rw [copyOver?, slice?_eq (Nat.le_add_right _ _) h, Option.bind_eq_bind, Option.bind_some, if_pos hlength]

theorem remainder?_eq {divisor : Nat} (h : 0 < divisor) (n : Nat) :
    remainder? n divisor = some (n % divisor) := if_neg h.ne'

theorem orAbort_bind {W : Type} {value : Option α} {a : α} (h : value = some a) (next : α → Act W β) :
    orAbort value >>= next = next a := by
  rw [h]
  exact pure_bind a next

theorem lift_bind {f : StateM (Bench σ) α} {b b' : Bench σ} {a : α} (h : f b = (a, b'))
    (next : α → Act (Bench σ) β) : ((liftM f : Act (Bench σ) α) >>= next) b = next a b' := by
  simp only [bind, EStateM.bind, liftM, monadLift, MonadLift.monadLift, h]

theorem map_of_ok {W : Type} {act : Act W α} {w w' : W} {a : α} (h : act w = .ok a w') (f : α → β) :
    (f <$> act) w = .ok (f a) w' := by
  show EStateM.map f act w = _
  simp only [EStateM.map, h]

theorem map_of_eq {W : Type} {act act' : Act W α} {w w' : W} (h : act w = act' w') (f : α → β) :
    (f <$> act) w = (f <$> act') w' := by
  show EStateM.map f act w = EStateM.map f act' w'
  simp only [EStateM.map, h]

/-- What a read into a caller's buffer tells, and the buffer after it. -/
def ReadReply.into (buffer : List UInt8) (reply : ReadReply) : Except Error Nat × List UInt8 :=
  (reply.outcome, overlay reply.bytes buffer)

/-- Further bytes are put behind those that a buffer begins with, into the part of it that is free. -/
theorem copyOver?_behind (got bytes : List UInt8) {want : Nat} (hroom : want ≤ buffer.length)
    (hfits : got.length + bytes.length ≤ want) :
    ∃ out, slice? (overlay got buffer) got.length want = some out ∧ out.length = want - got.length ∧
      copyOver? (overlay got buffer) got.length want (overlay bytes out) =
        some (overlay (got ++ bytes) buffer) := by
  have hgot : got.length ≤ buffer.length := by omega
  have hwhole : (overlay got buffer).length = buffer.length := length_overlay _ _
  have hpart : ((overlay got buffer).take want).drop got.length =
      (buffer.drop got.length).take (want - got.length) := by
    rw [overlay_eq_append hgot, List.take_append, List.take_of_length_le (by omega), List.drop_left]
  have hback : (overlay got buffer).drop want = (buffer.drop got.length).drop (want - got.length) := by
    rw [overlay_eq_append hgot, List.drop_append, List.drop_of_length_le (by omega), List.nil_append]
  have hlength : ((buffer.drop got.length).take (want - got.length)).length = want - got.length := by
    refine List.length_take_of_le ?_
    rw [List.length_drop]
    omega
  refine ⟨_, slice?_eq (by omega) (by rw [hwhole]; exact hroom), by rw [hpart, hlength], ?_⟩
  have hcopy := copyOver?_eq (overlay got buffer)
    (overlay bytes ((buffer.drop got.length).take (want - got.length))) got.length
    (by rw [length_overlay, hlength, hwhole]; omega)
  have hend : got.length + (want - got.length) = want := by omega
  rw [length_overlay, hlength, hend, hback, List.append_assoc, overlay_part,
    List.take_of_length_le (l := bytes) (by omega)] at hcopy
  rw [hpart, hcopy, overlay_append hgot, overlay_eq_append hgot, List.take_left]

/-- The bytes of a character are the first of its two halves. -/
theorem slice?_halves (w : CharWidth) (word : UInt16) :
    slice? [CharWidth.lowByte word, CharWidth.highByte word] 0 w.bytes = some (w.encodeWord word) := by
  cases w <;> rfl

/-! ## Reading -/

namespace Bench

/-- Takes characters out of a receive buffer into a caller's buffer. Gives the number of bytes. -/
def popChecked (id : BufferId) (out : List UInt8) : Act (Bench σ) (Nat × List UInt8) := fun b =>
  match (b.buffers.ring id).popChecked? out with
  | some (answer, r) => .ok answer { b with buffers := b.buffers.set id r }
  | none => .error .aborted b

theorem popChecked_eq {id : BufferId} {b : Bench σ} (h : (b.buffers.ring id).Sound) (out : List UInt8) :
    popChecked id out b = .ok ((pop id out.length b).1.length, overlay (pop id out.length b).1 out)
      (pop id out.length b).2 := by
  rw [popChecked, RingBuffer.popChecked?_eq h]
  rfl

end Bench

namespace Uart

variable {u : Uart} {d : Driver σ} {p : Platform σ} {b b' : Bench σ} {w : CharWidth} {room n : Nat}
  {out : List UInt8} {want patience : Nat} {deadline : Deadline} {got : List UInt8}

/-- Goes on taking characters off the peripheral into a buffer of `room` bytes, of which `n` are filled. -/
def takeFromPeripheralChecked (d : Driver σ) (w : CharWidth) (room n : Nat) (out : List UInt8) :
    Act (Bench σ) (Nat × List UInt8) :=
  if n + w.bytes ≤ room then do
    match ← d.takeWord with
    | none => return (n, out)
    | some word =>
      let bytes ← orAbort (slice? [CharWidth.lowByte word, CharWidth.highByte word] 0 w.bytes)
      let out ← orAbort (copyOver? out n (n + w.bytes) bytes)
      takeFromPeripheralChecked d w room (n + w.bytes) out
  else return (n, out)
termination_by room - n
decreasing_by
  have := w.bytes_pos
  omega

def takeWaitingChecked (u : Uart) (d : Driver σ) (out : List UInt8) : Act (Bench σ) (Nat × List UInt8) :=
  match u.rxBuffer with
  | some id => do
    let (n, out) ← Bench.popChecked id out
    if 0 < n then d.resumeReceiving
    return (n, out)
  | none => takeFromPeripheralChecked d u.width out.length 0 out

/-- What a read tells that is over after so many bytes. -/
def outcomeOf (copied : Nat) : Except Error Nat :=
  if copied = 0 then .error .shouldWait else .ok copied

/-- The deadline after so many bytes were taken. -/
def deadlineAfter (p : Platform σ) (deadline : Deadline) (n : Nat) : StateM (Bench σ) Deadline :=
  if 0 < n then deadline.restart p else pure deadline

/-- Goes on reading into a buffer until `want` bytes of it are filled, of which `copied` are already. -/
def receiveChecked (u : Uart) (d : Driver σ) (p : Platform σ) (want : Nat) :
    Nat → Deadline → Nat → List UInt8 → Act (Bench σ) (Except Error Nat × List UInt8)
  | 0, _, _, _ => throw .unfinished
  | patience + 1, deadline, copied, buffer => do
    let out ← orAbort (slice? buffer copied want)
    let (n, out) ← u.takeWaitingChecked d out
    let buffer ← orAbort (copyOver? buffer copied want out)
    let copied := copied + n
    let deadline ← deadlineAfter p deadline n
    if copied = want then return (outcomeOf copied, buffer)
    if ← deadline.expired p then return (outcomeOf copied, buffer)
    match ← p.waitRound with
    | .error e => return (.error e, buffer)
    | .ok () => receiveChecked u d p want patience deadline copied buffer

/-- Reads into a caller's buffer. Gives what the read tells, and the buffer. -/
def readChecked (u : Uart) (d : Driver σ) (p : Platform σ) (buffer : List UInt8) :
    Act (Bench σ) (Except Error Nat × List UInt8) := do
  if u.isShut then return (.error .deinitialized, buffer)
  if !u.receives then return (.error .notSupported, buffer)
  if buffer.isEmpty then return (.ok 0, buffer)
  if buffer.length < u.width.bytes then return (.error .invalidArgs, buffer)
  let rest ← orAbort (remainder? buffer.length u.width.bytes)
  let deadline ← Deadline.begin p u.patienceMillis
  u.receiveChecked d p (buffer.length - rest) p.patience deadline 0 buffer

section
variable {b₁ : Bench σ} {word : UInt16} {k : Nat}

theorem takeFromPeripheral_of_none (h : d.takeWord b = (none, b₁)) :
    takeFromPeripheral d w (k + 1) b = ([], b₁) := by
  simp only [takeFromPeripheral, bind, StateT.bind, h]
  rfl

theorem takeFromPeripheral_of_some (h : d.takeWord b = (some word, b₁)) :
    takeFromPeripheral d w (k + 1) b = (w.encodeWord word ++ (takeFromPeripheral d w k b₁).1,
      (takeFromPeripheral d w k b₁).2) := by
  simp only [takeFromPeripheral, bind, StateT.bind, h]
  rfl

theorem takeFromPeripheralChecked_of_none (hroom : n + w.bytes ≤ room)
    (h : d.takeWord b = (none, b₁)) :
    takeFromPeripheralChecked d w room n out b = .ok (n, out) b₁ := by
  rw [takeFromPeripheralChecked, if_pos hroom]
  exact lift_bind h _

theorem takeFromPeripheralChecked_of_some (hroom : n + w.bytes ≤ room) (hout : out.length = room)
    (h : d.takeWord b = (some word, b₁)) :
    takeFromPeripheralChecked d w room n out b = takeFromPeripheralChecked d w room (n + w.bytes)
      (out.take n ++ w.encodeWord word ++ out.drop (n + w.bytes)) b₁ := by
  have hcopy := copyOver?_eq out (w.encodeWord word) n
    (by rw [CharWidth.length_encodeWord, hout]; exact hroom)
  rw [CharWidth.length_encodeWord] at hcopy
  rw [takeFromPeripheralChecked, if_pos hroom, lift_bind h]
  dsimp only
  rw [orAbort_bind (slice?_halves w word), orAbort_bind hcopy]

theorem takeFromPeripheralChecked_of_full (hfull : room < n + w.bytes) :
    takeFromPeripheralChecked d w room n out b = .ok (n, out) b := by
  rw [takeFromPeripheralChecked, if_neg (Nat.not_le.mpr hfull)]
  rfl

end

/-- What is taken is put behind what the buffer holds already. -/
theorem takeFromPeripheralChecked_eq (hout : out.length = room) (hn : n ≤ room) (b : Bench σ) :
    takeFromPeripheralChecked d w room n out b =
      .ok (n + (takeFromPeripheral d w ((room - n) / w.bytes) b).1.length,
          out.take n ++ overlay (takeFromPeripheral d w ((room - n) / w.bytes) b).1 (out.drop n))
        (takeFromPeripheral d w ((room - n) / w.bytes) b).2 := by
  have hwidth := w.bytes_pos
  induction hleft : room - n using Nat.strong_induction_on generalizing n out b with
  | h left ih =>
    subst hleft
    by_cases hroom : n + w.bytes ≤ room
    · rw [Nat.div_eq_sub_div hwidth (by omega), Nat.sub_sub]
      rcases htake : d.takeWord b with ⟨word, b₁⟩
      cases word with
      | none =>
        rw [takeFromPeripheralChecked_of_none hroom htake, takeFromPeripheral_of_none htake,
          overlay_nil, List.take_append_drop]
        rfl
      | some word =>
        have hfits : (w.encodeWord word).length ≤ (out.drop n).length := by
          rw [CharWidth.length_encodeWord, List.length_drop]
          omega
        have hfront : (out.take n ++ w.encodeWord word).length = n + w.bytes := by
          rw [List.length_append, List.length_take_of_le (by omega), CharWidth.length_encodeWord]
        have hlength : (out.take n ++ w.encodeWord word ++ out.drop (n + w.bytes)).length = room := by
          rw [List.length_append, hfront, List.length_drop]
          omega
        rw [takeFromPeripheralChecked_of_some hroom hout htake, takeFromPeripheral_of_some htake,
          ih _ (by omega) hlength hroom b₁ rfl, List.take_left' hfront, List.drop_left' hfront]
        simp only [overlay_append hfits, List.length_append, CharWidth.length_encodeWord,
          List.drop_drop, List.append_assoc, Nat.add_assoc]
    · rw [takeFromPeripheralChecked_of_full (by omega), Nat.div_eq_of_lt (by omega)]
      have hnone : takeFromPeripheral d w 0 b = ([], b) := rfl
      rw [hnone, overlay_nil, List.take_append_drop]
      rfl

theorem takeWaitingChecked_eq (hb : Furnished u b) (out : List UInt8) :
    u.takeWaitingChecked d out b = .ok ((u.takeWaiting d out.length b).1.length,
      overlay (u.takeWaiting d out.length b).1 out) (u.takeWaiting d out.length b).2 := by
  unfold takeWaitingChecked takeWaiting
  cases hbuffer : u.rxBuffer with
  | none =>
    have hlength : out.length = out.length := rfl
    have htake := takeFromPeripheralChecked_eq (d := d) (w := u.width) hlength (Nat.zero_le _) b
    rw [Nat.sub_zero, Nat.zero_add, List.take_zero, List.nil_append, List.drop_zero] at htake
    exact htake
  | some id =>
    have hpop := Bench.popChecked_eq (hb.ring id hbuffer).1 out
    rcases htaken : Bench.pop id out.length b with ⟨bytes, b₁⟩
    rw [htaken] at hpop
    simp only [bind, EStateM.bind, StateT.bind, htaken, hpop]
    cases bytes with
    | nil => rfl
    | cons byte bytes => rfl

theorem Furnished.steps (hb : Furnished u b) (h : b.Steps b') : Furnished u b' where
  receives := hb.receives
  holds id hid := (h id (hb.holds id hid)).1
  ring id hid := by
    obtain ⟨-, hstepped⟩ := h id (hb.holds id hid)
    obtain ⟨hsound, hwidth⟩ := hb.ring id hid
    exact ⟨hstepped.sound hsound, (congrArg Prod.snd hstepped.shape_eq).trans hwidth⟩

/-- The rest of a round, from the look whether the buffer is full. -/
def finishChecked (u : Uart) (d : Driver σ) (p : Platform σ) (want patience : Nat) (deadline : Deadline)
    (copied : Nat) (buffer : List UInt8) : Act (Bench σ) (Except Error Nat × List UInt8) := do
  if copied = want then return (outcomeOf copied, buffer)
  if ← deadline.expired p then return (outcomeOf copied, buffer)
  match ← p.waitRound with
  | .error e => return (.error e, buffer)
  | .ok () => u.receiveChecked d p want patience deadline copied buffer

section
variable (hd : d.Heeds Bench.Steps) (hp : p.Heeds Bench.Steps) {buffer : List UInt8}

theorem finishChecked_eq (hwant : 0 < want) (hrest : ∀ b₁ b₂,
      deadline.expired p b = (false, b₁) → p.waitRound b₁ = (.ok (), b₂) →
      u.receiveChecked d p want patience deadline got.length (overlay got buffer) b₂ =
        (ReadReply.into buffer <$> u.receive d p want patience deadline got) b₂) :
    u.finishChecked d p want patience deadline got.length (overlay got buffer) b =
      (ReadReply.into buffer <$> u.finishRound d p want patience deadline got) b := by
  by_cases hfull : got.length = want
  · have hsome : got.length ≠ 0 := by omega
    rw [map_of_ok (finishRound_of_full hfull b), finishChecked, if_pos hfull, outcomeOf, if_neg hsome]
    rfl
  · rw [finishChecked, if_neg hfull]
    rcases hover : deadline.expired p b with ⟨isOver, b₁⟩
    rw [lift_bind hover]
    cases isOver with
    | true =>
      rw [map_of_ok (finishRound_of_over hfull hover)]
      cases got <;> rfl
    | false =>
      simp only [Bool.false_eq_true, if_false]
      rcases hwait : p.waitRound b₁ with ⟨ending, b₂⟩
      rw [lift_bind hwait]
      cases ending with
      | error e =>
        rw [map_of_ok (finishRound_of_canceled hfull hover hwait)]
        rfl
      | ok _ =>
        exact (hrest b₁ b₂ hover hwait).trans
          (map_of_eq (finishRound_of_waited hfull hover hwait).symm _)

include hd hp

theorem receiveChecked_eq (hwant : 0 < want) (hroom : want ≤ buffer.length)
    (hgot : got.length ≤ want) (hb : Furnished u b) :
    u.receiveChecked d p want patience deadline got.length (overlay got buffer) b =
      (ReadReply.into buffer <$> u.receive d p want patience deadline got) b := by
  have hrule := rule_of_heeds (u := u) hd hp
  induction patience generalizing deadline got b with
  | zero => rfl
  | succ patience ih =>
    have htook := length_takeWaiting_le u d (want - got.length) b
    have hsteps := hrule.take (want - got.length) b
    obtain ⟨out, hslice, hlength, hcopy⟩ := copyOver?_behind got
      (u.takeWaiting d (want - got.length) b).1 hroom (by omega)
    have hchecked := takeWaitingChecked_eq (d := d) hb out
    rw [hlength] at hchecked
    rcases htaken : u.takeWaiting d (want - got.length) b with ⟨bytes, b₁⟩
    rw [htaken] at htook hsteps hcopy hchecked
    simp only at htook hsteps hcopy hchecked
    have hdeadlines : deadlineAfter p deadline bytes.length = nextDeadline p deadline bytes := by
      cases bytes <;> rfl
    have hnext := hrule.nextDeadline deadline bytes b₁
    rcases hdeadline : nextDeadline p deadline bytes b₁ with ⟨deadline', b₂⟩
    rw [hdeadline] at hnext
    have hround : u.receive d p want (patience + 1) deadline got b =
        u.finishRound d p want patience deadline' (got ++ bytes) b₂ := by
      rw [receive_succ, htaken]
      simp only [hdeadline]
    have hstart : u.receiveChecked d p want (patience + 1) deadline got.length (overlay got buffer) b =
        u.finishChecked d p want patience deadline' (got ++ bytes).length
          (overlay (got ++ bytes) buffer) b₂ := by
      rw [receiveChecked, orAbort_bind hslice, Act.bind_of_ok hchecked]
      dsimp only
      rw [orAbort_bind hcopy, hdeadlines, lift_bind hdeadline, ← List.length_append]
      rfl
    rw [hstart, map_of_eq hround]
    refine finishChecked_eq hwant fun b₃ b₄ hover hwait => ih ?_ ?_
    · rw [List.length_append]
      omega
    · have hlook := hrule.expired deadline' b₂
      have hwaited := hrule.waitRound b₃
      rw [hover] at hlook
      rw [hwait] at hwaited
      exact (((hb.steps hsteps).steps hnext).steps hlook).steps hwaited

/-- A read puts what it gives at the front of the caller's buffer, and no index on the way is outside. -/
theorem readChecked_eq (hb : Furnished u b) (buffer : List UInt8) :
    u.readChecked d p buffer b = (ReadReply.into buffer <$> u.read d p buffer.length) b := by
  have hwidth := u.width.bytes_pos
  have hrefused (outcome : Except Error Nat) : (pure (outcome, buffer) : Act (Bench σ) _) b =
      (ReadReply.into buffer <$> (pure ⟨outcome, []⟩ : Act (Bench σ) ReadReply)) b := by
    rw [map_pure, ReadReply.into, overlay_nil]
  unfold readChecked read
  by_cases hshut : u.isShut = true
  · rw [if_pos hshut, if_pos hshut, hrefused]
  rw [if_neg hshut, if_neg hshut]
  by_cases hreceives : (!u.receives) = true
  · rw [if_pos hreceives, if_pos hreceives, hrefused]
  rw [if_neg hreceives, if_neg hreceives]
  by_cases hempty : buffer.length = 0
  · rw [if_pos (List.isEmpty_iff_length_eq_zero.mpr hempty), if_pos hempty, hrefused]
  rw [if_neg (mt List.isEmpty_iff_length_eq_zero.mp hempty), if_neg hempty]
  by_cases hshort : buffer.length < u.width.bytes
  · rw [if_pos hshort, if_pos hshort, hrefused]
  rw [if_neg hshort, if_neg hshort, orAbort_bind (remainder?_eq hwidth _)]
  rcases hbegin : Deadline.begin p u.patienceMillis b with ⟨deadline, b₁⟩
  have hticks := (rule_of_heeds (u := u) hd hp).begin u.patienceMillis b
  rw [hbegin] at hticks
  simp only at hticks
  have hrest := Nat.mod_lt buffer.length hwidth
  have hreceive : u.receiveChecked d p (buffer.length - buffer.length % u.width.bytes) p.patience deadline
      ([] : List UInt8).length (overlay [] buffer) b₁ = (ReadReply.into buffer <$>
        u.receive d p (buffer.length - buffer.length % u.width.bytes) p.patience deadline []) b₁ :=
    receiveChecked_eq hd hp (by omega) (Nat.sub_le _ _) (Nat.zero_le _) (hb.steps hticks)
  rw [overlay_nil, List.length_nil] at hreceive
  rw [lift_bind hbegin, hreceive]
  refine (map_of_eq ?_ _).symm
  exact lift_bind hbegin _

end

/-! ## Writing -/

/-- The pieces of so many bytes in a sequence of them; a shorter rest is left out. -/
def chunks (n : Nat) (data : List UInt8) : List (List UInt8) :=
  if 0 < n ∧ n ≤ data.length then data.take n :: chunks n (data.drop n) else []
termination_by data.length
decreasing_by
  rw [List.length_drop]
  omega

/-- Pieces of no bytes there are none. -/
def chunks? (n : Nat) (data : List UInt8) : Option (List (List UInt8)) :=
  if n = 0 then none else some (chunks n data)

/-- The character in a piece. -/
def wordOf? (w : CharWidth) (chunk : List UInt8) : Option UInt16 :=
  match w with
  | .narrow => do return (← chunk[0]?).toUInt16
  | .wide => do return CharWidth.joinBytes (← chunk[0]?) (← chunk[1]?)

/-- Hands over the characters in the pieces, after `written` bytes have been. -/
def sendChunks (u : Uart) (d : Driver σ) (p : Platform σ) :
    List (List UInt8) → Deadline → Nat → Act (Bench σ) (Except Error Nat)
  | [], _, written => return .ok written
  | chunk :: chunks, deadline, written => do
    let word ← orAbort (wordOf? u.width chunk)
    match ← awaitReady d p deadline p.patience with
    | .error e => return .error e
    | .ok false =>
      logNote (W := Bench σ) .debug s!"UART: transmitter stalled after {written} bytes"
      return if written = 0 then .error .shouldWait else .ok written
    | .ok true =>
      d.sendWord word
      let deadline ← deadline.restart p
      sendChunks u d p chunks deadline (written + u.width.bytes)

/-- Sends a caller's data. -/
def writeChecked (u : Uart) (d : Driver σ) (p : Platform σ) (data : List UInt8) :
    Act (Bench σ) (Except Error Nat) := do
  if u.isShut then return .error .deinitialized
  if !u.sends then return .error .notSupported
  let rest ← orAbort (remainder? data.length u.width.bytes)
  if rest ≠ 0 then return .error .invalidArgs
  if data.isEmpty then return .ok 0
  u.faceSending d
  let deadline ← Deadline.begin p u.patienceMillis
  let chunks ← orAbort (chunks? u.width.bytes data)
  let result ← u.sendChunks d p chunks deadline 0
  if !u.hasDirection then return result
  let drained ← awaitIdle d p p.waitRound none p.patience
  u.faceReceiving d
  match result, drained with
  | .ok _, .error .canceled => return .error .canceled
  | result, _ => return result

theorem chunks_of_short {n : Nat} {data : List UInt8} (h : data.length < n) : chunks n data = [] := by
  rw [chunks, if_neg fun hlong => Nat.not_le.mpr h hlong.2]

theorem chunks_append {n : Nat} (chunk data : List UInt8) (hlength : chunk.length = n) (hn : 0 < n) :
    chunks n (chunk ++ data) = chunk :: chunks n data := by
  rw [chunks, if_pos ⟨hn, by rw [List.length_append]; omega⟩, List.take_left' hlength,
    List.drop_left' hlength]

/-- The pieces of as many bytes as a character has are its characters. -/
theorem chunks_wordOf? (w : CharWidth) (data : List UInt8) :
    (chunks w.bytes data).map (wordOf? w) = (w.decode data).map some := by
  cases w with
  | narrow =>
    induction data with
    | nil =>
      rw [chunks_of_short (Nat.zero_lt_one : _ < CharWidth.narrow.bytes)]
      rfl
    | cons byte data ih =>
      have hfirst : chunks CharWidth.narrow.bytes (byte :: data) =
        [byte] :: chunks CharWidth.narrow.bytes data := chunks_append [byte] data rfl Nat.one_pos
      rw [hfirst, List.map_cons, ih, CharWidth.decode, CharWidth.decode]
      rfl
  | wide =>
    induction hlength : data.length using Nat.strong_induction_on generalizing data with
    | h length ih =>
      subst hlength
      rcases data with _ | ⟨low, _ | ⟨high, rest⟩⟩
      · rw [chunks_of_short (Nat.zero_lt_two : _ < CharWidth.wide.bytes)]
        rfl
      · rw [chunks_of_short (Nat.one_lt_two : _ < CharWidth.wide.bytes)]
        rfl
      · have hfirst : chunks CharWidth.wide.bytes (low :: high :: rest) =
          [low, high] :: chunks CharWidth.wide.bytes rest :=
            chunks_append [low, high] rest rfl Nat.two_pos
        rw [hfirst, List.map_cons, ih rest.length (by simp only [List.length_cons]; omega) rest rfl]
        rfl

theorem sendChunks_eq {chunks : List (List UInt8)} {words : List UInt16}
    (h : chunks.map (wordOf? u.width) = words.map some) (deadline : Deadline) (written : Nat) :
    u.sendChunks d p chunks deadline written = u.sendWords d p words deadline written := by
  induction chunks generalizing words deadline written with
  | nil =>
    obtain rfl : words = [] := List.map_eq_nil_iff.mp h.symm
    rfl
  | cons chunk chunks ih =>
    cases words with
    | nil => cases h
    | cons word words =>
      rw [List.map_cons, List.map_cons, List.cons.injEq] at h
      obtain ⟨hword, hrest⟩ := h
      rw [sendChunks, sendWords, orAbort_bind hword]
      refine bind_congr fun answer => ?_
      rcases answer with e | _ | _
      · rfl
      · rfl
      · exact bind_congr fun _ => bind_congr fun deadline => ih hrest deadline _

/-- A write does not look outside the caller's data either. -/
theorem writeChecked_eq (data : List UInt8) : u.writeChecked d p data = u.write d p data := by
  have hwidth := u.width.bytes_pos
  have hchunks : chunks? u.width.bytes data = some (chunks u.width.bytes data) := if_neg hwidth.ne'
  refine ite_congr rfl (fun _ => rfl) fun _ => ite_congr rfl (fun _ => rfl) fun _ => ?_
  refine (orAbort_bind (remainder?_eq hwidth _) _).trans ?_
  refine ite_congr rfl (fun _ => rfl) fun _ => ite_congr rfl (fun _ => rfl) fun _ => ?_
  refine bind_congr fun _ => bind_congr fun deadline => (orAbort_bind hchunks _).trans ?_
  exact congrArg (· >>= _) (sendChunks_eq (chunks_wordOf? u.width data) deadline 0)

end Uart
end SerialLine
