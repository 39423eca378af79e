import SerialLine.Proofs.Lines.Loopback
import SerialLine.Proofs.Reception.Simulated
/-! # Writing and reading in turn

* `Exchange`: writes and reads in turn on a line whose characters come back, with all bytes written and all
  bytes read.
* `Exchange.carries`: what was written is what was read and what waits. One case per call.
* `loopback_returns`: what is promised of every further call.
* `Exchange.wrapped`, `loopback_limits`: what becomes of characters beyond the range of a counter, and of the
  count where a peripheral does not count.
-/
set_option autoImplicit false

namespace SerialLine.Uart

variable {σ ε : Type} {u : Uart} {d : Driver σ} {p : Platform σ} {capacity : Nat}

/-- What becomes of a line that is written to and read from, with all bytes written and all bytes read since
`w`. Nothing is written without room for it, and nothing is read that is not there. -/
inductive Exchange (u : Uart) (d : Driver σ) (p : Platform σ) (capacity : Nat) (w : World σ) :
    List UInt8 → List UInt8 → World σ → Prop where
  | new : Exchange u d p capacity w [] [] w
  | wrote {written got data : List UInt8} {v : World σ} (h : Exchange u d p capacity w written got v)
      (hwhole : data.length % u.width.bytes = 0)
      (hroom : written.length + data.length ≤ got.length + capacity * u.width.bytes) :
      Exchange u d p capacity w (written ++ data) got (u.after d p (.write data) v)
  | filled {written got : List UInt8} {room : Nat} {reply : ReadReply} {v : World σ}
      (h : Exchange u d p capacity w written got v) (hsome : 0 < room)
      (hwhole : room % u.width.bytes = 0) (hthere : got.length + room ≤ written.length)
      (hreply : u.replyTo d p (.read room) v = some (.filled room reply)) :
      Exchange u d p capacity w written (got ++ reply.bytes) (u.after d p (.read room) v)
  | looked {written got : List UInt8} {v : World σ} (h : Exchange u d p capacity w written got v) :
      Exchange u d p capacity w written got (u.after d p .waitingCount v)

/-- What was written is what was read and what waits. -/
structure Carried (L : Loopback ε u d p capacity) (b₀ : Bench σ) (written got : List UInt8)
    (b : Bench σ) : Prop where
  fits : L.Fits u capacity b
  written_eq : written = got ++ u.width.encode (L.waiting u b)
  taken : (L.taken b.outside).length * u.width.bytes =
    (L.taken b₀.outside).length * u.width.bytes + written.length
  view : L.view b.outside = L.view b₀.outside

namespace Carried

variable {L : Loopback ε u d p capacity} {b₀ b b' : Bench σ} {written got data : List UInt8}

theorem length_eq (h : Carried L b₀ written got b) :
    written.length = got.length + (L.waiting u b).length * u.width.bytes := by
  have hlength := congrArg List.length h.written_eq
  rwa [List.length_append, CharWidth.length_encode] at hlength

theorem calm (h : Carried L b₀ written got b) (hcalm : L.Calm u b b') :
    Carried L b₀ written got b' where
  fits := hcalm.fits h.fits
  written_eq := by rw [hcalm.waiting_eq, h.written_eq]
  taken := by rw [hcalm.taken, h.taken]
  view := hcalm.view.trans h.view

theorem gains (h : Carried L b₀ written got b) (hwhole : data.length % u.width.bytes = 0)
    (hgains : L.Gains u (u.width.decode data) b b') : Carried L b₀ (written ++ data) got b' where
  fits := hgains.fits capacity h.fits
  written_eq := by
    rw [hgains.waiting, CharWidth.encode_append, CharWidth.encode_decode _ hwhole, h.written_eq,
      List.append_assoc]
  taken := by
    rw [hgains.taken, List.length_append, List.length_append, Nat.add_mul, h.taken, length_decode,
      Nat.div_mul_cancel (Nat.dvd_of_mod_eq_zero hwhole), Nat.add_assoc]
  view := hgains.view.trans h.view

theorem takes {n : Nat} (h : Carried L b₀ written got b) (htakes : L.Takes u n b b') :
    Carried L b₀ written (got ++ u.width.encode ((L.waiting u b).take n)) b' where
  fits := htakes.fits capacity h.fits
  written_eq := by
    rw [htakes.waiting, List.append_assoc, ← CharWidth.encode_append, List.take_append_drop,
      h.written_eq]
  taken := by rw [htakes.taken, h.taken]
  view := htakes.view.trans h.view

theorem room (h : Carried L b₀ written got b) (hwhole : data.length % u.width.bytes = 0)
    (hroom : written.length + data.length ≤ got.length + capacity * u.width.bytes) :
    (L.waiting u b).length + data.length / u.width.bytes ≤ capacity := by
  have hwidth := u.width.bytes_pos
  have hcancel := Nat.div_mul_cancel (Nat.dvd_of_mod_eq_zero hwhole)
  have hlength := h.length_eq
  refine Nat.le_of_mul_le_mul_right ?_ hwidth
  rw [Nat.add_mul, hcancel]
  omega

theorem there {n : Nat} (h : Carried L b₀ written got b) (hthere : got.length + n ≤ written.length) :
    n / u.width.bytes ≤ (L.waiting u b).length := by
  have hlength := h.length_eq
  exact Nat.div_le_of_le_mul (by rw [Nat.mul_comm]; omega)

/-- Data that is not too much on top of all that was written is not too much. -/
theorem spares (h : Carried L b₀ written got b) (hwhole : data.length % u.width.bytes = 0)
    (hspare : L.Spares u ((written.length + data.length) / u.width.bytes) b₀) :
    L.Spares u (data.length / u.width.bytes) b := by
  intro hbuffer
  have hwidth := u.width.bytes_pos
  have hfew := hspare hbuffer
  have htaken := congrArg (· / u.width.bytes) h.taken
  simp only [Nat.mul_div_cancel _ hwidth] at htaken
  rw [Nat.mul_comm, Nat.mul_add_div hwidth] at htaken
  rw [Nat.add_div_of_dvd_left (Nat.dvd_of_mod_eq_zero hwhole)] at hfew
  omega

end Carried

theorem Holdings.Spares.mono {H : Holdings σ} {m n : Nat} {b : Bench σ} (h : H.Spares u n b)
    (hle : m ≤ n) : H.Spares u m b := fun hbuffer =>
  (Nat.add_le_add_left hle _).trans_lt (h hbuffer)

theorem Exchange.carries (L : Loopback ε u d p capacity) (hlive : u.isShut = false)
    (hsends : u.sends = true) (hreceives : u.receives = true) (hpatience : 0 < p.patience)
    {w v : World σ} {written got : List UInt8} (hb : L.Fits u capacity w.bench)
    (hempty : L.waiting u w.bench = []) (h : Exchange u d p capacity w written got v)
    (hspare : L.Spares u (written.length / u.width.bytes) w.bench) :
    Carried L w.bench written got v.bench := by
  induction h with
  | new =>
    refine ⟨hb, ?_, rfl, rfl⟩
    rw [hempty]
    rfl
  | @wrote written got data v _ hwhole hroom ih =>
    rw [List.length_append] at hspare
    have hcarried := ih (hspare.mono (Nat.div_le_div_right (Nat.le_add_right _ _)))
    have hfits := hcarried.room hwhole hroom
    have hfew := hcarried.spares hwhole hspare
    obtain ⟨b, hwrite, hreceived⟩ :=
      L.write_receives hlive hsends hpatience hwhole hcarried.fits hfits
    rw [← length_decode] at hfits hfew
    rw [(replyTo_write hwrite).2]
    exact hcarried.gains hwhole
      (hreceived.gains (u.width.clip_decode hwhole) hcarried.fits hfits hfew)
  | @filled written got room reply v _ hsome hwhole hthere hreply ih =>
    have hcarried := ih hspare
    obtain ⟨b, hread, htakes⟩ := L.read_takes hlive hreceives hpatience hsome hwhole hcarried.fits
      (hcarried.there hthere)
    obtain ⟨hanswer, hafter⟩ := replyTo_read hread
    rw [hanswer] at hreply
    cases hreply
    rw [hafter]
    exact hcarried.takes htakes
  | @looked written got v _ ih => exact (ih hspare).calm (L.waitingCount_calm hlive v.bench)

/-- All that is there can be read. -/
theorem Exchange.drained (L : Loopback ε u d p capacity) (hlive : u.isShut = false)
    (hreceives : u.receives = true) (hpatience : 0 < p.patience) {w v : World σ} {b₀ : Bench σ}
    {written got : List UInt8} (h : Exchange u d p capacity w written got v)
    (hcarried : Carried L b₀ written got v.bench) : ∃ v', Exchange u d p capacity w written written v' := by
  by_cases hall : L.waiting u v.bench = []
  · have hequal := hcarried.written_eq
    rw [hall, CharWidth.encode_nil, List.append_nil] at hequal
    obtain rfl := hequal
    exact ⟨v, h⟩
  · have hsome : 0 < (L.waiting u v.bench).length * u.width.bytes :=
      Nat.mul_pos (List.length_pos_iff.mpr hall) u.width.bytes_pos
    have hwhole := Nat.mul_mod_left (L.waiting u v.bench).length u.width.bytes
    have hcancel := Nat.mul_div_cancel (L.waiting u v.bench).length u.width.bytes_pos
    obtain ⟨b, hread, -⟩ := L.read_takes hlive hreceives hpatience hsome hwhole hcarried.fits hcancel.le
    have hfilled := h.filled hsome hwhole hcarried.length_eq.ge (replyTo_read hread).1
    rw [hcancel, List.take_length, ← hcarried.written_eq] at hfilled
    exact ⟨_, hfilled⟩

/-- What is promised of a line after so much was written and read. -/
structure Returns (L : Loopback ε u d p capacity) (b₀ : Bench σ) (written got : List UInt8)
    (v : World (Recorded σ)) : Prop where
  /-- A write for which there is room is answered in full. -/
  writes : ∀ data, data.length % u.width.bytes = 0 →
    written.length + data.length ≤ got.length + capacity * u.width.bytes →
    u.replyTo d.recorded p.recorded (.write data) v = some (.number (.ok data.length))
  /-- A read of what is there is answered in full, without a round of background work. -/
  reads : ∀ room, 0 < room → room % u.width.bytes = 0 → got.length + room ≤ written.length →
    ∃ bytes, bytes.length = room ∧
      u.replyTo d.recorded p.recorded (.read room) v = some (.filled room ⟨.ok room, bytes⟩) ∧
      rounds (u.after d.recorded p.recorded (.read room) v).bench = rounds v.bench
  /-- What waits are the characters written and not read, if the peripheral can count them. -/
  counts : (u.rxBuffer = none → ∀ b, (d.receivedCount b).1 = (L.held b.outside).length) →
    u.replyTo d.recorded p.recorded .waitingCount v =
      some (.number (.ok (written.length / u.width.bytes - got.length / u.width.bytes)))
  ordered : got <+: written
  complete : got.length = written.length → got = written

/-- Characters that come back to the line that sent them are read in the order in which they were written,
each once, however writes and reads are interleaved. -/
theorem loopback_returns (L : Loopback ε u d p capacity) (hlive : u.isShut = false)
    (hsends : u.sends = true) (hreceives : u.receives = true) (hpatience : 0 < p.patience)
    {w v : World (Recorded σ)} {written got : List UInt8} (hb : L.Fits u capacity w.bench.unrecorded)
    (hempty : L.waiting u w.bench.unrecorded = [])
    (h : Exchange u d.recorded p.recorded capacity w written got v)
    (hspare : L.Spares u (written.length / u.width.bytes) w.bench.unrecorded) :
    Returns L w.bench.unrecorded written got v := by
  have hcarried : Carried (L.counted 0) w.bench written got v.bench :=
    h.carries (L.counted 0) hlive hsends hreceives hpatience ⟨hb.ready, hb.capacity_eq⟩ hempty hspare
  have hprefix : got <+: written := ⟨_, hcarried.written_eq.symm⟩
  refine ⟨fun data hwhole hroom => ?_, fun room hsome hwhole hthere => ?_, fun hcount => ?_,
    hprefix, hprefix.eq_of_length⟩
  · obtain ⟨b, hwrite, -⟩ := (L.counted 0).write_receives hlive hsends hpatience hwhole hcarried.fits
      (hcarried.room hwhole hroom)
    exact (replyTo_write hwrite).1
  · obtain ⟨b, hread, htakes⟩ := (L.counted 0).read_takes hlive hreceives hpatience hsome hwhole
      hcarried.fits (hcarried.there hthere)
    obtain ⟨hanswer, hafter⟩ := replyTo_read hread
    refine ⟨_, ?_, hanswer, ?_⟩
    · rw [CharWidth.length_encode, List.length_take, Nat.min_eq_left (hcarried.there hthere),
        Nat.div_mul_cancel (Nat.dvd_of_mod_eq_zero hwhole)]
    · have hrounds : 0 + rounds b = 0 + rounds v.bench := congrArg Prod.snd htakes.view
      rw [hafter]
      omega
  · have hanswer := (L.counted 0).toHoldings.waitingCount_eq (d := d.recorded) hlive hreceives
      (fun hbuffer => hcount hbuffer v.bench.unrecorded)
    have hwidth := u.width.bytes_pos
    have hlength := hcarried.length_eq
    rw [hlength, Nat.add_mul_div_right _ _ hwidth, Nat.add_sub_cancel_left]
    exact congrArg (fun a => some (Reply.number a)) hanswer

/-! ## A short line -/

/-- A line with a direction output and a buffer for three characters. -/
def returning (bits : UInt8) : Config where
  tx := some { number := 0 }
  rx := some { number := 1 }
  direction := some { number := 4 }
  bits := bits
  receiveCapacity := 3

def returningLine (bits : UInt8) : Uart := ofConfig (returning bits) (some ⟨0⟩)

/-- Surroundings in which nothing happens. -/
def nothing : Surroundings Unit where
  ticks := pure 0
  background := pure []
  isInterrupted := pure false

abbrev returningDriver : Driver (Station Unit) := Station.driver (some ⟨0⟩)

abbrev returningPlatform : Platform (Station Unit) := Station.platform nothing (some ⟨0⟩) 1

def returningWorld (bits : UInt8) : World (Recorded (Station Unit)) :=
  (create returningDriver.recorded (returning bits) (Station.world ())).2

def returningLoopback (bits : UInt8) :
    Loopback Unit (returningLine bits) returningDriver returningPlatform 3 :=
  Station.loopback nothing (returningLine bits) 3 1

theorem fresh_returning (bits : UInt8)
    (hmade : (create returningDriver.recorded (returning bits) (Station.world ())).1 =
      .ok (returningLine bits)) :
    (returningLoopback bits).Fresh (returningLine bits) 3 (returningWorld bits).bench.unrecorded := by
  have hplain := (mirror_recorded returningDriver returningPlatform).create (returning bits)
    (Station.world ())
  rw [show create returningDriver.recorded (returning bits) (Station.world ()) =
    (.ok (returningLine bits), returningWorld bits) from Prod.ext hmade rfl] at hplain
  exact Holdings.fresh_create (Station.begins_situated nothing (returningLine bits) 1) hplain rfl rfl

/-- Two characters of nine bits are written and one of them is read. -/
theorem loopback_returns_wide :
    ∃ v, Exchange (returningLine 9) returningDriver.recorded returningPlatform.recorded 3
        (returningWorld 9) [0x41, 0x01, 0x42, 0x00] [0x41, 0x01] v ∧
      Returns (returningLoopback 9) (returningWorld 9).bench.unrecorded [0x41, 0x01, 0x42, 0x00]
        [0x41, 0x01] v := by
  have hfresh := fresh_returning 9 (by rfl)
  have hspare : (returningLoopback 9).Spares (returningLine 9) 2
      (returningWorld 9).bench.unrecorded := by
    intro _
    rw [hfresh.taken]
    decide
  have hwrote : Exchange (returningLine 9) returningDriver.recorded returningPlatform.recorded 3
      (returningWorld 9) ([] ++ [0x41, 0x01, 0x42, 0x00]) [] _ := .wrote .new rfl (by decide)
  obtain ⟨bytes, hlength, hreply, -⟩ :=
    (loopback_returns (returningLoopback 9) rfl rfl rfl Nat.zero_lt_one hfresh.toFits hfresh.waiting
      hwrote hspare).reads 2 (by decide) rfl (by decide)
  have hfilled := hwrote.filled (by decide) rfl (by decide) hreply
  have hreturns := loopback_returns (returningLoopback 9) rfl rfl rfl Nat.zero_lt_one hfresh.toFits
    hfresh.waiting hfilled hspare
  have hbytes := List.prefix_iff_eq_take.mp hreturns.ordered
  simp only [List.nil_append, hlength] at hbytes hfilled hreturns
  obtain rfl : bytes = [0x41, 0x01] := hbytes
  exact ⟨_, hfilled, hreturns⟩

/-! ## Where more is expected -/

/-- Where a counter is about to wrap and the slots of its last and its first value are the same, the next
two characters are stored as one. -/
theorem Scene.Receives.doubled {X : Scene σ ε} {id : BufferId} {words : List UInt16}
    {b b' : Bench σ} (h : X.Receives u words b b') (hbuffer : u.rxBuffer = some id)
    (hb : X.Fits u capacity b) (hempty : X.waiting u b = [])
    (hlast : (X.taken b.outside).length + 1 = 2 ^ 64)
    (hslot : (X.taken b.outside).length % capacity = 0) (htwo : 2 ≤ capacity)
    (hwords : words.length = 2) : ∃ word, X.waiting u b' = [word, word] := by
  have hfits := h.fits hb
  have hlength := h.length_waiting hb
  have hcount : Holdings.capped u capacity 2 = 2 := by
    unfold Holdings.capped
    split <;> omega
  rw [hempty, List.length_nil, Nat.zero_add, hwords, hcount] at hlength
  -- both counters have their last value
  have hnone : (b.buffers.ring id).available = 0 :=
    (RingBuffer.contents_eq_nil_iff _).mp ((Holdings.waiting_of_some hbuffer _).symm.trans hempty)
  have hhead := ((hb.ready id hbuffer).2.unwrapped (by omega)).2
  have htail : (b'.buffers.ring id).tail.toNat = (X.taken b.outside).length := by
    rw [h.ring id hbuffer, RingBuffer.tail_pushAll,
      ← (RingBuffer.available_eq_zero_iff _).mp hnone, hhead]
  have hshared : (b'.buffers.ring id).slot ((b'.buffers.ring id).tail + 1) =
      (b'.buffers.ring id).slot (b'.buffers.ring id).tail := by
    have hone : (1 : UInt64).toNat = 1 := rfl
    rw [RingBuffer.slot, RingBuffer.slot, UInt64.toNat_add, htail, hone,
      hfits.capacity_eq id hbuffer, hlast, Nat.mod_self, Nat.zero_mod, hslot]
  have hwaiting := Holdings.waiting_of_some (H := X.toHoldings) hbuffer b'
  have havailable : (b'.buffers.ring id).available = 2 := by
    rw [← RingBuffer.length_contents, ← hwaiting, hlength]
  exact ⟨_, hwaiting.trans (RingBuffer.contents_of_one_slot havailable hshared)⟩

/-- An exchange that comes to such a place gets one of two characters back twice. -/
theorem Exchange.wrapped (L : Loopback ε u d p capacity) {id : BufferId} (hbuffer : u.rxBuffer = some id)
    (hlive : u.isShut = false) (hsends : u.sends = true) (hreceives : u.receives = true)
    (hpatience : 0 < p.patience) {w v : World σ} {b₀ : Bench σ} {written data : List UInt8}
    (h : Exchange u d p capacity w written written v) (hcarried : Carried L b₀ written written v.bench)
    (hlast : (L.taken v.bench.outside).length + 1 = 2 ^ 64) (htwo : 2 ≤ capacity)
    (hslot : (L.taken v.bench.outside).length % capacity = 0)
    (hdata : data.length = 2 * u.width.bytes) :
    ∃ word v', Exchange u d p capacity w (written ++ data) (written ++ u.width.encode [word, word]) v' := by
  have hwidth := u.width.bytes_pos
  have hwhole : data.length % u.width.bytes = 0 := by rw [hdata, Nat.mul_mod_left]
  have hroom : written.length + data.length ≤ written.length + capacity * u.width.bytes := by
    rw [hdata]
    exact Nat.add_le_add_left (Nat.mul_le_mul_right _ htwo) _
  have hempty : L.waiting u v.bench = [] := by
    have hlength := hcarried.length_eq
    rw [Nat.left_eq_add, Nat.mul_eq_zero] at hlength
    exact List.eq_nil_of_length_eq_zero (hlength.resolve_right hwidth.ne')
  obtain ⟨b, hwrite, hreceived⟩ := L.write_receives hlive hsends hpatience hwhole hcarried.fits
    (hcarried.room hwhole hroom)
  have hcancel := Nat.mul_div_cancel 2 hwidth
  obtain ⟨word, hsame⟩ := hreceived.doubled hbuffer hcarried.fits hempty hlast hslot htwo
    (by rw [length_decode, hdata, hcancel])
  have hwrote := h.wrote hwhole hroom
  obtain ⟨b', hread, -⟩ := L.read_takes hlive hreceives hpatience (Nat.mul_pos Nat.two_pos hwidth)
    (Nat.mul_mod_left 2 _) (hreceived.fits hcarried.fits) (by rw [hcancel, hsame]; rfl)
  rw [hcancel, hsame] at hread
  rw [← (replyTo_write hwrite).2] at hread
  exact ⟨word, _, hwrote.filled (Nat.mul_pos Nat.two_pos hwidth) (Nat.mul_mod_left 2 _)
    (by rw [List.length_append, hdata]) (replyTo_read hread).1⟩

section
variable (hfresh : (returningLoopback 8).Fresh (returningLine 8) 3 (returningWorld 8).bench.unrecorded)
  {v : World (Recorded (Station Unit))} {written got : List UInt8}
include hfresh

theorem carried_returning (h : Exchange (returningLine 8) returningDriver.recorded
      returningPlatform.recorded 3 (returningWorld 8) written got v) (hfew : written.length < 2 ^ 64) :
    Carried ((returningLoopback 8).counted 0) (returningWorld 8).bench written got v.bench := by
  refine h.carries _ rfl rfl rfl Nat.zero_lt_one ⟨hfresh.ready, hfresh.capacity_eq⟩ hfresh.waiting ?_
  intro _
  have htaken : ((returningLoopback 8).counted 0).taken (returningWorld 8).bench.outside = [] :=
    hfresh.taken
  have hwidth : (returningLine 8).width.bytes = 1 := rfl
  rw [htaken, hwidth, Nat.div_one, List.length_nil, Nat.zero_add]
  exact hfew

/-- One character at a time can be written and read as often as a counter allows. -/
theorem exchange_repeated (n : Nat) (hn : n < 2 ^ 64) :
    ∃ v, Exchange (returningLine 8) returningDriver.recorded returningPlatform.recorded 3
      (returningWorld 8) (List.replicate n 0) (List.replicate n 0) v := by
  induction n with
  | zero => exact ⟨_, .new⟩
  | succ n ih =>
    obtain ⟨v, h⟩ := ih (by omega)
    have hroom : (List.replicate n (0 : UInt8)).length + [(0 : UInt8)].length ≤
        (List.replicate n (0 : UInt8)).length + 3 * (returningLine 8).width.bytes :=
      Nat.add_le_add_left (by decide) _
    obtain ⟨v', hdrained⟩ := (h.wrote (Nat.mod_one _) hroom).drained
      ((returningLoopback 8).counted 0) rfl rfl Nat.zero_lt_one
      ((carried_returning hfresh (h.wrote (Nat.mod_one _) hroom) (by simpa using hn)))
    rw [← List.replicate_succ'] at hdrained
    exact ⟨v', hdrained⟩

theorem exchange_wraps {n : Nat} (hn : n + 1 = 2 ^ 64) :
    ∃ got v, Exchange (returningLine 8) returningDriver.recorded returningPlatform.recorded 3
      (returningWorld 8) (List.replicate n 0 ++ [1, 2]) got v ∧
        ¬ got <+: List.replicate n 0 ++ [1, 2] := by
  obtain ⟨v, h⟩ := exchange_repeated hfresh n (by omega)
  have hcarried := carried_returning hfresh h (by rw [List.length_replicate]; omega)
  have htaken : (((returningLoopback 8).counted 0).taken v.bench.outside).length = n := by
    have hcount := hcarried.taken
    have hnone : ((returningLoopback 8).counted 0).taken (returningWorld 8).bench.outside = [] :=
      hfresh.taken
    rw [hnone, List.length_nil, Nat.zero_mul, Nat.zero_add, List.length_replicate] at hcount
    exact (Nat.mul_one _).symm.trans hcount
  obtain ⟨word, v', hwrapped⟩ := h.wrapped ((returningLoopback 8).counted 0) rfl rfl rfl rfl
    Nat.zero_lt_one hcarried (by rw [htaken, hn]) (by decide) (by rw [htaken]; omega)
    (show [(1 : UInt8), 2].length = 2 * (returningLine 8).width.bytes from rfl)
  refine ⟨_, v', hwrapped, fun hprefix => ?_⟩
  have hbytes : [CharWidth.lowByte word, CharWidth.lowByte word] <+: [1, 2] :=
    (List.prefix_append_right_inj _).mp hprefix
  have hequal := hbytes.eq_of_length rfl
  simp only [List.cons.injEq, and_true] at hequal
  exact absurd (hequal.1.symm.trans hequal.2) (by decide)

end

/-- A line over a block, without a buffer. -/
def blockConfig : Config where
  tx := some { number := 0 }
  rx := some { number := 1 }
  receiveCapacity := 0

abbrev blockDriver : Driver Pl011.Simulated :=
  Pl011.driver Pl011.Simulated.registers Pl011.Simulated.place

def blockWorld : World Pl011.Simulated where
  pins := .create 8
  bench :=
    { outside :=
      { block := {}
        isFree := ⟨rfl, rfl, rfl⟩
        chip := { clock := Pl011.standardClock } } }

/-- The world in which the line was made and its block then told to receive what it sends. -/
def returningBlock : World Pl011.Simulated :=
  (World.benchDo (Bench.outsideDo (Pl011.Simulated.registers.setBits Pl011.cr Pl011.crLoopback))
    (create blockDriver blockConfig blockWorld).2).2

/-- A PL011 block gives back two characters in order and meanwhile counts them as one, as it only tells
whether there are any. And a buffer whose counters have wrapped may give one character twice in place of
another. -/
theorem loopback_limits :
    (let line := ofConfig blockConfig none
      let platform := Pl011.Simulated.platform 1
      let written := line.after blockDriver platform (.write [1, 2]) returningBlock
      (create blockDriver blockConfig blockWorld).1 = .ok line ∧
        line.replyTo blockDriver platform (.write [1, 2]) returningBlock = some (.number (.ok 2)) ∧
        line.replyTo blockDriver platform .waitingCount written = some (.number (.ok 1)) ∧
        line.replyTo blockDriver platform (.read 2) written = some (.filled 2 ⟨.ok 2, [1, 2]⟩)) ∧
      ∃ got v, Exchange (returningLine 8) returningDriver.recorded returningPlatform.recorded 3
        (returningWorld 8) (List.replicate (2 ^ 64 - 1) 0 ++ [1, 2]) got v ∧
          ¬ got <+: List.replicate (2 ^ 64 - 1) 0 ++ [1, 2] :=
  ⟨by decide +kernel, exchange_wraps (fresh_returning 8 (by rfl)) (by decide)⟩

end SerialLine.Uart
