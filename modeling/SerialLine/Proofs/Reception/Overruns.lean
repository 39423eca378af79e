import SerialLine.Proofs.Lines.Frame
import SerialLine.Proofs.Reception.Conservation
import SerialLine.Proofs.Reception.Tallies
/-! # Reception without flow control counts what it loses

A line over a PL011 block that has a receive buffer and cannot tell the other side to pause.

* `unheld_create`: a new line has reception installed without flow control, and its books are empty.
* `ReceptionUnheld`: calls of readers, interrupts and arrivals in any order. Every run keeps the books.
* `reception_accounted`: the words that were taken from the block make up a ledger whose losses were
  counted, and each service of the interrupt takes what there is.
-/
set_option autoImplicit false

namespace SerialLine.Pl011

namespace Window

variable {σ : Type} {r : Registers σ} {chip : Place σ Chip} {W : Window r chip} {id : BufferId}
variable {c : Config} {p : Platform σ} {u : Uart} {w : World σ} {b : Bench σ}

/-! ## Calls -/

theorem quiets_droppedCount (hbuffer : u.rxBuffer = some id) :
    W.Quiets id (u.droppedCount : StateM (Bench σ) _) := by
  unfold Uart.droppedCount Uart.dropped
  by_cases hshut : u.isShut = true
  · rw [if_pos hshut]
    exact quiets_pure _
  · rw [if_neg hshut, hbuffer]
    exact ((quiets_ring id).bind fun _ => quiets_pure _).bind fun _ => quiets_pure _

theorem droppedCount_eq (hbuffer : u.rxBuffer = some id) (hlive : u.isShut = false) (b : Bench σ) :
    (u.droppedCount b).1 = .ok (b.buffers.ring id).dropped.toNat := by
  simp only [Uart.droppedCount, Uart.dropped, hlive, hbuffer]
  rfl

theorem tallies_discardInput (hbuffer : u.rxBuffer = some id) (hlive : u.isShut = false)
    (hb : Unheld chip id b) : W.Tallies id b (u.discardInput (driver r chip) b).2 [] 0 := by
  have heq : (u.discardInput (driver r chip) b).2 =
      (resumeReceiving r chip (Bench.ringDo id (fun ring => ((), ring.clear)) b).2).2 := by
    simp only [Uart.discardInput, hlive, hbuffer]
    rfl
  rw [heq]
  exact (tallies_clear hb.holds).trans (quiets_resumeReceiving _).tallies

/-- The calls of readers, discarding what was received and looking at the count of dropped characters
all keep the books. -/
theorem tallies_call (hp : W.SuitsUnheld id p) {x y : Reader σ} {call : Uart.Call}
    (hbuffer : x.uart.rxBuffer = some id) (hlive : x.uart.isShut = false)
    (hx : Unheld chip id x.world.bench)
    (hcall : isReaderCall call = true ∨ call = .discardInput ∨ call = .droppedCount)
    (hanswered : x.call? (driver r chip) p call = some y) :
    Uart.SameLine x.uart y.uart ∧ ∃ out n, y.returned = x.returned ++ out ∧ y.taken = x.taken + n ∧
      W.Tallies id x.world.bench y.world.bench out n := by
  obtain ⟨reply, hperform, -⟩ := Reader.call?_eq_some hanswered
  rcases hcall with hcall | rfl | rfl
  · have hstays : call ≠ .shutDown := by
      rintro rfl
      cases hcall
    obtain ⟨-, hrest⟩ := (traffic_tallies hp).call hbuffer hx hcall hanswered
    exact ⟨Uart.sameLine_perform hstays hperform, hrest⟩
  · cases hanswered
    exact ⟨.refl _, [], 0, rfl, rfl, tallies_discardInput hbuffer hlive hx⟩
  · cases hanswered
    exact ⟨.refl _, [], 0, rfl, rfl, (quiets_droppedCount hbuffer x.world.bench).tallies⟩

/-! ## A new line -/

/-- A new line with a receive buffer and no flow control has reception installed, and its buffer is
empty. -/
theorem unheld_create (W : Window r chip) {w₀ : World σ}
    (h : Uart.create (driver r chip) c w₀ = (.ok u, w)) (hrx : c.rx.isSome = true)
    (hrts : c.rts = none) (hcapacity : 0 < c.receiveCapacity) :
    ∃ id, u.rxBuffer = some id ∧ u.isShut = false ∧ Unheld chip id w.bench ∧
      Audit (w.bench.buffers.ring id) c.receiveCapacity [] [] 0 := by
  obtain ⟨id, b, hmade⟩ := create_installs W.remembers h hrx hcapacity
  have haudit : Audit (w.bench.buffers.ring id) c.receiveCapacity [] [] 0 := by
    rw [hmade.buffers]
    exact audit_create hmade.narrow hmade.ring
  refine ⟨id, hmade.rxBuffer, ?_, ⟨?_, ?_, haudit.sound⟩, haudit⟩
  · obtain ⟨_, _, _, _, _, hprogram, _⟩ := Uart.create_ok h
    obtain ⟨_, rfl⟩ := Uart.program_ok_config hprogram
    rfl
  · rw [hmade.buffers]
    exact hmade.holds
  · rw [hmade.interrupt W.remembers, hrts]
    rfl

/-! ## Runs -/

/-- The runs of a line, in which answered calls and what goes on meanwhile come in any order. Besides the
calls of its readers, what was received may be discarded and the count of dropped characters may be
looked at. -/
inductive ReceptionUnheld (W : Window r chip) (id : BufferId) (p : Platform σ) (u : Uart)
    (w : World σ) : Reader σ → Prop where
  | start : ReceptionUnheld W id p u w { uart := u, world := w }
  | meanwhile {x : Reader σ} {w' : World σ} (h : ReceptionUnheld W id p u w x)
      (hmeanwhile : W.Meanwhile id x.world.bench w'.bench) :
      ReceptionUnheld W id p u w { x with world := w' }
  | call {x y : Reader σ} {call : Uart.Call} (h : ReceptionUnheld W id p u w x)
      (hcall : isReaderCall call = true ∨ call = .discardInput ∨ call = .droppedCount)
      (hanswered : x.call? (driver r chip) p call = some y) : ReceptionUnheld W id p u w y

theorem ReceptionUnheld.tallies {x : Reader σ} (h : W.ReceptionUnheld id p u w x)
    (hp : W.SuitsUnheld id p) (hbuffer : u.rxBuffer = some id) (hlive : u.isShut = false)
    (hw : Unheld chip id w.bench) :
    x.uart.rxBuffer = some id ∧ x.uart.isShut = false ∧
      W.Tallies id w.bench x.world.bench x.returned x.taken := by
  induction h with
  | start => exact ⟨hbuffer, hlive, (Quiet.refl W id w.bench).tallies⟩
  | meanwhile _ hmeanwhile ih =>
    obtain ⟨hbuffer', hlive', htallies⟩ := ih
    refine ⟨hbuffer', hlive', ?_⟩
    exact (traffic_tallies hp).thenSilent htallies (hmeanwhile.tallies (hw.tallies htallies))
  | call _ hcall hanswered ih =>
    obtain ⟨hbuffer', hlive', htallies⟩ := ih
    obtain ⟨⟨rate, timeout, hsame⟩, out, n, hout, hn, htallies'⟩ :=
      tallies_call hp hbuffer' hlive' (hw.tallies htallies) hcall hanswered
    rw [hout, hn, hsame]
    exact ⟨hbuffer', hlive', htallies.trans htallies'⟩

/-! ## What the books say -/

/-- The words that waited in the block or arrived since are `passed`, which were taken from it, and those
that still wait. They went through the buffer as through a bounded queue; what its readers took is what
they got, and the counts that they took and the count there is make up the losses. The count has 64 bits,
so it is short by the times that it wrapped. -/
structure Accounted (W : Window r chip) (id : BufferId) (capacity : Nat) (w : World σ) (x : Reader σ)
    (arrived : List UInt32) (passed : List Passed) (left : List Left) : Prop where
  words_eq : W.waiting w.bench.outside ++ arrived =
    passed.map Passed.word ++ W.waiting x.world.bench.outside
  ledger : Ledger capacity passed left
    ((x.world.bench.buffers.ring id).width.encode (x.world.bench.buffers.ring id).contents)
  kept_eq : left.map Left.byte ++
      (x.world.bench.buffers.ring id).width.encode (x.world.bench.buffers.ring id).contents =
    (passed.filter Passed.kept).map fun p => character p.word
  pushed_eq : (x.world.bench.buffers.ring id).head.toNat = passed.countP Passed.kept
  returned_eq : x.returned = delivered left
  counted : ∃ count wraps, (x.uart.droppedCount x.world.bench).1 = .ok count ∧
    x.taken + count + wraps * 2 ^ 64 = lost passed ∧
    (lost passed < 2 ^ 64 → x.taken + count = lost passed)

theorem Account.accounted {capacity : Nat} {x : Reader σ} {arrived : List UInt32}
    {passed : List Passed} {left : List Left}
    (h : W.Account id capacity w.bench.outside x.world.bench passed left x.taken)
    (harrived : W.accepted x.world.bench.outside = W.accepted w.bench.outside ++ arrived)
    (hbuffer : x.uart.rxBuffer = some id) (hlive : x.uart.isShut = false)
    (hreturned : delivered left = x.returned) :
    W.Accounted id capacity w x arrived passed left := by
  obtain ⟨arrived', haccepted, hwords⟩ := h.words
  obtain rfl : arrived' = arrived := List.append_cancel_left (haccepted.symm.trans harrived)
  obtain ⟨queue, hholding, hledger⟩ := h.audit.books
  obtain ⟨wraps, hcounted⟩ := h.audit.counted
  refine ⟨hwords, ?_, ?_, hholding.head_eq, hreturned.symm, _, wraps,
    droppedCount_eq hbuffer hlive _, hcounted, ?_⟩
  · rw [hholding.narrow, hholding.bytes_eq]
    exact hledger
  · rw [hholding.narrow, hholding.bytes_eq]
    exact hledger.conserves
  · intro hlt
    omega

/-- What a service of the interrupt does after the words `before` waited in the block or arrived: it takes
what there is, the buffer keeps the first words as far as it has room, and the others and the overruns are
counted. -/
structure Spills (W : Window r chip) (id : BufferId) (rounds : Nat) (before : List UInt32)
    (b b' : Bench σ) (told : Option Nat) (done new : List UInt32) : Prop
    extends W.Serves id rounds b b' told done new where
  dropped_eq : (b'.buffers.ring id).dropped = (b.buffers.ring id).dropped +
    UInt64.ofNat (done.length - (b.buffers.ring id).space + done.countP isOverrun)
  bytes_eq : (before ++ new).length < 2 ^ 64 →
    (b'.buffers.ring id).width.encode (b'.buffers.ring id).contents =
      (b.buffers.ring id).width.encode (b.buffers.ring id).contents ++
        (done.take (b.buffers.ring id).space).map character

/-- A line with a receive buffer and without flow control delivers or counts what its block lets in, as
long as these are fewer than 2^64 characters. -/
theorem reception_accounted (W : Window r chip) {w₀ : World σ}
    (hcreate : Uart.create (driver r chip) c w₀ = (.ok u, w)) (hrx : c.rx.isSome = true)
    (hrts : c.rts = none) (hcapacity : 0 < c.receiveCapacity) :
    ∃ id, u.rxBuffer = some id ∧ ∀ p, W.SuitsUnheld id p → ∀ x, W.ReceptionUnheld id p u w x →
      (chip.get x.world.bench.outside).interrupt = some ⟨id, false⟩ ∧
      ∃ arrived, W.accepted x.world.bench.outside = W.accepted w.bench.outside ++ arrived ∧
        ((W.waiting w.bench.outside ++ arrived).length < 2 ^ 64 →
          ∃ passed left, W.Accounted id c.receiveCapacity w x arrived passed left) ∧
        ∀ rounds, ∃ done new, W.Spills id rounds (W.waiting w.bench.outside ++ arrived) x.world.bench
          (Interrupt.serve ⟨id, false⟩ r rounds x.world.bench).2
          (Interrupt.serve ⟨id, false⟩ r rounds x.world.bench).1 done new := by
  obtain ⟨id, hbuffer, hlive, hunheld, haudit⟩ := unheld_create W hcreate hrx hrts hcapacity
  refine ⟨id, hbuffer, fun p hp x hrun => ?_⟩
  obtain ⟨hbuffer', hlive', htallies⟩ := hrun.tallies hp hbuffer hlive hunheld
  have hx := hunheld.tallies htallies
  have hempty : W.Account id c.receiveCapacity w.bench.outside w.bench [] [] 0 :=
    ⟨haudit, [], (List.append_nil _).symm, List.append_nil _⟩
  obtain ⟨arrived, harrived⟩ := htallies.accepts
  have hbooks (hlength : (W.waiting w.bench.outside ++ arrived).length < 2 ^ 64) :
      ∃ passed left, W.Account id c.receiveCapacity w.bench.outside x.world.bench passed left x.taken ∧
        delivered left = x.returned := by
    obtain ⟨passed, left, haccount, hgot⟩ :=
      htallies.account _ _ _ _ _ (few_of_length harrived hlength) hempty
    rw [Nat.zero_add] at haccount
    exact ⟨passed, left, haccount, hgot⟩
  refine ⟨hx.interrupt, arrived, harrived, fun hlength => ?_, fun rounds => ?_⟩
  · obtain ⟨passed, left, haccount, hgot⟩ := hbooks hlength
    exact ⟨passed, left, haccount.accounted harrived hbuffer' hlive' hgot⟩
  · obtain ⟨done, new, hserves⟩ := serves_serve (W := W) rounds hx.holds hx.sound
    refine ⟨done, new, hserves, ?_, fun hlength => ?_⟩
    · rw [hserves.moves.ring]
      exact dropped_foldl_moved hx.sound done
    · have hbefore : (W.waiting w.bench.outside ++ arrived).length < 2 ^ 64 := by
        rw [List.length_append] at hlength
        omega
      obtain ⟨passed, left, haccount, -⟩ := hbooks hbefore
      have haccepted := hserves.moves.accepted
      rw [harrived, List.append_assoc] at haccepted
      have hfew := few_of_length haccepted (by rwa [← List.append_assoc])
      rw [hserves.moves.ring]
      exact haccount.audit.bytes_moveAll done (haccount.length_lt hserves.moves hfew)

end Window

/-! ## A run over a simulated block -/

namespace Simulated

def spillConfig : Config where
  rx := some { number := 1 }
  receiveCapacity := 2

def spillWorld : World Simulated :=
  (Uart.create (driver registers place) spillConfig lossyWorld).2

/-- The line, after its block received four characters, twice as many as the buffer has room for. -/
def spillReader : Reader Simulated where
  uart := Uart.ofConfig spillConfig (some ⟨0⟩)
  world :=
    { spillWorld with
      bench :=
        { spillWorld.bench with
          outside := (((spillWorld.bench.outside.receive 1).receive 2).receive 3).receive 4 } }

/-- A read for one character, after which the other one is discarded and the count of dropped characters
is taken. -/
def spillRun : Option (Reader Simulated) :=
  ((spillReader.call? (driver registers place) (platform 10) (.read 1)).bind
    fun x => x.call? (driver registers place) (platform 10) .discardInput).bind
    fun x => x.call? (driver registers place) (platform 10) .takeDropped

theorem spill_create : Uart.create (driver registers place) spillConfig lossyWorld =
    (.ok spillReader.uart, spillWorld) := Prod.ext (by rfl) rfl

theorem suitsUnheld_platform {id : BufferId} (patience : Nat) :
    window.SuitsUnheld id (platform patience) where
  ticks b _ := .refl b
  background b _ := meanwhile_serve b
  isInterrupted b _ := .refl b

theorem receptionUnheld_spillRun {x : Reader Simulated} (h : spillRun = some x) :
    window.ReceptionUnheld ⟨0⟩ (platform 10) spillReader.uart spillWorld x := by
  obtain ⟨z, hdiscard, htake⟩ := Option.bind_eq_some_iff.mp h
  obtain ⟨y, hread, hdiscard⟩ := Option.bind_eq_some_iff.mp hdiscard
  have hbegun : window.ReceptionUnheld ⟨0⟩ (platform 10) spillReader.uart spillWorld spillReader := by
    refine .meanwhile .start ?_
    exact ((((Window.Meanwhile.refl _).quiet (quiet_receive 1 _)).quiet (quiet_receive 2 _)).quiet
      (quiet_receive 3 _)).quiet (quiet_receive 4 _)
  exact ((hbegun.call (.inl rfl) hread).call (.inr (.inl rfl)) hdiscard).call (.inl rfl) htake

end Simulated

namespace Window

theorem reception_accounted_spilled : ∃ x, Simulated.spillRun = some x ∧ x.returned = [1] ∧
    x.taken = 3 ∧ ∃ passed left,
      Simulated.window.Accounted ⟨0⟩ 2 Simulated.spillWorld x [0x801, 2, 3, 4] passed left := by
  have hsome : Simulated.spillRun.isSome = true := by decide +kernel
  obtain ⟨x, hx⟩ := Option.isSome_iff_exists.mp hsome
  have hreturned : Simulated.spillRun.map Reader.returned = some [1] := by decide +kernel
  have htaken : Simulated.spillRun.map Reader.taken = some 3 := by decide +kernel
  have haccepted : Simulated.spillRun.map
      (fun x => Simulated.window.accepted x.world.bench.outside) = some [0x801, 2, 3, 4] := by
    decide +kernel
  rw [hx] at hreturned htaken haccepted
  obtain ⟨id, hbuffer, haccounted⟩ := reception_accounted Simulated.window Simulated.spill_create rfl
    rfl (by decide)
  obtain rfl : id = ⟨0⟩ := (Option.some.inj hbuffer).symm
  obtain ⟨-, arrived, harrived, h, -⟩ := haccounted _ (Simulated.suitsUnheld_platform 10) x
    (Simulated.receptionUnheld_spillRun hx)
  have hnone : Simulated.window.accepted Simulated.spillWorld.bench.outside = [] := by decide +kernel
  rw [hnone, List.nil_append] at harrived
  obtain rfl : arrived = [0x801, 2, 3, 4] := harrived.symm.trans (Option.some.inj haccepted)
  exact ⟨x, hx, Option.some.inj hreturned, Option.some.inj htaken, h (by decide +kernel)⟩

end Window
end SerialLine.Pl011
