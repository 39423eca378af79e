import SerialLine.Proofs.Receiving.Holdings
import SerialLine.Proofs.Ring.Admission
/-! # Taking what waits

A queue of received characters that nothing disturbs while a reader takes from it.

* `Scene`: a queue of characters and what else is seen of an outside. `Scene.Calm`: nothing happened to
  either.
* `Holdings.Fits`: a line is ready, and its buffer, if it has one, has a given capacity.
* `Holdings.Enters`: given characters came to the queue, which took those that found room.
* `Outlet`: what taking characters relies on. `Outlet.takes_takeWaiting`: a reader gets the oldest
  characters that fit, and nothing else happens.
-/
set_option autoImplicit false

namespace SerialLine.Uart

variable {σ ε : Type}

/-! ## What comes in -/

namespace Holdings

section
variable (H : Holdings σ) (u : Uart)

/-- A line is ready, and its receive buffer, if it has one, has `capacity` slots. -/
structure Fits (capacity : Nat) (b : Bench σ) : Prop where
  ready : H.Ready u b
  capacity_eq : ∀ id, u.rxBuffer = some id → (b.buffers.ring id).capacity = capacity

/-- Those of some characters that the queue of a line has room for. -/
def newcomers (b : Bench σ) (words : List UInt16) : List UInt16 :=
  match u.rxBuffer with
  | some id => (b.buffers.ring id).admitted words
  | none => words

/-- How many characters a queue holds of so many. A peripheral has room for any number. -/
def capped (capacity n : Nat) : Nat := if u.rxBuffer.isSome then min capacity n else n

/-- Characters came to the queue of a line. -/
structure Enters (words : List UInt16) (b b' : Bench σ) : Prop where
  held : u.rxBuffer = none → H.held b'.outside = H.held b.outside ++ words
  taken : H.taken b'.outside = H.taken b.outside ++ newcomers u b words
  ring : ∀ id, u.rxBuffer = some id → b'.buffers.ring id = ((b.buffers.ring id).pushAll words).2
  holds : ∀ id, u.rxBuffer = some id → b.buffers.Holds id → b'.buffers.Holds id

end

variable {H : Holdings σ} {u : Uart} {b b' : Bench σ} {words : List UInt16} {capacity : Nat}

theorem waiting_of_some {id : BufferId} (h : u.rxBuffer = some id) (b : Bench σ) :
    H.waiting u b = (b.buffers.ring id).contents := by rw [waiting, h]

theorem waiting_of_none (h : u.rxBuffer = none) (b : Bench σ) : H.waiting u b = H.held b.outside := by
  rw [waiting, h]

theorem fits_of_unbuffered (h : u.rxBuffer = none) (b : Bench σ) : H.Fits u capacity b := by
  constructor
  · intro id hid
    rw [h] at hid
    cases hid
  · intro id hid
    rw [h] at hid
    cases hid

theorem Still.waiting_eq (h : H.Still u b b') : H.waiting u b' = H.waiting u b := by
  cases hbuffer : u.rxBuffer with
  | none => rw [waiting_of_none hbuffer, waiting_of_none hbuffer, h.held]
  | some id => rw [waiting_of_some hbuffer, waiting_of_some hbuffer, h.ring id hbuffer]

theorem Still.fits (h : H.Still u b b') (hb : H.Fits u capacity b) : H.Fits u capacity b' := by
  refine ⟨(gets_of_arrives h.arrives).ready hb.ready, fun id hid => ?_⟩
  rw [h.ring id hid]
  exact hb.capacity_eq id hid

theorem Still.trans {b'' : Bench σ} (h : H.Still u b b') (h' : H.Still u b' b'') :
    H.Still u b b'' where
  held := h'.held.trans h.held
  taken := h'.taken.trans h.taken
  ring id hid := (h'.ring id hid).trans (h.ring id hid)
  holds id hid hholds := h'.holds id hid (h.holds id hid hholds)

theorem Enters.arrives (h : H.Enters u words b b') : H.Arrives u (newcomers u b words) b b' where
  held hbuffer := by
    rw [h.held hbuffer, newcomers, hbuffer]
  taken := h.taken
  ring id hid := by
    rw [h.ring id hid, newcomers, hid]
    exact RingBuffer.fed_admitted _ words
  holds := h.holds

theorem Enters.fits (h : H.Enters u words b b') (hb : H.Fits u capacity b) :
    H.Fits u capacity b' := by
  refine ⟨(gets_of_arrives h.arrives).ready hb.ready, fun id hid => ?_⟩
  rw [h.ring id hid, (RingBuffer.fed_admitted _ words).capacity_eq]
  exact hb.capacity_eq id hid

/-- No more wait than find room, and no fewer. -/
theorem Enters.length_waiting (h : H.Enters u words b b') (hb : H.Fits u capacity b) :
    (H.waiting u b').length = capped u capacity ((H.waiting u b).length + words.length) := by
  unfold capped
  cases hbuffer : u.rxBuffer with
  | none =>
    rw [waiting_of_none hbuffer, waiting_of_none hbuffer, h.held hbuffer, List.length_append]
    rfl
  | some id =>
    have hsound := (hb.ready id hbuffer).2.sound
    rw [waiting_of_some hbuffer, waiting_of_some hbuffer, h.ring id hbuffer,
      RingBuffer.length_contents, RingBuffer.length_contents, RingBuffer.available_pushAll hsound,
      hb.capacity_eq id hbuffer]
    rfl

/-- Where there is room for all of some characters, the queue of a line keeps what their bytes carry. -/
theorem newcomers_of_room {id : BufferId} (hid : u.rxBuffer = some id) (hb : H.Fits u capacity b)
    (hroom : (H.waiting u b).length + words.length ≤ capacity) :
    newcomers u b words = words.map u.width.clip := by
  obtain ⟨-, hlife⟩ := hb.ready id hid
  rw [waiting_of_some hid, RingBuffer.length_contents] at hroom
  have hspace : words.length ≤ (b.buffers.ring id).space := by
    rw [RingBuffer.space, hb.capacity_eq id hid]
    omega
  rw [newcomers, hid]
  dsimp only
  rw [RingBuffer.admitted_eq_take hlife.sound, List.take_of_length_le hspace, hlife.width_eq]

/-- A reader took so many of the waiting characters, and nothing came in. -/
structure Takes (H : Holdings σ) (u : Uart) (n : Nat) (b b' : Bench σ) : Prop where
  waiting : H.waiting u b' = (H.waiting u b).drop n
  taken : H.taken b'.outside = H.taken b.outside
  fits : ∀ capacity, H.Fits u capacity b → H.Fits u capacity b'

theorem Still.takes (h : H.Still u b b') : H.Takes u 0 b b' where
  waiting := h.waiting_eq
  taken := h.taken
  fits _ hb := h.fits hb

theorem Takes.trans {m n : Nat} {b'' : Bench σ} (h : H.Takes u m b b') (h' : H.Takes u n b' b'') :
    H.Takes u (m + n) b b'' where
  waiting := by rw [h'.waiting, h.waiting, List.drop_drop]
  taken := h'.taken.trans h.taken
  fits capacity hb := h'.fits capacity (h.fits capacity hb)

theorem takes_pop {id : BufferId} (hbuffer : u.rxBuffer = some id) (room : Nat)
    (hb : H.Fits u capacity b) :
    H.Takes u (room / u.width.bytes) b (Bench.pop id room b).2 := by
  obtain ⟨hholds, hlife⟩ := hb.ready id hbuffer
  have hring : (Bench.pop id room b).2.buffers.ring id = ((b.buffers.ring id).pop room).2 :=
    RxBuffers.ring_set_self hholds _
  refine ⟨?_, rfl, fun capacity hb => ⟨(gets_pop hbuffer room hb.ready).2.ready hb.ready, ?_⟩⟩
  · rw [waiting_of_some hbuffer, waiting_of_some hbuffer, hring, RingBuffer.contents_pop,
      hlife.width_eq]
  · intro id' hbuffer'
    obtain rfl := Option.some.inj (hbuffer.symm.trans hbuffer')
    rw [hring]
    exact hb.capacity_eq id hbuffer

theorem ring_clear {id : BufferId} (hbuffer : u.rxBuffer = some id) (hb : H.Fits u capacity b) :
    (Bench.ringDo id (fun ring => ((), ring.clear)) b).2.buffers.ring id =
      (b.buffers.ring id).clear := RxBuffers.ring_set_self (hb.ready id hbuffer).1 _

theorem waiting_clear {id : BufferId} (hbuffer : u.rxBuffer = some id) (hb : H.Fits u capacity b) :
    H.waiting u (Bench.ringDo id (fun ring => ((), ring.clear)) b).2 = [] := by
  rw [waiting_of_some hbuffer, ring_clear hbuffer hb, RingBuffer.contents_clear]

theorem Fits.clear {id : BufferId} (hb : H.Fits u capacity b) (hbuffer : u.rxBuffer = some id) :
    H.Fits u capacity (Bench.ringDo id (fun ring => ((), ring.clear)) b).2 := by
  have hring := ring_clear hbuffer hb
  obtain ⟨hholds, hlife⟩ := hb.ready id hbuffer
  constructor
  · intro id' hid
    obtain rfl := Option.some.inj (hbuffer.symm.trans hid)
    rw [hring]
    exact ⟨hholds.set _, hlife.cleared⟩
  · intro id' hid
    obtain rfl := Option.some.inj (hbuffer.symm.trans hid)
    rw [hring]
    exact hb.capacity_eq id hbuffer

end Holdings

/-! ## Scenes -/

/-- A queue of received characters and what else is seen of an outside. -/
structure Scene (σ ε : Type) extends Holdings σ where
  view : σ → ε

namespace Scene

section
variable (X : Scene σ ε)

/-- Nothing happened. -/
structure Calm (u : Uart) (b b' : Bench σ) : Prop extends Holdings.Still X.toHoldings u b b' where
  view : X.view b'.outside = X.view b.outside

/-- A peripheral gave out the oldest character that it held, if it held any. -/
structure Pops (b : Bench σ) (word : Option UInt16) (b' : Bench σ) : Prop where
  word_eq : word = (X.held b.outside).head?
  held : X.held b'.outside = (X.held b.outside).tail
  taken : X.taken b'.outside = X.taken b.outside
  view : X.view b'.outside = X.view b.outside

/-- A reader took so many of the waiting characters, and nothing else happened. -/
structure Takes (u : Uart) (n : Nat) (b b' : Bench σ) : Prop
    extends Holdings.Takes X.toHoldings u n b b' where
  view : X.view b'.outside = X.view b.outside

end

variable {X : Scene σ ε} {u : Uart} {b b' b'' : Bench σ} {m n : Nat}

theorem Calm.refl (X : Scene σ ε) (u : Uart) (b : Bench σ) (log : Log) :
    X.Calm u b { b with log := log } := ⟨.refl _ u b log, rfl⟩

theorem Calm.takes (h : X.Calm u b b') : X.Takes u 0 b b' := ⟨h.toStill.takes, h.view⟩

theorem Takes.trans (h : X.Takes u m b b') (h' : X.Takes u n b' b'') : X.Takes u (m + n) b b'' :=
  ⟨h.toTakes.trans h'.toTakes, h'.view.trans h.view⟩

/-- From an empty queue any number of characters can be taken. -/
theorem Takes.ofEmpty (h : X.Takes u m b b') (hempty : X.waiting u b = []) (n : Nat) :
    X.Takes u n b b' := by
  have hwaiting := h.waiting
  rw [hempty, List.drop_nil] at hwaiting
  refine ⟨⟨?_, h.taken, h.fits⟩, h.view⟩
  rw [hwaiting, hempty, List.drop_nil]

end Scene

/-- What taking characters out of the queue of a line relies on. -/
structure Outlet (ε : Type) (u : Uart) (d : Driver σ) extends Scene σ ε where
  resumeReceiving : ∀ b, toScene.Calm u b (d.resumeReceiving b).2
  takeWord : u.rxBuffer = none → ∀ b, toScene.Pops b (d.takeWord b).1 (d.takeWord b).2

namespace Outlet

variable {u : Uart} {d : Driver σ} {capacity : Nat} {b : Bench σ}

/-- A peripheral tells how many characters it holds. -/
structure Counts (O : Outlet ε u d) : Prop where
  count : ∀ b, (d.receivedCount b).1 = (O.held b.outside).length
  calm : ∀ b, O.Calm u b (d.receivedCount b).2

theorem takes_takeWord (O : Outlet ε u d) (hbuffer : u.rxBuffer = none) (b : Bench σ) :
    O.Takes u 1 b (d.takeWord b).2 := by
  have hpops := O.takeWord hbuffer b
  refine ⟨⟨?_, hpops.taken, fun _ _ => Holdings.fits_of_unbuffered hbuffer _⟩, hpops.view⟩
  rw [Holdings.waiting_of_none hbuffer, Holdings.waiting_of_none hbuffer, hpops.held,
    List.drop_one]

theorem takes_takeFromPeripheral (O : Outlet ε u d) (hbuffer : u.rxBuffer = none) (n : Nat)
    (b : Bench σ) :
    (takeFromPeripheral d u.width n b).1 = u.width.encode ((O.waiting u b).take n) ∧
      O.Takes u n b (takeFromPeripheral d u.width n b).2 := by
  induction n generalizing b with
  | zero => exact ⟨rfl, (Scene.Calm.refl O.toScene u b b.log).takes⟩
  | succ n ih =>
    have hword := (O.takeWord hbuffer b).word_eq
    have htakes := O.takes_takeWord hbuffer b
    rw [← Holdings.waiting_of_none hbuffer b] at hword
    rcases htake : d.takeWord b with ⟨word, b₁⟩
    rw [htake] at hword htakes
    simp only at hword
    cases word with
    | none =>
      have heq : takeFromPeripheral d u.width (n + 1) b = ([], b₁) := by
        simp only [takeFromPeripheral, bind, StateT.bind, htake]
        rfl
      have hempty : O.waiting u b = [] := List.head?_eq_none_iff.mp hword.symm
      rw [heq]
      refine ⟨?_, htakes.ofEmpty hempty _⟩
      rw [hempty, List.take_nil]
      rfl
    | some word =>
      have heq : takeFromPeripheral d u.width (n + 1) b =
          (u.width.encodeWord word ++ (takeFromPeripheral d u.width n b₁).1,
            (takeFromPeripheral d u.width n b₁).2) := by
        simp only [takeFromPeripheral, bind, StateT.bind, htake]
        rfl
      obtain ⟨rest, hsome⟩ : ∃ rest, O.waiting u b = word :: rest := by
        cases hwaiting : O.waiting u b with
        | nil =>
          rw [hwaiting] at hword
          cases hword
        | cons first rest =>
          rw [hwaiting] at hword
          rw [Option.some.inj hword]
          exact ⟨rest, rfl⟩
      obtain ⟨hbytes, hrest⟩ := ih b₁
      have hall := htakes.trans hrest
      rw [Nat.add_comm] at hall
      rw [heq]
      refine ⟨?_, hall⟩
      rw [hbytes, htakes.waiting, hsome]
      rfl

theorem takes_discardFromPeripheral (O : Outlet ε u d) (hbuffer : u.rxBuffer = none) (n : Nat)
    (b : Bench σ) : O.Takes u n b (discardFromPeripheral d n b).2 := by
  induction n generalizing b with
  | zero => exact (Scene.Calm.refl O.toScene u b b.log).takes
  | succ n ih =>
    have hword := (O.takeWord hbuffer b).word_eq
    have htakes := O.takes_takeWord hbuffer b
    rw [← Holdings.waiting_of_none hbuffer b] at hword
    rcases htake : d.takeWord b with ⟨word, b₁⟩
    rw [htake] at hword htakes
    simp only at hword
    cases word with
    | none =>
      have heq : discardFromPeripheral d (n + 1) b = ((), b₁) := by
        simp only [discardFromPeripheral, bind, StateT.bind, htake]
        rfl
      rw [heq]
      exact htakes.ofEmpty (List.head?_eq_none_iff.mp hword.symm) _
    | some word =>
      have heq : discardFromPeripheral d (n + 1) b = discardFromPeripheral d n b₁ := by
        simp only [discardFromPeripheral, bind, StateT.bind, htake]
      have hall := htakes.trans (ih b₁)
      rw [Nat.add_comm] at hall
      rw [heq]
      exact hall

/-- Taking what waits gives the oldest characters that fit. -/
theorem takes_takeWaiting (O : Outlet ε u d) (room : Nat) (hb : O.Fits u capacity b) :
    (u.takeWaiting d room b).1 = u.width.encode ((O.waiting u b).take (room / u.width.bytes)) ∧
      O.Takes u (room / u.width.bytes) b (u.takeWaiting d room b).2 := by
  cases hbuffer : u.rxBuffer with
  | none =>
    have heq : u.takeWaiting d room b = takeFromPeripheral d u.width (room / u.width.bytes) b := by
      rw [takeWaiting, hbuffer]
    rw [heq]
    exact O.takes_takeFromPeripheral hbuffer _ b
  | some id =>
    have hbytes := (Holdings.gets_pop hbuffer room hb.ready).1
    have htakes : O.Takes u (room / u.width.bytes) b (Bench.pop id room b).2 :=
      ⟨Holdings.takes_pop hbuffer room hb, rfl⟩
    rcases hpop : Bench.pop id room b with ⟨bytes, b₁⟩
    rw [hpop] at hbytes htakes
    by_cases hnone : bytes.isEmpty = true
    · have heq : u.takeWaiting d room b = (bytes, b₁) := by
        simp only [takeWaiting, hbuffer, bind, StateT.bind, hpop, hnone]
        rfl
      rw [heq]
      exact ⟨hbytes, htakes⟩
    · have heq : u.takeWaiting d room b = (bytes, (d.resumeReceiving b₁).2) := by
        simp only [takeWaiting, hbuffer, bind, StateT.bind, hpop, hnone]
        rfl
      rw [heq]
      exact ⟨hbytes, htakes.trans (O.resumeReceiving b₁).takes⟩

end Outlet
end SerialLine.Uart
