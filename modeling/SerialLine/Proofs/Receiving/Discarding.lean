import SerialLine.Proofs.Lines.Replies
import SerialLine.Proofs.Receiving.Levels
import SerialLine.Proofs.Receiving.Outlet
import SerialLine.Proofs.Receiving.Readiness
import SerialLine.Proofs.Reception.Simulated
import SerialLine.Proofs.Reception.Survey
/-! # Discarding what waits

* `discardFromPeripheral_eq`: characters are discarded as they are taken.
* `waiting_discardInput`: which characters are left. The peripheral of a line without a receive buffer tells
  how many are discarded.
* `Intake.Counts`, `Intake.TellsAny`: what a peripheral tells of the characters that it holds.
* `discardInput_discards`: a line is emptied if it has a buffer or its peripheral can count. One that
  tells only whether it holds any loses the oldest character.
-/
set_option autoImplicit false

namespace SerialLine.Uart

variable {σ : Type} {u : Uart} {d : Driver σ} {p : Platform σ}

/-- Characters are discarded as they are taken. -/
theorem discardFromPeripheral_eq (w : CharWidth) (n : Nat) (b : Bench σ) :
    (discardFromPeripheral d n b).2 = (takeFromPeripheral d w n b).2 := by
  induction n generalizing b with
  | zero => rfl
  | succ n ih =>
    rcases htake : d.takeWord b with ⟨word, b₁⟩
    simp only [discardFromPeripheral, takeFromPeripheral, bind, StateT.bind, htake]
    cases word with
    | none => rfl
    | some word => exact ih b₁

/-- A peripheral can count the characters that it holds. -/
def Intake.Counts (I : Intake u d p) : Prop :=
  ∀ b, (d.receivedCount b).1 = (I.held b.outside).length

/-- A peripheral tells whether it holds characters, and not how many. -/
def Intake.TellsAny (I : Intake u d p) : Prop :=
  ∀ b, (d.receivedCount b).1 = if I.held b.outside = [] then 0 else 1

/-- So does a PL011 block. -/
theorem tellsAny_survey {r : Pl011.Registers σ} {chip : Pl011.Place σ Pl011.Chip}
    {W : Pl011.Window r chip} (S : Pl011.Survey W u p) : S.intake.TellsAny := S.receivedCount_eq

section
variable (I : Intake u d p) {b : Bench σ}

/-- A peripheral that nothing comes to loses its oldest characters. -/
theorem held_discardFromPeripheral (hbuffer : u.rxBuffer = none) (n : Nat) (b : Bench σ) :
    ∃ new, I.taken (discardFromPeripheral d n b).2.outside = I.taken b.outside ++ new ∧
      (new = [] → I.held (discardFromPeripheral d n b).2.outside = (I.held b.outside).drop n) := by
  obtain ⟨out, new, -, htook⟩ := took_takeFromPeripheral (I := I) hbuffer n b
  rw [discardFromPeripheral_eq u.width n b]
  refine ⟨new, htook.gets.taken, ?_⟩
  rintro rfl
  have hready : I.Ready u b := fun id hid => by rw [hbuffer] at hid; cases hid
  have hqueue := htook.gets.waiting hready fun hsome => by rw [hbuffer] at hsome; cases hsome
  rw [Holdings.waiting, Holdings.waiting, hbuffer, List.append_nil] at hqueue
  simp only at hqueue
  rcases Nat.lt_or_ge out.length n with hlt | hge
  · have hle := (htook.drains hlt).length_le
    rw [Holdings.waiting, hbuffer] at hle
    simp only at hle
    rw [hqueue, List.length_append] at hle
    have hnone : I.held (takeFromPeripheral d u.width n b).2.outside = [] :=
      List.eq_nil_of_length_eq_zero (by omega)
    rw [hqueue, hnone, List.append_nil, List.drop_of_length_le hlt.le]
  · rw [hqueue, List.drop_left' (htook.fits.antisymm hge)]

/-- Which characters are left of those that waited, if nothing comes in meanwhile. -/
theorem waiting_discardInput (hlive : u.isShut = false) (hreceives : u.receives = true)
    (hcount : ∀ b, I.Admits u b (d.receivedCount b).2) (hb : I.Ready u b) :
    (u.discardInput d b).1 = .ok () ∧ I.Ready u (u.discardInput d b).2 ∧
      (I.taken (u.discardInput d b).2.outside = I.taken b.outside →
        I.waiting u (u.discardInput d b).2 =
          if u.rxBuffer.isSome then [] else (I.waiting u b).drop (d.receivedCount b).1) := by
  have hready := Holdings.ready_discardInput (u := u) I.resumeReceiving b hb
  cases hbuffer : u.rxBuffer with
  | some id =>
    have heq : u.discardInput d b =
        (.ok (), (d.resumeReceiving (Bench.ringDo id (fun ring => ((), ring.clear)) b).2).2) := by
      rw [discardInput, hlive, hbuffer, if_neg Bool.false_ne_true]
      rfl
    rw [heq] at hready ⊢
    refine ⟨rfl, hready, fun hsame => ?_⟩
    have hfits : I.Fits u (b.buffers.ring id).capacity b :=
      ⟨hb, fun id' hid => by rw [Option.some.inj (hbuffer.symm.trans hid)]⟩
    have hgrows := Holdings.grows_of_admits (I.resumeReceiving _) (hfits.clear hbuffer).ready
    exact hgrows.empty hsame (Holdings.waiting_clear hbuffer hfits)
  | none =>
    have heq : u.discardInput d b = (.ok (), (d.resumeReceiving (discardFromPeripheral d
        (d.receivedCount b).1 (d.receivedCount b).2).2).2) := by
      rw [discardInput, hlive, hbuffer, hreceives, if_neg Bool.false_ne_true]
      rfl
    rw [heq] at hready ⊢
    refine ⟨rfl, hready, fun hsame => ?_⟩
    have hholds (b : Bench σ) : ∀ id, u.rxBuffer = some id → b.buffers.Holds id := fun id hid => by
      rw [hbuffer] at hid
      cases hid
    obtain ⟨new, hlook⟩ := hcount b (hholds b)
    obtain ⟨new', htaken, hheld⟩ :=
      held_discardFromPeripheral I hbuffer (d.receivedCount b).1 (d.receivedCount b).2
    obtain ⟨new'', hresume⟩ := I.resumeReceiving (discardFromPeripheral d
      (d.receivedCount b).1 (d.receivedCount b).2).2 (hholds _)
    rw [hresume.taken, htaken, hlook.taken, List.append_assoc, List.append_assoc,
      List.append_right_eq_self, List.append_eq_nil_iff, List.append_eq_nil_iff] at hsame
    obtain ⟨rfl, rfl, rfl⟩ := hsame
    rw [Holdings.waiting_of_none hbuffer, Holdings.waiting_of_none hbuffer, hresume.held hbuffer,
      hheld rfl, hlook.held hbuffer, List.append_nil, List.append_nil]
    rfl

/-! ## The promise -/

/-- What is promised of a line whose input is discarded. -/
structure Discards (I : Intake u d p) (b : Bench σ) : Prop where
  answered : (u.discardInput d b).1 = .ok ()
  /-- All characters of a receive buffer are discarded. Of those that a peripheral holds, as many as it
  tells of. -/
  left : I.taken (u.discardInput d b).2.outside = I.taken b.outside →
    I.waiting u (u.discardInput d b).2 =
      if u.rxBuffer.isSome then [] else (I.waiting u b).drop (d.receivedCount b).1
  /-- So nothing waits and nothing is read if the peripheral can count the characters that it holds. -/
  emptied : (u.rxBuffer = none → I.Counts) →
    I.taken (u.discardInput d b).2.outside = I.taken b.outside →
    (u.waitingCount d (u.discardInput d b).2).1 = .ok 0 ∧
      ∀ room, u.patienceMillis = 0 → u.width.bytes ≤ room →
        I.taken (Act.final (u.read d p room) (u.discardInput d b).2).outside = I.taken b.outside →
        ∃ b', u.read d p room (u.discardInput d b).2 = .ok ⟨.error .shouldWait, []⟩ b'
  /-- One that tells only whether it holds any loses the oldest. -/
  oldest : u.rxBuffer = none → I.TellsAny →
    I.taken (u.discardInput d b).2.outside = I.taken b.outside →
    I.waiting u (u.discardInput d b).2 = (I.waiting u b).tail ∧
      (u.waitingCount d (u.discardInput d b).2).1 =
        .ok (if (I.waiting u b).length ≤ 1 then 0 else 1)

theorem discardInput_discards (hlive : u.isShut = false) (hreceives : u.receives = true)
    (hpatience : 0 < p.patience) (hcount : ∀ b, I.Admits u b (d.receivedCount b).2)
    (hb : I.Ready u b) : Discards I b := by
  obtain ⟨hanswer, hready, hleft⟩ := waiting_discardInput I hlive hreceives hcount hb
  refine ⟨hanswer, hleft, fun hcounts hsame => ?_, fun hbuffer htells hsame => ?_⟩
  · have hempty : I.waiting u (u.discardInput d b).2 = [] := by
      rw [hleft hsame]
      cases hbuffer : u.rxBuffer with
      | some id => rfl
      | none =>
        rw [hcounts hbuffer, Holdings.waiting, hbuffer]
        exact List.drop_length
    refine ⟨?_, fun room hzero hroom hcalm =>
      read_of_empty I hlive hreceives hpatience hzero hroom hready hempty (hcalm.trans hsame.symm)⟩
    rw [I.waitingCount_eq hlive hreceives fun hbuffer => hcounts hbuffer _, hempty]
    rfl
  · have htail : I.waiting u (u.discardInput d b).2 = (I.waiting u b).tail := by
      rw [hleft hsame, htells, hbuffer, Holdings.waiting_of_none hbuffer]
      cases I.held b.outside with
      | nil => rfl
      | cons word words => rfl
    refine ⟨htail, ?_⟩
    rw [waitingCount_live hlive, waiting_unbuffered hbuffer, if_pos hreceives, htells,
      ← Holdings.waiting_of_none hbuffer, htail]
    rcases I.waiting u b with _ | ⟨first, _ | ⟨second, rest⟩⟩
    · rfl
    · rfl
    · rw [if_neg (by simp), if_neg (by simp)]

end

/-! ## A block that holds two characters -/

/-- A line over a block, without a buffer and without a timeout. -/
def polledLine : Uart := { (default : Uart) with receives := true, bits := 8 }

abbrev polledDriver : Driver Pl011.Simulated :=
  Pl011.driver Pl011.Simulated.registers Pl011.Simulated.place

/-- A platform on which nothing goes on. -/
def idlePlatform : Platform Pl011.Simulated where
  ticks := pure 0
  patience := 1

def polledSurvey : Pl011.Survey Pl011.Simulated.window polledLine idlePlatform where
  taken s := (Pl011.Simulated.window.accepted s).map Pl011.wordOf
  unbuffered _ _ := rfl
  read h := by cases h
  write h := by cases h
  ticks b := (Holdings.Still.refl _ _ b b.log).admits
  isInterrupted b := (Holdings.Still.refl _ _ b b.log).admits
  background b := (Holdings.Still.refl _ _ b b.log).admits

def polledBench : Bench Pl011.Simulated where
  outside :=
    { block := { queue := [0x41, 0x42] }
      isFree := ⟨rfl, rfl, rfl⟩
      chip := { clock := Pl011.standardClock } }

theorem discardInput_discards_polled :
    polledSurvey.intake.TellsAny ∧ Discards polledSurvey.intake polledBench :=
  ⟨tellsAny_survey polledSurvey, discardInput_discards polledSurvey.intake rfl rfl Nat.zero_lt_one
    polledSurvey.admits_receivedCount (fun id hid => by cases hid)⟩

/-- The bench after the input was discarded. -/
def discardedBench : Bench Pl011.Simulated := (polledLine.discardInput polledDriver polledBench).2

/-- Of two characters in a block, the second is still there to be counted and read. -/
theorem discardInput_leaves_character :
    polledSurvey.holdings.waiting polledLine polledBench = [0x41, 0x42] ∧
      (polledLine.discardInput polledDriver polledBench).1 = .ok () ∧
      polledSurvey.taken discardedBench.outside = polledSurvey.taken polledBench.outside ∧
      (polledLine.waitingCount polledDriver discardedBench).1 = .ok 1 ∧
      Act.answer? (polledLine.read polledDriver idlePlatform 1) discardedBench =
        some ⟨.ok 1, [0x42]⟩ := by
  decide +kernel

end SerialLine.Uart
