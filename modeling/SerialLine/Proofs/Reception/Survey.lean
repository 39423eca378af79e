import SerialLine.Proofs.Receiving.Intake
import SerialLine.Proofs.Reception.Window
/-! # The queue of a line over a PL011 block

* `Survey`: what is seen of the characters of a line. Without a receive buffer they are the words of the
  block.
* `Survey.intake`: so the characters of a line over a block come in, and are taken, in order.
* `Survey.receivedCount_eq`: a block tells whether it holds characters, and not how many.
-/
set_option autoImplicit false

namespace SerialLine.Pl011

variable {σ α : Type} {r : Registers σ} {chip : Place σ Chip}

/-- The character in a data word, as the driver hands it over. -/
def wordOf (word : UInt32) : UInt16 := (word &&& drData).toUInt16

/-- The characters that wait in a block, and all that the queue of a line is known to have taken. -/
def Window.holdings (W : Window r chip) (taken : σ → List UInt16) : Uart.Holdings σ where
  held s := (W.waiting s).map wordOf
  taken := taken

/-- What is seen of the characters of a line over a block. -/
structure Survey (W : Window r chip) (u : Uart) (p : Platform σ) where
  taken : σ → List UInt16
  /-- Without a receive buffer, the queue of the line is that of the block. -/
  unbuffered : u.rxBuffer = none → ∀ s, taken s = (W.accepted s).map wordOf
  /-- A receive buffer takes nothing while a register is read or written. -/
  read : u.rxBuffer.isSome = true → ∀ offset s, taken (r.read offset s).2 = taken s
  write : u.rxBuffer.isSome = true → ∀ offset word s, taken (r.write offset word s).2 = taken s
  ticks : ∀ b, (W.holdings taken).Admits u b (p.ticks b).2
  isInterrupted : ∀ b, (W.holdings taken).Admits u b (p.isInterrupted b).2
  background : ∀ b, (W.holdings taken).Admits u b (p.background b).2

namespace Survey

variable {W : Window r chip} {u : Uart} {p : Platform σ} (S : Survey W u p)

abbrev holdings : Uart.Holdings σ := W.holdings S.taken

/-- Words may come into a block at every access of its registers. -/
theorem admits_outsideDo {f : StateM σ α} (hf : W.Leaves f)
    (htaken : u.rxBuffer.isSome = true → ∀ s, S.taken (f s).2 = S.taken s) (b : Bench σ) :
    S.holdings.Admits u b (Bench.outsideDo f b).2 := by
  intro _
  cases hbuffer : u.rxBuffer with
  | none =>
    obtain ⟨new, hwaiting, haccepted⟩ := (hf b.outside).2
    refine ⟨new.map wordOf, fun _ => ?_, ?_, fun id hid => ?_, fun _ _ h => h⟩
    · show (W.waiting (f b.outside).2).map wordOf = _
      rw [hwaiting, List.map_append]
      rfl
    · show S.taken (f b.outside).2 = S.taken b.outside ++ _
      rw [S.unbuffered hbuffer, S.unbuffered hbuffer, haccepted, List.map_append]
    · rw [hbuffer] at hid
      cases hid
  | some id =>
    refine ⟨[], fun hnone => ?_, ?_, fun _ _ => .refl, fun _ _ h => h⟩
    · rw [hbuffer] at hnone
      cases hnone
    · rw [List.append_nil]
      exact htaken (by rw [hbuffer]; rfl) b.outside

theorem admits_resumeReceiving (b : Bench σ) :
    S.holdings.Admits u b (resumeReceiving r chip b).2 := by
  by_cases hinstalled : (chip.get b.outside).interrupt.isSome = true
  · have heq : resumeReceiving r chip b = Bench.outsideDo (r.setBits imsc intData) b := by
      show (if (chip.get b.outside).interrupt.isSome = true then
        Bench.outsideDo (r.setBits imsc intData) else pure ()) b = _
      rw [if_pos hinstalled]
    rw [heq]
    refine S.admits_outsideDo (W.leaves_setBits_imsc _) (fun hsome s => ?_) b
    exact (S.write hsome _ _ _).trans (S.read hsome _ s)
  · have heq : resumeReceiving r chip b = ((), b) := by
      show (if (chip.get b.outside).interrupt.isSome = true then
        Bench.outsideDo (r.setBits imsc intData) else pure ()) b = _
      rw [if_neg hinstalled]
      rfl
    rw [heq]
    exact (Uart.Holdings.Still.refl _ u b b.log).admits

theorem admits_receivedCount (b : Bench σ) :
    S.holdings.Admits u b ((driver r chip).receivedCount b).2 :=
  S.admits_outsideDo (Window.leaves_read (by decide)) (fun hsome s => S.read hsome fr s) b

/-- A block tells whether it holds characters, and not how many. -/
theorem receivedCount_eq (b : Bench σ) :
    ((driver r chip).receivedCount b).1 = if S.holdings.held b.outside = [] then 0 else 1 := by
  have hcount : ((driver r chip).receivedCount b).1 =
      if (r.read fr b.outside).1 &&& frRxEmpty = 0 then 1 else 0 := by
    show (if decide ((r.read fr b.outside).1 &&& frRxEmpty = 0) = true then 1 else 0) = _
    simp only [decide_eq_true_eq]
  have hheld : S.holdings.held b.outside = [] ↔ ¬ (r.read fr b.outside).1 &&& frRxEmpty = 0 := by
    rw [W.read_flags, not_not]
    exact List.map_eq_nil_iff
  rw [hcount]
  by_cases hempty : (r.read fr b.outside).1 &&& frRxEmpty = 0
  · rw [if_pos hempty, if_neg (by rw [hheld, not_not]; exact hempty)]
  · rw [if_neg hempty, if_pos (hheld.mpr hempty)]

/-- The oldest word of a block is taken, if its flags tell of one. -/
theorem takeWord_gives (hbuffer : u.rxBuffer = none) (b : Bench σ) :
    (∃ new, S.taken (takeWord r b).2.outside = S.taken b.outside ++ new ∧
      S.holdings.held b.outside ++ new =
        (takeWord r b).1.toList ++ S.holdings.held (takeWord r b).2.outside) ∧
    ((takeWord r b).1 = none → S.holdings.held b.outside = []) := by
  obtain ⟨new, hwaiting, haccepted⟩ := W.read_other fr b.outside (by decide)
  have hflags := W.read_flags b.outside
  have hdata := W.read_data (r.read fr b.outside).2
  rcases hread : r.read fr b.outside with ⟨flags, s₁⟩
  rcases hread' : r.read dr s₁ with ⟨first, s₂⟩
  simp only [hread, hread'] at hwaiting haccepted hflags hdata
  rw [S.unbuffered hbuffer, S.unbuffered hbuffer]
  show (∃ new, (W.accepted _).map wordOf = (W.accepted _).map wordOf ++ new ∧
    (W.waiting _).map wordOf ++ new = _ ++ (W.waiting _).map wordOf) ∧
    (_ → (W.waiting _).map wordOf = [])
  have hlook : hasReceived r b = (decide (flags &&& frRxEmpty = 0), { b with outside := s₁ }) := by
    simp only [hasReceived, bind, StateT.bind, Bench.outsideDo, hread]
    rfl
  by_cases hflag : flags &&& frRxEmpty = 0
  · obtain ⟨word, rest, hsome⟩ := List.exists_cons_of_ne_nil (hflags.mp hflag)
    rw [hsome, List.cons_append] at hwaiting
    obtain ⟨rfl, new', hwaiting', haccepted'⟩ := hdata _ _ hwaiting
    have heq : takeWord r b = (some (wordOf first), { b with outside := s₂ }) := by
      rw [decide_eq_true hflag] at hlook
      simp only [takeWord, bind, StateT.bind, hlook, if_true, Bench.outsideDo, hread']
      rfl
    rw [heq]
    refine ⟨⟨(new ++ new').map wordOf, ?_, ?_⟩, fun hnone => by cases hnone⟩
    · rw [haccepted', haccepted, List.append_assoc, List.map_append]
    · rw [hwaiting', hsome]
      simp only [List.map_cons, List.map_append, Option.toList_some, List.cons_append, List.nil_append,
        List.append_assoc]
  · have hempty : W.waiting b.outside = [] := by
      by_contra hsome
      exact hflag (hflags.mpr hsome)
    have heq : takeWord r b = (none, { b with outside := s₁ }) := by
      rw [decide_eq_false hflag] at hlook
      simp only [takeWord, bind, StateT.bind, hlook, Bool.false_eq_true, if_false]
      rfl
    rw [heq]
    refine ⟨⟨new.map wordOf, ?_, ?_⟩, fun _ => by rw [hempty]; rfl⟩
    · rw [haccepted, List.map_append]
    · rw [hwaiting, hempty]
      rfl

/-- The characters of a line over a block come in and are taken in order. -/
def intake : Uart.Intake u (driver r chip) p where
  toHoldings := S.holdings
  ticks := S.ticks
  isInterrupted := S.isInterrupted
  background := S.background
  resumeReceiving := S.admits_resumeReceiving
  takeWord hbuffer b := (S.takeWord_gives hbuffer b).1
  takeWord_none hbuffer b := (S.takeWord_gives hbuffer b).2

end Survey
end SerialLine.Pl011
