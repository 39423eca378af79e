import SerialLine.Proofs.Registers.Rates
import SerialLine.Proofs.Sending.Draining
/-! # The direction output of a block

A line with a direction output over a PL011 block whose control register reads back what was written.
The output is one bit of that register: it is high while the bit is clear.

* `output`: the level, from the control word. `word_setDirection`: turning changes that bit alone.
* `Untouched`: nothing was sent, and the control word stayed what it was all along. `untouched_rule`: all
  that a line does but to write and to shut down leaves it untouched, and so does serving the interrupt.
* `Stays`: the output stayed at one level, if it was there. `stays_rule`: so it does while a line sends.
* `write_turns`: a write sends at one level only, and turns back when it comes to its end.
-/
set_option autoImplicit false

namespace SerialLine

variable {σ α : Type}

/-- A relation between what is outside of two benches. -/
def Outside (R : σ → σ → Prop) (b b' : Bench σ) : Prop := R b.outside b'.outside

theorem onward_outside {R : σ → σ → Prop} (hrefl : ∀ s, R s s)
    (htrans : ∀ {s s' s''}, R s s' → R s' s'' → R s s'') : Onward (Outside R) where
  refl b := hrefl b.outside
  trans h h' := htrans h h'
  log b _ := hrefl b.outside

theorem obeys_outsideDo {R : σ → σ → Prop} {f : StateM σ α} (h : ∀ s, R s (f s).2) :
    Obeys (Outside R) (Bench.outsideDo f) := fun b => h b.outside

/-! ## A write between two turns -/

namespace Uart

variable {u : Uart} {d : Driver σ} {p : Platform σ} {data : List UInt8}

/-- What a write on a line with a direction output does between turning it and turning it back. -/
def transmission (u : Uart) (d : Driver σ) (p : Platform σ) (data : List UInt8) :
    Act (Bench σ) (Except Error Nat × Except Error Bool) := do
  let deadline ← Deadline.begin p u.patienceMillis
  let result ← u.sendWords d p (u.width.decode data) deadline 0
  return (result, ← awaitIdle d p p.waitRound none p.patience)

theorem write_directed (h : u.Transmits data) (hdirection : u.hasDirection = true) :
    u.write d p data = (do
      d.setDirection (!u.directionInverted)
      let sent ← u.transmission d p data
      d.setDirection u.directionInverted
      return drainedAnswer sent.1 sent.2) := by
  rw [write, h.live, h.sends, if_neg (by simp), if_neg (by simp), if_neg (by simp [h.whole]),
    if_neg (by simp [h.nonempty]), faceSending, faceReceiving, hdirection]
  simp only [transmission, bind_assoc, pure_bind, if_true, Bool.not_true, Bool.false_eq_true, if_false]
  refine bind_congr fun _ => bind_congr fun deadline => bind_congr fun result =>
    bind_congr fun drained => bind_congr fun _ => ?_
  cases result with
  | error e => rfl
  | ok n =>
    cases drained with
    | ok isIdle => rfl
    | error e => cases e <;> rfl

section
variable {b b' : Bench σ} (h : u.Transmits data) (hdirection : u.hasDirection = true)
include h hdirection

theorem write_unsent {e : Halt}
    (hend : u.transmission d p data (d.setDirection (!u.directionInverted) b).2 = .error e b') :
    u.write d p data b = .error e b' := by
  have hturned : (liftM (d.setDirection (!u.directionInverted)) : Act (Bench σ) Unit) b =
      .ok () (d.setDirection (!u.directionInverted) b).2 := rfl
  rw [write_directed h hdirection, Act.bind_of_ok hturned, Act.bind_of_error hend]

theorem write_sent {sent : Except Error Nat × Except Error Bool}
    (hend : u.transmission d p data (d.setDirection (!u.directionInverted) b).2 = .ok sent b') :
    u.write d p data b =
      .ok (drainedAnswer sent.1 sent.2) (d.setDirection u.directionInverted b').2 := by
  have hturned : (liftM (d.setDirection (!u.directionInverted)) : Act (Bench σ) Unit) b =
      .ok () (d.setDirection (!u.directionInverted) b).2 := rfl
  rw [write_directed h hdirection, Act.bind_of_ok hturned, Act.bind_of_ok hend]
  rfl

end

theorem Rule.transmission {R : Bench σ → Bench σ → Prop} (h : u.Rule R d p)
    (hsend : ∀ word, Obeys R (d.sendWord word)) (data : List UInt8) :
    Act.Obeys R (u.transmission d p data) := by
  refine h.liftBind (h.begin _) fun deadline => ?_
  refine h.actBind (h.sendWords hsend _ _ _) fun result => ?_
  exact h.actBind (h.awaitIdle h.waitRound _ _) fun drained => h.actPure _

end Uart

namespace Pl011

variable {r : Registers σ} {chip : Place σ Chip}

/-! ## Levels -/

theorem or_and_not (word bits : UInt32) : (word ||| bits) &&& ~~~bits = word &&& ~~~bits := by
  rw [← UInt32.toBitVec_inj, UInt32.toBitVec_and, UInt32.toBitVec_and, UInt32.toBitVec_or,
    UInt32.toBitVec_not]
  ext i hi
  simp only [BitVec.getElem_and, BitVec.getElem_or, BitVec.getElem_not]
  cases word.toBitVec[i] <;> cases bits.toBitVec[i] <;> rfl

namespace RegisterFile

variable (F : RegisterFile r chip [cr])

/-- Whether the direction output is high. -/
def output (s : σ) : Bool := F.word cr s &&& crOut1 = 0

theorem output_of_word {s s' : σ} (h : F.word cr s' = F.word cr s) : F.output s' = F.output s := by
  unfold output
  rw [h]

theorem word_setDirection (high : Bool) (b : Bench σ) :
    F.word cr (setDirection r high b).2.outside =
      if high then F.word cr b.outside &&& ~~~crOut1 else F.word cr b.outside ||| crOut1 := by
  cases high with
  | true => exact F.word_clearBits (by decide) _ _
  | false => exact F.word_setBits (by decide) _ _

theorem output_setDirection (high : Bool) (b : Bench σ) :
    F.output (setDirection r high b).2.outside = high := by
  unfold output
  rw [F.word_setDirection]
  cases high with
  | true => simp [UInt32.and_assoc]
  | false =>
    have hset : (F.word cr b.outside ||| crOut1) &&& crOut1 = crOut1 := passes_or_right (by decide) _
    rw [if_neg Bool.false_ne_true, hset]
    decide

/-- Turning the line leaves every other bit of the control register. -/
theorem other_setDirection (high : Bool) (b : Bench σ) :
    F.word cr (setDirection r high b).2.outside &&& ~~~crOut1 = F.word cr b.outside &&& ~~~crOut1 := by
  rw [F.word_setDirection]
  cases high with
  | true => simp [UInt32.and_assoc]
  | false => exact or_and_not _ _

/-! ## What leaves the output alone -/

/-- Between two states nothing was sent, and the control word was the same all along. -/
structure Untouched (s s' : Noted σ) : Prop where
  word : F.word cr s'.inner = F.word cr s.inner
  writes : ∃ new, s'.writes = s.writes ++ new ∧
    ∀ e ∈ new, e.offset ≠ dr ∧ F.word cr e.before = F.word cr s.inner

variable {F} {s s' s'' : Noted σ}

theorem Untouched.silent (hword : F.word cr s'.inner = F.word cr s.inner) (hwrites : s'.writes = s.writes) :
    F.Untouched s s' := ⟨hword, [], hwrites.trans (List.append_nil _).symm, nofun⟩

theorem Untouched.refl (s : Noted σ) : F.Untouched s s := .silent rfl rfl

theorem Untouched.trans (h : F.Untouched s s') (h' : F.Untouched s' s'') : F.Untouched s s'' := by
  obtain ⟨hword, new, hnew, hall⟩ := h
  obtain ⟨hword', new', hnew', hall'⟩ := h'
  refine ⟨hword'.trans hword, new ++ new', by rw [hnew', hnew, List.append_assoc], fun e he => ?_⟩
  rcases List.mem_append.mp he with he | he
  · exact hall e he
  · exact ⟨(hall' e he).1, (hall' e he).2.trans hword⟩

theorem onward_untouched (F : RegisterFile r chip [cr]) : Onward (Outside F.Untouched) :=
  onward_outside .refl .trans

theorem untouched_read (offset : Nat) (s : Noted σ) : F.Untouched s (r.noted.read offset s).2 :=
  .silent (F.word_read _ _ _ (by decide)) rfl

/-- Writes to registers other than the data register and the control register. -/
theorem untouched_write {offset : Nat} (hoffset : offset ∈ [ibrd, fbrd, lcrh, imsc, icr]) (value : UInt32)
    (s : Noted σ) : F.Untouched s (r.noted.write offset value s).2 := by
  have hother : offset ∈ offsets ∧ offset ≠ cr ∧ offset ≠ dr := by
    revert offset
    decide
  obtain ⟨hrange, hcontrol, hdata⟩ := hother
  refine ⟨F.word_write_other _ _ _ _ (by decide) hrange hcontrol, _, rfl, fun e he => ?_⟩
  rw [List.mem_singleton.mp he]
  exact ⟨hdata, rfl⟩

theorem untouched_set (c : Chip) (s : Noted σ) : F.Untouched s (chip.noted.set c s) :=
  .silent (F.word_set _ _ _ (by decide)) rfl

theorem untouched_setBits (bits : UInt32) (s : Noted σ) :
    F.Untouched s (r.noted.setBits imsc bits s).2 :=
  (untouched_read _ _).trans (untouched_write (by decide) _ _)

theorem untouched_clearBits (bits : UInt32) (s : Noted σ) :
    F.Untouched s (r.noted.clearBits imsc bits s).2 :=
  (untouched_read _ _).trans (untouched_write (by decide) _ _)

theorem untouched_ringDo (id : BufferId) (f : RingBuffer → α × RingBuffer) :
    Obeys (Outside F.Untouched) (Bench.ringDo id f) := fun b => .refl b.outside

/-! ### The driver -/

theorem untouched_update (f : Chip → Chip) : Obeys (Outside F.Untouched) (update chip.noted f) :=
  obeys_outsideDo fun s => untouched_set _ s

theorem untouched_outsideRead (offset : Nat) :
    Obeys (Outside F.Untouched) (Bench.outsideDo (r.noted.read offset)) :=
  obeys_outsideDo (untouched_read offset)

theorem untouched_setBaudrate (rate : UInt32) :
    Obeys (Outside F.Untouched) (setBaudrate r.noted chip.noted rate) := by
  intro b
  rcases setBaudrate_cases r.noted chip.noted rate b with
    ⟨e, -, hset⟩ | ⟨divisor, -, hset⟩
  · rw [hset]
    exact .refl _
  · rw [hset]
    exact (((untouched_write (by decide) _ _).trans (untouched_write (by decide) _ _)).trans
      (untouched_read _ _)).trans (untouched_write (by decide) _ _)

theorem untouched_startReceiving (id : BufferId) :
    Obeys (Outside F.Untouched) (startReceiving r.noted chip.noted id) := by
  refine (onward_untouched F).bind (untouched_update _) fun _ => (onward_untouched F).bind ?_ fun _ =>
    (onward_untouched F).pure _
  exact obeys_outsideDo fun s => (untouched_write (by decide) _ s).trans (untouched_setBits _ _)

theorem untouched_stopReceiving : Obeys (Outside F.Untouched) (stopReceiving r.noted chip.noted) :=
  (onward_untouched F).bind (obeys_outsideDo (untouched_clearBits _)) fun _ => untouched_update _

theorem untouched_resumeReceiving : Obeys (Outside F.Untouched) (resumeReceiving r.noted chip.noted) :=
  obeys_resumeReceiving (onward_untouched F) chip.noted (obeys_outsideDo (untouched_setBits _))

/-! ### All calls but two -/

/-- However the interrupt of a block is served, the output is left alone. -/
theorem untouched_serve (i : Interrupt) (rounds : Nat) :
    Obeys (Outside F.Untouched) (i.serve r.noted rounds) := by
  refine Interrupt.obeys_serve (onward_untouched F) (fun offset _ => untouched_outsideRead offset)
    (obeys_outsideDo (untouched_clearBits _)) ?_ (fun word => ?_) rounds
  · exact Interrupt.obeys_moveOne (onward_untouched F) (untouched_outsideRead _) (untouched_ringDo _ _)
      fun _ => untouched_ringDo _ _
  · exact obeys_outsideDo (untouched_write (by decide) word)

/-- A platform on which nothing turns the line or sends on it while a call waits or looks at the clock. -/
structure Spares (F : RegisterFile r chip [cr]) (p : Platform (Noted σ)) : Prop where
  ticks : Obeys (Outside F.Untouched) p.ticks
  background : Obeys (Outside F.Untouched) p.background
  isInterrupted : Obeys (Outside F.Untouched) p.isInterrupted

variable {u : Uart} {p : Platform (Noted σ)}

theorem untouched_rule (hp : F.Spares p) :
    u.Rule (Outside F.Untouched) (driver r.noted chip.noted) p where
  toOnward := onward_untouched F
  ticks := hp.ticks
  background := hp.background
  isInterrupted := hp.isInterrupted
  isReady := obeys_look (onward_untouched F) (untouched_outsideRead fr) _
  clearToSend := (onward_untouched F).pure _
  isIdle := obeys_look (onward_untouched F) (untouched_outsideRead fr) _
  receivedCount := obeys_receivedCount (onward_untouched F) untouched_outsideRead chip.noted
  setBaudrate rate := untouched_setBaudrate rate
  take := (onward_untouched F).takeWaiting (obeys_takeWord (onward_untouched F) untouched_outsideRead)
    untouched_resumeReceiving fun id room => untouched_ringDo id fun ring => ring.pop room
  discard := (onward_untouched F).discardInput (obeys_takeWord (onward_untouched F) untouched_outsideRead)
    untouched_resumeReceiving (fun id => untouched_ringDo id _)
    (obeys_receivedCount (onward_untouched F) untouched_outsideRead chip.noted)
  takeDropped := (onward_untouched F).takeDropped fun id _ => untouched_ringDo id _

/-! ## Levels that are kept -/

variable {may : Nat → Prop} {level : Bool}

/-- Between two states writes were made to such registers as may be written. If the output was at a
level, it was there at each of them, and it is there still. -/
def Stays (F : RegisterFile r chip [cr]) (may : Nat → Prop) (level : Bool) (s s' : Noted σ) : Prop :=
  ∃ new, s'.writes = s.writes ++ new ∧ (∀ e ∈ new, may e.offset) ∧
    (F.output s.inner = level → F.output s'.inner = level ∧ ∀ e ∈ new, F.output e.before = level)

theorem Untouched.stays (h : F.Untouched s s') (hmay : ∀ offset, offset ≠ dr → may offset) (level : Bool) :
    F.Stays may level s s' := by
  obtain ⟨hword, new, hnew, hall⟩ := h
  refine ⟨new, hnew, fun e he => hmay _ (hall e he).1, fun hs => ⟨?_, fun e he => ?_⟩⟩
  · exact (output_of_word F hword).trans hs
  · exact (output_of_word F (hall e he).2).trans hs

theorem Stays.trans (h : F.Stays may level s s') (h' : F.Stays may level s' s'') :
    F.Stays may level s s'' := by
  obtain ⟨new, hnew, hmay, hall⟩ := h
  obtain ⟨new', hnew', hmay', hall'⟩ := h'
  refine ⟨new ++ new', by rw [hnew', hnew, List.append_assoc], fun e he => ?_, fun hs => ?_⟩
  · exact (List.mem_append.mp he).elim (hmay e) (hmay' e)
  · obtain ⟨hs', hbefore⟩ := hall hs
    obtain ⟨hs'', hbefore'⟩ := hall' hs'
    exact ⟨hs'', fun e he => (List.mem_append.mp he).elim (hbefore e) (hbefore' e)⟩

theorem onward_stays (F : RegisterFile r chip [cr]) (may : Nat → Prop) (level : Bool) :
    Onward (Outside (F.Stays may level)) :=
  onward_outside (fun _ => ⟨[], (List.append_nil _).symm, nofun, fun hs => ⟨hs, nofun⟩⟩) Stays.trans

/-- While a line sends, the output stays where it is. -/
theorem stays_rule (hp : F.Spares p) (level : Bool) :
    u.Rule (Outside (F.Stays (fun _ => True) level)) (driver r.noted chip.noted) p :=
  (untouched_rule hp).mono (onward_stays F _ level) fun _ _ h => h.stays (fun _ _ => trivial) level

theorem stays_sendWord (word : UInt16) :
    Obeys (Outside (F.Stays (fun _ => True) level)) ((driver r.noted chip.noted).sendWord word) := by
  refine obeys_outsideDo fun s => ⟨_, rfl, fun _ _ => trivial, fun hs => ⟨?_, fun e he => ?_⟩⟩
  · exact (output_of_word F (F.word_write_other _ _ _ _ (by decide) (by decide) (by decide))).trans hs
  · rw [List.mem_singleton.mp he]
    exact hs

theorem writes_setDirection (high : Bool) (b : Bench (Noted σ)) : ∃ e : Entry σ, e.offset = cr ∧
    F.word cr e.before = F.word cr b.outside.inner ∧
    (setDirection r.noted high b).2.outside.writes = b.outside.writes ++ [e] := by
  have hword : F.word cr (r.read cr b.outside.inner).2 = F.word cr b.outside.inner :=
    F.word_read _ _ _ (by decide)
  cases high with
  | true => exact ⟨_, rfl, hword, rfl⟩
  | false => exact ⟨_, rfl, hword, rfl⟩

theorem stays_setDirection (level : Bool) :
    Obeys (Outside (F.Stays (· ≠ dr) level)) (setDirection r.noted level) := by
  intro b
  obtain ⟨e, hoffset, hword, hwrites⟩ := writes_setDirection (F := F) level b
  refine ⟨[e], hwrites, fun e' he => ?_, fun hs => ⟨F.noted.output_setDirection level b, fun e' he => ?_⟩⟩
  · rw [List.mem_singleton.mp he, hoffset]
    decide
  · rw [List.mem_singleton.mp he]
    exact (output_of_word F hword).trans hs

/-! ## Writes to the data register -/

/-- Between two states characters were sent at one level only. -/
def Sends (F : RegisterFile r chip [cr]) (level : Bool) (s s' : Noted σ) : Prop :=
  ∃ new, s'.writes = s.writes ++ new ∧ ∀ e ∈ new, e.offset = dr → F.output e.before = level

theorem Sends.trans (h : F.Sends level s s') (h' : F.Sends level s' s'') : F.Sends level s s'' := by
  obtain ⟨new, hnew, hall⟩ := h
  obtain ⟨new', hnew', hall'⟩ := h'
  refine ⟨new ++ new', by rw [hnew', hnew, List.append_assoc], fun e he => ?_⟩
  exact (List.mem_append.mp he).elim (hall e) (hall' e)

theorem sends_of_ne {new : List (Entry σ)} (hnew : s'.writes = s.writes ++ new)
    (hall : ∀ e ∈ new, e.offset ≠ dr) (level : Bool) : F.Sends level s s' :=
  ⟨new, hnew, fun e he hdata => absurd hdata (hall e he)⟩

theorem Sends.refl (level : Bool) (s : Noted σ) : F.Sends level s s :=
  sends_of_ne (List.append_nil _).symm nofun level

theorem Untouched.sends (h : F.Untouched s s') (level : Bool) : F.Sends level s s' := by
  obtain ⟨-, new, hnew, hall⟩ := h
  exact sends_of_ne hnew (fun e he => (hall e he).1) level

theorem Stays.sends (h : F.Stays may level s s') (hs : F.output s.inner = level) :
    F.Sends level s s' := by
  obtain ⟨new, hnew, -, hall⟩ := h
  exact ⟨new, hnew, fun e he _ => (hall hs).2 e he⟩

theorem sends_setDirection (level high : Bool) :
    Obeys (Outside (F.Sends level)) (setDirection r.noted high) := by
  intro b
  obtain ⟨e, hoffset, -, hwrites⟩ := writes_setDirection (F := F) high b
  refine sends_of_ne hwrites (fun e' he => ?_) level
  rw [List.mem_singleton.mp he, hoffset]
  decide

/-- A write sends at the level for sending, and turns back if it comes to an answer. -/
theorem write_turns (hp : F.Spares p) (hdirection : u.hasDirection = true) (data : List UInt8)
    (b : Bench (Noted σ)) :
    F.Sends (!u.directionInverted) b.outside
        (Act.final (u.write (driver r.noted chip.noted) p data) b).outside ∧
      (F.output b.outside.inner = u.directionInverted →
        (Act.answer? (u.write (driver r.noted chip.noted) p data) b).isSome = true →
        F.output (Act.final (u.write (driver r.noted chip.noted) p data) b).outside.inner =
          u.directionInverted) := by
  by_cases hdata : u.Transmits data
  · let b₁ := (setDirection r.noted (!u.directionInverted) b).2
    have hfirst : F.Sends (!u.directionInverted) b.outside b₁.outside := sends_setDirection _ _ b
    have hlevel : F.output b₁.outside.inner = !u.directionInverted := F.noted.output_setDirection _ b
    have hsending := (stays_rule (u := u) hp (!u.directionInverted)).transmission stays_sendWord data b₁
    -- a transmission that never ends leaves the line turned; one that ends is followed by the turn back
    cases hend : u.transmission (driver r.noted chip.noted) p data b₁ with
    | error e b₂ =>
      rw [Act.final, hend] at hsending
      rw [Act.final, Act.answer?, Uart.write_unsent hdata hdirection hend]
      refine ⟨hfirst.trans (Stays.sends hsending hlevel), fun _ hanswered => ?_⟩
      exact absurd hanswered Bool.false_ne_true
    | ok sent b₂ =>
      rw [Act.final, hend] at hsending
      have hback : F.Sends (!u.directionInverted) b₂.outside
          (setDirection r.noted u.directionInverted b₂).2.outside := sends_setDirection _ _ b₂
      rw [Act.final, Uart.write_sent hdata hdirection hend]
      exact ⟨(hfirst.trans (Stays.sends hsending hlevel)).trans hback,
        fun _ _ => F.noted.output_setDirection _ b₂⟩
  · obtain ⟨answer, hend, -⟩ := Uart.write_idle (d := driver r.noted chip.noted) (p := p) hdata b
    rw [Act.final, hend]
    exact ⟨.refl _ _, fun hb _ => hb⟩

end RegisterFile
end Pl011
end SerialLine
