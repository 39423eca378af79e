import SerialLine.Proofs.Lines.Replies
import SerialLine.Proofs.Receiving.Levels
import SerialLine.Proofs.Receiving.Station
import SerialLine.Proofs.Sending.Delivery
/-! # Characters that come back

A line whose peripheral is always ready, is never busy and gives every character that it is sent to its own
receiver.

* `Loopback`: such a line.
* `Scene.Receives`, `Scene.Gains`: characters came to the queue, and those that found room or all of them
  were added.
* `Loopback.write_receives`, `Loopback.read_takes`: a write that there is room for and a read of what is
  there are answered in full at once.
-/
set_option autoImplicit false

namespace SerialLine

/-- Whole characters are made of all their bytes. -/
theorem CharWidth.encode_decode (w : CharWidth) {data : List UInt8}
    (hwhole : data.length % w.bytes = 0) : w.encode (w.decode data) = data := by
  fun_induction CharWidth.decode w data with
  | case1 data =>
    induction data with
    | nil => rfl
    | cons byte data ih =>
      rw [List.map_cons, CharWidth.encode_cons, ih (Nat.mod_one _)]
      simp only [CharWidth.encodeWord, CharWidth.lowByte, UInt8.toUInt8_toUInt16, List.singleton_append]
  | case2 low high rest ih =>
    have hlow := low.toNat_lt
    have hhigh := high.toNat_lt
    have hrest : rest.length % CharWidth.wide.bytes = 0 := by
      simp only [CharWidth.bytes, List.length_cons] at hwhole ⊢
      omega
    have hbytes : CharWidth.wide.encodeWord (joinBytes low high) = [low, high] := by
      simp only [CharWidth.encodeWord, List.cons.injEq, and_true]
      constructor <;> apply UInt8.toNat_inj.1 <;>
        simp only [CharWidth.lowByte, CharWidth.highByte, CharWidth.joinBytes,
          UInt16.toNat_toUInt8, UInt8.toNat_ofNat', UInt16.toNat_ofNat'] <;> omega
    rw [CharWidth.encode_cons, ih hrest, hbytes]
    rfl
  | case3 data hshort =>
    rcases data with _ | ⟨low, _ | ⟨high, rest⟩⟩
    · rfl
    · simp [CharWidth.bytes] at hwhole
    · exact absurd rfl (hshort low high rest)

/-- The characters of data are carried by their bytes. -/
theorem CharWidth.clip_decode (w : CharWidth) {data : List UInt8}
    (hwhole : data.length % w.bytes = 0) : (w.decode data).map w.clip = w.decode data := by
  rw [← CharWidth.decode_encode, CharWidth.encode_decode w hwhole]

namespace Uart

variable {σ ε : Type} {u : Uart} {d : Driver σ} {p : Platform σ} {capacity : Nat}

/-- Characters came to the queue of a line, which took those that found room, and nothing else happened. -/
structure Scene.Receives (X : Scene σ ε) (u : Uart) (words : List UInt16) (b b' : Bench σ) : Prop
    extends Holdings.Enters X.toHoldings u words b b' where
  view : X.view b'.outside = X.view b.outside

/-- Characters were added to the queue of a line, and nothing else happened. -/
structure Scene.Gains (X : Scene σ ε) (u : Uart) (words : List UInt16) (b b' : Bench σ) : Prop where
  waiting : X.waiting u b' = X.waiting u b ++ words
  taken : X.taken b'.outside = X.taken b.outside ++ words
  fits : ∀ capacity, X.Fits u capacity b → X.Fits u capacity b'
  view : X.view b'.outside = X.view b.outside

/-- The receive buffer of a line, if it has one, takes so many more characters before a counter wraps. -/
def Holdings.Spares (H : Holdings σ) (u : Uart) (n : Nat) (b : Bench σ) : Prop :=
  u.rxBuffer.isSome = true → (H.taken b.outside).length + n < 2 ^ 64

namespace Scene

variable {X : Scene σ ε} {words words' : List UInt16} {b b' b'' : Bench σ}

theorem Calm.receives (h : X.Calm u b b') : X.Receives u [] b b' := by
  have hnew : Holdings.newcomers u b [] = [] := by
    rw [Holdings.newcomers]
    cases u.rxBuffer <;> rfl
  refine ⟨⟨fun _ => by rw [h.held, List.append_nil], ?_, h.ring, h.holds⟩, h.view⟩
  rw [hnew, h.taken, List.append_nil]

theorem Receives.trans (h : X.Receives u words b b') (h' : X.Receives u words' b' b'') :
    X.Receives u (words ++ words') b b'' := by
  refine ⟨⟨fun hnone => ?_, ?_, fun id hid => ?_, fun id hid hholds => ?_⟩, h'.view.trans h.view⟩
  · rw [h'.held hnone, h.held hnone, List.append_assoc]
  · have hnew : Holdings.newcomers u b (words ++ words') =
        Holdings.newcomers u b words ++ Holdings.newcomers u b' words' := by
      unfold Holdings.newcomers
      cases hid : u.rxBuffer with
      | none => rfl
      | some id =>
        dsimp only
        rw [h.ring id hid, RingBuffer.admitted_append]
    rw [h'.taken, h.taken, hnew, List.append_assoc]
  · rw [h'.ring id hid, h.ring id hid, RingBuffer.pushAll_append]
  · exact h'.holds id hid (h.holds id hid hholds)

theorem Receives.calm (h : X.Receives u words b b') (hcalm : X.Calm u b' b'') :
    X.Receives u words b b'' := by
  have hboth := h.trans hcalm.receives
  rwa [List.append_nil] at hboth

/-- Characters that find room and are carried by their bytes are added as they are. -/
theorem Receives.gains (h : X.Receives u words b b') (hwords : words.map u.width.clip = words)
    (hb : X.Fits u capacity b) (hroom : (X.waiting u b).length + words.length ≤ capacity)
    (hspare : X.Spares u words.length b) : X.Gains u words b b' := by
  have hnew : Holdings.newcomers u b words = words := by
    cases hid : u.rxBuffer with
    | none => rw [Holdings.newcomers, hid]
    | some id => rw [Holdings.newcomers_of_room hid hb hroom, hwords]
  have htaken := h.taken
  rw [hnew] at htaken
  have hfew : X.Few u b' := by
    intro hbuffer
    rw [htaken, List.length_append]
    exact hspare hbuffer
  have hgets := (Holdings.gets_of_arrives h.arrives).waiting hb.ready hfew
  rw [hnew] at hgets
  exact ⟨hgets.symm, htaken, fun _ hfits => h.fits hfits, h.view⟩

end Scene

/-- A line whose peripheral is always ready and idle and gives each character that it is sent to its own
receiver, if there is room for it. -/
structure Loopback (ε : Type) (u : Uart) (d : Driver σ) (p : Platform σ) (capacity : Nat)
    extends Outlet ε u d where
  isReady : toScene.Shows u d.isReady (pure true)
  clearToSend : toScene.Shows u d.clearToSend (pure true)
  isIdle : toScene.Shows u d.isIdle (pure true)
  receivedCount : ∀ b, toScene.Calm u b (d.receivedCount b).2
  setDirection : ∀ high b, toScene.Calm u b (d.setDirection high b).2
  ticks : ∀ b, toScene.Calm u b (p.ticks b).2
  sendWord : ∀ word b, (∀ id, u.rxBuffer = some id → b.buffers.Holds id) →
    (toScene.waiting u b).length < capacity → toScene.Enters u [word] b (d.sendWord word b).2
  sendWord_view : ∀ word b, view (d.sendWord word b).2.outside = view b.outside

namespace Loopback

section
variable (L : Loopback ε u d p capacity) {b : Bench σ}

theorem calm_shows {α : Type} {f : StateM (Bench σ) α} {a : α}
    (h : L.toScene.Shows u f (pure a)) (b : Bench σ) :
    ∃ b', f b = (a, b') ∧ L.Calm u b b' :=
  ⟨(f b).2, Prod.ext (h.answer b) rfl, h.still b, h.view b⟩

/-! ## Writing -/

theorem canSend_calm (b : Bench σ) : ∃ b', canSend d b = (true, b') ∧ L.Calm u b b' := by
  obtain ⟨b₁, hready, hcalm⟩ := L.calm_shows L.isReady b
  obtain ⟨b₂, hclear, hcalm'⟩ := L.calm_shows L.clearToSend b₁
  refine ⟨b₂, ?_, hcalm.toStill.trans hcalm'.toStill, hcalm'.view.trans hcalm.view⟩
  simp only [canSend, bind, StateT.bind, hready]
  exact hclear

/-- By induction on the characters; none of them is waited for. -/
theorem sendWords_receives (hpatience : 0 < p.patience) (words : List UInt16) (deadline : Deadline)
    (written : Nat) (hb : L.Fits u capacity b)
    (hroom : (L.waiting u b).length + words.length ≤ capacity) :
    ∃ b', u.sendWords d p words deadline written b =
        .ok (.ok (written + words.length * u.width.bytes)) b' ∧ L.Receives u words b b' := by
  induction words generalizing deadline written b with
  | nil =>
    refine ⟨b, ?_, (Scene.Calm.refl L.toScene u b b.log).receives⟩
    rw [List.length_nil, Nat.zero_mul]
    rfl
  | cons word words ih =>
    rw [List.length_cons] at hroom
    obtain ⟨patience, hsucc⟩ := Nat.exists_eq_succ_of_ne_zero hpatience.ne'
    obtain ⟨b₁, hcan, hcalm⟩ := L.canSend_calm b
    have hwait : awaitReady d p deadline p.patience b = .ok (.ok true) b₁ := by
      rw [hsucc]
      exact awaitReady_of_ready hcan
    have hroom₁ : (L.waiting u b₁).length < capacity := by
      rw [hcalm.waiting_eq]
      omega
    have hsent : L.Receives u [word] b₁ (d.sendWord word b₁).2 :=
      ⟨L.sendWord word b₁ (fun id hid => ((hcalm.fits hb).ready id hid).1) hroom₁,
        L.sendWord_view word b₁⟩
    have hfirst : L.Receives u [word] b (p.ticks (d.sendWord word b₁).2).2 :=
      hcalm.receives.trans (hsent.calm (L.ticks _))
    have hlength := hfirst.length_waiting hb
    have hcapped : Holdings.capped u capacity ((L.waiting u b).length + 1) =
        (L.waiting u b).length + 1 := by
      unfold Holdings.capped
      split <;> omega
    obtain ⟨b', hrest, hreceives⟩ := ih (b := (p.ticks (d.sendWord word b₁).2).2)
      { deadline with start := (p.ticks (d.sendWord word b₁).2).1 } (written + u.width.bytes)
      (hfirst.fits hb) (by
        rw [hlength, List.length_singleton, hcapped]
        omega)
    refine ⟨b', ?_, hfirst.trans hreceives⟩
    rw [sendWords, Act.bind_of_ok hwait, List.length_cons, Nat.succ_mul,
      Nat.add_comm (words.length * _), ← Nat.add_assoc]
    exact hrest

theorem calm_face (high : Bool) (b : Bench σ) :
    L.Calm u b ((if u.hasDirection then d.setDirection high else pure ()) b).2 := by
  split
  · exact L.setDirection high b
  · exact .refl _ u b b.log

theorem awaitIdle_calm (hpatience : 0 < p.patience) (round : StateM (Bench σ) (Except Error Unit))
    (deadline : Option Deadline) (b : Bench σ) :
    ∃ b', awaitIdle d p round deadline p.patience b = .ok (.ok true) b' ∧ L.Calm u b b' := by
  obtain ⟨patience, hsucc⟩ := Nat.exists_eq_succ_of_ne_zero hpatience.ne'
  obtain ⟨b₁, hidle, hcalm⟩ := L.calm_shows L.isIdle b
  refine ⟨b₁, ?_, hcalm⟩
  rw [hsucc]
  simp only [awaitIdle, bind, EStateM.bind, liftM, monadLift, MonadLift.monadLift, hidle]
  rfl

/-- A write sends all its characters, and they come back. -/
theorem write_receives (hlive : u.isShut = false) (hsends : u.sends = true)
    (hpatience : 0 < p.patience) {data : List UInt8} (hwhole : data.length % u.width.bytes = 0)
    (hb : L.Fits u capacity b)
    (hroom : (L.waiting u b).length + data.length / u.width.bytes ≤ capacity) :
    ∃ b', u.write d p data b = .ok (.ok data.length) b' ∧
      L.Receives u (u.width.decode data) b b' := by
  by_cases hnone : data = []
  · subst hnone
    have hdecode : u.width.decode [] = [] := by cases u.width <;> rfl
    refine ⟨b, ?_, ?_⟩
    · rw [write, hlive, hsends, if_neg (by simp), if_neg (by simp), if_neg (by simp)]
      rfl
    · rw [hdecode]
      exact (Scene.Calm.refl L.toScene u b b.log).receives
  · have hbegun := (L.calm_face (!u.directionInverted) b).receives.calm (L.ticks (u.faceSending d b).2)
    have hwaiting := hbegun.length_waiting hb
    rw [← length_decode] at hroom
    obtain ⟨b₁, hsent, hreceives⟩ := L.sendWords_receives hpatience (u.width.decode data)
      ⟨(p.ticks (u.faceSending d b).2).1, u.patienceMillis⟩ 0 (hbegun.fits hb) (by
        rw [hwaiting, List.length_nil, Nat.add_zero, Holdings.capped]
        split <;> omega)
    have hall := hbegun.trans hreceives
    rw [length_decode, Nat.zero_add, Nat.div_mul_cancel (Nat.dvd_of_mod_eq_zero hwhole)] at hsent
    have hfaced : (liftM (u.faceSending d) : Act (Bench σ) Unit) b =
      .ok () (u.faceSending d b).2 := rfl
    have hbegin : (liftM (Deadline.begin p u.patienceMillis) : Act (Bench σ) Deadline)
        (u.faceSending d b).2 = .ok ⟨(p.ticks (u.faceSending d b).2).1, u.patienceMillis⟩
          (p.ticks (u.faceSending d b).2).2 := rfl
    rw [write, hlive, hsends, if_neg (by simp), if_neg (by simp), if_neg (by simp [hwhole]),
      if_neg (by simp [hnone]), Act.bind_of_ok hfaced, Act.bind_of_ok hbegin, Act.bind_of_ok hsent]
    cases hdirection : u.hasDirection with
    | false => exact ⟨b₁, rfl, hall⟩
    | true =>
      obtain ⟨b₂, hidle, hcalm⟩ := L.awaitIdle_calm hpatience p.waitRound none b₁
      have hback := L.calm_face u.directionInverted b₂
      refine ⟨(u.faceReceiving d b₂).2, ?_, (hall.calm hcalm).calm hback⟩
      rw [if_neg (by simp), Act.bind_of_ok hidle]
      rfl

/-! ## Reading -/

/-- What is read is taken off the queue, all of it at once. -/
theorem read_takes (hlive : u.isShut = false) (hreceives : u.receives = true)
    (hpatience : 0 < p.patience) {room : Nat} (hsome : 0 < room) (hwhole : room % u.width.bytes = 0)
    (hb : L.Fits u capacity b) (hthere : room / u.width.bytes ≤ (L.waiting u b).length) :
    ∃ b', u.read d p room b = .ok ⟨.ok room,
        u.width.encode ((L.waiting u b).take (room / u.width.bytes))⟩ b' ∧
      L.Takes u (room / u.width.bytes) b b' := by
  have hwidth := u.width.bytes_pos
  have hcancel := Nat.div_mul_cancel (Nat.dvd_of_mod_eq_zero hwhole)
  have hclock := L.ticks b
  obtain ⟨hbytes, htakes⟩ := L.takes_takeWaiting room (hclock.fits hb)
  rw [hclock.waiting_eq] at hbytes
  have hlength : (u.width.encode ((L.waiting u b).take (room / u.width.bytes))).length = room := by
    rw [CharWidth.length_encode, List.length_take, Nat.min_eq_left hthere, hcancel]
  rw [← hbytes] at hlength ⊢
  clear hbytes
  rcases htaken : u.takeWaiting d room (p.ticks b).2 with ⟨bytes, b₁⟩
  rw [htaken] at hlength htakes
  simp only at hlength htakes
  have hrestarted := L.ticks b₁
  have hnext : nextDeadline p ⟨(p.ticks b).1, u.patienceMillis⟩ bytes b₁ =
      (⟨(p.ticks b₁).1, u.patienceMillis⟩, (p.ticks b₁).2) := by
    have hfull : bytes.isEmpty = false := by
      rw [List.isEmpty_eq_false_iff, ← List.length_pos_iff]
      omega
    rw [nextDeadline, hfull]
    rfl
  obtain ⟨patience, hsucc⟩ := Nat.exists_eq_succ_of_ne_zero hpatience.ne'
  refine ⟨(p.ticks b₁).2, ?_, ?_⟩
  · rw [read_accepted hlive hreceives (Nat.le_of_dvd hsome (Nat.dvd_of_mod_eq_zero hwhole)), hcancel,
      hsucc]
    have hbegin : Deadline.begin p u.patienceMillis b =
      (⟨(p.ticks b).1, u.patienceMillis⟩, (p.ticks b).2) := rfl
    rw [hbegin, receive_succ, CharWidth.encode_nil, List.length_nil, Nat.sub_zero, htaken]
    simp only [hnext, List.nil_append]
    rw [finishRound_of_full hlength, hlength]
  · have hall := (hclock.takes.trans htakes).trans hrestarted.takes
    rwa [Nat.zero_add, Nat.add_zero] at hall

/-- Asking how much waits changes nothing. -/
theorem waitingCount_calm (hlive : u.isShut = false) (b : Bench σ) :
    L.Calm u b (u.waitingCount d b).2 := by
  rw [waitingCount, hlive, if_neg Bool.false_ne_true]
  show L.Calm u b (u.waiting d b).2
  rw [Uart.waiting]
  cases u.rxBuffer with
  | some id => exact .refl _ u b b.log
  | none =>
    dsimp only
    split
    · exact L.receivedCount b
    · exact .refl _ u b b.log

end

/-- The same line recorded, with the rounds of background work, of which there were `k` already. -/
def counted (L : Loopback ε u d p capacity) (k : Nat) :
    Loopback (ε × Nat) u d.recorded p.recorded capacity where
  toOutlet := L.toOutlet.counted k
  isReady := L.isReady.recording .isReady nofun k
  clearToSend := L.clearToSend.recording .clearToSend nofun k
  isIdle := L.isIdle.recording .isIdle nofun k
  receivedCount := Scene.Calm.recording L.receivedCount .receivedCount nofun k
  setDirection high := Scene.Calm.recording (L.setDirection high) (fun _ => .setDirection high) nofun k
  ticks := Scene.Calm.recording L.ticks .ticks nofun k
  sendWord word b hholds hroom := by
    have henters := L.sendWord word b.unrecorded hholds hroom
    exact ⟨henters.held, henters.taken, henters.ring, henters.holds⟩
  sendWord_view word b := by
    have hrounds := rounds_recording (fun _ => .sendWord word) (d.sendWord word) nofun b
    exact Prod.ext (L.sendWord_view word b.unrecorded) (congrArg (k + ·) hrounds)

end Loopback

/-- A peripheral that is a queue gives back what it is sent. -/
def Station.loopback (S : Surroundings Unit) (u : Uart) (capacity patience : Nat) :
    Loopback Unit u (Station.driver u.rxBuffer) (Station.platform S u.rxBuffer patience) capacity where
  toOutlet := (Station.situated S u patience).toOutlet
  isReady := ⟨fun b => .refl _ u b b.log, fun _ => rfl⟩
  clearToSend := ⟨fun b => .refl _ u b b.log, fun _ => rfl⟩
  isIdle := ⟨fun b => .refl _ u b b.log, fun _ => rfl⟩
  receivedCount b := .refl _ u b b.log
  setDirection _ b := .refl _ u b b.log
  ticks b := ⟨(Station.shows_aroundDo u S.ticks).still b, rfl⟩
  sendWord word _ hholds _ := Station.enters_deliver u [word] hholds
  sendWord_view _ _ := rfl

end Uart
end SerialLine
