import SerialLine.Proofs.Lines.Reading
import SerialLine.Proofs.Receiving.Holdings
/-! # Reading while characters come in

The loop of a read, when characters may come in at any time at which driver or platform are asked
something.

* `Intake`: what a read relies on of driver and platform. Nothing that came in is lost or changes places.
* `Holdings.Takes`: what a round took. `takes_takeWaiting`: the oldest characters, and all that waited when
  it began unless the room was used up.
* `Reports`: what the answer of a read tells of the characters that it took.
* `took_finishRound`, `took_receive`, `took_read`: a round, the loop and the call. The loop is by induction
  on the patience; it carries the characters taken so far.
-/
set_option autoImplicit false

namespace SerialLine.Uart

variable {σ : Type}

/-- What a read of a line relies on, whenever characters come in. -/
structure Intake (u : Uart) (d : Driver σ) (p : Platform σ) extends Holdings σ where
  ticks : ∀ b, toHoldings.Admits u b (p.ticks b).2
  isInterrupted : ∀ b, toHoldings.Admits u b (p.isInterrupted b).2
  background : ∀ b, toHoldings.Admits u b (p.background b).2
  resumeReceiving : ∀ b, toHoldings.Admits u b (d.resumeReceiving b).2
  /-- A peripheral gives out what it holds in order. -/
  takeWord : u.rxBuffer = none → ∀ b, ∃ new, taken (d.takeWord b).2.outside = taken b.outside ++ new ∧
    held b.outside ++ new = (d.takeWord b).1.toList ++ held (d.takeWord b).2.outside
  takeWord_none : u.rxBuffer = none → ∀ b, (d.takeWord b).1 = none → held b.outside = []

/-- No characters come in while the clock is read, or a peripheral says that it holds none. -/
structure Intake.Sheltered {u : Uart} {d : Driver σ} {p : Platform σ} (I : Intake u d p) : Prop where
  ticks : ∀ b, I.Still u b (p.ticks b).2
  takeWord : u.rxBuffer = none → ∀ b, (d.takeWord b).1 = none →
    I.taken (d.takeWord b).2.outside = I.taken b.outside

variable {u : Uart} {d : Driver σ} {p : Platform σ} {I : Intake u d p}

/-! ## Rounds of a wait -/

theorem gets_waitRound (I : Intake u d p) {b : Bench σ} (hb : I.Ready u b) :
    ∃ new, I.Gets u [] new b (p.waitRound b).2 := by
  obtain ⟨new, hback⟩ := Holdings.gets_of_admits (I.background b) hb
  obtain ⟨new', hlook⟩ := Holdings.gets_of_admits (I.isInterrupted _) (hback.ready hb)
  have hboth := hback.trans hlook
  rcases hbackground : p.background b with ⟨⟨⟩, b₁⟩
  rcases hinterrupted : p.isInterrupted b₁ with ⟨interrupted, b₂⟩
  simp only [hbackground, hinterrupted] at hboth
  refine ⟨new ++ new', ?_⟩
  cases interrupted with
  | true =>
    have heq : (p.waitRound b).2 =
        (logNote (W := Bench σ) .debug "wait canceled by console interrupt" b₂).2 := by
      simp only [Platform.waitRound, bind, StateT.bind, hbackground, hinterrupted]
      rfl
    rw [heq]
    exact hboth.thenStill (.refl _ u b₂ _)
  | false =>
    have heq : (p.waitRound b).2 = b₂ := by
      simp only [Platform.waitRound, bind, StateT.bind, hbackground, hinterrupted]
      rfl
    rw [heq]
    exact hboth

/-- A wait ends because the console interrupt was found pending. -/
theorem isInterrupted_of_waitRound {b b' : Bench σ} {e : Error} (h : p.waitRound b = (.error e, b')) :
    ∃ b₁, (p.isInterrupted b₁).1 = true := by
  rcases hback : p.background b with ⟨⟨⟩, b₁⟩
  refine ⟨b₁, ?_⟩
  rcases hlook : p.isInterrupted b₁ with ⟨interrupted, b₂⟩
  simp only [Platform.waitRound, bind, StateT.bind, hback, hlook] at h
  cases interrupted with
  | true => rfl
  | false => cases h

/-! ## Taking -/

/-- A reader with room for so many characters took what waited. -/
structure Took (I : Intake u d p) (room : Nat) (out new : List UInt16) (b b' : Bench σ) : Prop where
  gets : I.Gets u out new b b'
  fits : out.length ≤ room
  /-- Unless the room is used up, all that waited at the beginning was taken. -/
  drains : out.length < room → I.waiting u b <+: out
  calm : I.Sheltered → out = [] → new = []

theorem took_takeFromPeripheral (hbuffer : u.rxBuffer = none) (n : Nat) (b : Bench σ) :
    ∃ out new, (takeFromPeripheral d u.width n b).1 = u.width.encode out ∧
      Took I n out new b (takeFromPeripheral d u.width n b).2 := by
  have hwaiting (b : Bench σ) : I.waiting u b = I.held b.outside := by rw [Holdings.waiting, hbuffer]
  have hready (b : Bench σ) : I.Ready u b := fun id hid => by
    rw [hbuffer] at hid
    cases hid
  induction n generalizing b with
  | zero =>
    exact ⟨[], [], rfl, .refl _ u b, Nat.le_refl 0, fun hroom => absurd hroom (Nat.not_lt_zero 0),
      fun _ _ => rfl⟩
  | succ n ih =>
    obtain ⟨new, htaken, hheld⟩ := I.takeWord hbuffer b
    have hnone := I.takeWord_none hbuffer b
    rcases htake : d.takeWord b with ⟨word, b₁⟩
    simp only [htake] at htaken hheld hnone
    have hfirst : I.Gets u word.toList new b b₁ := by
      refine ⟨htaken, fun _ => hready b₁, fun _ _ => ?_⟩
      rw [hwaiting, hwaiting]
      exact hheld
    cases word with
    | none =>
      have heq : takeFromPeripheral d u.width (n + 1) b = ([], b₁) := by
        simp only [takeFromPeripheral, bind, StateT.bind, htake]
        rfl
      rw [heq]
      refine ⟨[], new, rfl, hfirst, Nat.zero_le _, fun _ => ?_, fun hsheltered _ => ?_⟩
      · simpa only [hwaiting, hnone rfl] using List.nil_prefix
      · have hsame := hsheltered.takeWord hbuffer b (by rw [htake])
        rw [htake] at hsame
        rwa [hsame, List.self_eq_append_right] at htaken
    | some word =>
      have heq : takeFromPeripheral d u.width (n + 1) b =
          (u.width.encodeWord word ++ (takeFromPeripheral d u.width n b₁).1,
            (takeFromPeripheral d u.width n b₁).2) := by
        simp only [takeFromPeripheral, bind, StateT.bind, htake]
        rfl
      obtain ⟨out, new', hbytes, hrest⟩ := ih b₁
      rw [heq]
      refine ⟨word :: out, new ++ new', by rw [hbytes]; rfl, hfirst.trans hrest.gets,
        Nat.succ_le_succ hrest.fits, fun hroom => ?_, fun _ hnone => by cases hnone⟩
      have hdrains : I.held b₁.outside <+: out := by
        rw [← hwaiting]
        exact hrest.drains (Nat.lt_of_succ_lt_succ hroom)
      rw [hwaiting]
      refine (List.prefix_append (I.held b.outside) new).trans ?_
      rw [hheld]
      exact (List.prefix_cons_inj word).mpr hdrains

/-- Taking what waits gives the oldest characters that fit, in either way of receiving. -/
theorem took_takeWaiting (I : Intake u d p) (room : Nat) {b : Bench σ} (hb : I.Ready u b) :
    ∃ out new, (u.takeWaiting d room b).1 = u.width.encode out ∧
      Took I (room / u.width.bytes) out new b (u.takeWaiting d room b).2 := by
  cases hbuffer : u.rxBuffer with
  | none =>
    have heq : u.takeWaiting d room b = takeFromPeripheral d u.width (room / u.width.bytes) b := by
      rw [takeWaiting, hbuffer]
    rw [heq]
    exact took_takeFromPeripheral hbuffer _ b
  | some id =>
    obtain ⟨hbytes, hgets⟩ := Holdings.gets_pop hbuffer room hb
    have hdrains : ((I.waiting u b).take (room / u.width.bytes)).length < room / u.width.bytes →
        I.waiting u b <+: (I.waiting u b).take (room / u.width.bytes) := by
      intro hroom
      rw [List.length_take] at hroom
      have hall : (I.waiting u b).length ≤ room / u.width.bytes := by omega
      exact (List.take_of_length_le hall).symm ▸ List.prefix_rfl
    rcases hpop : Bench.pop id room b with ⟨bytes, b₁⟩
    rw [hpop] at hbytes hgets
    by_cases hnone : bytes.isEmpty = true
    · have heq : u.takeWaiting d room b = (bytes, b₁) := by
        simp only [takeWaiting, hbuffer, bind, StateT.bind, hpop, hnone]
        rfl
      rw [heq]
      exact ⟨_, [], hbytes, hgets, List.length_take_le _ _, hdrains, fun _ _ => rfl⟩
    · have heq : u.takeWaiting d room b = (bytes, (d.resumeReceiving b₁).2) := by
        simp only [takeWaiting, hbuffer, bind, StateT.bind, hpop, hnone]
        rfl
      obtain ⟨new, hresume⟩ := Holdings.gets_of_admits (I.resumeReceiving b₁) (hgets.ready hb)
      have hboth := hgets.trans hresume
      rw [List.append_nil] at hboth
      rw [heq]
      refine ⟨_, _, hbytes, hboth, List.length_take_le _ _, hdrains, fun _ hzero => ?_⟩
      rw [hzero] at hbytes
      simp only at hbytes
      rw [hbytes] at hnone
      exact absurd rfl hnone

/-! ## The loop -/

/-- The answer of a read that took the characters `words` into a buffer with room for `room` ones. -/
structure Reports (w : CharWidth) (room : Nat) (words : List UInt16) (reply : ReadReply) : Prop where
  bytes_eq : reply.bytes = w.encode words
  fits : words.length ≤ room
  outcome : reply.outcome = .ok reply.bytes.length ∧ words ≠ [] ∨
    reply.outcome = .error .shouldWait ∧ words = [] ∨ reply.outcome = .error .canceled

theorem Reports.nothing {w : CharWidth} {room : Nat} {words : List UInt16} {reply : ReadReply}
    (h : Reports w room words reply) (hwould : reply.outcome = .error .shouldWait) : words = [] := by
  rcases h.outcome with ⟨hok, -⟩ | ⟨-, hnone⟩ | hcanceled
  · rw [hok] at hwould
    cases hwould
  · exact hnone
  · rw [hcanceled] at hwould
    cases hwould

/-- The characters that a read took stand at the front of the buffer, and behind them what stood there. -/
theorem Reports.overlay_eq {w : CharWidth} {words : List UInt16} {buffer : List UInt8}
    {reply : ReadReply} (h : Reports w (buffer.length / w.bytes) words reply) :
    overlay reply.bytes buffer = w.encode words ++ buffer.drop (words.length * w.bytes) := by
  have hroom : (w.encode words).length ≤ buffer.length := by
    rw [CharWidth.length_encode]
    exact (Nat.mul_le_mul_right _ h.fits).trans (Nat.div_mul_le_self _ _)
  rw [h.bytes_eq, overlay_eq_append hroom, CharWidth.length_encode]

theorem encode_isEmpty (w : CharWidth) (words : List UInt16) :
    (w.encode words).isEmpty = words.isEmpty := by
  cases words with
  | nil => rfl
  | cons word words => cases w <;> rfl

theorem length_encode_eq_iff (w : CharWidth) (words : List UInt16) (n : Nat) :
    (w.encode words).length = n * w.bytes ↔ words.length = n := by
  rw [CharWidth.length_encode]
  exact Nat.mul_left_inj w.bytes_pos.ne'

/-- A read that had taken `words` already took `out` and was answered. -/
structure Finishes (I : Intake u d p) (room : Nat) (words out new : List UInt16) (b b' : Bench σ)
    (reply : ReadReply) : Prop where
  gets : I.Gets u out new b b'
  reports : Reports u.width room (words ++ out) reply
  /-- The interrupt ends a wait for more characters only. -/
  canceled : reply.outcome = .error .canceled →
    (words ++ out).length < room ∧ ∃ b₁, (p.isInterrupted b₁).1 = true
  calm : I.Sheltered → I.Few u b' → reply.outcome = .error .shouldWait → new = []

/-- All that waited when the read began was taken, unless the room is used up. -/
structure Answers (I : Intake u d p) (room : Nat) (words out new : List UInt16) (b b' : Bench σ)
    (reply : ReadReply) : Prop extends Finishes I room words out new b b' reply where
  drains : I.Few u b' → (words ++ out).length < room → I.waiting u b <+: out

section
variable {room patience : Nat} {words out new : List UInt16} {deadline : Deadline} {b b' : Bench σ}
  {reply : ReadReply}

theorem finishes_nothing {b₁ : Bench σ} (hgets : I.Gets u [] new b b₁)
    (hreports : Reports u.width room words reply) (hreply : reply.outcome ≠ .error .canceled)
    (hcalm : I.Sheltered → new = []) : Finishes I room words [] new b b₁ reply where
  gets := hgets
  reports := by rwa [List.append_nil]
  canceled h := absurd h hreply
  calm h _ _ := hcalm h

/-- From the look whether the buffer is full on, nothing is taken before the next round. -/
theorem finishes_finishRound (hroom : 0 < room) (hfits : words.length ≤ room)
    (hrest : ∀ deadline b, I.Ready u b → words.length < room →
      u.receive d p (room * u.width.bytes) patience deadline (u.width.encode words) b = .ok reply b' →
      ∃ out new, Answers I room words out new b b' reply)
    (hb : I.Ready u b)
    (h : u.finishRound d p (room * u.width.bytes) patience deadline (u.width.encode words) b =
      .ok reply b') :
    ∃ out new, Finishes I room words out new b b' reply := by
  by_cases hfull : words.length = room
  · rw [finishRound_of_full ((length_encode_eq_iff _ _ _).mpr hfull)] at h
    cases h
    refine ⟨[], [], finishes_nothing (.refl _ u b) ⟨rfl, hfits, .inl ⟨rfl, ?_⟩⟩ (by simp) fun _ => rfl⟩
    rintro rfl
    exact hroom.ne hfull
  · have hopen := mt (length_encode_eq_iff u.width words room).mp hfull
    obtain ⟨new, hclock⟩ := Holdings.gets_of_admits (I.ticks b) hb
    have hcalm (hsheltered : I.Sheltered) : new = [] := by
      have htaken := hclock.taken
      rwa [(hsheltered.ticks b).taken, List.self_eq_append_right] at htaken
    rcases hover : deadline.expired p b with ⟨isOver, b₁⟩
    have htick : (p.ticks b).2 = b₁ := congrArg Prod.snd hover
    rw [htick] at hclock
    cases isOver with
    | true =>
      rw [finishRound_of_over hopen hover] at h
      cases h
      refine ⟨[], new, finishes_nothing hclock ⟨rfl, hfits, ?_⟩ ?_ hcalm⟩
      · simp only [encode_isEmpty]
        cases words with
        | nil => exact .inr (.inl ⟨rfl, rfl⟩)
        | cons word words => exact .inl ⟨rfl, List.cons_ne_nil _ _⟩
      · dsimp only
        split <;> simp
    | false =>
      obtain ⟨new', hwait⟩ := gets_waitRound I (hclock.ready hb)
      rcases hwaited : p.waitRound b₁ with ⟨ending, b₂⟩
      rw [hwaited] at hwait
      have hboth := hclock.trans hwait
      cases ending with
      | error e =>
        rw [finishRound_of_canceled hopen hover hwaited] at h
        cases h
        obtain rfl := waitRound_error hwaited
        refine ⟨_, _, hboth, ⟨by simp, by simpa using hfits, .inr (.inr rfl)⟩, fun _ => ⟨?_, ?_⟩,
          fun _ _ hwould => by cases hwould⟩
        · simp only [List.append_nil]
          omega
        · exact isInterrupted_of_waitRound hwaited
      | ok _ =>
        rw [finishRound_of_waited hopen hover hwaited] at h
        obtain ⟨out, new'', hanswers⟩ := hrest _ b₂ (hboth.ready hb) (by omega) h
        refine ⟨_, _, hboth.trans hanswers.gets, hanswers.reports, hanswers.canceled,
          fun hsheltered hfew hwould => ?_⟩
        -- whatever came in during the wait would have been taken
        have hnone := (List.append_eq_nil_iff.mp (hanswers.reports.nothing hwould))
        have hempty := hanswers.drains hfew (by rw [hnone.1, hnone.2]; exact hroom)
        rw [hnone.2, List.prefix_nil] at hempty
        have hqueue := hboth.waiting hb (hanswers.gets.few hfew)
        rw [hempty] at hqueue
        rw [hanswers.calm hsheltered hfew hwould, (List.append_eq_nil_iff.mp hqueue).2]
        rfl

theorem answers_receive (hwords : words.length < room) (hb : I.Ready u b)
    (h : u.receive d p (room * u.width.bytes) patience deadline (u.width.encode words) b =
      .ok reply b') :
    ∃ out new, Answers I room words out new b b' reply := by
  induction patience generalizing deadline words b with
  | zero => cases h
  | succ patience ih =>
    rw [receive_succ] at h
    have hleft : (room * u.width.bytes - (u.width.encode words).length) / u.width.bytes =
        room - words.length := by
      rw [CharWidth.length_encode, ← Nat.sub_mul, Nat.mul_div_cancel _ u.width.bytes_pos]
    obtain ⟨out, new, hbytes, htook⟩ := took_takeWaiting I
      (room * u.width.bytes - (u.width.encode words).length) hb
    rw [hleft] at htook
    rcases htaken : u.takeWaiting d (room * u.width.bytes - (u.width.encode words).length) b with
      ⟨bytes, b₁⟩
    rw [htaken] at hbytes htook
    simp only at hbytes
    obtain ⟨new', hclock, hcalm⟩ : ∃ new', I.Gets u [] new' b₁
        (nextDeadline p deadline bytes b₁).2 ∧ (out = [] → new' = []) := by
      unfold nextDeadline
      rw [hbytes, encode_isEmpty]
      cases out with
      | nil => exact ⟨[], .refl _ u b₁, fun _ => rfl⟩
      | cons word out =>
        obtain ⟨new', hclock⟩ := Holdings.gets_of_admits (I.ticks b₁) (htook.gets.ready hb)
        exact ⟨new', hclock, nofun⟩
    rcases hrestarted : nextDeadline p deadline bytes b₁ with ⟨deadline', b₂⟩
    rw [hrestarted] at hclock
    have hgets := htook.gets.trans hclock
    simp only [htaken, hrestarted] at h
    rw [hbytes, ← CharWidth.encode_append] at h
    have hfits : (words ++ out).length ≤ room := by
      have := htook.fits
      rw [List.length_append]
      omega
    obtain ⟨out', new'', hfinishes⟩ := finishes_finishRound (by omega) hfits
      (fun deadline b hb hlt h => ih hlt hb h) (hgets.ready hb) h
    have hreports := hfinishes.reports
    have hcanceled := hfinishes.canceled
    have hall := hgets.trans hfinishes.gets
    rw [List.append_assoc] at hreports hcanceled
    rw [List.append_nil] at hall
    refine ⟨_, _, ⟨hall, hreports, hcanceled, fun hsheltered hfew hwould => ?_⟩, fun _ hroom => ?_⟩
    · have hnone := (List.append_eq_nil_iff.mp (hreports.nothing hwould)).2
      obtain rfl := (List.append_eq_nil_iff.mp hnone).1
      rw [htook.calm hsheltered rfl, hcalm rfl, hfinishes.calm hsheltered hfew hwould]
      rfl
    · have hopen : out.length < room - words.length := by
        simp only [List.length_append] at hroom
        omega
      exact (htook.drains hopen).trans (List.prefix_append _ _)

/-- A read that is let through, from the beginning of its deadline on. -/
theorem answers_read {room : Nat} (hlive : u.isShut = false) (hreceives : u.receives = true)
    (hroom : u.width.bytes ≤ room) (hb : I.Ready u b) (h : u.read d p room b = .ok reply b') :
    ∃ out new, Answers I (room / u.width.bytes) [] out new b b' reply := by
  have hfits : ([] : List UInt16).length < room / u.width.bytes := Nat.div_pos hroom u.width.bytes_pos
  rw [read_accepted hlive hreceives hroom] at h
  obtain ⟨new, hclock⟩ := Holdings.gets_of_admits (I.ticks b) hb
  have hbegin : (Deadline.begin p u.patienceMillis b).2 = (p.ticks b).2 := rfl
  rw [hbegin] at h
  obtain ⟨out, new', hanswers⟩ := answers_receive hfits (hclock.ready hb) h
  refine ⟨out, _, ⟨hclock.trans hanswers.gets, hanswers.reports, hanswers.canceled,
    fun hsheltered hfew hwould => ?_⟩, fun hfew hopen => ?_⟩
  · have htaken := hclock.taken
    rw [(hsheltered.ticks b).taken, List.self_eq_append_right] at htaken
    rw [htaken, hanswers.calm hsheltered hfew hwould]
    rfl
  · have hentry := hclock.waiting hb (hanswers.gets.few hfew)
    rw [List.nil_append] at hentry
    refine (List.prefix_append _ new).trans ?_
    rw [hentry]
    exact hanswers.drains hfew hopen

end

end SerialLine.Uart
