import Mathlib.Data.Nat.Find
import SerialLine.Proofs.Receiving.Delivery
import SerialLine.Proofs.Receiving.Station
/-! # When a read ends

A read whose clock moves on in the background work of waits only, and which nobody interrupts.

* `Schedule`: such a clock, with the characters that come in during each round.
* `Wait`: a read with its schedule. `Wait.got`, `Wait.latest`: what it has by the end of each look at the
  queue, and when it last took something.
* `Wait.EndsAt`: the first look at which the buffer is full or the timeout has passed since then.
* `Wait.exists_endsAt`: with a clock that moves on in every round, there is one, after as many rounds at
  most as the characters that fit have milliseconds of timeout.
* `read_ends_on_time`: a read ends there. `ends_receive` is the loop, by induction on the patience.
-/
set_option autoImplicit false

namespace SerialLine.Uart

variable {σ ε : Type}

/-! ## Schedules -/

/-- What happens around a line while nobody interrupts. -/
structure Schedule (ε : Type) where
  now : ε → Nat
  /-- The characters that come in during the next round. -/
  coming : ε → List UInt16
  next : ε → ε
  onward : ∀ e, now e ≤ now (next e)

def Schedule.surroundings (C : Schedule ε) : Surroundings ε where
  ticks e := (C.now e, e)
  background e := (C.coming e, C.next e)
  isInterrupted e := (false, e)

def Schedule.counted (C : Schedule ε) : Schedule (ε × Nat) where
  now e := C.now e.1
  coming e := C.coming e.1
  next e := (C.next e.1, e.2 + 1)
  onward e := C.onward e.1

/-- A read that waits. -/
structure Wait (ε : Type) extends Schedule ε where
  start : ε
  /-- The characters that fit in the buffer of the caller. -/
  room : Nat
  /-- The milliseconds that may pass without progress. -/
  limit : Nat
  /-- The characters that wait at the beginning. -/
  waiting : Nat
  /-- How many of the characters of a round an empty queue has room for. -/
  entering : ε → Nat

namespace Wait

variable (W : Wait ε)

/-- The surroundings after so many rounds. -/
def moment (i : Nat) : ε := W.next^[i] W.start

def time (i : Nat) : Nat := W.now (W.moment i)

/-- The characters that there were to take by the end of so many rounds. -/
def come : Nat → Nat
  | 0 => W.waiting
  | i + 1 => come i + W.entering (W.moment i)

/-- The characters taken when the queue has been looked at after so many rounds. -/
def got (i : Nat) : Nat := min W.room (W.come i)

/-- When characters were last taken by then. -/
def latest : Nat → Nat
  | 0 => W.time 0
  | i + 1 => if W.got i < W.got (i + 1) then W.time (i + 1) else latest i

/-- The buffer is full, or as long as the timeout has passed without progress. -/
def Ends (i : Nat) : Prop := W.got i = W.room ∨ W.latest i + W.limit ≤ W.time i

instance (i : Nat) : Decidable (W.Ends i) := inferInstanceAs (Decidable (_ ∨ _))

/-- The first look at which there is reason to end. -/
structure EndsAt (m : Nat) : Prop where
  ends : W.Ends m
  first : ∀ i < m, ¬ W.Ends i

variable {W} {i m : Nat}

theorem moment_succ (W : Wait ε) (i : Nat) : W.moment (i + 1) = W.next (W.moment i) :=
  Function.iterate_succ_apply' W.next i W.start

theorem time_le_succ (W : Wait ε) (i : Nat) : W.time i ≤ W.time (i + 1) := by
  rw [time, time, W.moment_succ]
  exact W.onward _

theorem latest_le (W : Wait ε) (i : Nat) : W.latest i ≤ W.time i := by
  induction i with
  | zero => exact Nat.le_refl _
  | succ i ih =>
    rw [latest]
    by_cases hprogress : W.got i < W.got (i + 1)
    · rw [if_pos hprogress]
    · rw [if_neg hprogress]
      exact ih.trans (W.time_le_succ i)

theorem got_le (W : Wait ε) (i : Nat) : W.got i ≤ W.room := Nat.min_le_left _ _

/-- There is progress after a round in which a character came in, unless the buffer was full. -/
theorem got_lt_succ (h : W.got i < W.room) :
    W.got i < W.got (i + 1) ↔ 0 < W.entering (W.moment i) := by
  simp only [got, come] at h ⊢
  omega

/-- A character that comes in is taken and begins the timeout anew, however late it is. -/
theorem latest_of_entering (h : W.got i < W.room) (hcame : 0 < W.entering (W.moment i)) :
    W.latest (i + 1) = W.time (i + 1) := by
  rw [latest, if_pos ((got_lt_succ h).mpr hcame)]

theorem EndsAt.unique {m' : Nat} (h : W.EndsAt m) (h' : W.EndsAt m') : m = m' := by
  rcases Nat.lt_trichotomy m m' with hlt | heq | hlt
  · exact absurd h.ends (h'.first m hlt)
  · exact heq
  · exact absurd h'.ends (h.first m' hlt)

/-! ### A clock that moves on -/

section
variable (hclock : ∀ e, W.now e + 1 ≤ W.now (W.next e))
include hclock

/-- The rounds so far are paid for by the characters taken and by the time since the last of them. -/
theorem pace (h : ∀ j ≤ i, ¬ W.Ends j) : i + W.latest i ≤ W.got i * W.limit + W.time i := by
  induction i with
  | zero =>
    have := W.latest_le 0
    omega
  | succ i ih =>
    have hpaid := ih fun j hj => h j (Nat.le_succ_of_le hj)
    have hopen := not_or.mp (h i (Nat.le_succ i))
    have htime : W.time i + 1 ≤ W.time (i + 1) := by
      rw [time, time, W.moment_succ]
      exact hclock _
    rw [latest]
    by_cases hprogress : W.got i < W.got (i + 1)
    · rw [if_pos hprogress]
      have hmul : (W.got i + 1) * W.limit ≤ W.got (i + 1) * W.limit :=
        Nat.mul_le_mul_right _ hprogress
      rw [Nat.succ_mul] at hmul
      omega
    · rw [if_neg hprogress]
      have hsame : W.got (i + 1) = W.got i := by
        simp only [got, come] at hprogress ⊢
        omega
      rw [hsame]
      omega

theorem lt_of_open (h : ∀ j ≤ i, ¬ W.Ends j) : i < W.room * W.limit := by
  have hpaid := pace hclock h
  obtain ⟨hroom, htime⟩ := not_or.mp (h i (Nat.le_refl i))
  have hle := W.got_le i
  have hmul : (W.got i + 1) * W.limit ≤ W.room * W.limit := Nat.mul_le_mul_right _ (by omega)
  rw [Nat.succ_mul] at hmul
  omega

theorem exists_endsAt : ∃ m ≤ W.room * W.limit, W.EndsAt m := by
  classical
  have hsome : ∃ m ≤ W.room * W.limit, W.Ends m := by
    by_contra hnone
    refine absurd (lt_of_open hclock fun j hj hends => hnone ⟨j, hj, hends⟩) (Nat.lt_irrefl _)
  obtain ⟨k, hk, hends⟩ := hsome
  have hfound : ∃ m, W.Ends m := ⟨k, hends⟩
  exact ⟨Nat.find hfound, (Nat.find_min' hfound hends).trans hk, Nat.find_spec hfound,
    fun i hi => Nat.find_min hfound hi⟩

end

/-! ### Counting the rounds -/

/-- The same read with a count of the rounds, of which there were `k` already. -/
def counted (W : Wait ε) (k : Nat) : Wait (ε × Nat) where
  toSchedule := W.toSchedule.counted
  start := (W.start, k)
  room := W.room
  limit := W.limit
  waiting := W.waiting
  entering e := W.entering e.1

theorem moment_counted (W : Wait ε) (k i : Nat) : (W.counted k).moment i = (W.moment i, k + i) := by
  induction i with
  | zero => rfl
  | succ i ih =>
    rw [moment_succ, moment_succ, ih]
    rfl

theorem time_counted (W : Wait ε) (k i : Nat) : (W.counted k).time i = W.time i := by
  rw [time, time, moment_counted]
  rfl

theorem got_counted (W : Wait ε) (k i : Nat) : (W.counted k).got i = W.got i := by
  have hcome : (W.counted k).come i = W.come i := by
    induction i with
    | zero => rfl
    | succ i ih =>
      rw [come, come, ih, moment_counted]
      rfl
  rw [got, got, hcome]
  rfl

theorem latest_counted (W : Wait ε) (k i : Nat) : (W.counted k).latest i = W.latest i := by
  induction i with
  | zero => rfl
  | succ i ih => rw [latest, latest, got_counted, got_counted, time_counted, ih]

theorem ends_counted (W : Wait ε) (k i : Nat) : (W.counted k).Ends i ↔ W.Ends i := by
  rw [Ends, Ends, got_counted, latest_counted, time_counted]
  rfl

/-! ## The loop -/

/-- The answer of a read that ends at a look. -/
structure Tells (W : Wait ε) (w : CharWidth) (m : Nat) (reply : ReadReply) : Prop where
  length_eq : reply.bytes.length = W.got m * w.bytes
  outcome_eq : reply.outcome =
    if W.got m = 0 then .error .shouldWait else .ok (W.got m * w.bytes)

/-- How a read comes out that looks at the queue for the `i`-th time with some patience left. -/
inductive Course (W : Wait ε) (w : CharWidth) (view : σ → ε) (i patience : Nat) :
    EStateM.Result Halt (Bench σ) ReadReply → Prop where
  | ends {m : Nat} {reply : ReadReply} {b : Bench σ} (hpatience : m < patience)
      (hopen : ∀ j < m, ¬ W.Ends (i + j)) (hends : W.Ends (i + m)) (htells : W.Tells w (i + m) reply)
      (hview : view b.outside = W.moment (i + m)) : Course W w view i patience (.ok reply b)
  | unfinished {b : Bench σ} (hopen : ∀ j < patience, ¬ W.Ends (i + j)) :
      Course W w view i patience (.error .unfinished b)

theorem Course.succ {w : CharWidth} {view : σ → ε} {patience : Nat}
    {result : EStateM.Result Halt (Bench σ) ReadReply} (hi : ¬ W.Ends i)
    (h : Course W w view (i + 1) patience result) : Course W w view i (patience + 1) result := by
  have hlater {n : Nat} (hopen : ∀ j < n, ¬ W.Ends (i + 1 + j)) : ∀ j < n + 1, ¬ W.Ends (i + j) := by
    intro j hj
    cases j with
    | zero => exact hi
    | succ j =>
      have hopen' := hopen j (Nat.lt_of_succ_lt_succ hj)
      rwa [Nat.add_assoc, Nat.add_comm 1 j] at hopen'
  cases h with
  | @ends m reply b hpatience hopen hends htells hview =>
    rw [Nat.add_assoc, Nat.add_comm 1 m] at hends htells hview
    exact .ends (Nat.succ_lt_succ hpatience) (hlater hopen) hends htells hview
  | unfinished hopen => exact .unfinished (hlater hopen)

/-- A read that is answered ends at the first look at which there is reason to. -/
theorem Course.endsAt {w : CharWidth} {view : σ → ε × Nat} {k patience : Nat} {reply : ReadReply}
    {b : Bench σ} (h : (W.counted k).Course w view 0 patience (.ok reply b)) :
    ∃ m < patience, W.EndsAt m ∧ W.Tells w m reply ∧ (view b.outside).2 = k + m := by
  cases h with
  | @ends m _ _ hpatience hopen hends htells hview =>
    rw [Nat.zero_add] at hends htells hview
    refine ⟨m, hpatience, ⟨(W.ends_counted k m).mp hends, fun j hj hj' => ?_⟩, ?_, ?_⟩
    · refine hopen j hj ?_
      rw [Nat.zero_add]
      exact (W.ends_counted k j).mpr hj'
    · have hlength := htells.length_eq
      have houtcome := htells.outcome_eq
      rw [got_counted] at hlength houtcome
      exact ⟨hlength, houtcome⟩
    · rw [hview, moment_counted]

/-- A read is answered if there is reason to end before the patience is used up. -/
theorem Course.answered {w : CharWidth} {view : σ → ε × Nat} {k patience : Nat}
    {result : EStateM.Result Halt (Bench σ) ReadReply}
    (h : (W.counted k).Course w view 0 patience result) (hm : m < patience) (hends : W.Ends m) :
    ∃ reply b, result = .ok reply b := by
  cases h with
  | ends => exact ⟨_, _, rfl⟩
  | unfinished hopen =>
    refine absurd ?_ (hopen m hm)
    rw [Nat.zero_add]
    exact (W.ends_counted k m).mpr hends

end Wait

section
variable {u : Uart} {d : Driver σ} {p : Platform σ} {W : Wait ε} {capacity i patience : Nat}
  {words : List UInt16} {deadline : Deadline} {b : Bench σ}

/-- A read is about to look at the queue after so many rounds, with `words` in its buffer. -/
structure Looks (W : Wait ε) (I : Situated W.surroundings u d p) (capacity i : Nat)
    (words : List UInt16) (deadline : Deadline) (b : Bench σ) : Prop where
  view : I.view b.outside = W.moment i
  fits : I.Fits u capacity b
  room : words.length < W.room
  come : words.length + (I.waiting u b).length = W.come i
  limit : deadline.limit = W.limit
  latest : (if I.waiting u b = [] then deadline.start else W.time i) = W.latest i

variable {I : Situated W.surroundings u d p}

theorem ticks_situated (hview : I.view b.outside = W.moment i) :
    (p.ticks b).1 = W.time i ∧ I.view (p.ticks b).2.outside = W.moment i := by
  rw [I.ticks.answer b, I.ticks.view b, hview]
  exact ⟨rfl, rfl⟩

/-- A round of waiting. The queue was empty, so what waits afterwards has just come in. -/
theorem waitRound_situated (hview : I.view b.outside = W.moment i) (hb : I.Fits u capacity b)
    (hempty : I.waiting u b = []) :
    (p.waitRound b).1 = .ok () ∧ I.view (p.waitRound b).2.outside = W.moment (i + 1) ∧
      I.Fits u capacity (p.waitRound b).2 ∧
      (I.waiting u (p.waitRound b).2).length =
        Holdings.capped u capacity (W.coming (W.moment i)).length := by
  have henters := I.background b fun id hid => (hb.ready id hid).1
  have hseen := I.background_view b
  have hquiet := I.isInterrupted.answer (p.background b).2
  have hlooked := I.isInterrupted.view (p.background b).2
  have hstill := I.isInterrupted.still (p.background b).2
  have hlength := henters.length_waiting hb
  have hfits := henters.fits hb
  rw [hview] at hseen hlength
  rw [hempty, List.length_nil, Nat.zero_add] at hlength
  rw [hseen] at hlooked
  rcases hback : p.background b with ⟨⟨⟩, b₁⟩
  rcases hinterrupted : p.isInterrupted b₁ with ⟨interrupted, b₂⟩
  simp only [hback, hinterrupted] at hquiet hlooked hstill hlength hfits
  obtain rfl : interrupted = false := hquiet
  have heq : p.waitRound b = (.ok (), b₂) := by
    simp only [Platform.waitRound, bind, StateT.bind, hback, hinterrupted]
    rfl
  rw [heq, W.moment_succ]
  exact ⟨rfl, hlooked, hstill.fits hfits, by rw [hstill.waiting_eq, hlength]; rfl⟩

theorem nextDeadline_looks (h : Looks W I capacity i words deadline b) {bytes : List UInt8}
    {b₁ : Bench σ} (hbytes : bytes.isEmpty = (I.waiting u b).isEmpty)
    (hview : I.view b₁.outside = W.moment i) :
    ∃ deadline' b₂, nextDeadline p deadline bytes b₁ = (deadline', b₂) ∧
      deadline'.start = W.latest i ∧ deadline'.limit = W.limit ∧
      I.view b₂.outside = W.moment i ∧ I.Still u b₁ b₂ := by
  have hlatest := h.latest
  unfold nextDeadline
  rw [hbytes]
  cases hwaiting : I.waiting u b with
  | nil =>
    rw [hwaiting, if_pos rfl] at hlatest
    exact ⟨deadline, b₁, rfl, hlatest, h.limit, hview, .refl _ u b₁ b₁.log⟩
  | cons word rest =>
    rw [hwaiting, if_neg (List.cons_ne_nil _ _)] at hlatest
    obtain ⟨hnow, hseen⟩ := ticks_situated hview
    exact ⟨_, _, rfl, hnow.trans hlatest, h.limit, hseen, I.ticks.still b₁⟩

/-- What came in during a round is what the next look finds. -/
theorem looks_succ (hview : I.view b.outside = W.moment (i + 1)) (hb : I.Fits u capacity b)
    (hcame : (I.waiting u b).length = W.entering (W.moment i)) (hgot : words.length = W.got i)
    (hlt : W.got i < W.room) (hstart : deadline.start = W.latest i) (hlimit : deadline.limit = W.limit) :
    Looks W I capacity (i + 1) words deadline b := by
  refine ⟨hview, hb, by omega, ?_, hlimit, ?_⟩
  · rw [hcame, hgot, Wait.come]
    simp only [Wait.got] at hlt ⊢
    omega
  · have hprogress := Wait.got_lt_succ hlt
    rw [← hcame] at hprogress
    rw [Wait.latest]
    cases hwaiting : I.waiting u b with
    | nil =>
      rw [hwaiting] at hprogress
      rw [if_pos rfl, if_neg (by simpa using hprogress), hstart]
    | cons word rest =>
      rw [hwaiting] at hprogress
      rw [if_neg (List.cons_ne_nil _ _), if_pos (hprogress.mpr (Nat.succ_pos _))]

theorem course_finishRound (hentering : ∀ e, W.entering e =
      Holdings.capped u capacity (W.coming e).length)
    (hview : I.view b.outside = W.moment i) (hb : I.Fits u capacity b)
    (hgot : words.length = W.got i) (hempty : W.got i < W.room → I.waiting u b = [])
    (hstart : deadline.start = W.latest i) (hlimit : deadline.limit = W.limit) (hroom : 0 < W.room)
    (hrest : ∀ b, Looks W I capacity (i + 1) words deadline b →
      W.Course u.width I.view (i + 1) patience
        (u.receive d p (W.room * u.width.bytes) patience deadline (u.width.encode words) b)) :
    W.Course u.width I.view i (patience + 1)
      (u.finishRound d p (W.room * u.width.bytes) patience deadline (u.width.encode words) b) := by
  have hlength : (u.width.encode words).length = W.got i * u.width.bytes := by
    rw [CharWidth.length_encode, hgot]
  by_cases hfull : W.got i = W.room
  · have hnone : W.got i ≠ 0 := by omega
    rw [finishRound_of_full (by rw [hlength, hfull])]
    refine .ends (Nat.succ_pos patience) nofun (.inl hfull) ⟨hlength, ?_⟩ hview
    rw [Nat.add_zero, if_neg hnone, hlength]
  · have hopen : (u.width.encode words).length ≠ W.room * u.width.bytes := by
      rw [hlength]
      exact fun h => hfull (Nat.eq_of_mul_eq_mul_right u.width.bytes_pos h)
    have hexpired := expired_eq (p := p) deadline b
    obtain ⟨hnow, hseen⟩ := ticks_situated hview
    have hclock := I.ticks.still b
    rw [hnow, hlimit, hstart] at hexpired
    have hle := W.latest_le i
    generalize (p.ticks b).2 = b₁ at hexpired hseen hclock
    by_cases hover : W.limit ≤ W.time i - W.latest i
    · rw [decide_eq_true hover] at hexpired
      rw [finishRound_of_over hopen hexpired]
      refine .ends (Nat.succ_pos patience) nofun (.inr ?_) ⟨hlength, ?_⟩ hseen
      · rw [Nat.add_zero]
        omega
      · simp only [Nat.add_zero, hlength]
        cases words with
        | nil =>
          rw [← hgot]
          rfl
        | cons word words =>
          have hsome : (u.width.encode (word :: words)).isEmpty = false := by
            cases u.width <;> rfl
          rw [hsome, ← hgot]
          rfl
    · rw [decide_eq_false hover] at hexpired
      have hlt : W.got i < W.room := by
        have := W.got_le i
        omega
      have hends : ¬ W.Ends i := by
        rintro (h | h)
        · exact hfull h
        · omega
      have hnothing : I.waiting u b₁ = [] := by rw [hclock.waiting_eq, hempty hlt]
      obtain ⟨hgoes, hseen', hfits, hcame⟩ := waitRound_situated hseen (hclock.fits hb) hnothing
      rcases hwait : p.waitRound b₁ with ⟨result, b₂⟩
      rw [hwait] at hgoes hseen' hfits hcame
      cases hgoes
      rw [finishRound_of_waited hopen hexpired hwait]
      rw [← hentering] at hcame
      exact .succ hends (hrest b₂ (looks_succ hseen' hfits hcame hgot hlt hstart hlimit))

theorem course_receive (hentering : ∀ e, W.entering e =
      Holdings.capped u capacity (W.coming e).length)
    (h : Looks W I capacity i words deadline b) :
    W.Course u.width I.view i patience
      (u.receive d p (W.room * u.width.bytes) patience deadline (u.width.encode words) b) := by
  -- every look takes one of the patience
  induction patience generalizing i words deadline b with
  | zero => exact .unfinished nofun
  | succ patience ih =>
    rw [receive_succ]
    have hroom := h.room
    have hcome := h.come
    have hleft : (W.room * u.width.bytes - (u.width.encode words).length) / u.width.bytes =
        W.room - words.length := by
      rw [CharWidth.length_encode, ← Nat.sub_mul, Nat.mul_div_cancel _ u.width.bytes_pos]
    obtain ⟨hbytes, htakes⟩ := I.takes_takeWaiting
      (W.room * u.width.bytes - (u.width.encode words).length) h.fits
    rw [hleft] at hbytes htakes
    rcases htaken : u.takeWaiting d (W.room * u.width.bytes - (u.width.encode words).length) b with
      ⟨bytes, b₁⟩
    rw [htaken] at hbytes htakes
    simp only at hbytes htakes
    have hseen : I.view b₁.outside = W.moment i := htakes.view.trans h.view
    have hfits := htakes.fits capacity h.fits
    have hgot : (words ++ (I.waiting u b).take (W.room - words.length)).length = W.got i := by
      rw [List.length_append, List.length_take, Wait.got, ← hcome]
      omega
    have hempty : W.got i < W.room → I.waiting u b₁ = [] := by
      intro hlt
      rw [htakes.waiting, List.drop_eq_nil_iff]
      simp only [Wait.got] at hlt
      omega
    have hlatest := h.latest
    have hnone : bytes.isEmpty = (I.waiting u b).isEmpty := by
      rw [hbytes, encode_isEmpty, Bool.eq_iff_iff, List.isEmpty_iff, List.isEmpty_iff,
        List.take_eq_nil_iff]
      exact or_iff_right (by omega)
    obtain ⟨deadline', b₂, hnext, hstart, hlimit, hseen', hstill⟩ := nextDeadline_looks h hnone hseen
    simp only [hnext]
    rw [hbytes, ← CharWidth.encode_append]
    refine course_finishRound hentering hseen' (hstill.fits hfits) hgot (fun hlt => ?_) hstart hlimit
      (by omega) fun b hlooks => ih hlooks
    rw [hstill.waiting_eq]
    exact hempty hlt

/-! ## Calls -/

/-- A read that a line waits in. -/
def wait (u : Uart) (C : Schedule ε) (capacity room : Nat) (start : ε) (waiting : Nat) : Wait ε where
  toSchedule := C
  start := start
  room := room / u.width.bytes
  limit := u.patienceMillis
  waiting := waiting
  entering e := Holdings.capped u capacity (C.coming e).length

/-- What is promised of the end of a read. -/
structure EndsOnTime (W : Wait ε) (u : Uart) (d : Driver σ) (p : Platform σ) (room : Nat)
    (b : Bench (Recorded σ)) : Prop where
  /-- It ends at the first look at which there is reason to. -/
  ends : ∀ m < p.patience, W.EndsAt m → ∃ reply b',
    u.read d.recorded p.recorded room b = .ok reply b' ∧ W.Tells u.width m reply ∧
      rounds b' = rounds b + m
  /-- It ends at no other. -/
  sound : ∀ reply b', u.read d.recorded p.recorded room b = .ok reply b' →
    ∃ m < p.patience, W.EndsAt m ∧ W.Tells u.width m reply ∧ rounds b' = rounds b + m
  /-- What comes in during a round is taken, also if the timeout passes in that round. -/
  restarts : ∀ i, W.got i < W.room → 0 < W.entering (W.moment i) →
    W.got i < W.got (i + 1) ∧ W.latest (i + 1) = W.time (i + 1)
  bounded : (∀ e, W.now e + 1 ≤ W.now (W.next e)) → W.room * W.limit < p.patience →
    ∃ reply b', u.read d.recorded p.recorded room b = .ok reply b' ∧
      rounds b' ≤ rounds b + W.room * W.limit

theorem course_read {C : Schedule ε} (I : Situated C.surroundings u d p) (hlive : u.isShut = false)
    (hreceives : u.receives = true) {room : Nat} (hroom : u.width.bytes ≤ room)
    (hb : I.Fits u capacity b) :
    (u.wait C capacity room (I.view b.outside) (I.waiting u b).length).Course u.width I.view 0
      p.patience (u.read d p room b) := by
  rw [read_accepted hlive hreceives hroom]
  have hclock := I.ticks.still b
  refine course_receive (W := u.wait C capacity room (I.view b.outside) (I.waiting u b).length)
    (I := I) (fun _ => rfl) ⟨?_, hclock.fits hb, ?_, ?_, rfl, ?_⟩
  · exact I.ticks.view b
  · exact Nat.div_pos hroom u.width.bytes_pos
  · rw [List.length_nil, Nat.zero_add]
    exact congrArg List.length hclock.waiting_eq
  · have hnow : (p.ticks b).1 = C.now (I.view b.outside) := I.ticks.answer b
    split
    · exact hnow
    · rfl

/-- A read of a live line ends when its buffer is full or when the timeout has passed since it last took a
character, and at no other time. -/
theorem read_ends_on_time {C : Schedule ε} (I : Situated C.surroundings u d p)
    (hlive : u.isShut = false) (hreceives : u.receives = true) {room : Nat}
    (hroom : u.width.bytes ≤ room) {b : Bench (Recorded σ)} (hb : I.Fits u capacity b.unrecorded) :
    EndsOnTime (u.wait C capacity room (I.view b.outside.inner) (I.waiting u b.unrecorded).length) u d p
      room b := by
  generalize hW : u.wait C capacity room (I.view b.outside.inner)
    (I.waiting u b.unrecorded).length = W
  have hcourse : (W.counted (0 + rounds b)).Course u.width (I.counted 0).view 0 p.patience
      (u.read d.recorded p.recorded room b) := by
    rw [← hW]
    exact course_read (C := C.counted) (I.counted 0) hlive hreceives hroom
      ⟨hb.ready, hb.capacity_eq⟩
  have hsound (reply : ReadReply) (b' : Bench (Recorded σ))
      (h : u.read d.recorded p.recorded room b = .ok reply b') :
      ∃ m < p.patience, W.EndsAt m ∧ W.Tells u.width m reply ∧ rounds b' = rounds b + m := by
    rw [h] at hcourse
    obtain ⟨m, hm, hends, htells, hcount⟩ := hcourse.endsAt
    have hrounds : 0 + rounds b' = 0 + rounds b + m := hcount
    exact ⟨m, hm, hends, htells, by omega⟩
  have hends (m : Nat) (hm : m < p.patience) (hfirst : W.EndsAt m) : ∃ reply b',
      u.read d.recorded p.recorded room b = .ok reply b' ∧ W.Tells u.width m reply ∧
        rounds b' = rounds b + m := by
    obtain ⟨reply, b', hanswer⟩ := hcourse.answered hm hfirst.ends
    obtain ⟨m', -, hfirst', htells, hrounds⟩ := hsound reply b' hanswer
    rw [hfirst'.unique hfirst] at htells hrounds
    exact ⟨reply, b', hanswer, htells, hrounds⟩
  refine ⟨hends, hsound, fun i hopen hcame =>
    ⟨(Wait.got_lt_succ hopen).mpr hcame, Wait.latest_of_entering hopen hcame⟩,
    fun hclock hpatience => ?_⟩
  obtain ⟨m, hm, hfirst⟩ := Wait.exists_endsAt hclock
  obtain ⟨reply, b', hanswer, -, hrounds⟩ := hends m (by omega) hfirst
  exact ⟨reply, b', hanswer, by omega⟩

end

/-! ## A late character -/

/-- A clock that moves on by half a second in every round. One character comes in during the second. -/
def lateSchedule : Schedule Nat where
  now t := t
  coming t := if t = 500 then [0x141] else []
  next t := t + 500
  onward t := Nat.le_add_right t 500

def lateLine : Uart := { nineBitLine with rxBuffer := none }

def lateBench : Bench (Recorded (Station Nat)) where
  outside := { inner := { around := 0 } }

/-- The line waits for two characters, for a second each. -/
def lateWait : Wait Nat := lateLine.wait lateSchedule 0 5 0 0

/-- The character comes in just as the second passes. It is taken, and the read gives up two rounds
later. -/
theorem read_ends_on_time_late :
    EndsOnTime lateWait lateLine (Station.driver none)
        (Station.platform lateSchedule.surroundings none 5) 5 lateBench ∧
      ∃ reply b', lateLine.read (Station.driver none).recorded
        (Station.platform lateSchedule.surroundings none 5).recorded 5 lateBench = .ok reply b' ∧
          reply.outcome = .ok 2 ∧ rounds b' = 4 := by
  have hfits : (Station.situated lateSchedule.surroundings lateLine 5).Fits lateLine 0
      lateBench.unrecorded := Holdings.fits_of_unbuffered rfl _
  have hroom : lateLine.width.bytes ≤ 5 := by decide
  have hall : EndsOnTime lateWait lateLine (Station.driver none)
      (Station.platform lateSchedule.surroundings none 5) 5 lateBench :=
    read_ends_on_time (Station.situated lateSchedule.surroundings lateLine 5) rfl rfl hroom hfits
  have hgot : lateWait.got 4 = 1 := by decide +kernel
  obtain ⟨reply, b', hread, htells, hrounds⟩ :=
    hall.ends 4 (by decide) ⟨by decide +kernel, by decide +kernel⟩
  have houtcome := htells.outcome_eq
  rw [hgot] at houtcome
  exact ⟨hall, reply, b', hread, houtcome, hrounds⟩

end SerialLine.Uart
