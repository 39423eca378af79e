import SerialLine.Proofs.Sending.Delivery
import SerialLine.Proofs.Streams.Filling
/-! # Writing to a stream

What a transfer offers to a stream, and what the stream accepts of it.

* `noted`: a stream that keeps the offers made to it, with what it answered.
* `Accepting`: a stream that answers every offer, and accepts no more than it was offered.
* `Offers`: the offers of a transfer, one constructor per exit of its loop.
* `offers_drain`: the loop makes such offers, by induction on the data that is left.
* `shows_drain_line`: the characters that a transfer to a line hands over, by the same induction.
* `writes_once`: every byte is offered until it is accepted, and never again.
-/
set_option autoImplicit false

namespace SerialLine

namespace Stream

/-! ## Offers -/

/-- Data offered to a stream, and its answer. -/
structure Offer where
  data : List UInt8
  result : Except Error Nat

namespace Offer

/-- How many bytes were accepted. -/
def count (offer : Offer) : Nat :=
  match offer.result with
  | .ok n => n
  | .error _ => 0

/-- The bytes that were accepted. -/
def taken (offer : Offer) : List UInt8 := offer.data.take offer.count

end Offer

def accepted (offers : List Offer) : Nat := (offers.map Offer.count).sum

@[simp] theorem accepted_nil : accepted [] = 0 := rfl

@[simp] theorem accepted_cons (offer : Offer) (offers : List Offer) :
    accepted (offer :: offers) = offer.count + accepted offers := by
  simp [accepted]

variable {W : Type}

/-- The same stream, which keeps the offers made to it. -/
def noted (s : Stream W) : Stream (W × List Offer) where
  read buffer := Act.onPart Prod.fst (fun w v => (w, v.2)) (s.read buffer)
  write data := fun v =>
    match s.write data v.1 with
    | .ok result w => .ok result (w, v.2 ++ [⟨data, result⟩])
    | .error e w => .error e (w, v.2)
  control request := Act.onPart Prod.fst (fun w v => (w, v.2)) (s.control request)
  properties v := s.properties v.1

/-- A stream that answers whatever it is offered, and accepts no more than that. -/
structure Accepting (s : Stream W) : Prop where
  answers : ∀ data w, ∃ result w', s.write data w = .ok result w'
  count_le : ∀ data w n w', s.write data w = .ok (.ok n) w' → n ≤ data.length

/-- The offers of a transfer that has moved `done` bytes and still has the data `rest`, and what it comes
to. -/
inductive Offers : Nat → List UInt8 → List Offer → Except Error Progress → Prop where
  | all {done : Nat} : Offers done [] [] (.ok ⟨done, false⟩)
  | ended {done : Nat} {rest : List UInt8} (hrest : rest ≠ []) :
      Offers done rest [⟨rest, .ok 0⟩] (.ok ⟨done, false⟩)
  | blocked {done : Nat} {rest : List UInt8} (hrest : rest ≠ []) :
      Offers done rest [⟨rest, .error .shouldWait⟩] (.ok ⟨done, true⟩)
  | failed {done : Nat} {rest : List UInt8} {e : Error} (hrest : rest ≠ []) (he : e ≠ .shouldWait) :
      Offers done rest [⟨rest, .error e⟩] (.error e)
  | more {done n : Nat} {rest : List UInt8} {offers : List Offer} {result : Except Error Progress}
      (hn : n + 1 ≤ rest.length) (h : Offers (done + (n + 1)) (rest.drop (n + 1)) offers result) :
      Offers done rest (⟨rest, .ok (n + 1)⟩ :: offers) result

/-! ## The loop -/

section
variable {s : Stream W} {done : Nat} {rest : List UInt8} {w w' : W}

theorem drain_nil : s.drain done [] w = .ok (.ok ⟨done, false⟩) w := by
  rw [drain]
  rfl

theorem drain_of_ended (hrest : rest ≠ []) (hwrite : s.write rest w = .ok (.ok 0) w') :
    s.drain done rest w = .ok (.ok ⟨done, false⟩) w' := by
  obtain ⟨byte, bytes, rfl⟩ := List.exists_cons_of_ne_nil hrest
  rw [drain, Act.bind_of_ok hwrite]
  rfl

theorem drain_of_blocked (hrest : rest ≠ []) (hwrite : s.write rest w = .ok (.error .shouldWait) w') :
    s.drain done rest w = .ok (.ok ⟨done, true⟩) w' := by
  obtain ⟨byte, bytes, rfl⟩ := List.exists_cons_of_ne_nil hrest
  rw [drain, Act.bind_of_ok hwrite]
  rfl

theorem drain_of_failed {e : Error} (hrest : rest ≠ []) (he : e ≠ .shouldWait)
    (hwrite : s.write rest w = .ok (.error e) w') : s.drain done rest w = .ok (.error e) w' := by
  obtain ⟨byte, bytes, rfl⟩ := List.exists_cons_of_ne_nil hrest
  rw [drain, Act.bind_of_ok hwrite]
  simp only
  rfl

theorem drain_of_more {n : Nat} (hrest : rest ≠ []) (hwrite : s.write rest w = .ok (.ok (n + 1)) w')
    (hcount : done + (n + 1) < countLimit) :
    s.drain done rest w = s.drain (done + (n + 1)) (rest.drop (n + 1)) w' := by
  obtain ⟨byte, bytes, rfl⟩ := List.exists_cons_of_ne_nil hrest
  have hadd : addCounts (W := W) done (n + 1) w' = .ok (done + (n + 1)) w' := by
    rw [addCounts, if_pos hcount]
    rfl
  rw [drain, Act.bind_of_ok hwrite]
  exact Act.bind_of_ok hadd

theorem noted_write {data : List UInt8} {result : Except Error Nat} (offers : List Offer)
    (hwrite : s.write data w = .ok result w') :
    s.noted.write data (w, offers) = .ok result (w', offers ++ [⟨data, result⟩]) := by
  simp only [noted, hwrite]

theorem offers_drain (h : s.Accepting) (done : Nat) (rest : List UInt8)
    (hcount : done + rest.length < countLimit) (w : W) (before : List Offer) :
    ∃ result w' offers, s.drain done rest w = .ok result w' ∧
      s.noted.drain done rest (w, before) = .ok result (w', before ++ offers) ∧
      Offers done rest offers result := by
  induction hlength : rest.length using Nat.strong_induction_on generalizing done rest w before with
  | h length ih =>
    subst hlength
    by_cases hrest : rest = []
    · subst hrest
      exact ⟨_, w, [], drain_nil, by rw [List.append_nil]; exact drain_nil, .all⟩
    obtain ⟨result, w₁, hwrite⟩ := h.answers rest w
    have hnoted := noted_write before hwrite
    match result with
    | .error e =>
      rcases eq_or_ne e .shouldWait with rfl | he
      · exact ⟨_, w₁, _, drain_of_blocked hrest hwrite, drain_of_blocked hrest hnoted, .blocked hrest⟩
      · exact ⟨_, w₁, _, drain_of_failed hrest he hwrite, drain_of_failed hrest he hnoted,
          .failed hrest he⟩
    | .ok 0 => exact ⟨_, w₁, _, drain_of_ended hrest hwrite, drain_of_ended hrest hnoted, .ended hrest⟩
    | .ok (n + 1) =>
      have hn : n + 1 ≤ rest.length := h.count_le rest w _ w₁ hwrite
      have hleft : (rest.drop (n + 1)).length = rest.length - (n + 1) := List.length_drop
      obtain ⟨result, w', offers, hdrain, hdrain', hoffers⟩ := ih _ (by omega) (done + (n + 1))
        (rest.drop (n + 1)) (by omega) w₁ (before ++ [⟨rest, .ok (n + 1)⟩]) rfl
      refine ⟨result, w', _, (drain_of_more hrest hwrite (by omega)).trans hdrain, ?_, .more hn hoffers⟩
      rw [drain_of_more hrest hnoted (by omega), hdrain', List.append_assoc]
      rfl

end

/-! ## What the offers tell -/

section
variable {done : Nat} {rest : List UInt8} {offers : List Offer} {result : Except Error Progress}
  (h : Offers done rest offers result)
include h

/-- What is offered is what was not accepted yet. -/
theorem Offers.suffix {before after : List Offer} {offer : Offer}
    (hsplit : offers = before ++ offer :: after) : offer.data = rest.drop (accepted before) := by
  induction h generalizing before with
  | all => simp at hsplit
  | @more done n rest offers result hn h ih =>
    cases before with
    | nil =>
      cases hsplit
      rfl
    | cons first before =>
      obtain ⟨rfl, hrest⟩ := List.cons.inj hsplit
      rw [ih hrest, List.drop_drop, accepted_cons]
      rfl
  | _ =>
    obtain ⟨rfl, rfl, -⟩ := List.append_eq_singleton_iff.mp hsplit.symm |>.resolve_right (by simp)
    rfl

theorem Offers.accepted_le : accepted offers ≤ rest.length := by
  induction h with
  | more hn h ih =>
    rw [List.length_drop] at ih
    simp only [accepted_cons, Offer.count]
    omega
  | _ => exact Nat.zero_le _

theorem Offers.taken_eq : offers.flatMap Offer.taken = rest.take (accepted offers) := by
  induction h with
  | @more done n rest offers result hn h ih =>
    rw [List.flatMap_cons, ih, accepted_cons]
    exact List.take_add.symm
  | _ => rfl

theorem Offers.length_le : offers.length ≤ rest.length := by
  induction h with
  | all => exact le_rfl
  | more hn h ih =>
    rw [List.length_drop] at ih
    simp only [List.length_cons]
    omega
  | ended hrest => exact List.length_pos_iff.mpr hrest
  | blocked hrest => exact List.length_pos_iff.mpr hrest
  | failed hrest => exact List.length_pos_iff.mpr hrest

theorem Offers.count_eq {progress : Progress} (hresult : result = .ok progress) :
    progress.count = done + accepted offers := by
  induction h with
  | failed => cases hresult
  | more hn h ih =>
    rw [ih hresult, accepted_cons, Nat.add_assoc]
    rfl
  | _ =>
    cases hresult
    rfl

/-- A transfer that answers without having moved everything was stopped by its last offer. -/
theorem Offers.short {progress : Progress} (hresult : result = .ok progress)
    (hshort : accepted offers < rest.length) : ∃ last, offers.getLast? = some last ∧
      (last.result = .ok 0 ∨ last.result = .error .shouldWait) := by
  induction h with
  | all => simp at hshort
  | ended => exact ⟨_, rfl, .inl rfl⟩
  | blocked => exact ⟨_, rfl, .inr rfl⟩
  | failed => cases hresult
  | @more done n rest offers result hn h ih =>
    have hleft : accepted offers < (rest.drop (n + 1)).length := by
      rw [List.length_drop]
      simp only [accepted_cons, Offer.count] at hshort
      omega
    obtain ⟨last, hlast, hend⟩ := ih hresult hleft
    refine ⟨last, ?_, hend⟩
    rw [List.getLast?_cons, hlast]
    rfl

/-- A transfer is blocked before it has moved anything if its first offer is. -/
theorem Offers.blocked_iff : result = .ok ⟨done, true⟩ ↔
    offers.head?.map Offer.result = some (.error .shouldWait) := by
  cases h with
  | all => simp
  | ended => simp
  | blocked => simp
  | failed hrest he => simp [he]
  | more hn h =>
    refine iff_of_false (fun hresult => ?_) (by simp)
    have hmoved : done = _ := h.count_eq hresult
    omega

theorem Offers.error_iff (e : Error) : result = .error e ↔
    e ≠ .shouldWait ∧ ∃ offer ∈ offers, offer.result = .error e := by
  induction h with
  | all => simp
  | ended => simp
  | blocked => simp [eq_comm]
  | failed hrest he =>
    simp only [List.mem_singleton, exists_eq_left, Except.error.injEq]
    exact ⟨fun heq => ⟨heq ▸ he, heq⟩, And.right⟩
  | more hn h ih => simp [ih]

end

/-! ## What is promised -/

/-- What is promised of a transfer to a stream: of the offers made, and of the answer. -/
structure WritesOnce (data : List UInt8) (offers : List Offer) (answer : Except Error (Option Nat)) :
    Prop where
  /-- What is offered is all the data that was not accepted yet. -/
  suffix : ∀ before offer after, offers = before ++ offer :: after →
    offer.data = data.drop (accepted before)
  taken : offers.flatMap Offer.taken = data.take (accepted offers)
  /-- The answer tells how much was accepted, and that is less than everything only if the stream
  accepted nothing in the end. -/
  count : ∀ k, answer = .ok (some k) → k = accepted offers ∧ k ≤ data.length ∧
    (k < data.length → ∃ last, offers.getLast? = some last ∧
      (last.result = .ok 0 ∨ last.result = .error .shouldWait))
  none_iff : answer = .ok none ↔
    data ≠ [] ∧ offers.head?.map Offer.result = some (.error .shouldWait)
  error_iff : ∀ e, answer = .error e ↔
    e ≠ .shouldWait ∧ ∃ offer ∈ offers, offer.result = .error e
  /-- In particular, no offer is made of no data. -/
  few : offers.length ≤ data.length

theorem Progress.answer?_eq_none_iff (progress : Progress) :
    progress.answer? = none ↔ progress = ⟨0, true⟩ := by
  obtain ⟨count, blocked⟩ := progress
  simp [answer?]

theorem Progress.answer?_getD (progress : Progress) : progress.answer?.getD 0 = progress.count := by
  unfold answer?
  split_ifs with hblocked
  · simp only [Bool.and_eq_true, decide_eq_true_eq] at hblocked
    exact hblocked.1.symm
  · rfl

theorem Offers.writesOnce {data : List UInt8} {offers : List Offer} {result : Except Error Progress}
    (h : Offers 0 data offers result) : WritesOnce data offers (result.map Progress.answer?) where
  suffix _ _ _ hsplit := h.suffix hsplit
  taken := h.taken_eq
  count k hk := by
    cases result with
    | error e => cases hk
    | ok progress =>
      have hcount := h.count_eq rfl
      rw [← Progress.answer?_getD, Except.ok.inj hk, Nat.zero_add] at hcount
      obtain rfl : k = accepted offers := hcount
      exact ⟨rfl, h.accepted_le, h.short rfl⟩
  none_iff := by
    rw [← h.blocked_iff]
    constructor
    · intro hnone
      cases result with
      | error e => cases hnone
      | ok progress =>
        obtain rfl := (Progress.answer?_eq_none_iff progress).mp (Except.ok.inj hnone)
        refine ⟨?_, rfl⟩
        rintro rfl
        cases h with
        | blocked hrest => exact hrest rfl
        | more hn => simp at hn
    · rintro ⟨-, rfl⟩
      rfl
  error_iff e := by
    rw [← h.error_iff]
    cases result with
    | error e' => exact ⟨fun heq => by cases heq; rfl, fun heq => by cases heq; rfl⟩
    | ok progress => exact iff_of_false nofun nofun
  few := h.length_le

theorem writeBytes_offers {s : Stream W} (h : s.Accepting) {data : List UInt8}
    (hdata : data.length ≤ maxBytes) (w : W) :
    ∃ answer w' offers, s.writeBytes data w = .ok answer w' ∧
      s.noted.writeBytes data (w, []) = .ok answer (w', offers) ∧ WritesOnce data offers answer := by
  have hcount : maxBytes < countLimit := by decide
  obtain ⟨result, w', offers, hdrain, hnoted, hoffers⟩ := offers_drain h 0 data (by omega) w []
  exact ⟨_, w', offers, Act.bind_of_ok hdrain, Act.bind_of_ok hnoted, hoffers.writesOnce⟩

end Stream

namespace Uart

variable {σ : Type} {u : Uart} {d : Driver σ} {p : Platform σ}

/-! ## Characters handed over to a line -/

/-- The characters that a transfer of the data `rest` to a line handed over, after `done` bytes: the first
ones, and as many as the count tells. -/
def HandsOver (u : Uart) (done : Nat) (rest : List UInt8) (es : List Event)
    (answer : Option (Except Error Stream.Progress)) : Prop :=
  ∃ k ≤ rest.length / u.width.bytes, sentWords es = (u.width.decode rest).take k ∧
    ∀ progress, answer = some (.ok progress) → progress.count = done + k * u.width.bytes

theorem decode_drop (w : CharWidth) (k : Nat) (data : List UInt8) :
    w.decode (data.drop (k * w.bytes)) = (w.decode data).drop k := by
  cases w with
  | narrow => simp [CharWidth.decode, CharWidth.bytes]
  | wide =>
    induction k generalizing data with
    | zero => simp
    | succ k ih =>
      cases data with
      | nil => simp [CharWidth.decode]
      | cons low rest =>
        cases rest with
        | nil => simp [CharWidth.decode, CharWidth.bytes, Nat.succ_mul]
        | cons high rest =>
          rw [Nat.succ_mul]
          exact ih rest

theorem HandsOver.nothing {done : Nat} {rest : List UInt8} {es : List Event}
    {answer : Option (Except Error Stream.Progress)} (hes : sentWords es = [])
    (hcount : ∀ progress, answer = some (.ok progress) → progress.count = done) :
    HandsOver u done rest es answer :=
  ⟨0, Nat.zero_le _, hes, fun progress h => by rw [hcount progress h, Nat.zero_mul, Nat.add_zero]⟩

/-- The characters of one call, and then those of the data behind them. -/
theorem HandsOver.behind {done k : Nat} {rest : List UInt8} {es es' : List Event}
    {answer : Option (Except Error Stream.Progress)} (hk : k ≤ rest.length / u.width.bytes)
    (hes : sentWords es = (u.width.decode rest).take k)
    (h : HandsOver u (done + k * u.width.bytes) (rest.drop (k * u.width.bytes)) es' answer) :
    HandsOver u done rest (es ++ es') answer := by
  obtain ⟨k', hk', hes', hcount⟩ := h
  have hleft : (rest.drop (k * u.width.bytes)).length / u.width.bytes =
      rest.length / u.width.bytes - k := by
    rw [List.length_drop, Nat.mul_comm, Nat.sub_mul_div]
  refine ⟨k + k', by omega, ?_, fun progress hprogress => ?_⟩
  · rw [sentWords_append, hes, hes', decode_drop, List.take_add]
  · rw [hcount progress hprogress, Nat.add_mul, Nat.add_assoc]

theorem shows_counts (data : List UInt8) :
    Shows (Counts u data) (u.write d.recorded p.recorded data) := by
  by_cases hdata : u.Transmits data
  · exact (shows_write hdata).mono fun es answer hwrites => hwrites.counts hdata
  · intro b
    obtain ⟨answer, hend, hdelivery⟩ := write_idle (d := d.recorded) (p := p.recorded) hdata b
    rw [Act.final, Act.answer?, hend]
    exact ⟨[], (List.append_nil _).symm, hdelivery.counts⟩

/-- By induction on the data that is left, whatever the line and whether or not a call halts. -/
theorem shows_drain_line (done : Nat) (rest : List UInt8) : Shows (HandsOver u done rest)
    ((u.stream d.recorded p.recorded).drain done rest) := by
  induction hlength : rest.length using Nat.strong_induction_on generalizing done rest with
  | h length ih =>
    subst hlength
    cases rest with
    | nil =>
      rw [Stream.drain]
      exact shows_pure (.nothing rfl fun progress h => by cases h; rfl)
    | cons byte bytes =>
      rw [Stream.drain]
      refine (shows_counts (byte :: bytes)).bind ?_ ?_
      · rintro es ⟨k, hk, hes, -⟩
        exact ⟨k, hk, hes, by simp⟩
      · rintro es result ⟨k, hk, hes, hok, hshould⟩
        have hunsent (hzero : k = 0) : sentWords (es ++ []) = [] := by
          rw [List.append_nil, hes, hzero, List.take_zero]
        cases result with
        | ok n =>
          have hmoved : n = k * u.width.bytes := (hok n rfl).1
          cases n with
          | zero =>
            have hzero : k = 0 := (Nat.mul_eq_zero.mp hmoved.symm).resolve_right u.width.bytes_pos.ne'
            exact shows_pure (.nothing (hunsent hzero) fun progress h => by cases h; rfl)
          | succ n =>
            have hrest : bytes.drop n = (byte :: bytes).drop (k * u.width.bytes) := by
              rw [← hmoved]
              rfl
            simp only [Stream.addCounts]
            split
            · rw [pure_bind, hrest, hmoved]
              refine (ih _ ?_ _ _ rfl).mono fun es' answer h => h.behind hk hes
              rw [← hrest, List.length_drop, List.length_cons]
              omega
            · exact shows_throw ⟨k, hk, hes ▸ by rw [List.append_nil], by simp⟩
        | error e =>
          rcases eq_or_ne e .shouldWait with rfl | he
          · exact shows_pure (.nothing (hunsent (hshould rfl).1) fun progress h => by cases h; rfl)
          · simp only
            refine shows_pure ⟨k, hk, ?_, by simp⟩
            rw [List.append_nil, hes]

theorem shows_writeBytes_line (data : List UInt8) :
    Shows (fun es answer => sentWords es <+: u.width.decode data ∧
      ∀ count, answer = some (.ok count) → count.getD 0 = (sentWords es).length * u.width.bytes)
      ((u.stream d.recorded p.recorded).writeBytes data) := by
  refine (shows_drain_line 0 data).bind ?_ ?_
  · rintro es ⟨k, -, hes, -⟩
    exact ⟨hes ▸ List.take_prefix _ _, nofun⟩
  · rintro es result ⟨k, hk, hes, hcount⟩
    refine shows_pure ⟨?_, fun count hanswer => ?_⟩
    · rw [List.append_nil, hes]
      exact List.take_prefix _ _
    · cases result with
      | error e => cases hanswer
      | ok progress =>
        cases hanswer
        rw [List.append_nil, hes, List.length_take_of_le (length_decode _ _ ▸ hk),
          Stream.Progress.answer?_getD, hcount progress rfl, Nat.zero_add]

end Uart

namespace Stream

/-- Whatever a stream answers to offers: each is of the data that was not accepted yet, the bytes accepted
are the first ones in their order, and the answer tells how many, or which error was met. If the stream
is a line, of whatever width, as many bytes are told as the characters handed over have. -/
theorem writes_once {W : Type} {s : Stream W} (h : s.Accepting) {data : List UInt8}
    (hdata : data.length ≤ maxBytes) (w : W) {σ : Type} (u : Uart) (d : Driver σ) (p : Platform σ)
    (b : Bench (Recorded σ)) :
    (∃ answer w' offers, s.writeBytes data w = .ok answer w' ∧
      s.noted.writeBytes data (w, []) = .ok answer (w', offers) ∧ WritesOnce data offers answer) ∧
    ∃ es, (Act.final ((u.stream d.recorded p.recorded).writeBytes data) b).outside.events =
        b.outside.events ++ es ∧
      Uart.sentWords es <+: u.width.decode data ∧
      ∀ count, Act.answer? ((u.stream d.recorded p.recorded).writeBytes data) b =
          some (.ok count) → count.getD 0 = (Uart.sentWords es).length * u.width.bytes :=
  ⟨writeBytes_offers h hdata w, Uart.shows_writeBytes_line data b⟩

/-- A stream that answers offers as written down, as far as its data goes. -/
def replay : Stream (List (Except Error Nat)) where
  read _ := pure ⟨.ok 0, []⟩
  write data := fun results =>
    match results with
    | [] => .ok (.ok 0) []
    | .ok n :: results => .ok (.ok (min n data.length)) results
    | .error e :: results => .ok (.error e) results
  control _ := pure (.error .invalidArgs)

theorem accepting_replay : replay.Accepting where
  answers data results := by
    match results with
    | [] => exact ⟨_, _, rfl⟩
    | .ok n :: results => exact ⟨_, _, rfl⟩
    | .error e :: results => exact ⟨_, _, rfl⟩
  count_le data results n results' hwrite := by
    match results with
    | [] => cases hwrite; exact Nat.zero_le _
    | .ok n :: results => cases hwrite; exact Nat.min_le_right _ _
    | .error e :: results => cases hwrite

/-- Two bytes of three are accepted, and then nothing more. -/
theorem writes_once_replay :
    replay.writeBytes [1, 2, 3] [.ok 2, .error .shouldWait] = .ok (.ok (some 2)) [] ∧
      ∃ answer results offers,
        replay.writeBytes [1, 2, 3] [.ok 2, .error .shouldWait] = .ok answer results ∧
        replay.noted.writeBytes [1, 2, 3] ([.ok 2, .error .shouldWait], []) =
          .ok answer (results, offers) ∧
        WritesOnce [1, 2, 3] offers answer := by
  have hdrain : replay.drain 0 [1, 2, 3] [.ok 2, .error .shouldWait] = .ok (.ok ⟨2, true⟩) [] :=
    (drain_of_more (List.cons_ne_nil _ _) rfl (by decide)).trans
      (drain_of_blocked (List.cons_ne_nil _ _) rfl)
  refine ⟨Act.bind_of_ok hdrain, ?_⟩
  exact (writes_once accepting_replay (by decide) _ default Driver.inert Uart.steady
    { outside := ⟨0, []⟩ }).1

end Stream
end SerialLine
