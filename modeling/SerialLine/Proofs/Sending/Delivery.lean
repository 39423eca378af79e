import SerialLine.Proofs.Sending.Duration
/-! # What a write hands over

What is promised of a call to write, read off the grammar of its events.

* `Prompt`: every character is handed over right after both sides were found ready.
* `Stalled`: the whole timeout went by without a character accepted.
* `Sends.handsOver`: the characters handed over are the first ones of the data, and the count tells how
  many. Induction along the grammar; the deadline of the rest begins where a character was accepted.
* `write_delivers`: all that is promised of a call, and how long it may take.
-/
set_option autoImplicit false

namespace SerialLine.Uart

variable {σ : Type} {u : Uart} {deadline : Deadline} {es es' : List Event}

/-! ## Readiness before every character -/

/-- Every character was handed over right after the peripheral and the other side were found ready. -/
def Prompt (es : List Event) : Prop :=
  Preceded IsSend (fun before => [.isReady true, .clearToSend true] <:+ before) es

theorem Passive.prompt (h : Passive es) : Prompt es := .of_none fun e hmem => (h e hmem).1

theorem Prompt.append (h : Prompt es) (h' : Prompt es') : Prompt (es ++ es') :=
  Preceded.append h h' fun _ hready => hready.trans (List.suffix_append _ _)

theorem Waits.ready_suffix {answer : Option (Except Error Bool)} (h : Waits deadline es answer)
    (hanswer : answer = some (.ok true)) : [.isReady true, .clearToSend true] <:+ es := by
  induction h with
  | unfinished => cases hanswer
  | ready => exact List.suffix_rfl
  | expired => cases hanswer
  | canceled => cases hanswer
  | again hlook hleft hrest ih =>
    exact (ih hanswer).trans (List.suffix_append_of_suffix
      ((List.suffix_cons _ _).trans ((List.suffix_cons _ _).trans (List.suffix_cons _ _))))

theorem Sends.prompt {width written : Nat} {words : List UInt16}
    {answer : Option (Except Error Nat)} (h : Sends width words deadline written es answer) :
    Prompt es := by
  induction h with
  | done => exact preceded_nil
  | @sent word words deadline written now es es' answer hwait hrest ih =>
    have hfirst : Prompt (es ++ [.sendWord word]) :=
      Preceded.concat hwait.passive.prompt fun _ => hwait.ready_suffix rfl
    simpa using hfirst.append ((passive_ticks now).prompt.append ih)
  | stalled hwait => exact hwait.passive.prompt
  | canceled hwait => exact hwait.passive.prompt
  | unfinished hwait => exact hwait.passive.prompt

/-! ## Stalls -/

/-- A point at which a deadline begins: a character was just accepted, or the clock was not read yet. -/
def Begins (before : List Event) : Prop :=
  (∃ word, [.sendWord word] <:+ before) ∨
    sentWords before = [] ∧ ∀ now, Event.ticks now ∉ before

/-- The transmitter was found not ready when the whole limit had gone by since the call began or since
the last character that was accepted. -/
def Stalled (limit : Nat) (es : List Event) : Prop :=
  ∃ before start since look now after,
    es = before ++ .ticks start :: (since ++ (look ++ .ticks now :: after)) ∧ Begins before ∧
      sentWords since = [] ∧ Refused look ∧ limit ≤ now - start ∧ sentWords after = []

theorem Begins.preceded {before : List Event} (h : Begins before) (earlier : List Event)
    (word : UInt16) (start : Nat) (hhead : ∃ rest, before = [] ∨ before = .ticks start :: rest) :
    Begins (earlier ++ .sendWord word :: before) := by
  left
  rcases h with ⟨word', hword⟩ | ⟨-, hclock⟩
  · exact ⟨word', hword.trans ((List.suffix_cons _ _).trans (List.suffix_append _ _))⟩
  · obtain ⟨rest, rfl | rfl⟩ := hhead
    · exact ⟨word, List.suffix_append _ _⟩
    · exact absurd List.mem_cons_self (hclock start)

theorem Stalled.preceded {limit now : Nat} {word : UInt16} (h : Stalled limit (.ticks now :: es))
    (earlier : List Event) :
    Stalled limit (earlier ++ .sendWord word :: .ticks now :: es) := by
  obtain ⟨before, start, since, look, now', after, hes, hbegins, hrest⟩ := h
  refine ⟨earlier ++ .sendWord word :: before, start, since, look, now', after, ?_, ?_, hrest⟩
  · rw [hes]
    simp
  · refine hbegins.preceded earlier word now ?_
    cases before with
    | nil => exact ⟨[], .inl rfl⟩
    | cons e before =>
      cases hes
      exact ⟨before, .inr rfl⟩

theorem Stalled.directed {limit : Nat} {high : Bool} (h : Stalled limit es) :
    Stalled limit (.setDirection high :: es) := by
  obtain ⟨before, start, since, look, now, after, rfl, hbegins, hrest⟩ := h
  refine ⟨.setDirection high :: before, start, since, look, now, after, rfl, ?_, hrest⟩
  rcases hbegins with ⟨word, hword⟩ | ⟨hnothing, hclock⟩
  · exact .inl ⟨word, hword.trans (List.suffix_cons _ _)⟩
  · exact .inr ⟨hnothing, fun now hmem => hclock now (by simpa using hmem)⟩

theorem Stalled.followed {limit : Nat} (h : Stalled limit es) (hes' : sentWords es' = []) :
    Stalled limit (es ++ es') := by
  obtain ⟨before, start, since, look, now, after, rfl, hbegins, hsince, hlook, hlimit, hafter⟩ := h
  refine ⟨before, start, since, look, now, after ++ es', by simp, hbegins, hsince, hlook, hlimit, ?_⟩
  rw [sentWords_append, hafter, hes', List.append_nil]

theorem Waits.canceled_of_error {answer : Option (Except Error Bool)} {e : Error}
    (h : Waits deadline es answer) (hanswer : answer = some (.error e)) : e = .canceled := by
  induction h with
  | unfinished => cases hanswer
  | ready => cases hanswer
  | expired => cases hanswer
  | canceled =>
    cases hanswer
    rfl
  | again hlook hleft hrest ih => exact ih hanswer

theorem Sends.error_cases {width written : Nat} {words : List UInt16} {e : Error}
    {answer : Option (Except Error Nat)} (h : Sends width words deadline written es answer)
    (hanswer : answer = some (.error e)) : e = .shouldWait ∨ e = .canceled := by
  induction h with
  | done => cases hanswer
  | sent hwait hrest ih => exact ih hanswer
  | stalled hwait =>
    unfold Uart.stalled at hanswer
    split at hanswer
    · cases hanswer
      exact .inl rfl
    · cases hanswer
  | canceled hwait =>
    cases hanswer
    exact .inr (hwait.canceled_of_error rfl)
  | unfinished => cases hanswer

theorem Waits.over_stalled {answer : Option (Except Error Bool)} (h : Waits deadline es answer)
    (hanswer : answer = some (.ok false)) : ∃ since look now, es = since ++ (look ++ [.ticks now]) ∧
      sentWords since = [] ∧ Refused look ∧ deadline.limit ≤ now - deadline.start := by
  induction h with
  | unfinished => cases hanswer
  | ready => cases hanswer
  | @expired look now hlook hover => exact ⟨[], look, now, rfl, rfl, hlook, hover⟩
  | canceled => cases hanswer
  | @again look es now answer hlook hleft hrest ih =>
    obtain ⟨since, look', now', rfl, hsince, hrest'⟩ := ih hanswer
    refine ⟨look ++ .ticks now :: .background :: .isInterrupted false :: since, look', now', ?_, ?_,
      hrest'⟩
    · simp
    · rw [sentWords_append, hlook.passive.sendsNothing]
      exact hsince

/-! ## Characters handed over -/

theorem Sends.handsOver {width written : Nat} {words : List UInt16}
    {answer : Option (Except Error Nat)} (hwidth : 0 < width)
    (h : Sends width words deadline written es answer) :
    ∃ k ≤ words.length, sentWords es = words.take k ∧
      (∀ n, answer = some (.ok n) → n = written + k * width ∧
        (k = words.length ∨ Stalled deadline.limit (.ticks deadline.start :: es))) ∧
      (answer = some (.error .shouldWait) →
        written = 0 ∧ k = 0 ∧ Stalled deadline.limit (.ticks deadline.start :: es)) := by
  induction h with
  | done => exact ⟨0, le_rfl, rfl, fun n hn => by cases hn; simp, fun h => by cases h⟩
  | sent hwait hrest ih =>
    obtain ⟨k, hk, hsent, hok, hshould⟩ := ih
    refine ⟨k + 1, by simpa using hk, ?_, ?_, ?_⟩
    · rw [sentWords_append, hwait.passive.sendsNothing]
      exact congrArg (List.cons _) hsent
    · intro n hn
      obtain ⟨rfl, hend⟩ := hok n hn
      refine ⟨by rw [Nat.succ_mul]; omega, hend.imp (fun h => by simp [h]) fun hstall => ?_⟩
      exact hstall.preceded (_ :: _)
    · intro h
      have := (hshould h).1
      omega
  | @stalled word words deadline written es hwait =>
    obtain ⟨since, look, now, rfl, hsince, hlook, hover⟩ := hwait.over_stalled rfl
    have hstall : Stalled deadline.limit
        (.ticks deadline.start :: (since ++ (look ++ [.ticks now]))) :=
      ⟨[], _, since, look, now, [], rfl, .inr ⟨rfl, by simp⟩, hsince, hlook, hover, rfl⟩
    refine ⟨0, Nat.zero_le _, hwait.passive.sendsNothing, ?_, ?_⟩
    · intro n hn
      unfold Uart.stalled at hn
      split at hn
      · cases hn
      · cases hn
        exact ⟨by omega, .inr hstall⟩
    · intro h
      unfold Uart.stalled at h
      split at h
      · exact ⟨by assumption, rfl, hstall⟩
      · cases h
  | canceled hwait =>
    refine ⟨0, Nat.zero_le _, hwait.passive.sendsNothing, fun n hn => (by cases hn), fun h => ?_⟩
    rw [hwait.canceled_of_error rfl] at h
    cases h
  | unfinished hwait =>
    exact ⟨0, Nat.zero_le _, hwait.passive.sendsNothing, fun n hn => (by cases hn), fun h => by cases h⟩

/-! ## The promise -/

theorem length_decode (w : CharWidth) (data : List UInt8) :
    (w.decode data).length = data.length / w.bytes := by
  fun_induction CharWidth.decode w data with
  | case1 data => simp [CharWidth.bytes]
  | case2 low high rest ih =>
    simp only [CharWidth.bytes] at ih
    simp only [List.length_cons, ih, CharWidth.bytes]
    omega
  | case3 data hshort =>
    match data with
    | [] => rfl
    | [_] => simp [CharWidth.bytes]
    | low :: high :: rest => exact absurd rfl (hshort low high rest)

/-- The characters handed over are the first ones of the data, and the answer tells how many. -/
def Counts (u : Uart) (data : List UInt8) (es : List Event) (answer : Option (Except Error Nat)) : Prop :=
  ∃ k ≤ data.length / u.width.bytes, sentWords es = (u.width.decode data).take k ∧
    (∀ n, answer = some (.ok n) → n = k * u.width.bytes ∧
      (n = data.length ∨ Stalled u.patienceMillis es)) ∧
    (answer = some (.error .shouldWait) → k = 0 ∧ Stalled u.patienceMillis es)

/-- What is promised of a call to write: of the events that it adds and of its answer, if it comes to
one. -/
structure Delivery (u : Uart) (data : List UInt8) (es : List Event)
    (answer : Option (Except Error Nat)) : Prop where
  shut : u.isShut = true → answer = some (.error .deinitialized)
  mute : u.isShut = false → u.sends = false → answer = some (.error .notSupported)
  ragged : u.isShut = false → u.sends = true → data.length % u.width.bytes ≠ 0 →
    answer = some (.error .invalidArgs)
  nothing : u.isShut = false → u.sends = true → data = [] → answer = some (.ok 0)
  /-- Driver and platform are left alone when there is nothing to send. -/
  empty : data = [] → es = []
  /-- So they are by a call that is rejected. -/
  rejected : ∀ e, answer = some (.error e) → e = .shouldWait ∨ e = .canceled ∨ es = []
  counts : Counts u data es answer
  prompt : Prompt es

variable {data : List UInt8} {answer : Option (Except Error Nat)} {start : Nat}

theorem Sends.counts (hdata : u.Transmits data) (h : Sends u.width.bytes (u.width.decode data)
    ⟨start, u.patienceMillis⟩ 0 es answer) : Counts u data (.ticks start :: es) answer := by
  obtain ⟨k, hk, hsent, hok, hshould⟩ := h.handsOver u.width.bytes_pos
  rw [length_decode] at hk hok
  have hwhole : data.length / u.width.bytes * u.width.bytes = data.length :=
    Nat.div_mul_cancel (Nat.dvd_of_mod_eq_zero hdata.whole)
  refine ⟨k, hk, hsent, fun n hn => ?_, fun h => (hshould h).2⟩
  obtain ⟨rfl, hend⟩ := hok n hn
  rw [Nat.zero_add]
  exact ⟨rfl, hend.imp_left fun hall => by rw [hall, hwhole]⟩

/-- Turning the line around and waiting for it to be idle hands nothing over. -/
theorem Counts.directed {high : Bool} {result : Option (Except Error Nat)}
    (h : Counts u data (.ticks start :: es) result) (hes' : sentWords es' = [])
    (hok : ∀ n, answer = some (.ok n) → result = some (.ok n))
    (hshould : answer = some (.error .shouldWait) → result = some (.error .shouldWait)) :
    Counts u data (.setDirection high :: .ticks start :: (es ++ es')) answer := by
  obtain ⟨k, hk, hsent, hcount, hnone⟩ := h
  have hstall (h : Stalled u.patienceMillis (.ticks start :: es)) :
      Stalled u.patienceMillis (.setDirection high :: .ticks start :: (es ++ es')) :=
    (h.followed hes').directed
  refine ⟨k, hk, ?_, ?_, ?_⟩
  · show sentWords (es ++ es') = _
    rw [sentWords_append, hes', List.append_nil]
    exact hsent
  · intro n hn
    exact (hcount n (hok n hn)).imp_right fun h => h.imp_right hstall
  · intro h
    exact (hnone (hshould h)).imp_right hstall

theorem drainedAnswer_ok {result : Except Error Nat} {drained : Except Error Bool} {n : Nat}
    (h : drainedAnswer result drained = .ok n) : result = .ok n := by
  unfold drainedAnswer at h
  split at h
  · cases h
  · exact h

theorem drainedAnswer_error {result : Except Error Nat} {drained : Except Error Bool} {e : Error}
    (h : drainedAnswer result drained = .error e) : result = .error e ∨ e = .canceled := by
  unfold drainedAnswer at h
  split at h
  · cases h
    exact .inr rfl
  · exact .inl h

theorem Writes.counts (hdata : u.Transmits data) (h : Writes u data es answer) :
    Counts u data es answer := by
  cases h with
  | plain hplain hsend => exact hsend.counts hdata
  | unsent hdirection hsend =>
    have hnone : Counts u data
        (.setDirection (!u.directionInverted) :: .ticks _ :: (_ ++ [])) none :=
      (hsend.counts hdata).directed rfl (by simp) (by simp)
    rwa [List.append_nil] at hnone
  | undrained hdirection hsend hdrain =>
    exact (hsend.counts hdata).directed hdrain.passive.sendsNothing (by simp) (by simp)
  | drained hdirection hsend hdrain =>
    refine (hsend.counts hdata).directed ?_ ?_ ?_
    · rw [sentWords_append, hdrain.passive.sendsNothing]
      rfl
    · intro n hn
      rw [drainedAnswer_ok (Option.some.inj hn)]
    · intro h
      rcases drainedAnswer_error (Option.some.inj h) with h | h
      · rw [h]
      · cases h

theorem Writes.prompt (h : Writes u data es answer) : Prompt es := by
  have hclock (start : Nat) : Prompt [.ticks start] := (passive_ticks start).prompt
  have hturn (high : Bool) : Prompt [.setDirection high] := .of_none (by simp [IsSend])
  cases h with
  | plain hplain hsend => exact (hclock _).append hsend.prompt
  | unsent hdirection hsend => exact (hturn _).append ((hclock _).append hsend.prompt)
  | undrained hdirection hsend hdrain =>
    exact (hturn _).append ((hclock _).append (hsend.prompt.append hdrain.passive.prompt))
  | drained hdirection hsend hdrain =>
    exact (hturn _).append ((hclock _).append (hsend.prompt.append
      (hdrain.passive.prompt.append (hturn _))))

theorem Writes.error_cases {e : Error} (h : Writes u data es answer)
    (hanswer : answer = some (.error e)) : e = .shouldWait ∨ e = .canceled := by
  cases h with
  | plain hplain hsend => exact hsend.error_cases hanswer
  | unsent => cases hanswer
  | undrained => cases hanswer
  | drained hdirection hsend hdrain =>
    rcases drainedAnswer_error (Option.some.inj hanswer) with h | h
    · exact hsend.error_cases (congrArg some h)
    · exact .inr h

theorem Writes.delivery (hdata : u.Transmits data) (h : Writes u data es answer) :
    Delivery u data es answer where
  shut hshut := by rw [hdata.live] at hshut; cases hshut
  mute _ hmute := by rw [hdata.sends] at hmute; cases hmute
  ragged _ _ hragged := absurd hdata.whole hragged
  nothing _ _ hnone := absurd hnone hdata.nonempty
  empty hnone := absurd hnone hdata.nonempty
  rejected _ hanswer := (h.error_cases hanswer).imp_right .inl
  counts := h.counts hdata
  prompt := h.prompt

theorem counts_nothing (hnone : ∀ n, answer = some (.ok n) → n = 0 ∧ data = [])
    (hshould : answer ≠ some (.error .shouldWait)) : Counts u data [] answer := by
  refine ⟨0, Nat.zero_le _, rfl, fun n hn => ?_, fun h => absurd h hshould⟩
  obtain ⟨rfl, rfl⟩ := hnone n hn
  exact ⟨(Nat.zero_mul _).symm, .inl rfl⟩

/-- A call that does not transmit leaves the bench alone. -/
theorem write_idle {d : Driver σ} {p : Platform σ} (h : ¬ u.Transmits data) (b : Bench σ) :
    ∃ answer, u.write d p data b = .ok answer b ∧ Delivery u data [] (some answer) := by
  have hprompt : Prompt [] := preceded_nil
  have hidle {e : Error} (he : e ≠ .shouldWait) : Counts u data [] (some (.error e)) :=
    counts_nothing (by simp) fun h => he (Except.error.inj (Option.some.inj h))
  have hnothing (e : Error) : e = .shouldWait ∨ e = .canceled ∨ ([] : List Event) = [] :=
    .inr (.inr rfl)
  cases hshut : u.isShut with
  | true =>
    refine ⟨.error .deinitialized, by rw [write, hshut]; rfl, ?_⟩
    exact ⟨fun _ => rfl, by simp [hshut], by simp [hshut], by simp [hshut], fun _ => rfl,
      fun e _ => hnothing e, hidle (by decide), hprompt⟩
  | false =>
    cases hsends : u.sends with
    | false =>
      refine ⟨.error .notSupported, by rw [write, hshut, hsends]; rfl, ?_⟩
      exact ⟨by simp [hshut], fun _ _ => rfl, by simp [hsends], by simp [hsends], fun _ => rfl,
        fun e _ => hnothing e, hidle (by decide), hprompt⟩
    | true =>
      by_cases hwhole : data.length % u.width.bytes = 0
      · have hnone : data = [] := by
          by_contra hsome
          exact h ⟨hshut, hsends, hwhole, hsome⟩
        subst hnone
        refine ⟨.ok 0, by rw [write, hshut, hsends, if_neg (by simp)]; rfl, ?_⟩
        refine ⟨by simp [hshut], by simp [hsends], fun _ _ h => absurd hwhole h, fun _ _ _ => rfl,
          fun _ => rfl, fun e _ => hnothing e, counts_nothing ?_ (by simp), hprompt⟩
        intro n hn
        exact ⟨(Except.ok.inj (Option.some.inj hn)).symm, rfl⟩
      · refine ⟨.error .invalidArgs, ?_, ?_⟩
        · rw [write, hshut, hsends, if_neg (by simp), if_neg (by simp), if_pos hwhole]
          rfl
        · refine ⟨by simp [hshut], by simp [hsends], fun _ _ _ => rfl, ?_, fun _ => rfl,
            fun e _ => hnothing e, hidle (by decide), hprompt⟩
          rintro - - rfl
          exact absurd (Nat.zero_mod _) hwhole

/-! ## Any call -/

section
variable {d : Driver σ} {p : Platform σ}

theorem write_plain (hdata : u.Transmits data) (hplain : u.hasDirection = false) (b : Bench σ) :
    u.write d p data b =
      u.sendWords d p (u.width.decode data) ⟨(p.ticks b).1, u.patienceMillis⟩ 0 (p.ticks b).2 := by
  rw [write, hdata.live, hdata.sends, if_neg (by simp), if_neg (by simp), if_neg (by simp [hdata.whole]),
    if_neg (by simp [hdata.nonempty]), faceSending, hplain]
  have hface : (liftM (pure () : StateM (Bench σ) Unit) : Act (Bench σ) Unit) b = .ok () b := rfl
  have hbegin : (liftM (Deadline.begin p u.patienceMillis) : Act (Bench σ) Deadline) b =
      .ok ⟨(p.ticks b).1, u.patienceMillis⟩ (p.ticks b).2 := rfl
  rw [if_neg Bool.false_ne_true, Act.bind_of_ok hface, Act.bind_of_ok hbegin]
  cases hend : u.sendWords d p (u.width.decode data) ⟨(p.ticks b).1, u.patienceMillis⟩ 0
    (p.ticks b).2 with
  | ok result b' =>
    rw [Act.bind_of_ok hend]
    rfl
  | error e b' => rw [Act.bind_of_error hend]

theorem write_ends (C : Clocked d p) (hdata : u.Transmits data) (hplain : u.hasDirection = false)
    (hpatience : u.patienceMillis < p.patience) (b : Bench (Recorded σ)) :
    ∃ result b', u.write d.recorded p.recorded data b = .ok result b' ∧ sent b ≤ sent b' ∧
      rounds b' ≤ rounds b +
        min (data.length / u.width.bytes) (sent b' - sent b + 1) * u.patienceMillis := by
  have hclock : C.time b ≤ _ ∧ _ ≤ C.time _ := C.recorded.ticks b
  obtain ⟨result, b', hend, hsent, hrounds⟩ := sendWords_ends (u := u) C
    (u.width.decode data) ⟨(p.recorded.ticks b).1, u.patienceMillis⟩ 0 hclock.2 hpatience
  have hsent₁ : sent (p.recorded.ticks b).2 = sent b :=
    sent_of_events (recording_events .ticks p.ticks rfl)
  rw [hsent₁] at hsent hrounds
  rw [rounds_ticks, length_decode] at hrounds
  exact ⟨result, b', (write_plain hdata hplain b).trans hend, hsent, hrounds⟩

/-- Whatever line, driver, platform and data, and whether or not the call comes to an answer: the events
and the answer are as promised. On a line without a direction output and with a clock that moves on, it
does come to an answer, after as many rounds of waiting as the timeout has milliseconds for each
character that was sent or waited for. -/
theorem write_delivers (u : Uart) (d : Driver σ) (p : Platform σ) (data : List UInt8)
    (b : Bench (Recorded σ)) :
    ∃ es, (Act.final (u.write d.recorded p.recorded data) b).outside.events =
        b.outside.events ++ es ∧
      Delivery u data es (Act.answer? (u.write d.recorded p.recorded data) b) ∧
      (u.hasDirection = false → Nonempty (Clocked d p) → u.patienceMillis < p.patience →
        (Act.answer? (u.write d.recorded p.recorded data) b).isSome = true ∧
        es.count .background ≤
          min (data.length / u.width.bytes) ((sentWords es).length + 1) * u.patienceMillis) := by
  by_cases hdata : u.Transmits data
  · obtain ⟨es, hes, hwrites⟩ := shows_write (d := d) (p := p) hdata b
    refine ⟨es, hes, hwrites.delivery hdata, ?_⟩
    rintro hplain ⟨C⟩ hpatience
    obtain ⟨result, b', hend, hsent, hrounds⟩ := write_ends C hdata hplain hpatience b
    rw [Act.final, hend] at hes
    rw [rounds_of_events hes, sent_of_events hes, Nat.add_sub_cancel_left] at hrounds
    refine ⟨?_, Nat.le_of_add_le_add_left hrounds⟩
    rw [Act.answer?, hend]
    rfl
  · obtain ⟨answer, hend, hdelivery⟩ := write_idle (d := d.recorded) (p := p.recorded) hdata b
    rw [Act.final, Act.answer?, hend]
    exact ⟨[], (List.append_nil _).symm, hdelivery, fun _ _ _ => ⟨rfl, Nat.zero_le _⟩⟩

end

/-- A platform on which nothing but rounds of background work takes time, a millisecond each. -/
def steady : Platform Nat where
  ticks := fun b => (b.outside, b)
  background := Bench.outsideDo (modify (· + 1))
  patience := 1001

def steadyClock : Clock steady where
  now := id
  ticks _ := ⟨le_rfl, le_rfl⟩
  background _ := le_rfl
  isInterrupted _ := le_rfl

/-- A peripheral that is ready for a character at the beginning and once more after two milliseconds. To
hand one over takes a millisecond. -/
def fading : Driver Nat :=
  { Driver.inert with
    isReady := fun b => (decide (b.outside = 0 ∨ b.outside = 2), b)
    sendWord := fun _ => Bench.outsideDo (modify (· + 1)) }

def fadingClock : Clocked fading steady where
  toClock := steadyClock
  isReady _ := le_rfl
  clearToSend _ := le_rfl
  sendWord _ b := Nat.le_succ b.outside

/-- A line with a timeout of four milliseconds. -/
def briefLine : Uart :=
  { (default : Uart) with sends := true, timeout := ⟨0x3B83126F⟩ }

theorem patienceMillis_briefLine : briefLine.patienceMillis = 4 := by
  decide +kernel

/-- Two of three characters are handed over, the second after a round of waiting. The third is given up
after four more. -/
theorem write_delivers_fading :
    let data := [(0x55 : UInt8), 0xAA, 0x0F]
    let call := briefLine.write fading.recorded steady.recorded data
    Act.answer? call { outside := ⟨0, []⟩ } = some (.ok 2) ∧
      ∃ es, (Act.final call { outside := ⟨0, []⟩ }).outside.events = es ∧
        sentWords es = [0x55, 0xAA] ∧ es.count .background = 5 ∧
        Delivery briefLine data es (some (.ok 2)) ∧
        es.count .background ≤ min 3 ((sentWords es).length + 1) * 4 := by
  intro data call
  have hwords : data.length / briefLine.width.bytes = 3 := by decide
  have hanswer : Act.answer? call { outside := ⟨0, []⟩ } = some (.ok 2) := by decide +kernel
  have hsent : sentWords (Act.final call { outside := ⟨0, []⟩ }).outside.events = [0x55, 0xAA] := by
    decide +kernel
  have hrounds : (Act.final call { outside := ⟨0, []⟩ }).outside.events.count .background = 5 := by
    decide +kernel
  obtain ⟨es, hes, hdelivery, hends⟩ :=
    write_delivers briefLine fading steady data { outside := ⟨0, []⟩ }
  rw [hanswer] at hdelivery
  rw [patienceMillis_briefLine, hwords] at hends
  rw [hes] at hsent hrounds
  obtain ⟨-, hbound⟩ := hends rfl ⟨fadingClock⟩ (by decide)
  exact ⟨hanswer, es, hes, hsent, hrounds, hdelivery, hbound⟩

end SerialLine.Uart
