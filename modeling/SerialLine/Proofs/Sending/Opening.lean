import SerialLine.Proofs.Sending.Delivery
/-! # How a transmission begins

* `Opens`: the first look finds that a character may be sent, and it is handed over; or the transmission
  has to wait.
* `shows_awaitReady_first`, `shows_sendWords_first`, `shows_write_first`: so does every transmission begin
  that has the patience for a single look.
* `Unchanged`: until a character is handed over, two looks do not find different things.
* `write_opens`: a write to a line that was found ready, and that stays so, hands its first character over
  at once and is not told to wait.
-/
set_option autoImplicit false

namespace SerialLine.Uart

variable {σ : Type} {u : Uart} {d : Driver σ} {p : Platform σ} {word : UInt16} {words : List UInt16}
  {data : List UInt8} {es es' : List Event}

/-! ## The first look -/

/-- The events of a transmission from its first look on. -/
inductive Opens (word : UInt16) : List Event → Prop where
  | sent (rest : List Event) :
      Opens word ([.isReady true, .clearToSend true] ++ .sendWord word :: rest)
  | refused {look : List Event} (hlook : Refused look) (rest : List Event) : Opens word (look ++ rest)

theorem Opens.append (h : Opens word es) (rest : List Event) : Opens word (es ++ rest) := by
  cases h with
  | sent more => exact .sent (more ++ rest)
  | refused hlook more =>
    rw [List.append_assoc]
    exact .refused hlook (more ++ rest)

theorem shows_awaitReady_first (deadline : Deadline) (patience : Nat) :
    Shows (fun es answer => es = [.isReady true, .clearToSend true] ∧ answer = some (.ok true) ∨
      ∃ look rest, Refused look ∧ es = look ++ rest)
      (awaitReady d.recorded p.recorded deadline (patience + 1)) := by
  rw [awaitReady]
  refine emits_canSend.bind ?_
  rintro look yes (⟨rfl, rfl⟩ | ⟨hlook, rfl⟩)
  · exact shows_pure (.inl ⟨rfl, rfl⟩)
  · refine Shows.mono (show Shows (fun _ _ => True) _ from ?_) fun rest _ _ =>
      .inr ⟨look, rest, hlook, rfl⟩
    refine (emits_expired deadline).bind fun _ isOver _ => ?_
    cases isOver with
    | true => exact shows_pure trivial
    | false =>
      refine emits_waitRound.bind fun _ ending _ => ?_
      cases ending with
      | error e => exact shows_pure trivial
      | ok _ => exact (shows_awaitReady deadline patience).mono fun _ _ _ => trivial

theorem shows_sendWords_first (hpatience : 0 < p.patience) (word : UInt16) (words : List UInt16)
    (deadline : Deadline) (written : Nat) : Shows (fun es _ => Opens word es)
      (u.sendWords d.recorded p.recorded (word :: words) deadline written) := by
  obtain ⟨patience, hsucc⟩ := Nat.exists_eq_succ_of_ne_zero hpatience.ne'
  have hrecorded : p.recorded.patience = patience + 1 := hsucc
  rw [sendWords, hrecorded]
  refine (shows_awaitReady_first deadline patience).bind ?_ ?_
  · rintro _ (⟨-, hnone⟩ | ⟨look, rest, hlook, rfl⟩)
    · cases hnone
    · exact .refused hlook rest
  · rintro _ answer (⟨rfl, hready⟩ | ⟨look, rest, hlook, rfl⟩)
    · obtain rfl := Option.some.inj hready
      refine (emits_recording (fun _ => .sendWord word) (d.sendWord word)).bind ?_
      rintro - - rfl
      refine (emits_restart deadline).bind fun _ deadline' _ => ?_
      exact (shows_sendWords words _ _).mono fun more _ _ => .sent _
    · refine Shows.mono (show Shows (fun _ _ => True) _ from ?_) fun more _ _ =>
        (Opens.refused hlook rest).append more
      cases answer with
      | error e => exact shows_pure trivial
      | ok ready =>
        cases ready with
        | false => exact (emits_logNote _ _).bind fun _ _ _ => shows_pure trivial
        | true =>
          refine (emits_recording (fun _ => .sendWord word) (d.sendWord word)).bind fun _ _ _ => ?_
          refine (emits_restart deadline).bind fun _ deadline' _ => ?_
          exact (shows_sendWords words _ _).mono fun _ _ _ => trivial

/-- What is asked before the first look. -/
def preparation (u : Uart) (start : Nat) : List Event :=
  (if u.hasDirection then [.setDirection (!u.directionInverted)] else []) ++ [.ticks start]

theorem shows_write_first (h : u.Transmits data) (hpatience : 0 < p.patience)
    (hword : u.width.decode data = word :: words) :
    Shows (fun es _ => ∃ start rest, es = u.preparation start ++ rest ∧ Opens word rest)
      (u.write d.recorded p.recorded data) := by
  rw [write, h.live, h.sends, if_neg (by simp), if_neg (by simp), if_neg (by simp [h.whole]),
    if_neg (by simp [h.nonempty]), hword]
  refine emits_faceSending.bind ?_
  rintro - - rfl
  refine (emits_begin _).bind ?_
  rintro - deadline ⟨start, rfl, rfl⟩
  refine (shows_sendWords_first hpatience word words _ _).bind ?_ fun es result hopens => ?_
  · exact fun es hopens => ⟨start, es, by rw [preparation, List.append_assoc], hopens⟩
  · refine Shows.mono (show Shows (fun _ _ => True) _ from ?_) fun more _ _ =>
      ⟨start, es ++ more, by rw [preparation, List.append_assoc], hopens.append more⟩
    refine Shows.guarded (fun _ => trivial) fun _ => ?_
    refine (shows_awaitIdle emits_waitRound none _).bind (fun _ _ => trivial) fun _ drained _ => ?_
    refine emits_faceReceiving.bind fun _ _ _ => ?_
    split
    · exact shows_pure trivial
    · exact shows_pure trivial

/-! ## A line that stays ready -/

/-- Until a character is handed over, all looks at the peripheral find the same, and so do all looks at the
other side. -/
def Unchanged (es : List Event) : Prop :=
  ∀ before, before <+: es → sentWords before = [] →
    ¬ (.isReady true ∈ before ∧ .isReady false ∈ before) ∧
      ¬ (.clearToSend true ∈ before ∧ .clearToSend false ∈ before)

theorem unchanged_of_ready (hready : .isReady false ∉ es) (hclear : .clearToSend false ∉ es) :
    Unchanged es := fun _ hpart _ =>
  ⟨fun h => hready (hpart.subset h.2), fun h => hclear (hpart.subset h.2)⟩

/-- Events in which the line was found ready, and nothing was handed over. -/
structure FoundReady (es : List Event) : Prop where
  isReady : .isReady true ∈ es
  clearToSend : .clearToSend true ∈ es
  sent : sentWords es = []

theorem Unchanged.not_refused {look rest : List Event} (h : Unchanged (es ++ (es' ++ (look ++ rest))))
    (hfound : FoundReady es) (hquiet : sentWords es' = []) : ¬ Refused look := by
  intro hlook
  have hpart : es ++ (es' ++ look) <+: es ++ (es' ++ (look ++ rest)) :=
    ⟨rest, by simp only [List.append_assoc]⟩
  obtain ⟨hready, hclear⟩ := h _ hpart (by
    rw [sentWords_append, sentWords_append, hfound.sent, hquiet, hlook.passive.sendsNothing]
    rfl)
  cases hlook with
  | busy => exact hready ⟨List.mem_append_left _ hfound.isReady, by simp⟩
  | held => exact hclear ⟨List.mem_append_left _ hfound.clearToSend, by simp⟩

/-- What a write does that need not wait for its first character. -/
structure GoesOut (u : Uart) (data : List UInt8) (es : List Event)
    (answer : Option (Except Error Nat)) : Prop where
  /-- Of one or more whole characters, the first is handed over before any background work. -/
  first : data ≠ [] → data.length % u.width.bytes = 0 → ∃ word words before after,
    u.width.decode data = word :: words ∧ es = before ++ .sendWord word :: after ∧
      .background ∉ before
  never_waits : answer ≠ some (.error .shouldWait)

theorem write_opens (hlive : u.isShut = false) (hsends : u.sends = true) (hpatience : 0 < p.patience)
    (hfound : FoundReady es) (data : List UInt8) (b : Bench (Recorded σ)) :
    ∃ es', (Act.final (u.write d.recorded p.recorded data) b).outside.events =
        b.outside.events ++ es' ∧
      (Unchanged (es ++ es') →
        GoesOut u data es' (Act.answer? (u.write d.recorded p.recorded data) b)) := by
  obtain ⟨es', hes', hdelivery, -⟩ := write_delivers u d p data b
  refine ⟨es', hes', fun hsame => ?_⟩
  have hfirst (hnonempty : data ≠ []) (hwhole : data.length % u.width.bytes = 0) :
      ∃ word words before after, u.width.decode data = word :: words ∧
        es' = before ++ .sendWord word :: after ∧ .background ∉ before := by
    have hdecode : u.width.decode data ≠ [] := by
      rw [← List.length_pos_iff, length_decode]
      exact Nat.div_pos (Nat.le_of_dvd (List.length_pos_iff.mpr hnonempty)
        (Nat.dvd_of_mod_eq_zero hwhole)) u.width.bytes_pos
    obtain ⟨word, words, hword⟩ := List.exists_cons_of_ne_nil hdecode
    obtain ⟨es'', hes'', start, rest, rfl, hopens⟩ :=
      shows_write_first (d := d) (p := p) ⟨hlive, hsends, hwhole, hnonempty⟩ hpatience hword b
    obtain rfl : es' = u.preparation start ++ rest :=
      List.append_cancel_left (hes'.symm.trans hes'')
    have hquiet : sentWords (u.preparation start) = [] := by
      unfold preparation
      split <;> rfl
    cases hopens with
    | sent rest =>
      refine ⟨word, words, u.preparation start ++ [.isReady true, .clearToSend true], rest, hword, ?_, ?_⟩
      · rw [List.append_assoc]
      · unfold preparation
        split <;> simp
    | refused hlook rest => exact absurd hlook (hsame.not_refused hfound hquiet)
  refine ⟨hfirst, fun hwaits => ?_⟩
  by_cases hwhole : data.length % u.width.bytes = 0
  · by_cases hnone : data = []
    · rw [hdelivery.nothing hlive hsends hnone] at hwaits
      cases hwaits
    · obtain ⟨word, words, before, after, -, rfl, -⟩ := hfirst hnone hwhole
      obtain ⟨k, -, hsent, -, hstalled⟩ := hdelivery.counts
      rw [(hstalled hwaits).1, List.take_zero, sentWords_append] at hsent
      cases (List.append_eq_nil_iff.mp hsent).2
  · rw [hdelivery.ragged hlive hsends hwhole] at hwaits
    cases hwaits

end SerialLine.Uart
