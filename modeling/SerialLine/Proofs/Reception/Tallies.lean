import SerialLine.Proofs.Reception.Losses
/-! # Tallies

A line over a PL011 block without flow control, whose buffer drops what it has no room for.

* `Tallies`: whatever happens to received characters on the way from one bench to another, the books can
  be kept through it.
* `Moves.tallies`, `tallies_ringDo`: moving words keeps them, and so does what is done at the other end of
  the buffer.
* `Meanwhile.tallies`, `traffic_tallies`: so does whatever goes on between and inside calls, with readers.
-/
set_option autoImplicit false

namespace SerialLine.Pl011.Window

variable {σ α : Type} {r : Registers σ} {chip : Place σ Chip} {W : Window r chip} {id : BufferId}
  {b b' b'' : Bench σ} {out out' : List UInt8} {n n' : Nat}

/-- The books of a line since its outside was `s₀`: those of its buffer, and the words `passed` are those
that were taken from the block, of the ones that waited and of the ones that arrived. -/
structure Account (W : Window r chip) (id : BufferId) (capacity : Nat) (s₀ : σ) (b : Bench σ)
    (passed : List Passed) (left : List Left) (taken : Nat) : Prop where
  audit : Audit (b.buffers.ring id) capacity passed left taken
  words : ∃ arrived, W.accepted b.outside = W.accepted s₀ ++ arrived ∧
    W.waiting s₀ ++ arrived = passed.map Passed.word ++ W.waiting b.outside

/-- What is kept while readers get the bytes `out` and take counts of dropped characters that sum up to
`n`: books that could be kept before can be kept afterwards. -/
structure Tallies (W : Window r chip) (id : BufferId) (b b' : Bench σ) (out : List UInt8) (n : Nat) :
    Prop where
  keeps : Keeps chip id b b'
  sound : (b.buffers.ring id).Sound → (b'.buffers.ring id).Sound
  accepts : ∃ new, W.accepted b'.outside = W.accepted b.outside ++ new
  account : ∀ capacity s₀ passed left taken, W.Few s₀ b'.outside →
    W.Account id capacity s₀ b passed left taken → ∃ passed' left',
      W.Account id capacity s₀ b' passed' left' (taken + n) ∧ delivered left' = delivered left ++ out

theorem Tallies.trans (h : W.Tallies id b b' out n) (h' : W.Tallies id b' b'' out' n') :
    W.Tallies id b b'' (out ++ out') (n + n') where
  keeps := h.keeps.trans h'.keeps
  sound hb := h'.sound (h.sound hb)
  accepts := by
    obtain ⟨new, hnew⟩ := h.accepts
    obtain ⟨new', hnew'⟩ := h'.accepts
    exact ⟨new ++ new', by rw [hnew', hnew, List.append_assoc]⟩
  account capacity s₀ passed left taken hfew haccount := by
    obtain ⟨passed', left', haccount', hgot⟩ :=
      h.account _ _ _ _ _ (hfew.before h'.accepts) haccount
    obtain ⟨passed'', left'', haccount'', hgot'⟩ := h'.account _ _ _ _ _ hfew haccount'
    refine ⟨passed'', left'', ?_, ?_⟩
    · rwa [← Nat.add_assoc]
    · rw [hgot', hgot, List.append_assoc]

/-! ## Steps -/

theorem Account.moves {capacity : Nat} {s₀ : σ} {passed : List Passed} {left : List Left}
    {taken : Nat} {done new : List UInt32} (haccount : W.Account id capacity s₀ b passed left taken)
    (h : W.Moves id done new b b') :
    ∃ arrived, W.accepted b'.outside = W.accepted s₀ ++ arrived ∧
      W.waiting s₀ ++ arrived = passed.map Passed.word ++ done ++ W.waiting b'.outside := by
  obtain ⟨arrived, haccepted, hwords⟩ := haccount.words
  refine ⟨arrived ++ new, ?_, ?_⟩
  · rw [h.accepted, haccepted, List.append_assoc]
  · rw [← List.append_assoc, hwords, List.append_assoc, h.waiting, List.append_assoc]

theorem Account.length_lt {capacity : Nat} {s₀ : σ} {passed : List Passed} {left : List Left}
    {taken : Nat} {done new : List UInt32} (haccount : W.Account id capacity s₀ b passed left taken)
    (h : W.Moves id done new b b') (hfew : W.Few s₀ b'.outside) :
    passed.length + done.length < 2 ^ 64 := by
  obtain ⟨arrived, haccepted, hwords⟩ := haccount.moves h
  have htotal := congrArg List.length hwords
  rw [Few, haccepted] at hfew
  simp only [List.length_append, List.length_map] at htotal hfew
  omega

/-- The room of the buffer decides which of the words that are moved are kept. -/
theorem Moves.tallies {done new : List UInt32} (h : W.Moves id done new b b') :
    W.Tallies id b b' [] 0 where
  keeps := h.keeps
  sound := h.sound
  accepts := ⟨new, h.accepted⟩
  account capacity s₀ passed left taken hfew haccount := by
    obtain ⟨arrived, haccepted, hwords⟩ := haccount.moves h
    have haudit := haccount.audit.moveAll done (haccount.length_lt h hfew)
    rw [← h.ring] at haudit
    refine ⟨_, left, ⟨haudit, arrived, haccepted, ?_⟩, (List.append_nil _).symm⟩
    rw [hwords, List.map_append, map_word_marked]

theorem Quiet.tallies (h : W.Quiet id b b') : W.Tallies id b b' [] 0 := by
  obtain ⟨new, hmoves⟩ := h.moves
  exact hmoves.tallies

/-- What is done at the reading end of the buffer. -/
theorem tallies_ringDo {f : RingBuffer → α × RingBuffer} (hholds : b.buffers.Holds id)
    (hsound : (b.buffers.ring id).Sound → (f (b.buffers.ring id)).2.Sound)
    (haudit : ∀ capacity passed left taken, Audit (b.buffers.ring id) capacity passed left taken →
      ∃ gone, Audit (f (b.buffers.ring id)).2 capacity passed (left ++ gone) (taken + n) ∧
        delivered gone = out) :
    W.Tallies id b (Bench.ringDo id f b).2 out n := by
  have hring : (Bench.ringDo id f b).2.buffers.ring id = (f (b.buffers.ring id)).2 :=
    RxBuffers.ring_set_self hholds _
  refine ⟨⟨fun h => h.set _, rfl⟩, ?_, ⟨[], (List.append_nil _).symm⟩, ?_⟩
  · rw [hring]
    exact hsound
  · intro capacity s₀ passed left taken _ haccount
    obtain ⟨gone, hgone, hgot⟩ := haudit _ _ _ _ haccount.audit
    refine ⟨passed, left ++ gone, ⟨?_, haccount.words⟩, ?_⟩
    · rw [hring]
      exact hgone
    · rw [delivered_append, hgot]

theorem tallies_pop (hholds : b.buffers.Holds id) (room : Nat) :
    W.Tallies id b (Bench.pop id room b).2 (Bench.pop id room b).1 0 :=
  tallies_ringDo hholds (·.pop room) fun _ _ _ _ h => ⟨_, h.pop room, delivered_read _⟩

theorem tallies_takeDropped (hholds : b.buffers.Holds id) :
    W.Tallies id b (Bench.ringDo id RingBuffer.takeDropped b).2 []
      (Bench.ringDo id RingBuffer.takeDropped b).1 :=
  tallies_ringDo hholds (·.takeDropped) fun _ _ left _ h =>
    ⟨[], by rw [List.append_nil]; exact h.takeDropped, rfl⟩

theorem tallies_clear (hholds : b.buffers.Holds id) :
    W.Tallies id b (Bench.ringDo id (fun ring => ((), ring.clear)) b).2 [] 0 :=
  tallies_ringDo hholds (·.clear) fun _ _ _ _ h => by
    obtain ⟨queue, hclear⟩ := h.clear
    exact ⟨_, hclear, delivered_discarded queue⟩

/-! ## Between and inside calls -/

/-- The buffer exists, and the driver has the interrupt of the block served into it without flow
control. -/
structure Unheld (chip : Place σ Chip) (id : BufferId) (b : Bench σ) : Prop where
  holds : b.buffers.Holds id
  interrupt : (chip.get b.outside).interrupt = some ⟨id, false⟩
  sound : (b.buffers.ring id).Sound

theorem Unheld.tallies (h : Unheld chip id b) (htallies : W.Tallies id b b' out n) :
    Unheld chip id b' :=
  ⟨htallies.keeps.holds h.holds, by rw [htallies.keeps.chip]; exact h.interrupt,
    htallies.sound h.sound⟩

theorem Meanwhile.tallies (h : W.Meanwhile id b b') (hb : Unheld chip id b) :
    W.Tallies id b b' [] 0 := by
  induction h with
  | refl => exact (Quiet.refl W id b).tallies
  | quiet _ hquiet ih => exact ih.trans hquiet.tallies
  | serve rounds _ hinstalled ih =>
    have hb' := hb.tallies ih
    obtain rfl := Option.some.inj (hb'.interrupt.symm.trans hinstalled)
    obtain ⟨done, new, hserves⟩ := serves_serve (W := W) rounds hb'.holds hb'.sound
    exact ih.trans hserves.moves.tallies

/-- A platform on which nothing else goes on while a call waits or looks at the clock, once reception is
installed without flow control. -/
structure SuitsUnheld (W : Window r chip) (id : BufferId) (p : Platform σ) : Prop where
  ticks : ∀ b, Unheld chip id b → W.Meanwhile id b (p.ticks b).2
  background : ∀ b, Unheld chip id b → W.Meanwhile id b (p.background b).2
  isInterrupted : ∀ b, Unheld chip id b → W.Meanwhile id b (p.isInterrupted b).2

theorem traffic_tallies {p : Platform σ} (hp : W.SuitsUnheld id p) :
    W.Traffic id p (Unheld chip id) (W.Tallies id) where
  holds _ hb := hb.holds
  keep _ _ _ _ hb htallies := hb.tallies htallies
  quiet _ _ hquiet := hquiet.tallies
  trans _ _ _ _ _ _ _ htallies htallies' := htallies.trans htallies'
  pop room _ hb := tallies_pop hb.holds room
  take _ hb := tallies_takeDropped hb.holds
  ticks b hb := (hp.ticks b hb).tallies hb
  background b hb := (hp.background b hb).tallies hb
  isInterrupted b hb := (hp.isInterrupted b hb).tallies hb

end SerialLine.Pl011.Window
