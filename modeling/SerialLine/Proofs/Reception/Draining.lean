import SerialLine.Proofs.Reception.Moving
import SerialLine.Proofs.Ring.Admission
/-! # Draining a block

Serving the interrupt of a block without flow control, which takes everything that the block has.

* `Drains`, `drains_moveAll`: the rounds of the service end when the block is seen to be empty, and count
  the words that the buffer had room for.
* `Serves`, `serves_serve`: what the whole service moves, tells and acknowledges.
-/
set_option autoImplicit false

namespace SerialLine.Pl011.Window

variable {σ : Type} {r : Registers σ} {chip : Place σ Chip} {W : Window r chip} {id : BufferId}
  {b b' : Bench σ}

theorem sound_moved {ring : RingBuffer} (h : ring.Sound) (word : UInt32) : (moved ring word).Sound := by
  unfold moved
  by_cases hover : word &&& drOverrun ≠ 0
  · rw [if_pos hover]
    exact h.countDropped.push _
  · rw [if_neg hover]
    exact h.push _

theorem space_moved {ring : RingBuffer} (h : ring.Sound) (word : UInt32) :
    (moved ring word).space = ring.space - 1 := by
  unfold moved
  by_cases hover : word &&& drOverrun ≠ 0
  · rw [if_pos hover]
    exact RingBuffer.space_push h.countDropped _
  · rw [if_neg hover]
    exact RingBuffer.space_push h _

theorem sound_foldl_moved {ring : RingBuffer} (h : ring.Sound) (done : List UInt32) :
    (done.foldl moved ring).Sound := by
  induction done generalizing ring with
  | nil => exact h
  | cons word done ih => exact ih (sound_moved h word)

theorem Moves.sound {done new : List UInt32} (h : W.Moves id done new b b')
    (hb : (b.buffers.ring id).Sound) : (b'.buffers.ring id).Sound := by
  rw [h.ring]
  exact sound_foldl_moved hb done

/-- What waited was moved if what waits after a part of the moves is. -/
theorem Moves.allMoved {done done' new : List UInt32} (h : W.Moves id done new b b')
    (hall : W.waiting b'.outside <+: done') : W.waiting b.outside <+: done ++ done' := by
  have hpart : done ++ W.waiting b'.outside <+: done ++ done' := (List.prefix_append_right_inj _).mpr hall
  rw [← h.waiting] at hpart
  exact (List.prefix_append _ _).trans hpart

/-! ## The rounds of a service -/

/-- What the rounds of a service did that takes everything: they moved the words `done`, and either each
round moved one, or these are all that waited, and the last thing that happened was a look at the flags of
the empty queue. -/
structure Drains (W : Window r chip) (id : BufferId) (rounds count : Nat) (b b' : Bench σ)
    (told : Option Nat) (done new : List UInt32) : Prop where
  moves : W.Moves id done new b b'
  unfinished : told = none → done.length = rounds
  finished : ∀ n, told = some n → n = count + min done.length (b.buffers.ring id).space ∧
    W.waiting b.outside <+: done ∧ ∃ s, W.waiting s = [] ∧ b'.outside = (r.read fr s).2

/-- A round that moves a word comes before the other rounds. -/
theorem Drains.step {rounds count n : Nat} {b₁ : Bench σ} {told : Option Nat} {word : UInt32}
    {done new first : List UInt32} (hfirst : W.Moves id [word] first b b₁)
    (hcount : n = count + min 1 (b.buffers.ring id).space)
    (hspace : (b₁.buffers.ring id).space = (b.buffers.ring id).space - 1)
    (h : W.Drains id rounds n b₁ b' told done new) :
    W.Drains id (rounds + 1) count b b' told (word :: done) (first ++ new) where
  moves := hfirst.trans h.moves
  unfinished hnone := by rw [List.length_cons, h.unfinished hnone]
  finished m hm := by
    obtain ⟨hm, hall, hempty⟩ := h.finished m hm
    refine ⟨?_, hfirst.allMoved hall, hempty⟩
    rw [hm, hcount, hspace, List.length_cons]
    omega

theorem drains_moveAll (rounds count : Nat) (hholds : b.buffers.Holds id)
    (hsound : (b.buffers.ring id).Sound) :
    ∃ done new, W.Drains id rounds count b (Interrupt.moveAll ⟨id, false⟩ r rounds count b).2
      (Interrupt.moveAll ⟨id, false⟩ r rounds count b).1 done new := by
  induction rounds generalizing count b with
  | zero =>
    obtain ⟨new, hmoves⟩ := (Quiet.refl W id b).moves
    exact ⟨[], new, hmoves, fun _ => rfl, by rintro n ⟨⟩⟩
  | succ rounds ih =>
    have hquiet : W.Quiet id b { b with outside := (r.read fr b.outside).2 } :=
      quiets_outsideDo (leaves_read (by decide)) b
    have hlook : Bench.outsideDo (r.read fr) b =
        ((r.read fr b.outside).1, { b with outside := (r.read fr b.outside).2 }) := rfl
    obtain ⟨first, hfirst⟩ := hquiet.moves
    by_cases hempty : (r.read fr b.outside).1 &&& frRxEmpty ≠ 0
    · rw [Interrupt.moveAll_of_empty hlook hempty]
      have hnone := W.waiting_eq_nil_of_flags hempty
      refine ⟨[], first, hfirst, (by rintro ⟨⟩), fun n hn =>
        ⟨?_, hnone ▸ List.prefix_rfl, b.outside, hnone, rfl⟩⟩
      rw [List.length_nil, Nat.zero_min, Nat.add_zero]
      exact (Option.some.inj hn).symm
    · have hsome : (r.read fr b.outside).1 &&& frRxEmpty = 0 := Decidable.not_not.mp hempty
      obtain ⟨word, rest, hword⟩ := List.exists_cons_of_ne_nil (W.waiting_of_flags hsome)
      obtain ⟨hyes, next, hnext⟩ := moves_moveOne false (hquiet.holds hholds) hword
      rcases hmove : Interrupt.moveOne ⟨id, false⟩ r { b with outside := (r.read fr b.outside).2 }
        with ⟨yes, b₁⟩
      rw [hmove] at hyes hnext
      have hmoved := hfirst.trans hnext
      obtain ⟨done, new, hrest⟩ := ih (if yes then count + 1 else count) (hmoved.keeps.holds hholds)
        (hmoved.sound hsound)
      rw [Interrupt.moveAll_of_moved hlook hsome (fun hold => Bool.noConfusion hold) hmove]
      refine ⟨word :: done, _, hrest.step hmoved ?_ ?_⟩
      · obtain rfl : yes = decide (0 < (b.buffers.ring id).space) := hyes
        by_cases hroom : 0 < (b.buffers.ring id).space
        · rw [if_pos (decide_eq_true hroom)]
          omega
        · rw [if_neg (by simpa using hroom)]
          omega
      · rw [hmoved.ring]
        exact space_moved hsound word

/-! ## A whole service -/

/-- What a service of the interrupt does that takes everything. The words `done` are moved while the words
`new` arrive; if it comes to an end, the answer tells how many of them the buffer had room for. The last
write acknowledges the interrupts that were raised. Before it all that waited was moved and a look at the
flags has found the queue empty, unless none of the interrupts that matter was raised: then nothing was
moved. -/
structure Serves (W : Window r chip) (id : BufferId) (rounds : Nat) (b b' : Bench σ)
    (told : Option Nat) (done new : List UInt32) : Prop where
  moves : W.Moves id done new b b'
  unfinished : told = none → done.length = rounds
  counted : ∀ n, told = some n → n = min done.length (b.buffers.ring id).space
  drained : (r.read mis b.outside).1 &&& intAll ≠ 0 → told.isSome = true →
    W.waiting b.outside <+: done ∧ ∃ s, W.waiting s = [] ∧
      b'.outside = (r.write icr (r.read mis b.outside).1 (r.read fr s).2).2
  idle : (r.read mis b.outside).1 &&& intAll = 0 → done = [] ∧ told = some 0 ∧
    b'.outside = (r.write icr (r.read mis b.outside).1 (r.read mis b.outside).2).2

theorem serves_serve (rounds : Nat) (hholds : b.buffers.Holds id)
    (hsound : (b.buffers.ring id).Sound) :
    ∃ done new, W.Serves id rounds b (Interrupt.serve ⟨id, false⟩ r rounds b).2
      (Interrupt.serve ⟨id, false⟩ r rounds b).1 done new := by
  have hquiet : W.Quiet id b { b with outside := (r.read mis b.outside).2 } :=
    quiets_outsideDo (leaves_read (by decide)) b
  have hlook : Bench.outsideDo (r.read mis) b =
      ((r.read mis b.outside).1, { b with outside := (r.read mis b.outside).2 }) := rfl
  obtain ⟨first, hfirst⟩ := hquiet.moves
  have hclear (b₁ : Bench σ) : ∃ last,
      W.Moves id [] last b₁ (Bench.outsideDo (r.write icr (r.read mis b.outside).1) b₁).2 :=
    (quiets_outsideDo (leaves_write (by decide) _) b₁).moves
  by_cases hraised : (r.read mis b.outside).1 &&& intAll ≠ 0
  · obtain ⟨done, new, hdrains⟩ := drains_moveAll (W := W) rounds 0 (hquiet.holds hholds)
      (hfirst.sound hsound)
    rcases hmoved : Interrupt.moveAll ⟨id, false⟩ r rounds 0
      { b with outside := (r.read mis b.outside).2 } with ⟨told, b₁⟩
    rw [hmoved] at hdrains
    have hmoves := hfirst.trans hdrains.moves
    cases told with
    | none =>
      rw [Interrupt.serve_of_unfinished hlook hraised hmoved]
      exact ⟨done, first ++ new, hmoves, hdrains.unfinished, (by rintro n ⟨⟩), (by rintro _ ⟨⟩),
        fun hidle => absurd hidle hraised⟩
    | some n =>
      obtain ⟨hn, hall, s, hempty, houtside⟩ := hdrains.finished n rfl
      obtain ⟨last, hlast⟩ := hclear b₁
      rw [Interrupt.serve_of_moved hlook hraised hmoved]
      refine ⟨done, first ++ new ++ last, ?_, (by rintro ⟨⟩), ?_,
        fun _ _ => ⟨hfirst.allMoved hall, s, hempty, ?_⟩, fun hidle => absurd hidle hraised⟩
      · rw [← List.append_nil done]
        exact hmoves.trans hlast
      · intro m hm
        rw [← Option.some.inj hm, hn, Nat.zero_add]
      · rw [← houtside]
        rfl
  · obtain ⟨last, hlast⟩ := hclear { b with outside := (r.read mis b.outside).2 }
    rw [Interrupt.serve_of_idle hlook (Decidable.not_not.mp hraised)]
    refine ⟨[], first ++ last, hfirst.trans hlast, (by rintro ⟨⟩), ?_,
      fun h => absurd h hraised, fun _ => ⟨rfl, rfl, rfl⟩⟩
    intro n hn
    rw [← Option.some.inj hn, List.length_nil, Nat.zero_min]

end SerialLine.Pl011.Window
