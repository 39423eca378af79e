import SerialLine.Proofs.Lines.Frame
import SerialLine.Proofs.Receiving.Freshness
import SerialLine.Proofs.Receiving.Surroundings
/-! # Two ways of receiving in the same surroundings

A line with a receive buffer beside the same line without one. The calls that receive answer the same over
both, as long as the queue of the second never holds more than the buffer of the first has room for.

* `Alike`: the two queues hold the same, and the surroundings are at the same point.
* `Agrees`, `Act.Agrees`: operations and acts that answer the same and keep a relation, provided that the
  second ends where something holds that would have held before.
* `Twins`: two lines in the same surroundings. `Twins.read`, `Twins.waitingCount`, `Twins.poll`,
  `Twins.discardInput`: their calls agree.
-/
set_option autoImplicit false

namespace SerialLine

variable {σ τ α β : Type}

/-! ## Agreement -/

/-- If `G` holds afterwards, it held before. -/
abbrev Backward (G : Bench τ → Prop) : Bench τ → Bench τ → Prop := fun b b' => G b' → G b

/-- Two operations answer the same and keep `R` if the second ends where `G` holds. -/
structure Agrees (R : Bench σ → Bench τ → Prop) (G : Bench τ → Prop) (f : StateM (Bench σ) α)
    (f' : StateM (Bench τ) α) : Prop where
  back : Obeys (Backward G) f'
  agree : ∀ b b', R b b' → G (f' b').2 → (f b).1 = (f' b').1 ∧ R (f b).2 (f' b').2

/-- So do two acts. They come to a halt together. -/
structure Act.Agrees (R : Bench σ → Bench τ → Prop) (G : Bench τ → Prop) (act : Act (Bench σ) α)
    (act' : Act (Bench τ) α) : Prop where
  back : Act.Obeys (Backward G) act'
  agree : ∀ b b', R b b' → G (Act.final act' b') →
    Act.answer? act b = Act.answer? act' b' ∧ R (Act.final act b) (Act.final act' b')

section
variable {R : Bench σ → Bench τ → Prop} {G : Bench τ → Prop}

theorem agrees_pure (a : α) :
    Agrees R G (pure a : StateM (Bench σ) α) (pure a : StateM (Bench τ) α) :=
  ⟨fun _ h => h, fun _ _ hb _ => ⟨rfl, hb⟩⟩

theorem Agrees.bind {f : StateM (Bench σ) α} {f' : StateM (Bench τ) α} {g : α → StateM (Bench σ) β}
    {g' : α → StateM (Bench τ) β} (hf : Agrees R G f f') (hg : ∀ a, Agrees R G (g a) (g' a)) :
    Agrees R G (f >>= g) (f' >>= g') := by
  refine ⟨fun b' hend => hf.back b' ((hg (f' b').1).back _ hend), fun b b' hb hend => ?_⟩
  obtain ⟨hsame, hmid⟩ := hf.agree b b' hb ((hg (f' b').1).back _ hend)
  have hsecond := (hg (f b).1).agree (f b).2 (f' b').2 hmid
  rw [hsame] at hsecond
  show (g (f b).1 (f b).2).1 = _ ∧ R (g (f b).1 (f b).2).2 _
  rw [hsame]
  exact hsecond hend

theorem Agrees.guarded {c : Prop} [Decidable c] {f : StateM (Bench σ) α} {f' : StateM (Bench τ) α}
    (a : α) (hf : Agrees R G f f') : Agrees R G (if c then pure a else f) (if c then pure a else f') := by
  by_cases hc : c
  · rw [if_pos hc, if_pos hc]
    exact agrees_pure a
  · rw [if_neg hc, if_neg hc]
    exact hf

namespace Act

theorem agrees_pure (a : α) :
    Act.Agrees R G (pure a : Act (Bench σ) α) (pure a : Act (Bench τ) α) :=
  ⟨fun _ h => h, fun _ _ hb _ => ⟨rfl, hb⟩⟩

theorem agrees_throw (e : Halt) :
    Act.Agrees R G (throw e : Act (Bench σ) α) (throw e : Act (Bench τ) α) :=
  ⟨fun _ h => h, fun _ _ hb _ => ⟨rfl, hb⟩⟩

theorem Agrees.bind {act : Act (Bench σ) α} {act' : Act (Bench τ) α} {g : α → Act (Bench σ) β}
    {g' : α → Act (Bench τ) β} (hact : Act.Agrees R G act act')
    (hg : ∀ a, Act.Agrees R G (g a) (g' a)) : Act.Agrees R G (act >>= g) (act' >>= g') := by
  constructor
  · intro b' hend
    have hback := hact.back b'
    cases hresult : act' b' with
    | error e b₁' =>
      rw [Act.final, hresult] at hback
      rw [Act.final, bind_of_error hresult] at hend
      exact hback hend
    | ok a b₁' =>
      rw [Act.final, hresult] at hback
      rw [Act.final, bind_of_ok hresult] at hend
      exact hback ((hg a).back b₁' hend)
  · intro b b' hb hend
    have hfirst := hact.agree b b' hb
    cases hresult' : act' b' with
    | error e' b₁' =>
      rw [Act.final, bind_of_error hresult'] at hend
      simp only [Act.answer?, Act.final, hresult'] at hfirst
      cases hresult : act b with
      | error e b₁ =>
        simp only [hresult] at hfirst
        rw [Act.answer?, Act.answer?, Act.final, Act.final, bind_of_error hresult,
          bind_of_error hresult']
        exact ⟨rfl, (hfirst hend).2⟩
      | ok a b₁ =>
        simp only [hresult] at hfirst
        cases (hfirst hend).1
    | ok a' b₁' =>
      rw [Act.final, bind_of_ok hresult'] at hend
      simp only [Act.answer?, Act.final, hresult'] at hfirst
      obtain ⟨hsame, hmid⟩ := hfirst ((hg a').back b₁' hend)
      cases hresult : act b with
      | error e b₁ =>
        simp only [hresult] at hsame
        cases hsame
      | ok a b₁ =>
        simp only [hresult] at hsame hmid
        obtain rfl := Option.some.inj hsame
        rw [Act.answer?, Act.answer?, Act.final, Act.final, bind_of_ok hresult, bind_of_ok hresult']
        exact (hg a).agree b₁ b₁' hmid hend

theorem Agrees.guarded {c : Prop} [Decidable c] {act : Act (Bench σ) α} {act' : Act (Bench τ) α}
    (a : α) (hact : Act.Agrees R G act act') :
    Act.Agrees R G (if c then pure a else act) (if c then pure a else act') := by
  by_cases hc : c
  · rw [if_pos hc, if_pos hc]
    exact agrees_pure a
  · rw [if_neg hc, if_neg hc]
    exact hact

end Act

theorem Agrees.lift {f : StateM (Bench σ) α} {f' : StateM (Bench τ) α} (hf : Agrees R G f f') :
    Act.Agrees R G (liftM f : Act (Bench σ) α) (liftM f' : Act (Bench τ) α) := by
  refine ⟨hf.back, fun b b' hb hend => ?_⟩
  obtain ⟨hsame, hafter⟩ := hf.agree b b' hb hend
  exact ⟨congrArg some hsame, hafter⟩

theorem Agrees.liftBind {f : StateM (Bench σ) α} {f' : StateM (Bench τ) α} {g : α → Act (Bench σ) β}
    {g' : α → Act (Bench τ) β} (hf : Agrees R G f f') (hg : ∀ a, Act.Agrees R G (g a) (g' a)) :
    Act.Agrees R G (liftM f >>= g) (liftM f' >>= g') :=
  Act.Agrees.bind hf.lift hg

end

/-- The bytes of a character carry only a part of it. -/
theorem CharWidth.encode_map_clip (w : CharWidth) (words : List UInt16) :
    w.encode (words.map w.clip) = w.encode words := by
  induction words with
  | nil => rfl
  | cons word words ih =>
    rw [List.map_cons, CharWidth.encode_cons, CharWidth.encode_cons, ih]
    cases w with
    | narrow =>
      simp only [CharWidth.encodeWord, CharWidth.clip, CharWidth.lowByte, UInt8.toUInt8_toUInt16]
    | wide => rfl

namespace Uart

variable {ε : Type} {u : Uart}

/-! ## Lines that hold the same -/

/-- The surroundings of two lines are at the same point. The buffer of the first holds what the bytes of a
character carry of the characters that the peripheral of the second holds. -/
structure Alike (X : Scene σ ε) (X' : Scene τ ε) (u : Uart) (capacity : Nat) (b : Bench σ)
    (b' : Bench τ) : Prop where
  view : X.view b.outside = X'.view b'.outside
  fits : X.Fits u capacity b
  queue : u.rxBuffer.isSome = true → X.waiting u b = (X'.held b'.outside).map u.width.clip
  taken : u.rxBuffer.isSome = true → (X.taken b.outside).length = (X'.taken b'.outside).length

section
variable {X : Scene σ ε} {X' : Scene τ ε} {capacity : Nat} {b b₁ : Bench σ} {b' b₁' : Bench τ}
  {G : Bench τ → Prop}

theorem Alike.still (h : Alike X X' u capacity b b') (hstill : X.Still u b b₁)
    (hstill' : X'.Still u.unbuffered b' b₁') (hview : X.view b₁.outside = X'.view b₁'.outside) :
    Alike X X' u capacity b₁ b₁' where
  view := hview
  fits := hstill.fits h.fits
  queue hbuffer := by
    rw [hstill.waiting_eq, h.queue hbuffer, hstill'.held]
  taken hbuffer := by
    rw [hstill.taken, h.taken hbuffer, hstill'.taken]

/-- The same characters come to two queues that hold the same and have room for them. -/
theorem Alike.enters {words : List UInt16} (h : Alike X X' u capacity b b')
    (henters : X.Enters u words b b₁) (henters' : X'.Enters u.unbuffered words b' b₁')
    (hview : X.view b₁.outside = X'.view b₁'.outside)
    (hroom : (X'.held b₁'.outside).length ≤ capacity)
    (hfew : (X'.taken b₁'.outside).length < 2 ^ 64) : Alike X X' u capacity b₁ b₁' := by
  have hheld : X'.held b₁'.outside = X'.held b'.outside ++ words := henters'.held rfl
  have htaken : X'.taken b₁'.outside = X'.taken b'.outside ++ words := henters'.taken
  rw [hheld, List.length_append] at hroom
  rw [htaken, List.length_append] at hfew
  have hnew (id : BufferId) (hid : u.rxBuffer = some id) :
      Holdings.newcomers u b words = words.map u.width.clip := by
    refine Holdings.newcomers_of_room hid h.fits ?_
    rwa [h.queue (by rw [hid]; rfl), List.length_map]
  refine ⟨hview, henters.fits h.fits, fun hbuffer => ?_, fun hbuffer => ?_⟩
  · obtain ⟨id, hid⟩ := Option.isSome_iff_exists.mp hbuffer
    have hlength := h.taken hbuffer
    have hfew' : X.Few u b₁ := by
      intro _
      rw [henters.taken, hnew id hid, List.length_append, List.length_map]
      omega
    have hgets := (Holdings.gets_of_arrives henters.arrives).waiting h.fits.ready hfew'
    rw [List.nil_append, h.queue hbuffer, hnew id hid, ← List.map_append, ← hheld] at hgets
    exact hgets.symm
  · obtain ⟨id, hid⟩ := Option.isSome_iff_exists.mp hbuffer
    rw [henters.taken, htaken, hnew id hid, List.length_append, List.length_append, List.length_map,
      h.taken hbuffer]

theorem Scene.Shows.agrees {f : StateM (Bench σ) α} {f' : StateM (Bench τ) α} {g : StateM ε α}
    (hf : X.Shows u f g) (hf' : X'.Shows u.unbuffered f' g) (hback : Obeys (Backward G) f') :
    Agrees (Alike X X' u capacity) G f f' := by
  refine ⟨hback, fun b b' hb _ => ⟨?_, hb.still (hf.still b) (hf'.still b') ?_⟩⟩
  · rw [hf.answer, hf'.answer, hb.view]
  · rw [hf.view, hf'.view, hb.view]

theorem agrees_note (level : Level) (text : String)
    (hback : Obeys (Backward G) (logNote (W := Bench τ) level text)) :
    Agrees (Alike X X' u capacity) G (logNote (W := Bench σ) level text)
      (logNote (W := Bench τ) level text) :=
  ⟨hback, fun b b' hb _ =>
    ⟨rfl, hb.still (.refl _ u b _) (.refl _ u.unbuffered b' _) hb.view⟩⟩

end

/-! ## Twins -/

/-- Two lines in the same surroundings, of which the second has no buffer. Where `G` holds after a round of
background work, its peripheral holds no more than there is room for in the buffer of the first. -/
structure Twins {S : Surroundings ε} {d : Driver σ} {p : Platform σ} {d' : Driver τ} {p' : Platform τ}
    (I : Situated S u d p) (I' : Situated S u.unbuffered d' p') (capacity : Nat)
    (G : Bench τ → Prop) : Prop where
  receives : u.receives = u.rxBuffer.isSome
  patience : p.patience = p'.patience
  counts : I'.Counts
  within : ∀ b, G (p'.background b).2 → (I'.held (p'.background b).2.outside).length ≤ capacity ∧
    (I'.taken (p'.background b).2.outside).length < 2 ^ 64
  ticks : Obeys (Backward G) p'.ticks
  background : Obeys (Backward G) p'.background
  isInterrupted : Obeys (Backward G) p'.isInterrupted
  takeWord : Obeys (Backward G) d'.takeWord
  receivedCount : Obeys (Backward G) d'.receivedCount
  resumeReceiving : Obeys (Backward G) d'.resumeReceiving
  log : ∀ b log, G { b with log := log } → G b

namespace Twins

variable {S : Surroundings ε} {d : Driver σ} {p : Platform σ} {d' : Driver τ} {p' : Platform τ}
  {I : Situated S u d p} {I' : Situated S u.unbuffered d' p'} {capacity : Nat} {G : Bench τ → Prop}
variable (h : Twins I I' capacity G)
include h

/-! ### Waits -/

theorem agreesTicks : Agrees (Alike I.toScene I'.toScene u capacity) G p.ticks p'.ticks :=
  I.ticks.agrees I'.ticks h.ticks

theorem begin (limit : Nat) : Agrees (Alike I.toScene I'.toScene u capacity) G
    (Deadline.begin p limit) (Deadline.begin p' limit) :=
  h.agreesTicks.bind fun _ => agrees_pure _

theorem restart (deadline : Deadline) : Agrees (Alike I.toScene I'.toScene u capacity) G
    (deadline.restart p) (deadline.restart p') :=
  h.agreesTicks.bind fun _ => agrees_pure _

theorem expired (deadline : Deadline) : Agrees (Alike I.toScene I'.toScene u capacity) G
    (deadline.expired p) (deadline.expired p') :=
  (h.agreesTicks.bind fun _ => agrees_pure _).bind fun _ => agrees_pure _

theorem agreesBackground :
    Agrees (Alike I.toScene I'.toScene u capacity) G p.background p'.background := by
  refine ⟨h.background, fun b b' hb hend => ⟨rfl, ?_⟩⟩
  obtain ⟨hroom, hfew⟩ := h.within b' hend
  have henters := I.background b fun id hid => (hb.fits.ready id hid).1
  have henters' := I'.background b' nofun
  rw [hb.view] at henters
  refine hb.enters henters henters' ?_ hroom hfew
  rw [I.background_view, I'.background_view, hb.view]

theorem waitRound : Agrees (Alike I.toScene I'.toScene u capacity) G p.waitRound p'.waitRound := by
  refine h.agreesBackground.bind fun _ =>
    (I.isInterrupted.agrees I'.isInterrupted h.isInterrupted).bind fun interrupted => ?_
  cases interrupted with
  | true => exact (agrees_note _ _ fun b => h.log b _).bind fun _ => agrees_pure _
  | false => exact agrees_pure _

theorem agreesResume :
    Agrees (Alike I.toScene I'.toScene u capacity) G d.resumeReceiving d'.resumeReceiving := by
  refine ⟨h.resumeReceiving, fun b b' hb _ => ⟨rfl, ?_⟩⟩
  have hcalm := I.resumeReceiving b
  have hcalm' := I'.resumeReceiving b'
  refine hb.still hcalm.toStill hcalm'.toStill ?_
  rw [hcalm.view, hcalm'.view, hb.view]

/-! ### Taking -/

omit h in
/-- Of two queues that hold the same, the same is taken. -/
theorem alike_takes {n : Nat} {b b₁ : Bench σ} {b' b₁' : Bench τ}
    (hb : Alike I.toScene I'.toScene u capacity b b') (htakes : I.Takes u n b b₁)
    (htakes' : I'.Takes u.unbuffered n b' b₁') : Alike I.toScene I'.toScene u capacity b₁ b₁' where
  view := by rw [htakes.view, htakes'.view, hb.view]
  fits := htakes.fits capacity hb.fits
  queue hbuffer := by
    have hheld : I'.held b₁'.outside = (I'.held b'.outside).drop n := htakes'.waiting
    rw [htakes.waiting, hheld, List.map_drop, hb.queue hbuffer]
  taken hbuffer := by rw [htakes.taken, htakes'.taken, hb.taken hbuffer]

theorem backward_takeFromPeripheral (n : Nat) :
    Obeys (Backward G) (takeFromPeripheral d' u.width n) := by
  induction n with
  | zero => exact fun _ hend => hend
  | succ n ih =>
    intro b hend
    refine h.takeWord b ?_
    rcases htake : d'.takeWord b with ⟨word, b₁⟩
    simp only [takeFromPeripheral, bind, StateT.bind, htake] at hend
    cases word with
    | none => exact hend
    | some word => exact ih b₁ hend

theorem backward_discardFromPeripheral (n : Nat) :
    Obeys (Backward G) (discardFromPeripheral d' n) := by
  induction n with
  | zero => exact fun _ hend => hend
  | succ n ih =>
    intro b hend
    refine h.takeWord b ?_
    rcases htake : d'.takeWord b with ⟨word, b₁⟩
    simp only [discardFromPeripheral, bind, StateT.bind, htake] at hend
    cases word with
    | none => exact hend
    | some word => exact ih b₁ hend

theorem takeWaiting (hbuffer : u.rxBuffer.isSome = true) (room : Nat) :
    Agrees (Alike I.toScene I'.toScene u capacity) G (u.takeWaiting d room)
      (u.unbuffered.takeWaiting d' room) := by
  refine ⟨h.backward_takeFromPeripheral _, fun b b' hb _ => ?_⟩
  obtain ⟨hbytes, htakes⟩ := I.takes_takeWaiting room hb.fits
  obtain ⟨hbytes', htakes'⟩ := I'.takes_takeFromPeripheral rfl (room / u.width.bytes) b'
  have hwaiting : I'.waiting u.unbuffered b' = I'.held b'.outside := rfl
  refine ⟨?_, alike_takes hb htakes htakes'⟩
  rw [hbytes, hb.queue hbuffer, ← List.map_take, CharWidth.encode_map_clip]
  rw [hwaiting] at hbytes'
  exact hbytes'.symm

/-! ### Reading -/

omit h in
theorem receive_eq_bind {want patience : Nat} {deadline : Deadline} {got : List UInt8} :
    u.receive d p want (patience + 1) deadline got =
      (do
        let bytes ← (u.takeWaiting d (want - got.length) : StateM (Bench σ) (List UInt8))
        let deadline ← (nextDeadline p deadline bytes : StateM (Bench σ) Deadline)
        u.finishRound d p want patience deadline (got ++ bytes)) :=
  funext fun b => receive_succ b

theorem finishRound {want patience : Nat} (got : List UInt8)
    (hrest : ∀ deadline, Act.Agrees (Alike I.toScene I'.toScene u capacity) G
      (u.receive d p want patience deadline got)
      (u.unbuffered.receive d' p' want patience deadline got))
    (deadline : Deadline) :
    Act.Agrees (Alike I.toScene I'.toScene u capacity) G
      (u.finishRound d p want patience deadline got)
      (u.unbuffered.finishRound d' p' want patience deadline got) := by
  refine .guarded _ ((h.expired deadline).liftBind fun isOver => ?_)
  cases isOver with
  | true => exact Act.agrees_pure _
  | false =>
    refine h.waitRound.liftBind fun result => ?_
    cases result with
    | error e => exact Act.agrees_pure _
    | ok _ => exact hrest deadline

theorem receive (hbuffer : u.rxBuffer.isSome = true) (want patience : Nat) (deadline : Deadline)
    (got : List UInt8) :
    Act.Agrees (Alike I.toScene I'.toScene u capacity) G (u.receive d p want patience deadline got)
      (u.unbuffered.receive d' p' want patience deadline got) := by
  induction patience generalizing deadline got with
  | zero => exact Act.agrees_throw _
  | succ patience ih =>
    rw [receive_eq_bind, receive_eq_bind]
    exact (h.takeWaiting hbuffer _).liftBind fun bytes =>
      (Agrees.guarded _ (h.restart deadline)).liftBind fun deadline =>
        h.finishRound (got ++ bytes) (fun deadline => ih deadline _) deadline

theorem read (room : Nat) :
    Act.Agrees (Alike I.toScene I'.toScene u capacity) G (u.read d p room)
      (u.unbuffered.read d' p' room) := by
  refine .guarded _ ?_
  cases hreceives : u.receives with
  | false =>
    have hdeaf : u.unbuffered.receives = false := hreceives
    rw [hdeaf]
    exact Act.agrees_pure _
  | true =>
    have hhears : u.unbuffered.receives = true := hreceives
    rw [hhears]
    refine .guarded _ (.guarded _ (.guarded _ ((h.begin _).liftBind fun deadline => ?_)))
    rw [h.patience]
    exact h.receive (h.receives.symm.trans hreceives) _ _ _ _

/-! ### Looking and discarding -/

theorem waiting : Agrees (Alike I.toScene I'.toScene u capacity) G (u.waiting d)
    (u.unbuffered.waiting d') := by
  have hreceives := h.receives
  unfold Uart.waiting
  have hsame : u.unbuffered.receives = u.receives := rfl
  have hnone : u.unbuffered.rxBuffer = none := rfl
  rw [hsame, hnone]
  cases hbuffer : u.rxBuffer with
  | none =>
    rw [hbuffer] at hreceives
    rw [hreceives]
    exact agrees_pure 0
  | some id =>
    rw [hbuffer] at hreceives
    rw [hreceives]
    refine ⟨h.receivedCount, fun b b' hb _ => ⟨?_, ?_⟩⟩
    · have hlength := congrArg List.length (hb.queue (by rw [hbuffer]; rfl))
      rw [Holdings.waiting_of_some hbuffer, RingBuffer.length_contents, List.length_map] at hlength
      exact hlength.trans (h.counts.count b').symm
    · have hcalm := h.counts.calm b'
      exact hb.still (.refl _ u b b.log) hcalm.toStill (hb.view.trans hcalm.view.symm)

theorem waitingCount : Agrees (Alike I.toScene I'.toScene u capacity) G (u.waitingCount d)
    (u.unbuffered.waitingCount d') :=
  .guarded _ (h.waiting.bind fun _ => agrees_pure _)

/-- Whether the line can send is not asked. -/
theorem poll {flags : PollFlags} (hflags : flags.includes .writable = false) :
    Agrees (Alike I.toScene I'.toScene u capacity) G (u.poll d flags)
      (u.unbuffered.poll d' flags) := by
  refine .guarded _ ?_
  simp only [hflags, Bool.false_and, Bool.false_eq_true, if_false]
  split
  · exact h.waiting.bind fun _ => (agrees_pure false).bind fun _ => agrees_pure _
  · exact (agrees_pure 0).bind fun _ => (agrees_pure false).bind fun _ => agrees_pure _

theorem control {flags : PollFlags} (hflags : flags.includes .writable = false) :
    Act.Agrees (Alike I.toScene I'.toScene u capacity) G (u.control d p (.poll flags))
      (u.unbuffered.control d' p' (.poll flags)) :=
  .guarded _ ((h.poll hflags).liftBind fun _ => Act.agrees_pure _)

/-- Clearing the buffer takes as much as taking all that the peripheral says it holds. -/
theorem clear {id : BufferId} (hbuffer : u.rxBuffer = some id) :
    Agrees (Alike I.toScene I'.toScene u capacity) G (Bench.ringDo id fun ring => ((), ring.clear))
      (d'.receivedCount >>= fun count => discardFromPeripheral d' count) := by
  refine ⟨fun b' hend => h.receivedCount b' (h.backward_discardFromPeripheral _ _ hend),
    fun b b' hb _ => ⟨rfl, ?_⟩⟩
  have hcalm := h.counts.calm b'
  have htakes' := hcalm.takes.trans (I'.takes_discardFromPeripheral rfl (d'.receivedCount b').1 _)
  rw [Nat.zero_add, h.counts.count b'] at htakes'
  have hqueue := hb.queue (by rw [hbuffer]; rfl)
  have htakes : I.Takes u (I'.held b'.outside).length b
      (Bench.ringDo id (fun ring => ((), ring.clear)) b).2 := by
    refine ⟨⟨?_, rfl, fun capacity hb => hb.clear hbuffer⟩, rfl⟩
    rw [Holdings.waiting_clear hbuffer hb.fits, hqueue, List.drop_of_length_le]
    rw [List.length_map]
  rw [← h.counts.count b'] at htakes htakes'
  exact alike_takes hb htakes htakes'

theorem discardInput : Agrees (Alike I.toScene I'.toScene u capacity) G (u.discardInput d)
    (u.unbuffered.discardInput d') := by
  refine .guarded _ ?_
  have hreceives := h.receives
  have hresume : Agrees (Alike I.toScene I'.toScene u capacity) G
      (d.resumeReceiving >>= fun _ => pure (Except.ok () : Except Error Unit))
      (d'.resumeReceiving >>= fun _ => pure (Except.ok () : Except Error Unit)) :=
    h.agreesResume.bind fun _ => agrees_pure _
  have hsame : u.unbuffered.receives = u.receives := rfl
  have hnone : u.unbuffered.rxBuffer = none := rfl
  rw [hsame, hnone]
  cases hbuffer : u.rxBuffer with
  | none =>
    rw [hbuffer] at hreceives
    rw [hreceives]
    exact (agrees_pure ()).bind fun _ => hresume
  | some id =>
    rw [hbuffer] at hreceives
    rw [hreceives]
    exact (h.clear hbuffer).bind fun _ => hresume

end Twins
end Uart
end SerialLine
