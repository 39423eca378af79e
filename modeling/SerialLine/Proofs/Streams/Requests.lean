import SerialLine.Proofs.Streams.Filling
/-! # Requests to a stream

What the users of a stream ask of it, as data.

* `Request.run`: makes a request. It does nothing to the state but by reads, writes and control requests
  of the stream; `obeys_run` says so for any relation that these obey.
* `Refusing`: a stream that refuses everything. `run_of_refusing`: then every request that needs the
  stream at all is refused at once, and nothing else happens.
-/
set_option autoImplicit false

namespace SerialLine.Stream

/-- What can be asked of a stream. -/
inductive Request where
  /-- Reads at most so many bytes, or until there are no more, in so many chunks at most. -/
  | readBytes (patience : Nat) (size : Option Nat)
  | readInto (buffer : List UInt8) (length : Option Nat)
  | readLine (patience : Nat) (limit : Option Nat)
  | writeBytes (data : List UInt8)
  | pollFor (flags : PollFlags)
  | flush

/-- The answer to a request. -/
inductive Answer where
  | bytes (result : Except Error (Option (List UInt8)))
  /-- The answer to a transfer into a buffer, with the buffer. -/
  | filled (result : Except Error (Option Nat)) (buffer : List UInt8)
  | count (result : Except Error (Option Nat))
  | ready (result : Except Error PollFlags)
  | done (result : Except Error Unit)

variable {W : Type}

def Request.run [HasLog W] (s : Stream W) : Request → Act W Answer
  | readBytes patience size => do return .bytes (← s.readBytes patience size)
  | readInto buffer length => do
    let (result, buffer) ← s.readInto buffer length
    return .filled result buffer
  | readLine patience limit => do return .bytes (← s.readLine patience limit)
  | writeBytes data => do return .count (← s.writeBytes data)
  | pollFor flags => do return .ready (← s.pollFor flags)
  | flush => do return .done (← s.flush)

/-! ## What every request obeys -/

section
variable {σ : Type} {s : Stream (Bench σ)} {R : Bench σ → Bench σ → Prop} (h : Onward R)
include h

theorem obeys_addCounts (m n : Nat) : Act.Obeys R (addCounts m n : Act (Bench σ) Nat) := by
  unfold addCounts
  split
  · exact h.actPure _
  · exact h.actThrow _

section
variable (hread : ∀ buffer, Act.Obeys R (s.read buffer))
include hread

theorem obeys_fill (filled rest : List UInt8) : Act.Obeys R (s.fill filled rest) := by
  induction hlength : rest.length using Nat.strong_induction_on generalizing filled rest with
  | h length ih =>
    subst hlength
    cases rest with
    | nil =>
      rw [fill]
      exact h.actPure _
    | cons byte bytes =>
      rw [fill]
      refine h.actBind (hread _) fun reply => ?_
      dsimp only
      split
      · exact h.actPure _
      · refine h.actBind (obeys_addCounts h _ _) fun count => h.actGuarded _ ?_
        refine ih _ ?_ _ _ rfl
        simp only [List.length_drop, length_overlay, List.length_cons]
        omega
      · exact h.actPure _
      · exact h.actPure _

theorem obeys_readSized (size : Nat) : Act.Obeys R (s.readSized size) := by
  have hfill {answer : Except Error Progress × List UInt8 → Except Error (Option (List UInt8))} :
      Act.Obeys R (do return answer (← s.fill [] (List.replicate size 0))) :=
    h.actBind (obeys_fill h hread _ _) fun _ => h.actPure _
  rw [readSized]
  split
  · exact h.actBind (h.actThrow _) fun _ => hfill
  · exact hfill

theorem obeys_readChunks (patience : Nat) (chunk data : List UInt8) :
    Act.Obeys R (s.readChunks patience chunk data) := by
  induction patience generalizing chunk data with
  | zero => exact h.actThrow _
  | succ patience ih =>
    rw [readChunks]
    refine h.actBind (hread _) fun reply => ?_
    dsimp only
    split
    · exact h.actPure _
    · split
      · exact h.actBind (h.actThrow _) fun _ => ih _ _
      · exact h.actBind (h.actPure _) fun _ => ih _ _
    · exact h.actPure _
    · exact h.actPure _

theorem obeys_readLineBytes (limited : Bool) (rounds : Nat) (byte : UInt8) (line : List UInt8) :
    Act.Obeys R (s.readLineBytes limited rounds byte line) := by
  induction rounds generalizing byte line with
  | zero =>
    cases limited with
    | true => exact h.actPure _
    | false => exact h.actThrow _
  | succ rounds ih =>
    rw [readLineBytes]
    refine h.actBind (hread _) fun reply => ?_
    dsimp only
    split
    · exact h.actPure _
    · exact h.actGuarded _ (ih _ _)
    · exact h.actPure _
    · exact h.actPure _

theorem obeys_readInto (buffer : List UInt8) (length : Option Nat) :
    Act.Obeys R (s.readInto buffer length) := by
  refine h.actBind (fun b => h.refl b) fun w => ?_
  dsimp only
  split
  · exact h.liftBind (h.note _ _) fun _ => h.actPure _
  · exact h.actBind (obeys_fill h hread _ _) fun _ => h.actPure _

end

theorem obeys_drain (hwrite : ∀ data, Act.Obeys R (s.write data)) (done : Nat) (rest : List UInt8) :
    Act.Obeys R (s.drain done rest) := by
  induction hlength : rest.length using Nat.strong_induction_on generalizing done rest with
  | h length ih =>
    subst hlength
    cases rest with
    | nil =>
      rw [drain]
      exact h.actPure _
    | cons byte bytes =>
      rw [drain]
      refine h.actBind (hwrite _) fun answer => ?_
      split
      · exact h.actPure _
      · refine h.actBind (obeys_addCounts h _ _) fun count => ih _ ?_ _ _ rfl
        simp only [List.length_drop, List.length_cons]
        omega
      · exact h.actPure _
      · exact h.actPure _

/-- A request does nothing but to read, to write and to make control requests. -/
theorem obeys_run (hread : ∀ buffer, Act.Obeys R (s.read buffer))
    (hwrite : ∀ data, Act.Obeys R (s.write data))
    (hcontrol : ∀ request, Act.Obeys R (s.control request)) (request : Request) :
    Act.Obeys R (request.run s) := by
  cases request with
  | readBytes patience size =>
    refine h.actBind ?_ fun _ => h.actPure _
    cases size with
    | some size => exact obeys_readSized h hread size
    | none => exact obeys_readChunks h hread _ _ _
  | readInto buffer length => exact h.actBind (obeys_readInto h hread _ _) fun _ => h.actPure _
  | readLine patience limit =>
    exact h.actBind (obeys_readLineBytes h hread _ _ _ _) fun _ => h.actPure _
  | writeBytes data =>
    refine h.actBind ?_ fun _ => h.actPure _
    exact h.actBind (obeys_drain h hwrite _ _) fun _ => h.actPure _
  | pollFor flags =>
    exact h.actBind (h.actBind (hcontrol _) fun _ => h.actPure _) fun _ => h.actPure _
  | flush => exact h.actBind (h.actBind (hcontrol _) fun _ => h.actPure _) fun _ => h.actPure _

end

/-! ## Refused requests -/

/-- A stream in a state in which it refuses everything for one reason, and leaves the state alone. -/
structure Refusing (s : Stream W) (e : Error) (w : W) : Prop where
  read : ∀ buffer, s.read buffer w = .ok ⟨.error e, []⟩ w
  write : ∀ data, s.write data w = .ok (.error e) w
  control : ∀ request, s.control request w = .ok (.error e) w

namespace Request

/-- The request cannot be answered without the stream: there is at least one byte to be moved, or a
control request to be made. A transfer into a part of a buffer is left out, as it may be refused for
that. -/
def NeedsStream : Request → Prop
  | readBytes patience none => 0 < patience
  | readBytes _ (some size) => 0 < size ∧ size ≤ maxBytes
  | readInto buffer length => buffer ≠ [] ∧ length = none
  | readLine patience limit => 0 < limit.getD patience
  | writeBytes data => data ≠ []
  | pollFor _ => True
  | flush => True

/-- The answer to a request that is refused. -/
def refusal (e : Error) : Request → Answer
  | readBytes _ _ => .bytes (.error e)
  | readInto buffer _ => .filled (.error e) buffer
  | readLine _ _ => .bytes (.error e)
  | writeBytes _ => .count (.error e)
  | pollFor _ => .ready (.error e)
  | flush => .done (.error e)

end Request

section
variable {s : Stream W} {e : Error} {w : W} (h : s.Refusing e w) (he : e ≠ .shouldWait)
include h he

theorem fill_of_refusing {buffer : List UInt8} (hsome : buffer ≠ []) :
    s.fill [] buffer w = .ok (.error e, buffer) w := by
  rw [fill_of_failed hsome (h.read buffer) rfl he, overlay_nil, List.nil_append]

theorem readAll_of_refusing {patience : Nat} (hpos : 0 < patience) :
    s.readAll patience w = .ok (.error e) w := by
  obtain ⟨patience, rfl⟩ := Nat.exists_eq_succ_of_ne_zero hpos.ne'
  rw [readAll, readChunks, Act.bind_of_ok (h.read _)]
  simp only
  rfl

theorem readLine_of_refusing {patience : Nat} {limit : Option Nat} (hpos : 0 < limit.getD patience) :
    s.readLine patience limit w = .ok (.error e) w := by
  obtain ⟨rounds, hrounds⟩ := Nat.exists_eq_succ_of_ne_zero hpos.ne'
  rw [Stream.readLine, hrounds, readLineBytes, Act.bind_of_ok (h.read _)]
  simp only
  rfl

theorem writeBytes_of_refusing {data : List UInt8} (hsome : data ≠ []) :
    s.writeBytes data w = .ok (.error e) w := by
  obtain ⟨byte, bytes, rfl⟩ := List.exists_cons_of_ne_nil hsome
  have hdrain : s.drain 0 (byte :: bytes) w = .ok (.error e) w := by
    rw [drain, Act.bind_of_ok (h.write _)]
    simp only
    rfl
  exact Act.bind_of_ok hdrain

theorem run_of_refusing [HasLog W] {request : Request} (hneeds : request.NeedsStream) :
    request.run s w = .ok (request.refusal e) w := by
  cases request with
  | readBytes patience size =>
    cases size with
    | some size =>
      have hsome : List.replicate size (0 : UInt8) ≠ [] := by simpa using hneeds.1.ne'
      have hsized : s.readSized size w = .ok (.error e) w :=
        readSized_eq_ok_iff.mpr ⟨hneeds.2, _, _, fill_of_refusing h he hsome, rfl⟩
      exact Act.bind_of_ok hsized
    | none =>
      have hall : s.readAll patience w = .ok (.error e) w := readAll_of_refusing h he hneeds
      exact Act.bind_of_ok hall
  | readInto buffer length =>
    obtain ⟨hsome, rfl⟩ := hneeds
    have hinto : s.readInto buffer none w = .ok (.error e, buffer) w :=
      readInto_eq_ok_iff.mpr ⟨_, fill_of_refusing h he hsome, rfl⟩
    exact Act.bind_of_ok hinto
  | readLine patience limit => exact Act.bind_of_ok (readLine_of_refusing h he hneeds)
  | writeBytes data => exact Act.bind_of_ok (writeBytes_of_refusing h he hneeds)
  | pollFor flags =>
    have hpoll : s.pollFor flags w = .ok (.error e) w := Act.bind_of_ok (h.control _)
    exact Act.bind_of_ok hpoll
  | flush =>
    have hflush : s.flush w = .ok (.error e) w := Act.bind_of_ok (h.control _)
    exact Act.bind_of_ok hflush

end
end SerialLine.Stream
