import Mathlib.Data.List.Basic
import SerialLine.Proofs.Streams.Walks
/-! # Reading from a stream that overstates

A stream may tell of more bytes than there was room for. What becomes of the transfers then.

* `overheard`: a stream that keeps what it tells with the room it was given.
* `Answering`: a stream that answers every read, truthfully or not.
* `Fetches`: what is told during a transfer into a buffer, one constructor per exit of its loop.
  `fetches_fill`: the loop is told such things, by induction on the room that is left.
* `Gathers`: the same of a read of everything, and `gathers_readChunks`.
* `reads_trust_counts`: which overstated counts halt a transfer, which ones it passes on, and which ones do
  no harm.
-/
set_option autoImplicit false

namespace SerialLine.Stream

variable {W α : Type}

/-! ## What is told -/

/-- The room that a read was given, and what the stream told of it. -/
structure Told where
  room : Nat
  outcome : Except Error Nat

namespace Told

def count (t : Told) : Nat :=
  match t.outcome with
  | .ok n => n
  | .error _ => 0

/-- More bytes are told of than there was room for. -/
def Overstates (t : Told) : Prop := t.room < t.count

end Told

/-- The bytes told of by several reads. -/
def totalTold (told : List Told) : Nat := (told.map Told.count).sum

@[simp] theorem totalTold_nil : totalTold [] = 0 := rfl

@[simp] theorem totalTold_cons (t : Told) (told : List Told) :
    totalTold (t :: told) = t.count + totalTold told := by
  simp [totalTold]

/-- A state with what was told so far. -/
structure Overheard (W : Type) where
  inner : W
  told : List Told := []

instance [HasLog W] : HasLog (Overheard W) where
  log v := HasLog.log v.inner
  setLog log v := { v with inner := HasLog.setLog log v.inner }

/-- The same stream, which keeps what it tells. -/
def overheard (s : Stream W) : Stream (Overheard W) where
  read buffer := fun v =>
    match s.read buffer v.inner with
    | .ok reply w => .ok reply ⟨w, v.told ++ [⟨buffer.length, reply.outcome⟩]⟩
    | .error e w => .error e ⟨w, v.told⟩
  write data := Act.onPart Overheard.inner (fun w v => { v with inner := w }) (s.write data)
  control request := Act.onPart Overheard.inner (fun w v => { v with inner := w }) (s.control request)
  properties v := s.properties v.inner

/-- What an act is told from a state on. -/
def toldIn (act : Act (Overheard W) α) (w : W) : List Told := (Act.final act ⟨w, []⟩).told

/-- A stream that answers every read. The answer need not be true. -/
def Answering (s : Stream W) : Prop := ∀ buffer w, ∃ reply w', s.read buffer w = .ok reply w'

/-- The end of an act in a given state. -/
def endsIn : Except Halt α → W → EStateM.Result Halt W α
  | .ok a, w => .ok a w
  | .error e, w => .error e w

/-- An act on a stream comes to an end, and does so too if the stream is overheard. -/
def Comes (act : Act W α) (act' : Act (Overheard W) α) (w : W) (before told : List Told)
    (result : Except Halt α) : Prop :=
  ∃ w', act w = endsIn result w' ∧ act' ⟨w, before⟩ = endsIn result ⟨w', before ++ told⟩

section
variable {s : Stream W} {buffer : List UInt8} {reply : ReadReply} {w w' : W}

theorem overheard_read (before : List Told) (hread : s.read buffer w = .ok reply w') :
    s.overheard.read buffer ⟨w, before⟩ =
      .ok reply ⟨w', before ++ [⟨buffer.length, reply.outcome⟩]⟩ := by
  simp only [overheard, hread]

theorem Comes.toldIn_eq {act : Act W α} {act' : Act (Overheard W) α} {told : List Told}
    {result : Except Halt α} (h : Comes act act' w [] told result) : toldIn act' w = told := by
  obtain ⟨w', -, hend⟩ := h
  rw [toldIn, Act.final, hend]
  cases result <;> rfl

theorem Comes.eq_ok {act : Act W α} {act' : Act (Overheard W) α} {before told : List Told}
    {result : Except Halt α} {a : α} (h : Comes act act' w before told result)
    (hok : act w = .ok a w') : result = .ok a := by
  obtain ⟨w₁, hend, -⟩ := h
  rw [hend] at hok
  cases result with
  | ok a' =>
    cases hok
    rfl
  | error e => cases hok

theorem Comes.halts_iff {act : Act W α} {act' : Act (Overheard W) α} {before told : List Told}
    {result : Except Halt α} (h : Comes act act' w before told result) (e : Halt) :
    (∃ w', act w = .error e w') ↔ result = .error e := by
  obtain ⟨w₁, hend, -⟩ := h
  rw [hend]
  cases result with
  | ok a => exact iff_of_false (fun ⟨_, hhalt⟩ => by cases hhalt) nofun
  | error e' =>
    constructor
    · rintro ⟨w', hhalt⟩
      cases hhalt
      rfl
    · rintro ⟨⟩
      exact ⟨w₁, rfl⟩

/-- What is made of the answer of an act changes nothing else. -/
theorem Comes.map {β : Type} {act : Act W α} {act' : Act (Overheard W) α} {before told : List Told}
    {result : Except Halt α} (h : Comes act act' w before told result) (f : α → β) :
    Comes (do return f (← act)) (do return f (← act')) w before told (result.map f) := by
  obtain ⟨w', hend, hend'⟩ := h
  refine ⟨w', ?_⟩
  cases result with
  | ok a => exact ⟨Act.bind_of_ok hend, Act.bind_of_ok hend'⟩
  | error e => exact ⟨Act.bind_of_error hend, Act.bind_of_error hend'⟩

theorem count_of_stopped {t : Told} (h : ∀ n, t.outcome ≠ .ok (n + 1)) : t.count = 0 := by
  unfold Told.count
  match ht : t.outcome with
  | .ok 0 => rfl
  | .ok (n + 1) => exact absurd ht (h n)
  | .error e => rfl

end

/-! ## A transfer into a buffer -/

/-- What is told during a transfer that has moved `done` bytes and has so much room left, and what it
comes to. Nothing means that a count fits in no sum. -/
inductive Fetches : Nat → Nat → List Told → Option (Except Error Progress) → Prop where
  | full {done : Nat} : Fetches done 0 [] (some (.ok ⟨done, false⟩))
  | stopped {done room : Nat} {outcome : Except Error Nat} (hstop : ∀ n, outcome ≠ .ok (n + 1)) :
      Fetches done room [⟨room, outcome⟩] (some (lastProgress done outcome))
  | filled {done room n : Nat} (hover : room ≤ n + 1) (hcount : done + (n + 1) < countLimit) :
      Fetches done room [⟨room, .ok (n + 1)⟩] (some (.ok ⟨done + (n + 1), false⟩))
  | overflow {done room n : Nat} (hcount : countLimit ≤ done + (n + 1)) :
      Fetches done room [⟨room, .ok (n + 1)⟩] none
  | more {done room n : Nat} {told : List Told} {result : Option (Except Error Progress)}
      (hroom : n + 1 < room) (hcount : done + (n + 1) < countLimit)
      (h : Fetches (done + (n + 1)) (room - (n + 1)) told result) :
      Fetches done room (⟨room, .ok (n + 1)⟩ :: told) result

/-- The end of a transfer with the buffer as it is then. -/
def filledEnd (result : Option (Except Error Progress)) (buffer : List UInt8) :
    Except Halt (Except Error Progress × List UInt8) :=
  match result with
  | some result => .ok (result, buffer)
  | none => .error .aborted

theorem fetches_fill {s : Stream W} (h : s.Answering) (filled rest : List UInt8) (w : W)
    (before : List Told) :
    ∃ result buffer told, Fetches filled.length rest.length told result ∧
      buffer.length = filled.length + rest.length ∧
      Comes (s.fill filled rest) (s.overheard.fill filled rest) w before told
        (filledEnd result buffer) := by
  induction hlength : rest.length using Nat.strong_induction_on generalizing filled rest w before with
  | h length ih =>
    subst hlength
    by_cases hrest : rest = []
    · subst hrest
      refine ⟨_, filled, [], .full, rfl, w, fill_nil, ?_⟩
      rw [List.append_nil]
      exact fill_nil
    obtain ⟨reply, w₁, hread⟩ := h rest w
    have hheard := overheard_read before hread
    have hkept : (filled ++ overlay reply.bytes rest).length = filled.length + rest.length := by
      rw [List.length_append, length_overlay]
    by_cases hstop : ∀ n, reply.outcome ≠ .ok (n + 1)
    · exact ⟨_, _, _, .stopped hstop, hkept, w₁, fill_of_stopped hrest hread hstop,
        fill_of_stopped hrest hheard hstop⟩
    push Not at hstop
    obtain ⟨n, hmoved⟩ := hstop
    by_cases hcount : filled.length + (n + 1) < countLimit
    · by_cases hroom : n + 1 < rest.length
      · have hfront : ((overlay reply.bytes rest).take (n + 1)).length = n + 1 :=
          List.length_take_of_le (by rw [length_overlay]; exact hroom.le)
        have hleft : ((overlay reply.bytes rest).drop (n + 1)).length = rest.length - (n + 1) := by
          rw [List.length_drop, length_overlay]
        obtain ⟨result, buffer, told, hfetches, hbuffer, w', hend, hend'⟩ := ih _ (by omega)
          (filled ++ (overlay reply.bytes rest).take (n + 1))
          ((overlay reply.bytes rest).drop (n + 1)) w₁
          (before ++ [⟨rest.length, reply.outcome⟩]) rfl
        rw [List.length_append, hfront, hleft] at hfetches hbuffer
        refine ⟨result, buffer, ⟨rest.length, reply.outcome⟩ :: told, ?_, by omega, w', ?_, ?_⟩
        · rw [hmoved]
          exact .more hroom hcount hfetches
        · rw [fill_of_more hrest hread hmoved hcount hroom, hend]
        · rw [fill_of_more hrest hheard hmoved hcount hroom, hend', List.append_assoc]
          rfl
      · have hfull := Nat.not_lt.mp hroom
        refine ⟨some (.ok ⟨filled.length + (n + 1), false⟩), _, [⟨rest.length, reply.outcome⟩], ?_,
          hkept, w₁, fill_of_full hrest hread hmoved hcount hfull,
          fill_of_full hrest hheard hmoved hcount hfull⟩
        rw [hmoved]
        exact .filled hfull hcount
    · have hover := Nat.not_lt.mp hcount
      refine ⟨none, _, [⟨rest.length, reply.outcome⟩], ?_, hkept, w₁,
        fill_of_overflow hrest hread hmoved hover, fill_of_overflow hrest hheard hmoved hover⟩
      rw [hmoved]
      exact .overflow hover

section
variable {done room : Nat} {told : List Told} {result : Option (Except Error Progress)}
  (h : Fetches done room told result)
include h

theorem Fetches.room_le {t : Told} (ht : t ∈ told) : t.room ≤ room := by
  induction h with
  | full => cases ht
  | more hroom hcount h ih =>
    rcases List.mem_cons.mp ht with rfl | ht
    · exact le_rfl
    · exact (ih ht).trans (Nat.sub_le _ _)
  | _ =>
    obtain rfl := List.mem_singleton.mp ht
    exact le_rfl

/-- Before a read, as many bytes were moved as there is less room. -/
theorem Fetches.halts_iff (hfits : done + room < countLimit) :
    result = none ↔ ∃ t ∈ told, countLimit ≤ done + (room - t.room) + t.count := by
  induction h with
  | full => simp
  | @stopped done room outcome hstop =>
    have hnone : (⟨room, outcome⟩ : Told).count = 0 := count_of_stopped hstop
    simp only [reduceCtorEq, List.mem_singleton, exists_eq_left, hnone, false_iff]
    omega
  | filled hover hcount =>
    simp only [reduceCtorEq, List.mem_singleton, exists_eq_left, Told.count, false_iff]
    omega
  | overflow hcount =>
    simp only [List.mem_singleton, exists_eq_left, Told.count, true_iff]
    omega
  | @more done room n told result hroom hcount h ih =>
    have hrest : (∃ t ∈ told, countLimit ≤ done + (room - t.room) + t.count) ↔
        ∃ t ∈ told, countLimit ≤ done + (n + 1) + (room - (n + 1) - t.room) + t.count := by
      refine exists_congr fun t => and_congr_right fun ht => ?_
      have hle := h.room_le ht
      rw [show done + (n + 1) + (room - (n + 1) - t.room) = done + (room - t.room) by omega]
    have hfirst : ¬ countLimit ≤ done + (room - room) + (⟨room, .ok (n + 1)⟩ : Told).count := by
      simp only [Told.count]
      omega
    rw [ih (by omega), ← hrest, List.exists_mem_cons_iff]
    exact (or_iff_right hfirst).symm

theorem Fetches.count_eq {progress : Progress} (hresult : result = some (.ok progress)) :
    progress.count = done + totalTold told := by
  induction h with
  | full =>
    cases hresult
    rfl
  | @stopped done room outcome hstop =>
    have hnone : (⟨room, outcome⟩ : Told).count = 0 := count_of_stopped hstop
    have hcount : progress.count = done := by
      cases outcome with
      | ok n =>
        cases hresult
        rfl
      | error e =>
        rcases eq_or_ne e .shouldWait with rfl | he
        · cases hresult
          rfl
        · rw [lastProgress_of_failed _ he] at hresult
          cases hresult
    rw [hcount, totalTold_cons, hnone]
    rfl
  | filled =>
    cases hresult
    rfl
  | overflow => cases hresult
  | more hroom hcount h ih =>
    rw [ih hresult, totalTold_cons, Nat.add_assoc]
    rfl

/-- A count is passed on that is larger than the buffer if one was told that is larger than its room. -/
theorem Fetches.over_iff {progress : Progress} (hresult : result = some (.ok progress)) :
    done + room < progress.count ↔ ∃ t ∈ told, t.Overstates := by
  have hcounted := h.count_eq hresult
  induction h with
  | full => simp [hcounted]
  | @stopped done room outcome hstop =>
    have hnone : (⟨room, outcome⟩ : Told).count = 0 := count_of_stopped hstop
    rw [totalTold_cons, hnone] at hcounted
    simp only [List.mem_singleton, exists_eq_left, Told.Overstates, hnone, hcounted, totalTold_nil]
    omega
  | filled =>
    cases hresult
    simp only [List.mem_singleton, exists_eq_left, Told.Overstates, Told.count]
    omega
  | overflow => cases hresult
  | @more done room n told result hroom hcount h ih =>
    have hfirst : ¬ (⟨room, .ok (n + 1)⟩ : Told).Overstates := by
      simp only [Told.Overstates, Told.count]
      omega
    have hrest := ih hresult (h.count_eq hresult)
    rw [show done + (n + 1) + (room - (n + 1)) = done + room by omega] at hrest
    rw [List.exists_mem_cons_iff, or_iff_right hfirst]
    exact hrest

end

/-! ## A read of everything -/

/-- What is told during a read of everything behind the bytes `data`, in so many chunks at most, and what it
comes to. -/
structure Gathers (patience : Nat) (data : List UInt8) (told : List Told)
    (result : Except Halt (Except Error (Option (List UInt8)))) : Prop where
  halts_iff : ∀ e, result = .error e ↔ e = .aborted ∧ (∃ t ∈ told, t.Overstates) ∨
    e = .unfinished ∧ told.length = patience ∧ ∀ t ∈ told, 0 < t.count ∧ ¬ t.Overstates
  length_eq : ∀ bytes, result = .ok (.ok (some bytes)) → bytes.length = data.length + totalTold told

theorem eq_of_lastAnswer {data bytes : List UInt8} {outcome : Except Error Nat}
    (h : lastAnswer data outcome = .ok (some bytes)) : bytes = data := by
  rcases lastAnswer_cases outcome with ⟨e, hfailed⟩ | hanswered
  · rw [hfailed] at h
    cases h
  · obtain ⟨line, hline, hdata⟩ := hanswered data
    rw [h] at hline
    cases hline
    exact hdata

theorem readChunks_of_overstated {s : Stream W} {patience n : Nat} {chunk data : List UInt8}
    {reply : ReadReply} {w w' : W} (hread : s.read chunk w = .ok reply w')
    (h : reply.outcome = .ok (n + 1)) (hover : chunk.length < n + 1) :
    s.readChunks (patience + 1) chunk data w = .error .aborted w' := by
  rw [readChunks, Act.bind_of_ok hread]
  simp only [h, length_overlay, hover, if_true]
  rfl

/-- By induction on the number of chunks; the size of the chunk stays the same. -/
theorem gathers_readChunks {s : Stream W} (h : s.Answering) (patience : Nat) (chunk data : List UInt8)
    (w : W) (before : List Told) :
    ∃ result told, Gathers patience data told result ∧
      Comes (s.readChunks patience chunk data) (s.overheard.readChunks patience chunk data) w before
        told result := by
  induction patience generalizing chunk data w before with
  | zero =>
    refine ⟨.error .unfinished, [], ⟨fun e => ?_, nofun⟩, w, rfl, ?_⟩
    · simp [eq_comm]
    · rw [List.append_nil]
      rfl
  | succ patience ih =>
    obtain ⟨reply, w₁, hread⟩ := h chunk w
    have hheard := overheard_read before hread
    by_cases hstop : ∀ n, reply.outcome ≠ .ok (n + 1)
    · have hnone : (⟨chunk.length, reply.outcome⟩ : Told).count = 0 := count_of_stopped hstop
      refine ⟨.ok (lastAnswer data reply.outcome), [⟨chunk.length, reply.outcome⟩],
        ⟨fun e => ?_, fun bytes hbytes => ?_⟩, w₁, readChunks_of_stopped hread hstop,
        readChunks_of_stopped hheard hstop⟩
      · simp [Told.Overstates, hnone]
      · rw [eq_of_lastAnswer (Except.ok.inj hbytes), totalTold_cons, hnone]
        rfl
    push Not at hstop
    obtain ⟨n, hmoved⟩ := hstop
    by_cases hover : chunk.length < n + 1
    · refine ⟨.error .aborted, [⟨chunk.length, reply.outcome⟩], ⟨fun e => ?_, nofun⟩, w₁,
        readChunks_of_overstated hread hmoved hover, readChunks_of_overstated hheard hmoved hover⟩
      have hfirst : (⟨chunk.length, reply.outcome⟩ : Told).Overstates := by
        simpa only [Told.Overstates, Told.count, hmoved] using hover
      constructor
      · rintro ⟨⟩
        exact .inl ⟨rfl, _, List.mem_singleton_self _, hfirst⟩
      · rintro (⟨rfl, -⟩ | ⟨-, -, hall⟩)
        · rfl
        · exact absurd hfirst (hall _ (List.mem_singleton_self _)).2
    · have hroom := Nat.not_lt.mp hover
      obtain ⟨result, told, hgathers, w', hend, hend'⟩ := ih (overlay reply.bytes chunk)
        (data ++ (overlay reply.bytes chunk).take (n + 1)) w₁
        (before ++ [⟨chunk.length, reply.outcome⟩])
      have hcount : (⟨chunk.length, reply.outcome⟩ : Told).count = n + 1 := by
        simp only [Told.count, hmoved]
      refine ⟨result, ⟨chunk.length, reply.outcome⟩ :: told, ⟨fun e => ?_, fun bytes hbytes => ?_⟩,
        w', ?_, ?_⟩
      · have hfirst : ¬ (⟨chunk.length, reply.outcome⟩ : Told).Overstates := by
          rw [Told.Overstates, hcount]
          exact hover
        have hmoved : 0 < n + 1 ∧ ¬ (⟨chunk.length, reply.outcome⟩ : Told).Overstates :=
          ⟨Nat.succ_pos n, hfirst⟩
        rw [hgathers.halts_iff, List.exists_mem_cons_iff, or_iff_right hfirst, List.forall_mem_cons,
          List.length_cons, Nat.add_left_inj, hcount, and_iff_right hmoved]
      · rw [hgathers.length_eq bytes hbytes, totalTold_cons, hcount, List.length_append,
          List.length_take_of_le (by rw [length_overlay]; exact hroom), Nat.add_assoc]
      · rw [readChunks_of_moved hread hmoved hroom, hend]
      · rw [readChunks_of_moved hheard hmoved hroom, hend', List.append_assoc]
        rfl

/-! ## A line -/

/-- Whatever count a read tells, it stands for one byte. -/
theorem readLineBytes_of_told {s : Stream W} {n : Nat} {byte : UInt8} {reply : ReadReply} {w w' : W}
    (limited : Bool) (rounds : Nat) (line : List UInt8) (hread : s.read [byte] w = .ok reply w')
    (h : reply.outcome = .ok (n + 1)) : ∃ read, s.readLineBytes limited (rounds + 1) byte line w =
      if read = 10 then .ok (.ok (some (line ++ [read]))) w'
      else s.readLineBytes limited rounds read (line ++ [read]) w' := by
  refine ⟨(overlay reply.bytes [byte]).headD byte, ?_⟩
  rw [readLineBytes, Act.bind_of_ok hread]
  simp only [h]
  split_ifs
  · rfl
  · rfl

/-- By induction on the bytes that may still be read. -/
theorem readLineBytes_ends {s : Stream W} (h : s.Answering) (limited : Bool) (rounds : Nat) (byte : UInt8)
    (line : List UInt8) (w : W) :
    ∃ result w', s.readLineBytes limited rounds byte line w = endsIn result w' ∧
      (∀ e, result = .error e → e = .unfinished ∧ limited = false) ∧
      ∀ bytes, result = .ok (.ok (some bytes)) → bytes.length ≤ line.length + rounds := by
  induction rounds generalizing byte line w with
  | zero =>
    cases limited with
    | true =>
      refine ⟨.ok (.ok (some line)), w, rfl, fun e he => ?_, fun bytes hbytes => ?_⟩
      · cases he
      · cases hbytes
        exact le_rfl
    | false =>
      refine ⟨.error .unfinished, w, rfl, fun e he => ?_, fun bytes hbytes => ?_⟩
      · cases he
        exact ⟨rfl, rfl⟩
      · cases hbytes
  | succ rounds ih =>
    obtain ⟨reply, w₁, hread⟩ := h [byte] w
    by_cases hstop : ∀ n, reply.outcome ≠ .ok (n + 1)
    · refine ⟨.ok (lastAnswer line reply.outcome), w₁, readLineBytes_of_stopped hread hstop,
        fun e he => ?_, fun bytes hbytes => ?_⟩
      · cases he
      · rw [eq_of_lastAnswer (Except.ok.inj hbytes)]
        exact Nat.le_add_right _ _
    push Not at hstop
    obtain ⟨n, hmoved⟩ := hstop
    obtain ⟨read, hround⟩ := readLineBytes_of_told limited rounds line hread hmoved
    rw [hround]
    by_cases hnewline : read = 10
    · rw [if_pos hnewline]
      refine ⟨.ok (.ok (some (line ++ [read]))), w₁, rfl, fun e he => ?_, fun bytes hbytes => ?_⟩
      · cases he
      · cases hbytes
        rw [List.length_append, List.length_singleton]
        omega
    · rw [if_neg hnewline]
      obtain ⟨result, w', hend, hhalts, hlength⟩ := ih read (line ++ [read]) w₁
      refine ⟨result, w', hend, hhalts, fun bytes hbytes => ?_⟩
      have hle := hlength bytes hbytes
      rw [List.length_append, List.length_singleton] at hle
      omega

/-! ## Requests -/

section
variable {s : Stream W} {w : W} {e : Halt} {buffer front : List UInt8} {length : Option Nat}

theorem filledEnd_error_iff {result : Option (Except Error Progress)}
    {f : Except Error Progress × List UInt8 → α} :
    (filledEnd result buffer).map f = .error e ↔ e = .aborted ∧ result = none := by
  cases result with
  | some result => exact iff_of_false nofun fun h => by cases h.2
  | none =>
    refine ⟨fun h => ?_, fun h => by rw [h.1]; rfl⟩
    cases h
    exact ⟨rfl, rfl⟩

theorem filledEnd_ok {result : Option (Except Error Progress)}
    {f : Except Error Progress × List UInt8 → α} {a : α}
    (h : (filledEnd result buffer).map f = .ok a) : ∃ outcome, result = some outcome ∧
      f (outcome, buffer) = a := by
  cases result with
  | some outcome =>
    cases h
    exact ⟨outcome, rfl, rfl⟩
  | none => cases h

theorem comes_readSized (h : s.Answering) {size : Nat} (hsize : size ≤ maxBytes) (w : W) :
    ∃ result buffer told, Fetches 0 size told result ∧ buffer.length = size ∧
      Comes (s.readSized size) (s.overheard.readSized size) w [] told
        ((filledEnd result buffer).map fun end_ =>
          end_.1.map fun progress => progress.answer?.map fun n => end_.2.take n) := by
  obtain ⟨result, buffer, told, hfetches, hbuffer, hcomes⟩ :=
    fetches_fill h [] (List.replicate size 0) w []
  rw [List.length_nil, List.length_replicate] at hfetches hbuffer
  rw [Nat.zero_add] at hbuffer
  refine ⟨result, buffer, told, hfetches, hbuffer, ?_⟩
  have hbig : ¬ maxBytes < size := Nat.not_lt.mpr hsize
  rw [readSized, if_neg hbig, readSized, if_neg hbig]
  exact hcomes.map fun end_ =>
    end_.1.map fun progress => progress.answer?.map fun n => end_.2.take n

variable [HasLog W]

/-- A length other than that of the buffer may be refused, before the stream is read. -/
theorem comes_readInto_refused (hexact : (s.properties w).exactLength = true)
    (hlength : length.getD buffer.length ≠ buffer.length) :
    Comes (s.readInto buffer length) (s.overheard.readInto buffer length) w [] []
      (.ok (.error .invalidArgs, buffer)) := by
  have hrefused {V : Type} [HasLog V] (s : Stream V) (v : V) (h : (s.properties v).exactLength = true) :
      s.readInto buffer length v = .ok (.error .invalidArgs, buffer) (HasLog.setLog
        ((HasLog.log v).note .debug "readinto: length argument not allowed for this stream") v) := by
    have hget : (get : Act V V) v = .ok v v := rfl
    rw [readInto, Act.bind_of_ok hget]
    simp only [h, hlength, ne_eq, not_false_eq_true, decide_true, Bool.and_self, if_true]
    rfl
  exact ⟨_, hrefused s w hexact, hrefused s.overheard ⟨w, []⟩ hexact⟩

theorem comes_readInto (h : s.Answering)
    (hlength : (s.properties w).exactLength = true → length.getD buffer.length = buffer.length) :
    ∃ result front told, Fetches 0 (min (length.getD buffer.length) buffer.length) told result ∧
      front.length = min (length.getD buffer.length) buffer.length ∧
      Comes (s.readInto buffer length) (s.overheard.readInto buffer length) w [] told
        ((filledEnd result front).map fun end_ =>
          (end_.1.map Progress.answer?, end_.2 ++ buffer.drop (length.getD buffer.length))) := by
  obtain ⟨result, front, told, hfetches, hfront, hcomes⟩ :=
    fetches_fill h [] (buffer.take (length.getD buffer.length)) w []
  rw [List.length_nil, List.length_take] at hfetches hfront
  rw [Nat.zero_add] at hfront
  obtain ⟨w', hend, hend'⟩ := hcomes.map fun end_ =>
    (end_.1.map Progress.answer?, end_.2 ++ buffer.drop (length.getD buffer.length))
  exact ⟨result, front, told, hfetches, hfront, w', (readInto_eq_fill hlength).trans hend,
    (readInto_eq_fill (s := s.overheard) (w := ⟨w, []⟩) hlength).trans hend'⟩

end

/-! ## What the counts do -/

theorem answer?_eq_some {progress : Progress} {n : Nat} (h : progress.answer? = some n) :
    n = progress.count := by
  unfold Progress.answer? at h
  split at h
  · cases h
  · exact (Option.some.inj h).symm

section
variable {s : Stream W} (h : s.Answering)
include h

theorem length_readSized {size : Nat} {bytes : List UInt8} {w w' : W}
    (hread : s.readSized size w = .ok (.ok (some bytes)) w') :
    bytes.length = min size (totalTold (toldIn (s.overheard.readSized size) w)) := by
  have hsize := (readSized_eq_ok_iff.mp hread).1
  obtain ⟨result, buffer, told, hfetches, hbuffer, hcomes⟩ := comes_readSized h hsize w
  obtain ⟨outcome, hresult, hbytes⟩ := filledEnd_ok (hcomes.eq_ok hread)
  rw [hcomes.toldIn_eq]
  cases outcome with
  | error e => cases hbytes
  | ok progress =>
    obtain ⟨n, hn, rfl⟩ := Option.map_eq_some_iff.mp (Except.ok.inj hbytes)
    rw [List.length_take, hbuffer, answer?_eq_some hn, hfetches.count_eq hresult, Nat.zero_add,
      Nat.min_comm]

theorem readSized_halts_iff (size : Nat) (e : Halt) (w : W) :
    (∃ w', s.readSized size w = .error e w') ↔ e = .aborted ∧ (maxBytes < size ∨
      ∃ t ∈ toldIn (s.overheard.readSized size) w, countLimit ≤ size - t.room + t.count) := by
  by_cases hsize : maxBytes < size
  · rw [readSized_of_big hsize]
    constructor
    · rintro ⟨w', hhalt⟩
      cases hhalt
      exact ⟨rfl, .inl hsize⟩
    · rintro ⟨rfl, -⟩
      exact ⟨w, rfl⟩
  obtain ⟨result, buffer, told, hfetches, hbuffer, hcomes⟩ :=
    comes_readSized h (Nat.not_lt.mp hsize) w
  have hfits : 0 + size < countLimit := by
    rw [Nat.zero_add]
    exact (Nat.not_lt.mp hsize).trans_lt (by decide)
  rw [hcomes.halts_iff, filledEnd_error_iff, hfetches.halts_iff hfits, hcomes.toldIn_eq]
  simp only [hsize, Nat.zero_add, false_or]

theorem length_readAll {patience : Nat} {bytes : List UInt8} {w w' : W}
    (hread : s.readAll patience w = .ok (.ok (some bytes)) w') :
    bytes.length = totalTold (toldIn (s.overheard.readAll patience) w) := by
  obtain ⟨result, told, hgathers, hcomes⟩ :=
    gathers_readChunks h patience (List.replicate chunkSize 0) [] w []
  have hlength := hgathers.length_eq bytes (hcomes.eq_ok hread)
  rw [readAll, hcomes.toldIn_eq, hlength, List.length_nil, Nat.zero_add]

theorem readAll_halts_iff (patience : Nat) (e : Halt) (w : W) :
    (∃ w', s.readAll patience w = .error e w') ↔
      e = .aborted ∧ (∃ t ∈ toldIn (s.overheard.readAll patience) w, t.Overstates) ∨
      e = .unfinished ∧ (toldIn (s.overheard.readAll patience) w).length = patience ∧
        ∀ t ∈ toldIn (s.overheard.readAll patience) w, 0 < t.count ∧ ¬ t.Overstates := by
  obtain ⟨result, told, hgathers, hcomes⟩ :=
    gathers_readChunks h patience (List.replicate chunkSize 0) [] w []
  rw [readAll, hcomes.halts_iff, readAll, hcomes.toldIn_eq]
  exact hgathers.halts_iff e

theorem readLine_ends (patience : Nat) (limit : Option Nat) (w : W) :
    ∃ result w', s.readLine patience limit w = endsIn result w' ∧
      (∀ e, result = .error e → e = .unfinished ∧ limit = none) ∧
      ∀ bytes, result = .ok (.ok (some bytes)) → bytes.length ≤ limit.getD patience := by
  obtain ⟨result, w', hend, hhalts, hlength⟩ :=
    readLineBytes_ends h limit.isSome (limit.getD patience) 0 [] w
  refine ⟨result, w', hend, fun e he => ?_, fun bytes hbytes => ?_⟩
  · obtain ⟨hunfinished, hlimit⟩ := hhalts e he
    exact ⟨hunfinished, Option.isSome_eq_false_iff.mp hlimit |> Option.isNone_iff_eq_none.mp⟩
  · have hle := hlength bytes hbytes
    rwa [List.length_nil, Nat.zero_add] at hle

variable [HasLog W]

theorem readInto_count {buffer filled : List UInt8} {length : Option Nat} {n : Nat} {w w' : W}
    (hread : s.readInto buffer length w = .ok (.ok (some n), filled) w') :
    n = totalTold (toldIn (s.overheard.readInto buffer length) w) ∧
      (min (length.getD buffer.length) buffer.length < n ↔
        ∃ t ∈ toldIn (s.overheard.readInto buffer length) w, t.Overstates) := by
  by_cases hlength : (s.properties w).exactLength = true → length.getD buffer.length = buffer.length
  · obtain ⟨result, front, told, hfetches, -, hcomes⟩ := comes_readInto h hlength
    obtain ⟨outcome, hresult, hend⟩ := filledEnd_ok (hcomes.eq_ok hread)
    rw [hcomes.toldIn_eq]
    cases outcome with
    | error e => cases hend
    | ok progress =>
      have hn := answer?_eq_some (Except.ok.inj (Prod.mk.inj hend).1)
      have hover := hfetches.over_iff hresult
      rw [Nat.zero_add] at hover
      refine ⟨?_, by rw [hn]; exact hover⟩
      rw [hn, hfetches.count_eq hresult, Nat.zero_add]
  · push Not at hlength
    have hrefused := (comes_readInto_refused hlength.1 hlength.2).eq_ok hread
    cases hrefused

theorem readInto_halts_iff {buffer : List UInt8} (length : Option Nat) (e : Halt) (w : W)
    (hfits : buffer.length ≤ maxBytes) :
    (∃ w', s.readInto buffer length w = .error e w') ↔ e = .aborted ∧
      ∃ t ∈ toldIn (s.overheard.readInto buffer length) w,
        countLimit ≤ min (length.getD buffer.length) buffer.length - t.room + t.count := by
  by_cases hlength : (s.properties w).exactLength = true → length.getD buffer.length = buffer.length
  · obtain ⟨result, front, told, hfetches, -, hcomes⟩ := comes_readInto h hlength
    have hsum : 0 + min (length.getD buffer.length) buffer.length < countLimit := by
      rw [Nat.zero_add]
      exact ((Nat.min_le_right _ _).trans hfits).trans_lt (by decide)
    rw [hcomes.halts_iff, filledEnd_error_iff, hfetches.halts_iff hsum, hcomes.toldIn_eq]
    simp only [Nat.zero_add]
  · push Not at hlength
    have hrefused := comes_readInto_refused (w := w) hlength.1 hlength.2
    rw [hrefused.halts_iff, hrefused.toldIn_eq]
    exact iff_of_false nofun fun ⟨_, _, ht, _⟩ => List.not_mem_nil ht

theorem readInto_buffer {buffer filled : List UInt8} {length : Option Nat}
    {answer : Except Error (Option Nat)} {w w' : W}
    (hread : s.readInto buffer length w = .ok (answer, filled) w') :
    filled.length = buffer.length ∧
      filled.drop (length.getD buffer.length) = buffer.drop (length.getD buffer.length) := by
  by_cases hlength : (s.properties w).exactLength = true → length.getD buffer.length = buffer.length
  · obtain ⟨result, front, told, -, hfront, hcomes⟩ := comes_readInto h hlength
    obtain ⟨outcome, -, hend⟩ := filledEnd_ok (hcomes.eq_ok hread)
    obtain rfl := (Prod.mk.inj hend).2
    refine ⟨by rw [List.length_append, hfront, List.length_drop]; omega, ?_⟩
    rcases Nat.le_total (length.getD buffer.length) buffer.length with hle | hle
    · rw [List.drop_left' (by rw [hfront, Nat.min_eq_left hle])]
    · rw [List.drop_of_length_le hle, List.append_nil,
        List.drop_of_length_le (by rw [hfront]; omega)]
  · push Not at hlength
    have hrefused := (comes_readInto_refused hlength.1 hlength.2).eq_ok hread
    cases hrefused
    exact ⟨rfl, rfl⟩

end

/-- What becomes of the counts that a stream tells, be they true or not. -/
structure TrustsCounts [HasLog W] (s : Stream W) (w : W) : Prop where
  /-- A read of so many bytes gives no more of them, whatever it is told. -/
  sized_bytes : ∀ patience size bytes w',
    s.readBytes patience (some size) w = .ok (.ok (some bytes)) w' →
      bytes.length = min size (totalTold (toldIn (s.overheard.readBytes patience (some size)) w))
  /-- It is halted when there is no memory for the bytes, and when it cannot add up what it is told. -/
  sized_halts : ∀ patience size e,
    (∃ w', s.readBytes patience (some size) w = .error e w') ↔ e = .aborted ∧ (maxBytes < size ∨
      ∃ t ∈ toldIn (s.overheard.readBytes patience (some size)) w, countLimit ≤ size - t.room + t.count)
  all_bytes : ∀ patience bytes w', s.readBytes patience none w = .ok (.ok (some bytes)) w' →
    bytes.length = totalTold (toldIn (s.overheard.readBytes patience none) w)
  /-- A read of everything is halted by the first count that is larger than its chunk. -/
  all_halts : ∀ patience e, (∃ w', s.readBytes patience none w = .error e w') ↔
    e = .aborted ∧ (∃ t ∈ toldIn (s.overheard.readBytes patience none) w, t.Overstates) ∨
    e = .unfinished ∧ (toldIn (s.overheard.readBytes patience none) w).length = patience ∧
      ∀ t ∈ toldIn (s.overheard.readBytes patience none) w, 0 < t.count ∧ ¬ t.Overstates
  /-- A transfer into a buffer passes on what it was told. -/
  into_count : ∀ buffer length n filled w',
    s.readInto buffer length w = .ok (.ok (some n), filled) w' →
      n = totalTold (toldIn (s.overheard.readInto buffer length) w) ∧
      (min (length.getD buffer.length) buffer.length < n ↔
        ∃ t ∈ toldIn (s.overheard.readInto buffer length) w, t.Overstates)
  into_halts : ∀ buffer length e, buffer.length ≤ maxBytes →
    ((∃ w', s.readInto buffer length w = .error e w') ↔ e = .aborted ∧
      ∃ t ∈ toldIn (s.overheard.readInto buffer length) w,
        countLimit ≤ min (length.getD buffer.length) buffer.length - t.room + t.count)
  /-- But it puts nothing behind the part of the buffer that it was asked to fill. -/
  into_buffer : ∀ buffer length answer filled w',
    s.readInto buffer length w = .ok (answer, filled) w' → filled.length = buffer.length ∧
      filled.drop (length.getD buffer.length) = buffer.drop (length.getD buffer.length)
  /-- To a line any count is one byte. -/
  line_bytes : ∀ patience limit bytes w', s.readLine patience limit w = .ok (.ok (some bytes)) w' →
    bytes.length ≤ limit.getD patience
  line_halts : ∀ patience limit e w', s.readLine patience limit w = .error e w' →
    e = .unfinished ∧ limit = none

/-- A count that is larger than its room is harmless in a read of a given size and in that of a line. It
halts a read of everything, and a transfer into a buffer passes it on. -/
theorem reads_trust_counts [HasLog W] {s : Stream W} (h : s.Answering) (w : W) :
    TrustsCounts s w where
  sized_bytes _ _ _ _ hread := length_readSized h hread
  sized_halts _ size e := readSized_halts_iff h size e w
  all_bytes _ _ _ hread := length_readAll h hread
  all_halts patience e := readAll_halts_iff h patience e w
  into_count _ _ _ _ _ hread := readInto_count h hread
  into_halts _ length e hfits := readInto_halts_iff h length e w hfits
  into_buffer _ _ _ _ _ hread := readInto_buffer h hread
  line_bytes patience limit bytes w' hread := by
    obtain ⟨result, w₁, hend, -, hlength⟩ := readLine_ends h patience limit w
    rw [hend] at hread
    cases result with
    | error e => cases hread
    | ok answer =>
      cases hread
      exact hlength bytes rfl
  line_halts patience limit e w' hread := by
    obtain ⟨result, w₁, hend, hhalts, -⟩ := readLine_ends h patience limit w
    rw [hend] at hread
    cases result with
    | ok answer => cases hread
    | error e' =>
      cases hread
      exact hhalts e rfl

end SerialLine.Stream

namespace SerialLine

/-- A script answers every read, with counts that need not be true. -/
theorem Script.answering_stream : Script.stream.Answering := fun buffer w =>
  ⟨((w.called s!"read {buffer.length}").answerRead buffer.length).1,
    ((w.called s!"read {buffer.length}").answerRead buffer.length).2, rfl⟩

theorem Script.trusts_overstated_count :
    Script.stream.Answering ∧ Stream.TrustsCounts Script.stream { reads := [.count 257] } :=
  ⟨answering_stream, Stream.reads_trust_counts answering_stream _⟩

/-- One byte more than a chunk has halts a read of everything, and a buffer of three bytes is said to
be filled with five. -/
theorem Script.overstated_counts_are_trusted :
    (∃ w', Script.stream.readBytes 1 none { reads := [.count 257] } = .error .aborted w') ∧
    ∃ w', Script.stream.readInto [0, 0, 0] none { reads := [.count 5] } =
      .ok (.ok (some 5), [0, 0, 0]) w' := by
  have hchunk : (List.replicate Stream.chunkSize (0 : UInt8)).length < 256 + 1 := by
    rw [List.length_replicate]
    decide
  obtain ⟨w', hread⟩ : ∃ w', Script.stream.read [0, 0, 0] { reads := [.count 5] } =
      .ok ⟨.ok (4 + 1), []⟩ w' := ⟨_, rfl⟩
  have hfill : Script.stream.fill [] [0, 0, 0] { reads := [.count 5] } =
      .ok (.ok ⟨5, false⟩, [0, 0, 0]) w' :=
    Stream.fill_of_full (List.cons_ne_nil _ _) hread rfl (by decide) (by decide)
  constructor
  · exact ⟨_, Stream.readChunks_of_overstated (n := 256) rfl rfl hchunk⟩
  · exact ⟨w', Stream.readInto_eq_ok_iff.mpr ⟨_, hfill, rfl⟩⟩

end SerialLine
