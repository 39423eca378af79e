import Mathlib.Logic.Function.Iterate
import SerialLine.Proofs.Streams.Filling
import SerialLine.Stream.Script
/-! # Reading a scripted stream

What is read from a script does not depend on the pieces that its bytes come in, and the ways to read
agree with each other.

* `Script.ready`, `Script.stop`: the bytes of a script up to its first answer that is not data, and its
  answers from there on.
* `Script.dropByte`: a script with its first byte taken.
* `read_ready`, `read_ended`: what one read does, said in these terms.
* `fill_script`, `readChunks_script`: what the two loops make of it, by induction on the room that is
  left, and on the reads still allowed.
* `readSized_script`, `readInto_script`, `readAll_script`: the transfers.
* `reads_agree`: they depend on the bytes only, and agree with each other.
-/
set_option autoImplicit false

namespace SerialLine

namespace Script

/-! ## Bytes that can be read -/

/-- The bytes before the first answer that is not data. An empty piece of data is no data: a read takes
it for the end of the stream. -/
def ready : List ScriptItem → List UInt8
  | .data (byte :: bytes) :: items => byte :: bytes ++ ready items
  | _ => []

/-- The answers from the first one that is not data on. -/
def stop : List ScriptItem → List ScriptItem
  | .data (_ :: _) :: items => stop items
  | items => items

/-- What the first answer that is not data tells. -/
def ending (s : Script) : Except Error Nat :=
  match stop s.reads with
  | [] => s.readTail
  | .fail e :: _ => .error e
  | .count n :: _ => .ok n
  | .data _ :: _ => .ok 0

/-- Behind its bytes the script does not tell of bytes that it does not give. -/
def Truthful (s : Script) : Prop := ∀ n, s.ending ≠ .ok (n + 1)

/-- Takes one byte. -/
def dropByte : List ScriptItem → List ScriptItem
  | .data [_] :: items => items
  | .data (_ :: byte :: bytes) :: items => .data (byte :: bytes) :: items
  | items => items

theorem ready_dropByte (items : List ScriptItem) : ready (dropByte items) = (ready items).drop 1 := by
  fun_cases dropByte items with
  | case1 byte items => rfl
  | case2 first byte bytes items => rfl
  | case3 items hone hmore =>
    match items with
    | [] => rfl
    | .data [] :: _ => rfl
    | .data [byte] :: rest => exact absurd rfl (hone byte rest)
    | .data (first :: byte :: bytes) :: rest => exact absurd rfl (hmore first byte bytes rest)
    | .count _ :: _ => rfl
    | .fail _ :: _ => rfl

theorem stop_dropByte (items : List ScriptItem) : stop (dropByte items) = stop items := by
  fun_cases dropByte items with
  | case1 byte items => rfl
  | case2 first byte bytes items => rfl
  | case3 items hone hmore => rfl

theorem ready_dropBytes (n : Nat) (items : List ScriptItem) :
    ready (dropByte^[n] items) = (ready items).drop n := by
  induction n generalizing items with
  | zero => rfl
  | succ n ih =>
    rw [Function.iterate_succ_apply, ih, ready_dropByte, List.drop_drop, Nat.add_comm]

theorem stop_dropBytes (n : Nat) (items : List ScriptItem) :
    stop (dropByte^[n] items) = stop items := by
  induction n generalizing items with
  | zero => rfl
  | succ n ih => rw [Function.iterate_succ_apply, ih, stop_dropByte]

theorem stop_of_ready_nil {items : List ScriptItem} (h : ready items = []) : stop items = items := by
  fun_cases stop items with
  | case1 byte bytes items => simp [ready] at h
  | case2 items hdata => rfl

/-- Bytes of the first piece. -/
theorem dropBytes_data {n : Nat} {bytes : List UInt8} (items : List ScriptItem)
    (hbytes : bytes ≠ []) (hn : n ≤ bytes.length) : dropByte^[n] (.data bytes :: items) =
      if (bytes.drop n).isEmpty then items else .data (bytes.drop n) :: items := by
  induction n generalizing bytes with
  | zero => simp [hbytes]
  | succ n ih =>
    match bytes with
    | [byte] =>
      obtain rfl : n = 0 := by simpa using hn
      rfl
    | _ :: byte :: bytes => exact ih (List.cons_ne_nil _ _) (by simpa using hn)

theorem stop_suffix (items : List ScriptItem) : stop items <:+ items := by
  fun_induction stop items with
  | case1 byte bytes items ih => exact ih.trans (List.suffix_cons _ _)
  | case2 items hdata => exact List.suffix_rfl

/-- No read is answered with a count of bytes that are not given. -/
theorem truthful_of_items {s : Script} (hitems : ∀ n, .count (n + 1) ∉ s.reads)
    (htail : ∀ n, s.readTail ≠ .ok (n + 1)) : s.Truthful := by
  intro n hending
  have hsuffix := (stop_suffix s.reads).subset
  unfold ending at hending
  split at hending
  · exact htail n hending
  · cases hending
  · rename_i hstop
    cases hending
    rw [hstop] at hsuffix
    exact hitems n (hsuffix List.mem_cons_self)
  · cases hending

/-! ## Scripts after reads -/

/-- Nothing has changed but the answers still to be read and the calls noted. -/
def After (s : Script) (items : List ScriptItem) (s' : Script) : Prop :=
  ∃ calls, s' = { s with reads := items, calls := calls }

variable {s s' s'' : Script} {items items' : List ScriptItem}

theorem After.reads_eq (h : s.After items s') : s'.reads = items := by
  obtain ⟨calls, rfl⟩ := h
  rfl

theorem After.readTail_eq (h : s.After items s') : s'.readTail = s.readTail := by
  obtain ⟨calls, rfl⟩ := h
  rfl

theorem After.trans (h : s.After items s') (h' : s'.After items' s'') : s.After items' s'' := by
  obtain ⟨calls, rfl⟩ := h
  obtain ⟨calls', rfl⟩ := h'
  exact ⟨calls', rfl⟩

theorem After.ending_eq (h : s.After items s') (hstop : stop items = stop s.reads) :
    s'.ending = s.ending := by
  obtain ⟨calls, rfl⟩ := h
  simp only [ending, hstop]

/-- The script after `n` bytes were taken: the others are still there, and what comes behind them. -/
structure Took (s : Script) (n : Nat) (s' : Script) : Prop where
  after : s.After (dropByte^[n] s.reads) s'
  ready : ready s'.reads = (ready s.reads).drop n
  stop : stop s'.reads = stop s.reads

theorem After.took {n : Nat} (h : s.After (dropByte^[n] s.reads) s') : s.Took n s' where
  after := h
  ready := by rw [h.reads_eq, ready_dropBytes]
  stop := by rw [h.reads_eq, stop_dropBytes]

theorem Took.ending_eq {n : Nat} (h : s.Took n s') : s'.ending = s.ending :=
  h.after.ending_eq (stop_dropBytes _ _)

/-- The script after all bytes were taken, and the answer behind them. -/
def Ended (s s' : Script) : Prop := s.After (stop s.reads).tail s'

theorem Took.ended {n : Nat} (h : s.Took n s') (h' : s'.Ended s'') : s.Ended s'' := by
  rw [Ended, h.stop] at h'
  exact h.after.trans h'

/-! ## One read -/

/-- A read takes what there is room for, of the first piece only. -/
theorem answerRead_data {piece : List UInt8} {items : List ScriptItem} (hsome : piece ≠ [])
    (hreads : s.reads = .data piece :: items) (room : Nat) :
    s.answerRead room = (⟨.ok (min room piece.length), piece.take room⟩,
      { s with reads := dropByte^[min room piece.length] s.reads }) := by
  have hdrop : piece.drop room = piece.drop (min room piece.length) := by
    rcases Nat.le_total room piece.length with hle | hle
    · rw [Nat.min_eq_left hle]
    · rw [Nat.min_eq_right hle, List.drop_length, List.drop_of_length_le hle]
  simp only [answerRead, hreads, List.length_take]
  rw [dropBytes_data items hsome (Nat.min_le_right _ _), ← hdrop]

/-- As long as there are bytes, a read with room for some takes some. -/
theorem read_ready {buffer : List UInt8} (hroom : buffer ≠ []) (hready : ready s.reads ≠ []) :
    ∃ n s', 0 < n ∧ n ≤ buffer.length ∧ n ≤ (ready s.reads).length ∧
      stream.read buffer s = .ok ⟨.ok n, (ready s.reads).take n⟩ s' ∧ s.Took n s' := by
  obtain ⟨piece, items, hsome, hreads⟩ :
      ∃ piece items, piece ≠ [] ∧ s.reads = .data piece :: items := by
    unfold ready at hready
    split at hready
    · exact ⟨_, _, List.cons_ne_nil _ _, by assumption⟩
    · exact absurd rfl hready
  have hfront : ready s.reads = piece ++ ready items := by
    obtain ⟨byte, bytes, rfl⟩ := List.exists_cons_of_ne_nil hsome
    rw [hreads]
    rfl
  have hpiece : 0 < piece.length := List.length_pos_iff.mpr hsome
  have hbuffer : 0 < buffer.length := List.length_pos_iff.mpr hroom
  have htake : piece.take buffer.length = (ready s.reads).take (min buffer.length piece.length) := by
    rw [hfront, List.take_append_of_le_length (Nat.min_le_right _ _), ← List.take_eq_take_min]
  have hlength : min buffer.length piece.length ≤ (ready s.reads).length := by
    rw [hfront, List.length_append]
    omega
  have hanswer := answerRead_data (s := s.called s!"read {buffer.length}") hsome hreads buffer.length
  rw [htake] at hanswer
  have hread := congrArg (fun answer => EStateM.Result.ok (ε := Halt) answer.1 answer.2) hanswer
  exact ⟨_, _, by omega, by omega, hlength, hread, After.took ⟨_, rfl⟩⟩

/-- Behind the bytes, a read takes the answer that comes next. -/
theorem read_ended (buffer : List UInt8) (hready : ready s.reads = []) :
    ∃ s', stream.read buffer s = .ok ⟨s.ending, []⟩ s' ∧ s.Ended s' := by
  have hstop : stop s.reads = s.reads := stop_of_ready_nil hready
  refine ⟨{ s with reads := s.reads.tail, calls := s.calls.push s!"read {buffer.length}" }, ?_, _,
    by rw [hstop]⟩
  simp only [ending, hstop, stream, called, answerRead]
  cases hreads : s.reads with
  | nil => simp only [List.tail_nil]
  | cons item items =>
    cases item with
    | count n => rfl
    | fail e => rfl
    | data bytes =>
      cases bytes with
      | nil => simp
      | cons byte bytes => simp [hreads, ready] at hready

/-! ## A buffer filled -/

/-- What a transfer of `n` bytes tells that has moved `done` bytes before. -/
def progress (s : Script) (done n : Nat) : Except Error Stream.Progress :=
  if n ≤ (ready s.reads).length then .ok ⟨done + n, false⟩
  else Stream.lastProgress (done + (ready s.reads).length) s.ending

/-- The script after a transfer of `n` bytes: the answer behind the bytes is taken only if they do not
suffice. -/
def Gave (s : Script) (n : Nat) (s' : Script) : Prop :=
  if n ≤ (ready s.reads).length then s.Took n s' else s.Ended s'

theorem Took.progress {k n done : Nat} (h : s.Took k s') (hk : k ≤ (Script.ready s.reads).length)
    (hn : k ≤ n) : s'.progress (done + k) (n - k) = s.progress done n := by
  unfold Script.progress
  rw [h.ending_eq, h.ready, List.length_drop]
  by_cases hall : n ≤ (Script.ready s.reads).length
  · rw [if_pos hall, if_pos (by omega)]
    congr 2
    omega
  · rw [if_neg hall, if_neg (by omega)]
    congr 1
    omega

theorem Took.took {m n : Nat} (h : s.Took m s') (h' : s'.Took n s'') : s.Took (m + n) s'' := by
  have hitems : dropByte^[n] s'.reads = dropByte^[m + n] s.reads := by
    rw [h.after.reads_eq, Nat.add_comm, Function.iterate_add_apply]
  exact (h.after.trans (hitems ▸ h'.after)).took

theorem Took.gave {k n : Nat} (h : s.Took k s') (hk : k ≤ (Script.ready s.reads).length)
    (hn : k ≤ n) (h' : s'.Gave (n - k) s'') : s.Gave n s'' := by
  unfold Gave at h' ⊢
  rw [h.ready, List.length_drop] at h'
  by_cases hall : n ≤ (Script.ready s.reads).length
  · rw [if_pos (by omega)] at h'
    rw [if_pos hall]
    have htook := h.took h'
    rwa [Nat.add_sub_cancel' hn] at htook
  · rw [if_neg (by omega)] at h'
    rw [if_neg hall]
    exact h.ended h'

/-- By induction on the room that is left: a read takes some of it, or it is the last one. -/
theorem fill_script (h : s.Truthful) (filled rest : List UInt8)
    (hcount : filled.length + rest.length < Stream.countLimit) :
    ∃ s', stream.fill filled rest s =
        .ok (s.progress filled.length rest.length, filled ++ overlay (ready s.reads) rest) s' ∧
      s.Gave rest.length s' := by
  induction hlength : rest.length using Nat.strong_induction_on generalizing s filled rest with
  | h length ih =>
    subst hlength
    by_cases hrest : rest = []
    · subst hrest
      refine ⟨s, ?_, After.took ⟨s.calls, rfl⟩⟩
      simp [Stream.fill_nil, progress, overlay]
    by_cases hready : ready s.reads = []
    · obtain ⟨s', hread, hended⟩ := read_ended rest hready
      have hnone : ¬ rest.length ≤ (ready s.reads).length := by
        simpa [hready] using hrest
      refine ⟨s', ?_, ?_⟩
      · rw [Stream.fill_of_stopped hrest hread h, progress, if_neg hnone, hready]
        rfl
      · rw [Gave, if_neg hnone]
        exact hended
    obtain ⟨k, s', hpos, hroom, hk, hread, htook⟩ := read_ready hrest hready
    obtain ⟨k, rfl⟩ := Nat.exists_eq_succ_of_ne_zero hpos.ne'
    rcases Nat.eq_or_lt_of_le hroom with hfull | hless
    · refine ⟨s', ?_, ?_⟩
      · rw [Stream.fill_of_full hrest hread rfl (by omega) hfull.ge, progress, if_pos (by omega),
          hfull, overlay_take_length]
        simp only [← hfull]
      · rw [Gave, if_pos (by omega), ← hfull]
        exact htook
    · have htake : ((ready s.reads).take (k + 1)).length = k + 1 := List.length_take_of_le hk
      have hfilled : (filled ++ (ready s.reads).take (k + 1)).length = filled.length + (k + 1) := by
        rw [List.length_append, htake]
      have hrest' : (rest.drop (k + 1)).length = rest.length - (k + 1) := List.length_drop
      have htruthful : s'.Truthful := fun n => htook.ending_eq ▸ h n
      obtain ⟨s'', hfill, hgave⟩ :=
        ih _ (by omega) htruthful (filled ++ (ready s.reads).take (k + 1)) (rest.drop (k + 1))
          (by omega) rfl
      rw [hrest'] at hfill hgave
      refine ⟨s'', ?_, htook.gave hk hroom hgave⟩
      rw [Stream.fill_of_front hrest hread htake (by omega) hless, hfill, hfilled,
        htook.progress hk hroom, htook.ready, List.append_assoc, ← overlay_take_drop hk hroom]

/-! ## Reads of a given size -/

/-- What a read of `n` bytes answers. -/
def sizedAnswer (s : Script) (n : Nat) : Except Error (Option (List UInt8)) :=
  if n ≤ (ready s.reads).length then .ok (some ((ready s.reads).take n))
  else Stream.lastAnswer (ready s.reads) s.ending

theorem progress_answer {β : Type} {f : Nat → β} {g : List UInt8 → β} {n : Nat}
    (h : ∀ k ≤ n, k ≤ (ready s.reads).length → f k = g ((ready s.reads).take k)) :
    ((s.progress 0 n).map fun progress => progress.answer?.map f) =
      (s.sizedAnswer n).map (Option.map g) := by
  unfold progress sizedAnswer
  by_cases hall : n ≤ (ready s.reads).length
  · rw [if_pos hall, if_pos hall]
    simp [Stream.Progress.answer?, Except.map, h n le_rfl hall]
  · rw [if_neg hall, if_neg hall, Nat.zero_add]
    refine Stream.lastProgress_answer _ ?_
    rw [h _ (by omega) le_rfl, List.take_length]

theorem readSized_script (h : s.Truthful) {n : Nat} (hn : n ≤ maxBytes) :
    ∃ s', stream.readSized n s = .ok (s.sizedAnswer n) s' ∧ s.Gave n s' := by
  have hlength : (List.replicate n (0 : UInt8)).length = n := List.length_replicate
  have hcount : maxBytes < Stream.countLimit := by decide
  obtain ⟨s', hfill, hgave⟩ := fill_script h [] (List.replicate n 0) (by simp; omega)
  rw [hlength] at hfill hgave
  refine ⟨s', Stream.readSized_eq_ok_iff.mpr ⟨hn, _, _, hfill, ?_⟩, hgave⟩
  have hanswer := progress_answer (s := s) (n := n) (g := id)
    (f := fun k => (overlay (ready s.reads) (List.replicate n 0)).take k)
    fun k hk hready => take_overlay hready (hk.trans_eq hlength.symm)
  simpa using hanswer

/-! ## Reads into a buffer -/

theorem readInto_script (h : s.Truthful) {buffer : List UInt8} {length : Option Nat} {n : Nat}
    (hn : n = min (length.getD buffer.length) buffer.length)
    (hbuffer : buffer.length ≤ maxBytes)
    (hlength : s.properties.exactLength = true → length.getD buffer.length = buffer.length) :
    ∃ s', stream.readInto buffer length s =
        .ok ((s.sizedAnswer n).map (Option.map List.length),
          overlay ((ready s.reads).take n) buffer) s' ∧ s.Gave n s' := by
  have hcount : maxBytes < Stream.countLimit := by decide
  have hpart : (buffer.take (length.getD buffer.length)).length = n := by rw [List.length_take, hn]
  obtain ⟨s', hfill, hgave⟩ :=
    fill_script h [] (buffer.take (length.getD buffer.length)) (by simp; omega)
  rw [hpart] at hfill hgave
  have hanswer : (s.progress 0 n).map Stream.Progress.answer? =
      (s.sizedAnswer n).map (Option.map List.length) := by
    have hany := progress_answer (s := s) (n := n) (f := id) (g := List.length)
      fun k _ hready => (List.length_take_of_le hready).symm
    simpa using hany
  have hbytes : overlay ((ready s.reads).take (length.getD buffer.length)) buffer =
      overlay ((ready s.reads).take n) buffer := by
    rw [← overlay_take_length ((ready s.reads).take _), List.take_take, Nat.min_comm, ← hn]
  refine ⟨s', ?_, hgave⟩
  rw [Stream.readInto_of_fill hlength hfill, ← hanswer, List.nil_append, overlay_part, hbytes]
  rfl

/-! ## Reads of everything -/

theorem readChunks_script (h : s.Truthful) {patience : Nat} {chunk data : List UInt8}
    (hchunk : chunk ≠ []) (hpatience : (ready s.reads).length < patience) :
    ∃ s', stream.readChunks patience chunk data s =
        .ok (Stream.lastAnswer (data ++ ready s.reads) s.ending) s' ∧ s.Ended s' := by
  induction patience generalizing s chunk data with
  | zero => exact absurd hpatience (Nat.not_lt_zero _)
  | succ patience ih =>
    by_cases hready : ready s.reads = []
    · obtain ⟨s', hread, hended⟩ := read_ended chunk hready
      refine ⟨s', ?_, hended⟩
      rw [Stream.readChunks_of_stopped hread h, hready, List.append_nil]
    · obtain ⟨k, s', hpos, hroom, hk, hread, htook⟩ := read_ready hchunk hready
      obtain ⟨k, rfl⟩ := Nat.exists_eq_succ_of_ne_zero hpos.ne'
      have htake : ((ready s.reads).take (k + 1)).length = k + 1 := List.length_take_of_le hk
      have hleft : (ready s'.reads).length < patience := by
        rw [htook.ready, List.length_drop]
        omega
      have hchunk' : overlay ((ready s.reads).take (k + 1)) chunk ≠ [] := by
        rw [← List.length_pos_iff, length_overlay]
        omega
      obtain ⟨s'', hrest, hended⟩ := ih (fun n => htook.ending_eq ▸ h n) hchunk' hleft
      refine ⟨s'', ?_, htook.ended hended⟩
      rw [Stream.readChunks_of_moved hread rfl hroom, hrest, htook.ending_eq, htook.ready,
        take_overlay htake.ge hroom, List.take_take, Nat.min_self, List.append_assoc,
        List.take_append_drop]

theorem readAll_script (h : s.Truthful) {patience : Nat}
    (hpatience : (ready s.reads).length < patience) :
    ∃ s', stream.readAll patience s = .ok (Stream.lastAnswer (ready s.reads) s.ending) s' ∧
      s.Ended s' :=
  readChunks_script h (List.cons_ne_nil _ _) hpatience

/-! ## Agreement -/

theorem After.same (h : s.After items s') (h' : s.After items s'') :
    s'' = { s' with calls := s''.calls } := by
  obtain ⟨calls, rfl⟩ := h
  obtain ⟨calls', rfl⟩ := h'
  rfl

theorem Gave.same {n : Nat} (h : s.Gave n s') (h' : s.Gave n s'') :
    s'' = { s' with calls := s''.calls } := by
  unfold Gave at h h'
  split at h
  · rw [if_pos ‹_›] at h'
    exact h.after.same h'.after
  · rw [if_neg ‹_›] at h'
    exact After.same h h'

/-- The same bytes, perhaps in other pieces, and the same answers behind them. -/
structure SameBytes (s t : Script) : Prop where
  ready : ready s.reads = ready t.reads
  stop : stop s.reads = stop t.reads
  readTail : s.readTail = t.readTail

variable {t t' : Script}

theorem SameBytes.ending_eq (h : s.SameBytes t) : s.ending = t.ending := by
  rw [ending, ending, h.stop, h.readTail]

theorem SameBytes.sizedAnswer (h : s.SameBytes t) (n : Nat) :
    s.sizedAnswer n = t.sizedAnswer n := by
  rw [Script.sizedAnswer, Script.sizedAnswer, h.ready, h.ending_eq]

theorem SameBytes.gave {n : Nat} (h : s.SameBytes t) (hs : s.Gave n s') (ht : t.Gave n t') :
    s'.SameBytes t' := by
  unfold Gave at hs ht
  rw [← h.ready] at ht
  by_cases hall : n ≤ (Script.ready s.reads).length
  · rw [if_pos hall] at hs ht
    refine ⟨?_, ?_, ?_⟩
    · rw [hs.ready, ht.ready, h.ready]
    · rw [hs.stop, ht.stop, h.stop]
    · rw [hs.after.readTail_eq, ht.after.readTail_eq, h.readTail]
  · rw [if_neg hall] at hs ht
    have hreads : s'.reads = t'.reads := by rw [hs.reads_eq, ht.reads_eq, h.stop]
    refine ⟨?_, ?_, ?_⟩
    · rw [hreads]
    · rw [hreads]
    · rw [hs.readTail_eq, ht.readTail_eq, h.readTail]

/-- What is promised of the reads from a script, whatever their sizes. -/
structure ReadsAgree (s : Script) : Prop where
  /-- If there are bytes enough, the first ones are read. The others stay, and what is behind them. -/
  enough : ∀ patience, ∀ n ≤ maxBytes, n ≤ (ready s.reads).length →
    ∃ s', stream.readBytes patience (some n) s = .ok (.ok (some ((ready s.reads).take n))) s' ∧
      s.Took n s'
  /-- Otherwise all bytes are taken, and the answer behind them, which decides. -/
  short : ∀ patience, ∀ n ≤ maxBytes, (ready s.reads).length < n →
    ∃ s', stream.readBytes patience (some n) s =
      .ok (Stream.lastAnswer (ready s.reads) s.ending) s' ∧ s.Ended s'
  /-- A read of more bytes than any buffer can have is halted before the stream is asked. -/
  boundless : ∀ patience n, maxBytes < n →
    stream.readBytes patience (some n) s = .error .aborted s
  /-- No call is made for no bytes. -/
  nothing : ∀ patience, stream.readBytes patience (some 0) s = .ok (.ok (some [])) s
  all : ∀ patience, (ready s.reads).length < patience →
    ∃ s', stream.readBytes patience none s = .ok (Stream.lastAnswer (ready s.reads) s.ending) s' ∧
      s.Ended s'
  /-- A read into a buffer does what a read of as many bytes as it may take does. What these bytes do
  not reach of the buffer stays. -/
  into : ∀ patience buffer length, buffer.length ≤ maxBytes →
    (s.properties.exactLength = true → length.getD buffer.length = buffer.length) →
    ∃ answer s' s'',
      stream.readBytes patience (some (min (length.getD buffer.length) buffer.length)) s =
        .ok answer s' ∧
      stream.readInto buffer length s = .ok (answer.map (Option.map List.length),
        overlay ((ready s.reads).take (min (length.getD buffer.length) buffer.length)) buffer) s'' ∧
      s'' = { s' with calls := s''.calls }
  /-- The pieces do not matter. -/
  pieces : ∀ t, s.SameBytes t → ∀ patience, ∀ n ≤ maxBytes, ∃ answer s' t',
    stream.readBytes patience (some n) s = .ok answer s' ∧
    stream.readBytes patience (some n) t = .ok answer t' ∧ s'.SameBytes t'

/-- However the bytes of a script are cut into pieces, its reads are answered alike. -/
theorem reads_agree (h : s.Truthful) : ReadsAgree s where
  enough patience n hn hall := by
    obtain ⟨s', hread, hgave⟩ := readSized_script h hn
    rw [sizedAnswer, if_pos hall] at hread
    rw [Gave, if_pos hall] at hgave
    exact ⟨s', hread, hgave⟩
  short patience n hn hshort := by
    obtain ⟨s', hread, hgave⟩ := readSized_script h hn
    rw [sizedAnswer, if_neg (Nat.not_le.mpr hshort)] at hread
    rw [Gave, if_neg (Nat.not_le.mpr hshort)] at hgave
    exact ⟨s', hread, hgave⟩
  boundless patience n hn := Stream.readSized_of_big hn
  nothing patience := Stream.readSized_eq_ok_iff.mpr ⟨Nat.zero_le _, _, _, Stream.fill_nil, rfl⟩
  all patience hpatience := readAll_script h hpatience
  into patience buffer length hbuffer hlength := by
    obtain ⟨s', hread, hgave⟩ := readSized_script h ((Nat.min_le_right _ _).trans hbuffer)
    obtain ⟨s'', hinto, hgave'⟩ := readInto_script h rfl hbuffer hlength
    exact ⟨_, s', s'', hread, hinto, hgave.same hgave'⟩
  pieces t hsame patience n hn := by
    obtain ⟨s', hs, hgave⟩ := readSized_script h hn
    obtain ⟨t', ht, hgave'⟩ := readSized_script (s := t) (fun n => hsame.ending_eq ▸ h n) hn
    rw [← hsame.sizedAnswer] at ht
    exact ⟨_, s', t', hs, ht, hsame.gave hgave hgave'⟩

/-- Four bytes in two pieces, then the end of the stream, and nothing more. -/
theorem reads_agree_pieces :
    let s : Script := { reads := [.data [1, 2, 3], .data [4], .count 0] }
    ready s.reads = [1, 2, 3, 4] ∧ s.ending = .ok 0 ∧ ReadsAgree s := by
  intro s
  have htruthful : s.Truthful := truthful_of_items (by simp [s]) (by simp [s])
  exact ⟨rfl, rfl, reads_agree htruthful⟩

/-- A read of 2^63 bytes does not end with the stream. -/
theorem boundless_read_is_halted :
    let s : Script := { reads := [.data [0x61]], readTail := .ok 0 }
    s.ending = .ok 0 ∧ (ready s.reads).length < 2 ^ 63 ∧
      stream.readBytes 2 (some (2 ^ 63)) s = .error .aborted s ∧
      ¬ ∃ s', stream.readBytes 2 (some (2 ^ 63)) s = .ok (.ok (some (ready s.reads))) s' := by
  intro s
  have hhalt : stream.readSized (2 ^ 63) s = .error .aborted s := Stream.readSized_of_big (by decide)
  refine ⟨rfl, by decide, hhalt, ?_⟩
  rintro ⟨s', hread⟩
  cases hhalt.symm.trans hread

end Script
end SerialLine
