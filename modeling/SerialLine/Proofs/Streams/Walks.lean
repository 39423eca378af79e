import SerialLine.Proofs.Streams.Scripted
import SerialLine.Stream.Lines
/-! # Reading a scripted stream by lines

A line is read byte by byte, so that nothing behind it is taken.

* `EndsLine`: where a line of a limited length ends.
* `readLineBytes_front`: bytes that end no line are gathered one by one.
* `readLine_of_newline`, `readLine_of_limit`, `readLine_of_stopped`: the ends of a line.
* `LinesOf`: the lines in a sequence of bytes. Every sequence has them.
* `nexts_script`: a walk gives out these lines, by induction on them, and then nothing more.
* `reads_by_lines`: all that is promised of a line and of a walk.
-/
set_option autoImplicit false

namespace SerialLine

namespace Stream

variable {W : Type} {s : Stream W} {reply : ReadReply} {w w' : W}

/-- Whether the last answer is an error does not depend on the bytes. If it is none, it hands them
over. -/
theorem lastAnswer_cases (outcome : Except Error Nat) :
    (∃ e, ∀ data, lastAnswer data outcome = .error e) ∨
      ∀ data, ∃ line, lastAnswer data outcome = .ok line ∧ line.getD [] = data := by
  cases outcome with
  | ok n => exact .inr fun data => ⟨some data, rfl, rfl⟩
  | error e =>
    rcases eq_or_ne e .shouldWait with rfl | he
    · refine .inr fun data => ⟨_, rfl, ?_⟩
      cases data with
      | nil => rfl
      | cons byte bytes => rfl
    · exact .inl ⟨e, fun data => lastAnswer_of_failed data he⟩

/-! ## One byte of a line -/

theorem readLineBytes_of_stopped {limited : Bool} {rounds : Nat} {byte : UInt8} {line : List UInt8}
    (hread : s.read [byte] w = .ok reply w') (h : ∀ n, reply.outcome ≠ .ok (n + 1)) :
    s.readLineBytes limited (rounds + 1) byte line w = .ok (lastAnswer line reply.outcome) w' := by
  rw [readLineBytes, Act.bind_of_ok hread]
  cases houtcome : reply.outcome with
  | ok n =>
    cases n with
    | zero => rfl
    | succ n => exact absurd houtcome (h n)
  | error e =>
    rcases eq_or_ne e .shouldWait with rfl | he
    · rfl
    · rw [lastAnswer_of_failed _ he]
      simp only
      rfl

section
variable {limited : Bool} {rounds : Nat} {byte read : UInt8} {line : List UInt8}
  (hread : s.read [byte] w = .ok ⟨.ok 1, [read]⟩ w')
include hread

theorem readLineBytes_of_newline (h : read = 10) :
    s.readLineBytes limited (rounds + 1) byte line w = .ok (.ok (some (line ++ [10]))) w' := by
  rw [readLineBytes, Act.bind_of_ok hread, h]
  rfl

theorem readLineBytes_of_more (h : read ≠ 10) : s.readLineBytes limited (rounds + 1) byte line w =
      s.readLineBytes limited rounds read (line ++ [read]) w' := by
  rw [readLineBytes, Act.bind_of_ok hread]
  simp [overlay, h]

end
end Stream

namespace Script

variable {s s' : Script} {patience : Nat} {limit : Option Nat} {front : List UInt8}

/-! ## One line -/

theorem read_byte {read : UInt8} {bytes : List UInt8} (byte : UInt8)
    (hready : ready s.reads = read :: bytes) :
    ∃ s', stream.read [byte] s = .ok ⟨.ok 1, [read]⟩ s' ∧ s.Took 1 s' := by
  obtain ⟨n, s', hpos, hroom, -, hread, htook⟩ :=
    read_ready (List.cons_ne_nil byte []) (hready ▸ List.cons_ne_nil read bytes)
  obtain rfl : n = 1 := by simp at hroom; omega
  rw [hready] at hread
  exact ⟨s', hread, htook⟩

/-- Bytes that end no line, by induction on them. -/
theorem readLineBytes_front {bytes : List UInt8} (hready : ready s.reads = front ++ bytes)
    (hfront : 10 ∉ front) (limited : Bool) (rounds : Nat) (byte : UInt8) (line : List UInt8) :
    ∃ s' byte', stream.readLineBytes limited (front.length + rounds) byte line s =
        stream.readLineBytes limited rounds byte' (line ++ front) s' ∧ s.Took front.length s' := by
  induction front generalizing s byte line with
  | nil => exact ⟨s, byte, by simp, After.took ⟨s.calls, rfl⟩⟩
  | cons read front ih =>
    have hne : read ≠ 10 := (List.ne_of_not_mem_cons hfront).symm
    obtain ⟨s₁, hread, htook⟩ := read_byte byte hready
    have hready₁ : ready s₁.reads = front ++ bytes := by rw [htook.ready, hready]; rfl
    obtain ⟨s', byte', hrest, htook'⟩ := ih hready₁ (List.not_mem_of_not_mem_cons hfront) read
      (line ++ [read])
    refine ⟨s', byte', ?_, ?_⟩
    · rw [List.length_cons, Nat.add_right_comm, Stream.readLineBytes_of_more hread hne, hrest,
        List.append_assoc]
      rfl
    · rw [List.length_cons, Nat.add_comm]
      exact htook.took htook'

theorem readLine_of_newline (limit : Option Nat) {bytes : List UInt8}
    (hready : ready s.reads = front ++ 10 :: bytes) (hfront : 10 ∉ front)
    (hrounds : front.length < limit.getD patience) :
    ∃ s', stream.readLine patience limit s = .ok (.ok (some (front ++ [10]))) s' ∧
      s.Took (front ++ [10]).length s' := by
  obtain ⟨rounds, hrounds⟩ := Nat.exists_eq_add_of_lt hrounds
  obtain ⟨s₁, byte, hfirst, htook⟩ := readLineBytes_front hready hfront limit.isSome (rounds + 1) 0 []
  have hready₁ : ready s₁.reads = 10 :: bytes := by rw [htook.ready, hready, List.drop_left]
  obtain ⟨s', hread, htook'⟩ := read_byte byte hready₁
  refine ⟨s', ?_, ?_⟩
  · rw [Stream.readLine, hrounds, Nat.add_assoc, hfirst, Stream.readLineBytes_of_newline hread rfl]
    rfl
  · rw [List.length_append]
    exact htook.took htook'

theorem readLine_of_limit (patience : Nat) {bytes : List UInt8}
    (hready : ready s.reads = front ++ bytes) (hfront : 10 ∉ front) :
    ∃ s', stream.readLine patience (some front.length) s = .ok (.ok (some front)) s' ∧
      s.Took front.length s' := by
  obtain ⟨s', byte, hfirst, htook⟩ := readLineBytes_front hready hfront true 0 0 []
  exact ⟨s', hfirst, htook⟩

theorem readLine_of_stopped (limit : Option Nat) (h : s.Truthful) (hline : 10 ∉ ready s.reads)
    (hrounds : (ready s.reads).length < limit.getD patience) :
    ∃ s', stream.readLine patience limit s =
      .ok (Stream.lastAnswer (ready s.reads) s.ending) s' ∧ s.Ended s' := by
  obtain ⟨rounds, hrounds⟩ := Nat.exists_eq_add_of_lt hrounds
  have hall : ready s.reads = ready s.reads ++ [] := (List.append_nil _).symm
  obtain ⟨s₁, byte, hfirst, htook⟩ := readLineBytes_front hall hline limit.isSome (rounds + 1) 0 []
  have hready₁ : ready s₁.reads = [] := by rw [htook.ready, List.drop_length]
  obtain ⟨s', hread, hended⟩ := read_ended [byte] hready₁
  refine ⟨s', ?_, htook.ended hended⟩
  rw [Stream.readLine, hrounds, Nat.add_assoc, hfirst,
    Stream.readLineBytes_of_stopped hread fun n => htook.ending_eq ▸ h n, htook.ending_eq]
  rfl

/-! ## Where a line ends -/

/-- The bytes of a line are complete: the last one is a newline, or they are as many as may be. -/
def EndsLine (limit : Option Nat) (line : List UInt8) : Prop :=
  line.getLast? = some 10 ∨ limit = some line.length

section
variable {bytes : List UInt8} {n : Nat}
  (hends : ∀ i ≤ n, i ≤ bytes.length → ¬ EndsLine limit (bytes.take i))
include hends

/-- Bytes of which no line is complete have no newline, as it would end a line. -/
theorem not_mem_of_endless : 10 ∉ bytes.take n := by
  intro h
  obtain ⟨i, hi, hbyte⟩ := List.mem_iff_getElem.mp h
  rw [List.length_take] at hi
  rw [List.getElem_take] at hbyte
  refine hends (i + 1) (by omega) (by omega) (.inl ?_)
  rw [List.take_add_one, List.getElem?_eq_getElem (by omega), hbyte]
  simp

theorem lt_getD_of_endless (hn : n ≤ bytes.length) (hpatience : bytes.length < patience) :
    n < limit.getD patience := by
  cases limit with
  | none => exact hn.trans_lt hpatience
  | some most =>
    refine Nat.not_le.mp fun hle => ?_
    have hmost : most ≤ n := hle
    refine hends most hmost (hmost.trans hn) (.inr ?_)
    rw [List.length_take_of_le (hmost.trans hn)]

end

theorem take_succ_of_newline {bytes : List UInt8} {n : Nat} (h : 10 ∈ bytes.take (n + 1))
    (hfront : 10 ∉ bytes.take n) : bytes.take (n + 1) = bytes.take n ++ [10] := by
  rw [List.take_add_one] at h ⊢
  cases hbyte : bytes[n]? with
  | none => simp [hbyte, hfront] at h
  | some byte =>
    obtain rfl : 10 = byte := by simpa [hbyte, hfront] using h
    rfl

/-- The shortest complete line at the front of the bytes is read, and no byte behind it. -/
theorem readLine_of_endsLine {n : Nat} (hpatience : (ready s.reads).length < patience)
    (hn : n ≤ (ready s.reads).length) (hends : EndsLine limit ((ready s.reads).take n))
    (hfirst : ∀ i < n, ¬ EndsLine limit ((ready s.reads).take i)) :
    ∃ s', stream.readLine patience limit s = .ok (.ok (some ((ready s.reads).take n))) s' ∧
      s.Took n s' := by
  have hlength : ((ready s.reads).take n).length = n := List.length_take_of_le hn
  by_cases hnewline : 10 ∈ (ready s.reads).take n
  · cases n with
    | zero => simp at hnewline
    | succ n =>
      have hendless (i : Nat) (hi : i ≤ n) (_ : i ≤ (ready s.reads).length) :=
        hfirst i (Nat.lt_succ_of_le hi)
      have hfront := not_mem_of_endless hendless
      have hlast := take_succ_of_newline hnewline hfront
      have hbytes : ready s.reads =
          (ready s.reads).take n ++ 10 :: (ready s.reads).drop (n + 1) := by
        conv_lhs => rw [← List.take_append_drop (n + 1) (ready s.reads), hlast, List.append_assoc]
        rfl
      have hrounds : ((ready s.reads).take n).length < limit.getD patience := by
        rw [List.length_take_of_le (Nat.le_of_succ_le hn)]
        exact lt_getD_of_endless hendless (Nat.le_of_succ_le hn) hpatience
      obtain ⟨s', hread, htook⟩ := readLine_of_newline limit hbytes hfront hrounds
      rw [← hlast] at hread htook
      rw [hlength] at htook
      exact ⟨s', hread, htook⟩
  · have hlimit : limit = some ((ready s.reads).take n).length :=
      hends.resolve_left fun hlast => hnewline (List.mem_of_getLast? hlast)
    have hbytes : ready s.reads = (ready s.reads).take n ++ (ready s.reads).drop n :=
      (List.take_append_drop n _).symm
    obtain ⟨s', hread, htook⟩ := readLine_of_limit patience hbytes hnewline
    rw [← hlimit] at hread
    rw [hlength] at htook
    exact ⟨s', hread, htook⟩

theorem readLine_of_endless (h : s.Truthful) (hpatience : (ready s.reads).length < patience)
    (hends : ∀ i ≤ (ready s.reads).length, ¬ EndsLine limit ((ready s.reads).take i)) :
    ∃ s', stream.readLine patience limit s =
      .ok (Stream.lastAnswer (ready s.reads) s.ending) s' ∧ s.Ended s' := by
  have hendless (i : Nat) (hi : i ≤ (ready s.reads).length) (_ : i ≤ (ready s.reads).length) :=
    hends i hi
  have hnewline := not_mem_of_endless hendless
  rw [List.take_length] at hnewline
  exact readLine_of_stopped limit h hnewline (lt_getD_of_endless hendless le_rfl hpatience)

/-! ## Lines in a sequence of bytes -/

/-- All the lines that are complete, and the bytes behind the last one. -/
structure LinesOf (bytes : List UInt8) (lines : List (List UInt8)) (rest : List UInt8) : Prop where
  all : lines.flatten ++ rest = bytes
  /-- A line ends with its only newline. -/
  line : ∀ line ∈ lines, ∃ front, line = front ++ [10] ∧ 10 ∉ front
  rest : 10 ∉ rest

theorem exists_linesOf (bytes : List UInt8) : ∃ lines rest, LinesOf bytes lines rest := by
  induction bytes with
  | nil => exact ⟨[], [], rfl, by simp, by simp⟩
  | cons byte bytes ih =>
    obtain ⟨lines, rest, hall, hline, hrest⟩ := ih
    by_cases hnewline : byte = 10
    · refine ⟨[10] :: lines, rest, ?_, ?_, hrest⟩
      · rw [hnewline, ← hall]
        rfl
      · exact List.forall_mem_cons.mpr ⟨⟨[], rfl, by simp⟩, hline⟩
    · have hne : 10 ≠ byte := Ne.symm hnewline
      -- the byte belongs to the first line, or to what is behind the lines if there is none
      cases lines with
      | nil => exact ⟨[], byte :: rest, by rw [← hall]; rfl, by simp, by simp [hne, hrest]⟩
      | cons first lines =>
        obtain ⟨⟨front, rfl, hfront⟩, hlines⟩ := List.forall_mem_cons.mp hline
        refine ⟨(byte :: front ++ [10]) :: lines, rest, by rw [← hall]; simp, ?_, hrest⟩
        exact List.forall_mem_cons.mpr ⟨⟨byte :: front, rfl, by simp [hne, hfront]⟩, hlines⟩

end Script

/-! ## Calls for the next line -/

namespace Lines

variable {W : Type} {s : Stream W} {patience : Nat} {w w' w'' : W}

/-- The answers to so many calls for the next line. -/
def nexts (s : Stream W) (patience : Nat) :
    Nat → Lines → Act W (List (Option (Except Error (List UInt8))) × Lines)
  | 0, walk => return ([], walk)
  | n + 1, walk => do
    let (item, walk) ← walk.next s patience
    let (items, walk) ← nexts s patience n walk
    return (item :: items, walk)

/-- The answers to `n` calls when there are these items to give out. -/
def answers (items : List (Except Error (List UInt8))) (n : Nat) :
    List (Option (Except Error (List UInt8))) :=
  (items.take n).map some ++ List.replicate (n - items.length) none

/-- What a walk gives out at the end of the stream, with bytes behind the last newline. -/
def lastItems (rest : List UInt8) (outcome : Except Error Nat) :
    List (Except Error (List UInt8)) :=
  match Stream.lastAnswer rest outcome with
  | .error e => [.error e]
  | .ok _ => if rest.isEmpty then [] else [.ok rest]

theorem answers_zero (items : List (Except Error (List UInt8))) : answers items 0 = [] := by
  simp [answers]

theorem answers_nil (n : Nat) : answers [] n = List.replicate n none := by
  simp [answers]

theorem answers_cons (item : Except Error (List UInt8)) (items : List (Except Error (List UInt8)))
    (n : Nat) : answers (item :: items) (n + 1) = some item :: answers items n := by
  simp [answers]

theorem next_of_line {line : List UInt8} (hread : s.readLine patience none w = .ok (.ok (some line)) w')
    (hline : line ≠ []) : ({} : Lines).next s patience w = .ok (some (.ok line), {}) w' := by
  obtain ⟨byte, bytes, rfl⟩ := List.exists_cons_of_ne_nil hline
  exact Act.bind_of_ok hread

theorem next_of_nothing {line : Option (List UInt8)} (hline : line.getD [] = [])
    (hread : s.readLine patience none w = .ok (.ok line) w') :
    ({} : Lines).next s patience w = .ok (none, { isOver := true }) w' := by
  cases line with
  | none => exact Act.bind_of_ok hread
  | some bytes =>
    obtain rfl : bytes = [] := hline
    exact Act.bind_of_ok hread

theorem next_of_failed {e : Error} (hread : s.readLine patience none w = .ok (.error e) w') :
    ({} : Lines).next s patience w = .ok (some (.error e), { isOver := true }) w' :=
  Act.bind_of_ok hread

theorem nexts_succ {n : Nat} {walk walk' walk'' : Lines} {item : Option (Except Error (List UInt8))}
    {items : List (Option (Except Error (List UInt8)))}
    (hnext : walk.next s patience w = .ok (item, walk') w')
    (hrest : nexts s patience n walk' w' = .ok (items, walk'') w'') :
    nexts s patience (n + 1) walk w = .ok (item :: items, walk'') w'' := by
  rw [nexts, Act.bind_of_ok hnext]
  exact Act.bind_of_ok hrest

/-- A walk that is over does not read. -/
theorem nexts_over (n : Nat) : nexts s patience n { isOver := true } w =
    .ok (List.replicate n none, { isOver := true }) w := by
  induction n with
  | zero => rfl
  | succ n ih => exact nexts_succ rfl ih

end Lines

/-! ## Walks through a script -/

namespace Script

open Lines

variable {s s' : Script} {patience : Nat}

/-- Behind its bytes the script answers every read alike: that the stream has ended, that there is nothing
more now, or with another error. -/
structure Lasting (s : Script) : Prop where
  stop : stop s.reads = []
  tail : ∀ n, s.readTail ≠ .ok (n + 1)

theorem Lasting.ending_eq (h : s.Lasting) : s.ending = s.readTail := by
  rw [ending, h.stop]

theorem Lasting.truthful (h : s.Lasting) : s.Truthful := fun n => h.ending_eq ▸ h.tail n

theorem Lasting.took {n : Nat} (h : s.Lasting) (htook : s.Took n s') : s'.Lasting where
  stop := htook.stop.trans h.stop
  tail := htook.after.readTail_eq ▸ h.tail

theorem Lasting.reads_nil (h : s.Lasting) (hended : s.Ended s') : s'.reads = [] := by
  rw [hended.reads_eq, h.stop, List.tail_nil]

theorem Lasting.ended (h : s.Lasting) (hended : s.Ended s') : s'.Lasting where
  stop := by rw [h.reads_nil hended]; rfl
  tail := hended.readTail_eq ▸ h.tail

theorem nexts_nothing {line : Option (List UInt8)} (h : s.Lasting) (hready : ready s.reads = [])
    (hlast : Stream.lastAnswer [] s.readTail = .ok line) (hline : line.getD [] = [])
    (hpatience : 0 < patience) (n : Nat) :
    ∃ walk s', nexts stream patience n {} s = .ok (List.replicate n none, walk) s' := by
  cases n with
  | zero => exact ⟨{}, s, rfl⟩
  | succ n =>
    obtain ⟨s', hread, -⟩ := readLine_of_stopped none h.truthful (by simp [hready])
      (by simpa [hready] using hpatience)
    rw [h.ending_eq, hready, hlast] at hread
    exact ⟨_, s', nexts_succ (next_of_nothing hline hread) (nexts_over n)⟩

/-- Behind the last newline. -/
theorem nexts_rest (h : s.Lasting) (hrest : 10 ∉ ready s.reads)
    (hpatience : (ready s.reads).length < patience) (n : Nat) :
    ∃ walk s', nexts stream patience n {} s =
      .ok (answers (lastItems (ready s.reads) s.readTail) n, walk) s' := by
  cases n with
  | zero => exact ⟨{}, s, by rw [answers_zero]; rfl⟩
  | succ n =>
    obtain ⟨s₁, hread, hended⟩ := readLine_of_stopped none h.truthful hrest hpatience
    have hpos : 0 < patience := Nat.zero_lt_of_lt hpatience
    rw [h.ending_eq] at hread
    rw [lastItems]
    rcases Stream.lastAnswer_cases s.readTail with ⟨e, hfailed⟩ | hgiven
    · rw [hfailed] at hread
      refine ⟨{ isOver := true }, s₁, ?_⟩
      rw [hfailed, answers_cons, answers_nil]
      exact nexts_succ (next_of_failed hread) (nexts_over n)
    obtain ⟨last, hlast, hnothing⟩ := hgiven []
    obtain ⟨line, hline, hbytes⟩ := hgiven (ready s.reads)
    rw [hline] at hread ⊢
    by_cases hready : ready s.reads = []
    · obtain ⟨walk, s', hnexts⟩ := nexts_nothing h hready hlast hnothing hpos (n + 1)
      refine ⟨walk, s', ?_⟩
      simp only [hready, List.isEmpty_nil, if_true]
      rw [answers_nil]
      exact hnexts
    · -- the bytes are an item of their own, and the next call finds the stream at its end
      obtain rfl : line = some (ready s.reads) := by
        cases line with
        | none => exact absurd hbytes.symm hready
        | some bytes => exact congrArg some hbytes
      have hready₁ : ready s₁.reads = [] := by rw [h.reads_nil hended]; rfl
      rw [← hended.readTail_eq] at hlast
      obtain ⟨walk, s', hnexts⟩ := nexts_nothing (h.ended hended) hready₁ hlast hnothing hpos n
      refine ⟨walk, s', ?_⟩
      simp only [List.isEmpty_iff, hready, if_false]
      rw [answers_cons, answers_nil]
      exact nexts_succ (next_of_line hread hready) hnexts

theorem nexts_script {lines : List (List UInt8)} {rest : List UInt8} (h : s.Lasting)
    (hlines : LinesOf (ready s.reads) lines rest) (hpatience : (ready s.reads).length < patience)
    (n : Nat) :
    ∃ walk s', nexts stream patience n {} s =
        .ok (answers (lines.map .ok ++ lastItems rest s.readTail) n, walk) s' ∧
      (n ≤ lines.length → s.Took (lines.take n).flatten.length s') := by
  induction lines generalizing s n with
  | nil =>
    obtain rfl : ready s.reads = rest := hlines.all.symm
    obtain ⟨walk, s', hnexts⟩ := nexts_rest h hlines.rest hpatience n
    cases n with
    | zero => exact ⟨{}, s, by rw [answers_zero]; rfl, fun _ => After.took ⟨s.calls, rfl⟩⟩
    | succ n => exact ⟨walk, s', hnexts, fun hn => absurd hn (Nat.not_succ_le_zero n)⟩
  | cons line lines ih =>
    cases n with
    | zero => exact ⟨{}, s, by rw [answers_zero]; rfl, fun _ => After.took ⟨s.calls, rfl⟩⟩
    | succ n =>
      obtain ⟨⟨front, rfl, hfront⟩, hline⟩ := List.forall_mem_cons.mp hlines.line
      have hready : ready s.reads = front ++ 10 :: (lines.flatten ++ rest) := by
        rw [← hlines.all]
        simp
      have hroom : front.length < patience := by
        rw [hready, List.length_append] at hpatience
        omega
      obtain ⟨s₁, hread, htook⟩ := readLine_of_newline none hready hfront hroom
      have hready₁ : ready s₁.reads = lines.flatten ++ rest := by
        rw [htook.ready, hready]
        simp
      obtain ⟨walk, s', hnexts, htook'⟩ := ih (h.took htook)
        ⟨hready₁.symm, hline, hlines.rest⟩ (by rw [htook.ready, List.length_drop]; omega) n
      rw [htook.after.readTail_eq] at hnexts
      refine ⟨walk, s', ?_, fun hn => ?_⟩
      · rw [List.map_cons, List.cons_append, answers_cons]
        exact nexts_succ (next_of_line hread (by simp)) hnexts
      · rw [List.take_succ_cons, List.flatten_cons, List.length_append]
        exact htook.took (htook' (Nat.le_of_succ_le_succ hn))

/-- What is promised of reads by lines. -/
structure ByLines (s : Script) (patience : Nat) : Prop where
  /-- The shortest complete line at the front of the bytes is read, and no byte behind it. -/
  line : ∀ limit n, n ≤ (ready s.reads).length → EndsLine limit ((ready s.reads).take n) →
    (∀ i < n, ¬ EndsLine limit ((ready s.reads).take i)) →
    ∃ s', stream.readLine patience limit s = .ok (.ok (some ((ready s.reads).take n))) s' ∧
      s.Took n s'
  /-- If there is none, the answer behind the bytes decides. -/
  endless : ∀ limit, (∀ i ≤ (ready s.reads).length, ¬ EndsLine limit ((ready s.reads).take i)) →
    ∃ s', stream.readLine patience limit s =
      .ok (Stream.lastAnswer (ready s.reads) s.readTail) s' ∧ s.Ended s'
  /-- A walk gives out the complete lines, then what there is at the end of the stream, and then nothing.
  As long as it gives out complete lines, nothing behind them is taken. -/
  walk : ∃ lines rest, LinesOf (ready s.reads) lines rest ∧
    ∀ n, ∃ walk s', nexts stream patience n {} s =
        .ok (answers (lines.map .ok ++ lastItems rest s.readTail) n, walk) s' ∧
      (n ≤ lines.length → ready s'.reads = (lines.drop n).flatten ++ rest ∧ s'.Lasting ∧
        s'.readTail = s.readTail)

/-- On a script that lasts, lines are read whole and one after the other. -/
theorem reads_by_lines (h : s.Lasting) (hpatience : (ready s.reads).length < patience) :
    ByLines s patience where
  line limit n hn hends hfirst := readLine_of_endsLine hpatience hn hends hfirst
  endless limit hends := by
    rw [← h.ending_eq]
    exact readLine_of_endless h.truthful hpatience hends
  walk := by
    obtain ⟨lines, rest, hlines⟩ := exists_linesOf (ready s.reads)
    refine ⟨lines, rest, hlines, fun n => ?_⟩
    obtain ⟨walk, s', hnexts, htook⟩ := nexts_script h hlines hpatience n
    refine ⟨walk, s', hnexts, fun hn => ⟨?_, h.took (htook hn), (htook hn).after.readTail_eq⟩⟩
    have hsplit : lines.flatten = (lines.take n).flatten ++ (lines.drop n).flatten := by
      rw [← List.flatten_append, List.take_append_drop]
    rw [(htook hn).ready, ← hlines.all, hsplit, List.append_assoc, List.drop_left]

/-- Two lines in three pieces, and a last one without a newline. -/
theorem reads_by_lines_pieces :
    let s : Script :=
      { reads := [.data [97, 10, 98], .data [98, 10], .data [99]], readTail := .error .shouldWait }
    ready s.reads = [97, 10, 98, 98, 10, 99] ∧ ByLines s 7 := by
  intro s
  have hlasting : s.Lasting := ⟨rfl, by simp [s]⟩
  exact ⟨rfl, reads_by_lines hlasting (by decide)⟩

end Script
end SerialLine
