import SerialLine.Proofs.Receiving.Delivery
import SerialLine.Proofs.Streams.Filling
import SerialLine.Uart.Control
/-! # Transfers from a line

What becomes of received characters when a line is read as a stream, by a transfer of a given size.

* `piece_read`: one read into a part of a buffer.
* `fills_fill`: the transfer, by induction on the part of the buffer that is left.
* `sized_reads_account`: no character is lost or handed over twice in a transfer that succeeds. One of a
  size that is no whole number of characters asks for the rest of a character in the end; the line
  refuses that, and the characters taken by then are lost with the answer.
-/
set_option autoImplicit false

namespace SerialLine.Uart

variable {σ : Type} {u : Uart} {d : Driver σ} {p : Platform σ} {I : Intake u d p} {b b' : Bench σ}

/-- A read of a transfer into a part of a buffer, which took the characters `out`. -/
structure Piece (I : Intake u d p) (room : Nat) (out new : List UInt16) (b b' : Bench σ)
    (reply : ReadReply) : Prop where
  gets : I.Gets u out new b b'
  bytes_eq : reply.bytes = u.width.encode out
  fits : out.length * u.width.bytes ≤ room
  outcome : reply.outcome = .ok (out.length * u.width.bytes) ∧ out ≠ [] ∨
    reply.outcome = .error .shouldWait ∧ out = [] ∨
    reply.outcome = .error .canceled ∧ (∃ b₁, (p.isInterrupted b₁).1 = true) ∨
    reply.outcome = .error .invalidArgs ∧ out = [] ∧ room < u.width.bytes

theorem piece_read {room : Nat} {reply : ReadReply} (hlive : u.isShut = false)
    (hreceives : u.receives = true) (hroom : 0 < room) (hb : I.Ready u b)
    (h : u.read d p room b = .ok reply b') : ∃ out new, Piece I room out new b b' reply := by
  by_cases hshort : room < u.width.bytes
  · rw [read_rejected hlive (.inr hshort)] at h
    cases h
    have hrejection : u.rejection room = ⟨.error .invalidArgs, []⟩ := by
      rw [rejection, if_neg (by simp [hreceives]), if_neg hroom.ne']
    rw [hrejection]
    refine ⟨[], [], .refl _ u b, rfl, by simp, .inr (.inr (.inr ⟨rfl, rfl, hshort⟩))⟩
  · obtain ⟨out, new, hanswers⟩ := answers_read (I := I) hlive hreceives (Nat.not_lt.mp hshort) hb h
    obtain ⟨hbytes, hfits, houtcome⟩ := hanswers.reports
    rw [List.nil_append] at hbytes hfits houtcome
    have hwhole : out.length * u.width.bytes ≤ room :=
      (Nat.mul_le_mul_right _ hfits).trans (Nat.div_mul_le_self _ _)
    refine ⟨out, new, hanswers.gets, hbytes, hwhole, ?_⟩
    rcases houtcome with ⟨hok, hsome⟩ | hblocked | hcanceled
    · rw [hbytes, CharWidth.length_encode] at hok
      exact .inl ⟨hok, hsome⟩
    · exact .inr (.inl hblocked)
    · exact .inr (.inr (.inl ⟨hcanceled, (hanswers.canceled hcanceled).2⟩))

/-- A transfer into the part `rest` of a buffer, behind the bytes `filled`, which took the characters
`out`. -/
structure Fills (I : Intake u d p) (filled rest : List UInt8) (out new : List UInt16)
    (b b' : Bench σ) (result : Except Error Stream.Progress) (buffer : List UInt8) : Prop where
  gets : I.Gets u out new b b'
  buffer_eq : buffer = filled ++ overlay (u.width.encode out) rest
  fits : out.length * u.width.bytes ≤ rest.length
  count_eq : ∀ progress, result = .ok progress →
    progress.count = filled.length + out.length * u.width.bytes
  /-- It fails if it is interrupted, and if it took all the characters that fit and bytes are left. -/
  failed : ∀ e, result = .error e → e = .canceled ∧ (∃ b₁, (p.isInterrupted b₁).1 = true) ∨
    e = .invalidArgs ∧ rest.length % u.width.bytes ≠ 0 ∧ out.length = rest.length / u.width.bytes

/-- A transfer that took `out` goes on behind it as one of its own. -/
theorem Fills.behind {filled rest buffer : List UInt8} {out out' new new' : List UInt16}
    {b₁ : Bench σ} {result : Except Error Stream.Progress} (hgets : I.Gets u out new b b₁)
    (hfits : out.length * u.width.bytes ≤ rest.length)
    (h : Fills I (filled ++ u.width.encode out) (rest.drop (out.length * u.width.bytes)) out' new'
      b₁ b' result buffer) :
    Fills I filled rest (out ++ out') (new ++ new') b b' result buffer where
  gets := hgets.trans h.gets
  buffer_eq := by
    have hlength : (u.width.encode out).length ≤ rest.length := by
      rw [CharWidth.length_encode]
      exact hfits
    rw [h.buffer_eq, CharWidth.encode_append, overlay_append hlength, CharWidth.length_encode,
      List.append_assoc]
  fits := by
    have hleft := h.fits
    rw [List.length_drop] at hleft
    rw [List.length_append, Nat.add_mul]
    omega
  count_eq progress hok := by
    rw [h.count_eq progress hok, List.length_append, CharWidth.length_encode, List.length_append,
      Nat.add_mul, Nat.add_assoc]
  failed e herror := by
    refine (h.failed e herror).imp_right ?_
    rintro ⟨hargs, hhalf, hcount⟩
    rw [List.length_drop, Nat.mul_comm] at hhalf hcount
    rw [Nat.sub_mul_mod (by rwa [Nat.mul_comm])] at hhalf
    rw [Nat.sub_mul_div] at hcount
    have hall : out.length ≤ rest.length / u.width.bytes :=
      (Nat.le_div_iff_mul_le u.width.bytes_pos).mpr hfits
    refine ⟨hargs, hhalf, ?_⟩
    rw [List.length_append]
    omega

section
variable {filled rest buffer : List UInt8} {out new : List UInt16} {b₁ : Bench σ} {reply : ReadReply}
  {result : Except Error Stream.Progress} (hrest : rest ≠ [])
  (hread : (u.stream d p).read rest b = .ok reply b₁)
  (hpiece : Piece I rest.length out new b b₁ reply)
include hrest hread hpiece

/-- The transfer ends with a read that moved nothing or was interrupted. -/
theorem fills_of_stopped (hok : reply.outcome ≠ .ok (out.length * u.width.bytes))
    (h : (u.stream d p).fill filled rest b = .ok (result, buffer) b') :
    Fills I filled rest out new b b' result buffer := by
  have hbuffer : filled ++ overlay reply.bytes rest =
      filled ++ overlay (u.width.encode out) rest := by rw [hpiece.bytes_eq]
  rcases hpiece.outcome with ⟨hmoved, -⟩ | ⟨hblocked, rfl⟩ | ⟨hcanceled, hseen⟩ | ⟨hargs, rfl, hshort⟩
  · exact absurd hmoved hok
  · rw [Stream.fill_of_blocked hrest hread hblocked] at h
    cases h
    refine ⟨hpiece.gets, hbuffer, hpiece.fits, ?_, nofun⟩
    rintro _ ⟨⟩
    simp
  · rw [Stream.fill_of_failed hrest hread hcanceled (by decide)] at h
    cases h
    refine ⟨hpiece.gets, hbuffer, hpiece.fits, nofun, ?_⟩
    rintro _ ⟨⟩
    exact .inl ⟨rfl, hseen⟩
  · rw [Stream.fill_of_failed hrest hread hargs (by decide)] at h
    cases h
    refine ⟨hpiece.gets, hbuffer, hpiece.fits, nofun, ?_⟩
    rintro _ ⟨⟩
    rw [Nat.mod_eq_of_lt hshort, Nat.div_eq_of_lt hshort]
    exact .inr ⟨rfl, (List.length_pos_iff.mpr hrest).ne', rfl⟩

/-- The transfer goes on behind the characters that a read moved, unless the buffer is full. -/
theorem fills_of_moved (hok : reply.outcome = .ok (out.length * u.width.bytes)) (hsome : out ≠ [])
    (hmore : ∀ filled' rest', rest'.length < rest.length →
      (u.stream d p).fill filled' rest' b₁ = .ok (result, buffer) b' →
      ∃ out' new', Fills I filled' rest' out' new' b₁ b' result buffer)
    (h : (u.stream d p).fill filled rest b = .ok (result, buffer) b') :
    ∃ out new, Fills I filled rest out new b b' result buffer := by
  have hlength : (u.width.encode out).length = out.length * u.width.bytes :=
    CharWidth.length_encode _ _
  obtain ⟨n, hn⟩ := Nat.exists_eq_succ_of_ne_zero
    (Nat.mul_pos (List.length_pos_iff.mpr hsome) u.width.bytes_pos).ne'
  have hmoved : reply.outcome = .ok (n + 1) := hok.trans (congrArg _ hn)
  by_cases hcount : filled.length + (n + 1) < Stream.countLimit
  · by_cases hfull : rest.length ≤ n + 1
    · rw [Stream.fill_of_full hrest hread hmoved hcount hfull] at h
      cases h
      refine ⟨out, new, hpiece.gets, by rw [hpiece.bytes_eq], hpiece.fits, ?_, nofun⟩
      rintro _ ⟨⟩
      exact congrArg (filled.length + ·) hn.symm
    · have hfits : (u.width.encode out).length ≤ rest.length := hlength ▸ hpiece.fits
      rw [Stream.fill_of_more hrest hread hmoved hcount (Nat.not_le.mp hfull), hpiece.bytes_eq,
        overlay_eq_append hfits, ← Nat.succ_eq_add_one, ← hn, ← hlength, List.take_left,
        List.drop_left, hlength] at h
      have hless : (rest.drop (out.length * u.width.bytes)).length < rest.length := by
        rw [List.length_drop]
        omega
      obtain ⟨out', new', hfills⟩ := hmore _ _ hless h
      exact ⟨_, _, hfills.behind hpiece.gets hpiece.fits⟩
  · rw [Stream.fill_of_overflow hrest hread hmoved (Nat.not_lt.mp hcount)] at h
    cases h

end

theorem fills_fill (hlive : u.isShut = false) (hreceives : u.receives = true)
    {filled rest buffer : List UInt8} {result : Except Error Stream.Progress} (hb : I.Ready u b)
    (h : (u.stream d p).fill filled rest b = .ok (result, buffer) b') :
    ∃ out new, Fills I filled rest out new b b' result buffer := by
  induction hlength : rest.length using Nat.strong_induction_on generalizing filled rest b with
  | h length ih =>
    subst hlength
    by_cases hrest : rest = []
    · subst hrest
      rw [Stream.fill_nil] at h
      cases h
      refine ⟨[], [], .refl _ u _, by simp, by simp, ?_, nofun⟩
      rintro _ ⟨⟩
      simp
    · cases hread : (u.stream d p).read rest b with
      | error e b₁ =>
        rw [Stream.fill_of_halted hrest hread] at h
        cases h
      | ok reply b₁ =>
        obtain ⟨out, new, hpiece⟩ := piece_read (I := I) hlive hreceives
          (List.length_pos_iff.mpr hrest) hb hread
        by_cases hok : reply.outcome = .ok (out.length * u.width.bytes) ∧ out ≠ []
        · exact fills_of_moved hrest hread hpiece hok.1 hok.2
            (fun filled' rest' hless hmore => ih _ hless (hpiece.gets.ready hb) hmore rfl) h
        · have hstopped : reply.outcome ≠ .ok (out.length * u.width.bytes) := by
            intro hmoved
            rcases hpiece.outcome with hfirst | ⟨hblocked, -⟩ | ⟨hcanceled, -⟩ | ⟨hargs, -⟩
            · exact hok hfirst
            · cases hmoved.symm.trans hblocked
            · cases hmoved.symm.trans hcanceled
            · cases hmoved.symm.trans hargs
          exact ⟨out, new, fills_of_stopped hrest hread hpiece hstopped h⟩

/-! ## Transfers of a given size -/

/-- What became of received characters in a transfer of at most `size` bytes, in which `new` came in. -/
structure Account (I : Intake u d p) (size : Nat) (answer : Except Error (Option (List UInt8)))
    (new : List UInt16) (b b' : Bench σ) : Prop where
  taken : I.taken b'.outside = I.taken b.outside ++ new
  /-- The bytes that were handed over and those that wait are all the bytes there are, in order. -/
  conserved : ∀ handed, answer = .ok handed → (handed.getD []).length ≤ size ∧
    handed.getD [] ++ u.width.encode (I.waiting u b') = u.width.encode (I.waiting u b ++ new)
  /-- Only the interrupt and a size that is no whole number of characters make the transfer fail. In the
  latter case all the characters that fit were taken. -/
  failed : ∀ e, answer = .error e → e = .canceled ∧ (∃ b₁, (p.isInterrupted b₁).1 = true) ∨
    e = .invalidArgs ∧ size % u.width.bytes ≠ 0 ∧ size / u.width.bytes ≤ (I.waiting u b ++ new).length ∧
      I.waiting u b' = (I.waiting u b ++ new).drop (size / u.width.bytes)

theorem Fills.account {rest buffer : List UInt8} {out new : List UInt16}
    {result : Except Error Stream.Progress} (h : Fills I [] rest out new b b' result buffer)
    (hb : I.Ready u b) (hfew : I.Few u b') :
    Account I rest.length (result.map fun progress => progress.answer?.map fun n => buffer.take n) new
      b b' := by
  have hqueue := h.gets.waiting hb hfew
  have hlength : (u.width.encode out).length = out.length * u.width.bytes :=
    CharWidth.length_encode _ _
  refine ⟨h.gets.taken, ?_, ?_⟩
  · intro handed hanswer
    obtain ⟨progress, hresult⟩ : ∃ progress, result = .ok progress := by
      cases result with
      | error e => cases hanswer
      | ok progress => exact ⟨progress, rfl⟩
    have hcount := h.count_eq progress hresult
    rw [List.length_nil, Nat.zero_add, ← hlength] at hcount
    have hgiven : handed.getD [] = u.width.encode out := by
      subst hresult
      cases hanswer
      rw [Stream.Progress.taken_answer, h.buffer_eq, List.nil_append,
        overlay_eq_append (hlength ▸ h.fits), hcount, List.take_left]
    rw [hgiven, ← CharWidth.encode_append, hqueue]
    exact ⟨hlength ▸ h.fits, rfl⟩
  · intro e hanswer
    have hresult : result = .error e := by
      cases result with
      | error e' =>
        cases hanswer
        rfl
      | ok progress => cases hanswer
    refine (h.failed e hresult).imp_right ?_
    rintro ⟨hargs, hhalf, hall⟩
    rw [hqueue, ← hall, List.length_append]
    exact ⟨hargs, hhalf, Nat.le_add_right _ _, List.drop_left.symm⟩

/-- A transfer of a given size from a line that receives, into new memory or into the whole of a buffer
given by the caller: if it succeeds, the bytes handed over and those that wait are all the bytes there
are, whenever they came in. If it was not interrupted, then it fails only for a size that is no whole
number of characters, once it took all the characters that fit. A buffer given by the caller has the
characters that were taken. -/
theorem sized_reads_account (I : Intake u d p) (hlive : u.isShut = false)
    (hreceives : u.receives = true) (hb : I.Ready u b) :
    (∀ size answer b', (u.stream d p).readSized size b = .ok answer b' → I.Few u b' →
      ∃ new, Account I size answer new b b') ∧
    ∀ buffer answer filled b', (u.stream d p).readInto buffer none b = .ok (answer, filled) b' →
      I.Few u b' → ∃ new, Account I buffer.length
          (answer.map fun count => count.map fun n => filled.take n) new b b' ∧
        ∃ k, filled = overlay (u.width.encode ((I.waiting u b ++ new).take k)) buffer ∧
          I.waiting u b' = (I.waiting u b ++ new).drop k := by
  refine ⟨fun size answer b' h hfew => ?_, fun buffer answer filled b' h hfew => ?_⟩
  · obtain ⟨-, result, buffer, hfill, rfl⟩ := Stream.readSized_eq_ok_iff.mp h
    obtain ⟨out, new, hfills⟩ := fills_fill hlive hreceives hb hfill
    have haccount := hfills.account hb hfew
    rw [List.length_replicate] at haccount
    exact ⟨new, haccount⟩
  · obtain ⟨result, hfill, rfl⟩ := Stream.readInto_eq_ok_iff.mp h
    obtain ⟨out, new, hfills⟩ := fills_fill hlive hreceives hb hfill
    have haccount := hfills.account hb hfew
    refine ⟨new, ?_, out.length, ?_⟩
    · cases result with
      | error e => exact haccount
      | ok progress => exact haccount
    · rw [hfills.gets.waiting hb hfew, List.take_left, List.drop_left]
      exact ⟨hfills.buffer_eq, rfl⟩

/-- The bench after a transfer of three bytes of two-byte characters. -/
def oddBench : Bench Feed :=
  Act.final ((nineBitLine.stream Driver.inert feeding).readInto [9, 9, 9] none) feedBench

theorem readInto_odd : (nineBitLine.stream Driver.inert feeding).readInto [9, 9, 9] none feedBench =
    .ok (.error .invalidArgs, [0x01, 0x01, 9]) oddBench := by
  have hanswer : Act.answer? ((nineBitLine.stream Driver.inert feeding).readInto [9, 9, 9] none)
      feedBench = some (.error .invalidArgs, [0x01, 0x01, 9]) := by decide +kernel
  exact Act.ok_of_answer? hanswer

/-- One character waits and two come in one by one. A transfer of an even size gives the two that fit;
one of an odd size fails with the only whole character that fits in the buffer. -/
theorem sized_reads_account_fed :
    (∃ b' new, (nineBitLine.stream Driver.inert feeding).readSized 4 feedBench =
        .ok (.ok (some [0x01, 0x01, 0x02, 0x01])) b' ∧
      Account feedInlet.toIntake 4 (.ok (some [0x01, 0x01, 0x02, 0x01])) new feedBench b') ∧
    ∃ new, Account feedInlet.toIntake 3 (.error .invalidArgs) new feedBench oddBench := by
  have heven : Act.answer? ((nineBitLine.stream Driver.inert feeding).readSized 4) feedBench =
      some (.ok (some [0x01, 0x01, 0x02, 0x01])) := by decide +kernel
  have hend := Act.ok_of_answer? heven
  have hfew : feedInlet.toIntake.Few nineBitLine
      (Act.final ((nineBitLine.stream Driver.inert feeding).readSized 4) feedBench) :=
    fun _ => by decide +kernel
  have hfewOdd : feedInlet.toIntake.Few nineBitLine oddBench := fun _ => by decide +kernel
  have haccount := sized_reads_account feedInlet.toIntake rfl rfl ready_feedBench
  obtain ⟨new, heven⟩ := haccount.1 _ _ _ hend hfew
  obtain ⟨new', hodd, -⟩ := haccount.2 _ _ _ _ readInto_odd hfewOdd
  exact ⟨⟨_, new, hend, heven⟩, new', hodd⟩

/-- No character came in during the failing transfer, and the one that waited is gone. -/
theorem odd_read_loses_character :
    (nineBitLine.stream Driver.inert feeding).readInto [9, 9, 9] none feedBench =
        .ok (.error .invalidArgs, [0x01, 0x01, 9]) oddBench ∧
      feedInlet.taken oddBench.outside = feedInlet.taken feedBench.outside ∧
      feedInlet.toIntake.waiting nineBitLine feedBench = [0x101] ∧
      feedInlet.toIntake.waiting nineBitLine oddBench = [] ∧
    ∃ b', (nineBitLine.stream Driver.inert feeding).readSized 3 feedBench =
        .ok (.error .invalidArgs) b' ∧ feedInlet.toIntake.waiting nineBitLine b' = [] := by
  have hsized : Act.answer? ((nineBitLine.stream Driver.inert feeding).readSized 3) feedBench =
      some (.error .invalidArgs) := by decide +kernel
  exact ⟨readInto_odd, by decide +kernel, by decide +kernel, by decide +kernel, _,
    Act.ok_of_answer? hsized, by decide +kernel⟩

end SerialLine.Uart
