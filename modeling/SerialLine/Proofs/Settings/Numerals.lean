import Mathlib.Data.List.Forall2
import Mathlib.Data.Nat.Digits.Defs
import SerialLine.Proofs.Settings.Overrides
/-! # Numbers in arguments

* `DigitOf`, `Digits`, `Literal`: how a number is written, with what it is worth.
* `read?_of_literal`, `literal_of_read?`: what is read is what is written, if it fits in 32 bits.
* `digits_toDigits`: the usual renderings of a number are written so.
* `getUInt32_reads`: the number that an argument gives.
-/
set_option autoImplicit false

namespace SerialLine

namespace Numeral

/-- The character is the digit, a letter in either case. -/
def DigitOf (base : ℕ) (c : Char) (d : ℕ) : Prop :=
  d < base ∧ (c = Nat.digitChar d ∨ c = (Nat.digitChar d).toUpper)

/-- One digit or more, the most significant first, with their positional value. -/
def Digits (base : ℕ) (cs : List Char) (n : ℕ) : Prop :=
  ∃ ds, ds ≠ [] ∧ List.Forall₂ (DigitOf base) cs ds ∧ n = Nat.ofDigits base ds.reverse

def IsSign (sign : List Char) : Prop := sign = [] ∨ sign = ['+']

/-- The written numbers of any size. -/
inductive Literal : List Char → ℕ → Prop where
  | decimal {sign cs : List Char} {n : ℕ} (hsign : IsSign sign) (hdigits : Digits 10 cs n) :
      Literal (sign ++ cs) n
  | hexadecimal {x : Char} {sign cs : List Char} {n : ℕ} (hx : x = 'x' ∨ x = 'X') (hsign : IsSign sign)
      (hdigits : Digits 16 cs n) : Literal ('0' :: x :: (sign ++ cs)) n

variable {base d n : ℕ} {c : Char} {cs sign text : List Char} {ds : List ℕ}

/-! ## Digits -/

theorem digitValue?_eq (hbase : base ≤ 16) (h : DigitOf base c d) : digitValue? c = some d := by
  have hall : ∀ d < 16, digitValue? (Nat.digitChar d) = some d ∧
      digitValue? (Nat.digitChar d).toUpper = some d := by decide
  obtain ⟨hlower, hupper⟩ := hall d (h.1.trans_le hbase)
  rcases h.2 with rfl | rfl
  · exact hlower
  · exact hupper

theorem toNat_digitChar_letter (hlow : 10 ≤ d) (hhigh : d < 16) :
    (Nat.digitChar d).toNat = d + 87 ∧ (Nat.digitChar d).toUpper.toNat = d + 55 := by
  have hall : ∀ d < 16, 10 ≤ d → (Nat.digitChar d).toNat = d + 87 ∧
      (Nat.digitChar d).toUpper.toNat = d + 55 := by decide
  exact hall d hhigh hlow

theorem digitOf_of_value (hvalue : digitValue? c = some d) (hd : d < base) : DigitOf base c d := by
  refine ⟨hd, ?_⟩
  have hrange (low high : Char) : low ≤ c ∧ c ≤ high ↔ low.toNat ≤ c.toNat ∧ c.toNat ≤ high.toNat :=
    and_congr UInt32.le_iff_toNat_le UInt32.le_iff_toNat_le
  have hzero : '0'.toNat = 48 ∧ '9'.toNat = 57 := ⟨rfl, rfl⟩
  have hsmall : 'a'.toNat = 97 ∧ 'f'.toNat = 102 := ⟨rfl, rfl⟩
  have hcapital : 'A'.toNat = 65 ∧ 'F'.toNat = 70 := ⟨rfl, rfl⟩
  rw [digitValue?] at hvalue
  simp only [hrange] at hvalue
  split_ifs at hvalue with hdigit hlower hupper
  · injection hvalue with hvalue
    have hletter := Nat.toNat_digitChar_of_lt_ten (by omega : d < 10)
    exact .inl (Char.toNat_inj.mp (by omega))
  · injection hvalue with hvalue
    have hletter := (toNat_digitChar_letter (by omega : 10 ≤ d) (by omega)).1
    exact .inl (Char.toNat_inj.mp (by omega))
  · injection hvalue with hvalue
    have hletter := (toNat_digitChar_letter (by omega : 10 ≤ d) (by omega)).2
    exact .inr (Char.toNat_inj.mp (by omega))

theorem isDigit_eq_true_iff (hbase : base ≤ 16) : isDigit base c = true ↔ ∃ d, DigitOf base c d := by
  constructor
  · intro h
    rw [isDigit] at h
    cases hvalue : digitValue? c with
    | none => simp [hvalue] at h
    | some d =>
      rw [hvalue] at h
      exact ⟨d, digitOf_of_value hvalue (of_decide_eq_true h)⟩
  · rintro ⟨d, hd⟩
    rw [isDigit, digitValue?_eq hbase hd]
    exact decide_eq_true hd.1

/-- Digit after digit, the value so far moves up one place. -/
theorem foldl_value (hbase : base ≤ 16) (h : List.Forall₂ (DigitOf base) cs ds) (n : ℕ) :
    cs.foldl (fun n c => base * n + (digitValue? c).getD 0) n =
      base ^ ds.length * n + Nat.ofDigits base ds.reverse := by
  induction h generalizing n with
  | nil => simp
  | @cons c d cs ds hd _ ih =>
    rw [List.foldl_cons, ih, digitValue?_eq hbase hd, Option.getD_some, Nat.ofDigits_reverse_cons,
      List.length_cons, Nat.pow_succ]
    ring

theorem Digits.ne_nil (h : Digits base cs n) : cs ≠ [] := by
  obtain ⟨ds, hne, hall, -⟩ := h
  rintro rfl
  cases hall
  exact hne rfl

theorem Digits.digitOf (h : Digits base cs n) (hmem : c ∈ cs) : ∃ d, DigitOf base c d := by
  obtain ⟨ds, -, hall, -⟩ := h
  induction hall with
  | nil => cases hmem
  | cons hd _ ih =>
    rcases List.mem_cons.mp hmem with rfl | hrest
    · exact ⟨_, hd⟩
    · exact ih hrest

theorem Digits.value_eq (hbase : base ≤ 16) (h : Digits base cs n) : value base cs = n := by
  obtain ⟨ds, -, hall, rfl⟩ := h
  rw [value, foldl_value hbase hall, Nat.mul_zero, Nat.zero_add]

theorem digits_of_all (hbase : base ≤ 16) (hne : cs ≠ []) (hall : ∀ c ∈ cs, isDigit base c = true) :
    Digits base cs (value base cs) := by
  have hexists : ∃ ds, List.Forall₂ (DigitOf base) cs ds := by
    clear hne
    induction cs with
    | nil => exact ⟨[], .nil⟩
    | cons c cs ih =>
      rw [List.forall_mem_cons] at hall
      obtain ⟨d, hd⟩ := (isDigit_eq_true_iff hbase).mp hall.1
      obtain ⟨ds, hds⟩ := ih hall.2
      exact ⟨d :: ds, .cons hd hds⟩
  obtain ⟨ds, hds⟩ := hexists
  refine ⟨ds, ?_, hds, ?_⟩
  · rintro rfl
    cases hds
    exact hne rfl
  · rw [value, foldl_value hbase hds, Nat.mul_zero, Nat.zero_add]

/-! ## Written numbers -/

theorem not_digitOf_sign : ¬DigitOf 16 '+' d := by
  have hall : ∀ d < 16, '+' ≠ Nat.digitChar d ∧ '+' ≠ (Nat.digitChar d).toUpper := by decide
  rintro ⟨hd, hlower | hupper⟩
  · exact (hall d hd).1 hlower
  · exact (hall d hd).2 hupper

theorem DigitOf.mono {base' : ℕ} (hbase : base ≤ base') (h : DigitOf base c d) : DigitOf base' c d :=
  ⟨h.1.trans_le hbase, h.2⟩

theorem unsigned_of_ne (h : ∀ rest, text ≠ '+' :: rest) : unsigned text = text := by
  unfold unsigned
  split
  · exact absurd rfl (h _)
  · rfl

theorem unsigned_of_digits (hbase : base ≤ 16) (hsign : IsSign sign) (h : Digits base cs n) :
    unsigned (sign ++ cs) = cs := by
  rcases hsign with rfl | rfl
  · refine unsigned_of_ne fun rest hrest => ?_
    have hmem : '+' ∈ cs := by
      rw [List.nil_append] at hrest
      rw [hrest]
      exact List.mem_cons_self ..
    obtain ⟨d, hd⟩ := h.digitOf hmem
    exact not_digitOf_sign (hd.mono hbase)
  · rfl

theorem exists_sign (text : List Char) : ∃ sign, IsSign sign ∧ text = sign ++ unsigned text := by
  unfold unsigned
  split
  · exact ⟨['+'], .inr rfl, rfl⟩
  · exact ⟨[], .inl rfl, rfl⟩

theorem readBase?_of_digits (hbase : base ≤ 16) (hsign : IsSign sign) (h : Digits base cs n) :
    readBase? base (sign ++ cs) = if n < 2 ^ 32 then some (UInt32.ofNat n) else none := by
  have hall : cs.all (isDigit base) = true :=
    List.all_eq_true.mpr fun c hc => (isDigit_eq_true_iff hbase).mpr (h.digitOf hc)
  have hempty : cs.isEmpty = false := by simpa using h.ne_nil
  rw [readBase?, unsigned_of_digits hbase hsign h, hempty, hall, h.value_eq hbase]
  rfl

theorem digits_of_readBase? {k : UInt32} (hbase : base ≤ 16) (h : readBase? base text = some k) :
    ∃ sign cs, text = sign ++ cs ∧ IsSign sign ∧ Digits base cs k.toNat := by
  obtain ⟨sign, hsign, htext⟩ := exists_sign text
  refine ⟨sign, unsigned text, htext, hsign, ?_⟩
  simp only [readBase?] at h
  split_ifs at h with hbad hfits
  injection h with h
  simp only [Bool.or_eq_true, not_or, Bool.not_eq_true', Bool.not_eq_false, List.isEmpty_iff,
    List.all_eq_true] at hbad
  rw [← h, UInt32.toNat_ofNat_of_lt' hfits]
  exact digits_of_all hbase hbad.1 hbad.2

/-- The base of a written number, and what is written to it. -/
def parts : List Char → ℕ × List Char
  | '0' :: 'x' :: rest => (16, rest)
  | '0' :: 'X' :: rest => (16, rest)
  | text => (10, text)

theorem parts_of_other (hx : ∀ rest, text ≠ '0' :: 'x' :: rest) (hX : ∀ rest, text ≠ '0' :: 'X' :: rest) :
    parts text = (10, text) := by
  unfold parts
  split
  · exact absurd rfl (hx _)
  · exact absurd rfl (hX _)
  · rfl

theorem parts_of_plain (hx : 'x' ∉ text) (hX : 'X' ∉ text) : parts text = (10, text) := by
  refine parts_of_other ?_ ?_ <;> rintro rest rfl
  · simp at hx
  · simp at hX

theorem parts_cases (text : List Char) : parts text = (10, text) ∨
    ∃ x rest, (x = 'x' ∨ x = 'X') ∧ text = '0' :: x :: rest ∧ parts text = (16, rest) := by
  by_cases hx : ∃ rest, text = '0' :: 'x' :: rest
  · obtain ⟨rest, rfl⟩ := hx
    exact .inr ⟨'x', rest, .inl rfl, rfl, rfl⟩
  · by_cases hX : ∃ rest, text = '0' :: 'X' :: rest
    · obtain ⟨rest, rfl⟩ := hX
      exact .inr ⟨'X', rest, .inr rfl, rfl, rfl⟩
    · exact .inl (parts_of_other (not_exists.mp hx) (not_exists.mp hX))

theorem parts_le (text : List Char) : (parts text).1 ≤ 16 := by
  have hten : 10 ≤ 16 := by decide
  rcases parts_cases text with hparts | ⟨x, rest, -, -, hparts⟩
  · rw [hparts]
    exact hten
  · rw [hparts]

theorem read?_eq (text : List Char) : read? text = readBase? (parts text).1 (parts text).2 := by
  unfold read?
  split
  · rfl
  · rfl
  · rename_i hx hX
    rw [parts_of_other hx hX]

theorem not_mem_decimal {x : Char} (hx : x = 'x' ∨ x = 'X') (hsign : IsSign sign) (h : Digits 10 cs n) :
    x ∉ sign ++ cs := by
  intro hmem
  have hall : ∀ d < 10, Nat.digitChar d ≠ 'x' ∧ Nat.digitChar d ≠ 'X' ∧
      (Nat.digitChar d).toUpper ≠ 'x' ∧ (Nat.digitChar d).toUpper ≠ 'X' := by decide
  rcases List.mem_append.mp hmem with hmem | hmem
  · rcases hsign with rfl | rfl
    · cases hmem
    · rcases hx with rfl | rfl <;> simp at hmem
  · obtain ⟨d, hd, hchar⟩ := h.digitOf hmem
    obtain ⟨h1, h2, h3, h4⟩ := hall d hd
    rcases hx with rfl | rfl <;> rcases hchar with hchar | hchar
    · exact h1 hchar.symm
    · exact h3 hchar.symm
    · exact h2 hchar.symm
    · exact h4 hchar.symm

theorem literal_iff : Literal text n ↔
    ∃ sign cs, (parts text).2 = sign ++ cs ∧ IsSign sign ∧ Digits (parts text).1 cs n := by
  constructor
  · rintro (⟨hsign, hdigits⟩ | ⟨rfl | rfl, hsign, hdigits⟩)
    · rw [parts_of_plain (not_mem_decimal (.inl rfl) hsign hdigits)
        (not_mem_decimal (.inr rfl) hsign hdigits)]
      exact ⟨_, _, rfl, hsign, hdigits⟩
    · exact ⟨_, _, rfl, hsign, hdigits⟩
    · exact ⟨_, _, rfl, hsign, hdigits⟩
  · rintro ⟨sign, cs, htext, hsign, hdigits⟩
    rcases parts_cases text with hparts | ⟨x, rest, hx, rfl, hparts⟩ <;> rw [hparts] at htext hdigits
    · obtain rfl : text = sign ++ cs := htext
      exact .decimal hsign hdigits
    · obtain rfl : rest = sign ++ cs := htext
      exact .hexadecimal hx hsign hdigits

/-- A written number is read, or refused for its size. -/
theorem read?_of_literal (h : Literal text n) :
    read? text = if n < 2 ^ 32 then some (UInt32.ofNat n) else none := by
  obtain ⟨sign, cs, htext, hsign, hdigits⟩ := literal_iff.mp h
  rw [read?_eq, htext]
  exact readBase?_of_digits (parts_le text) hsign hdigits

theorem literal_of_read? {k : UInt32} (h : read? text = some k) : Literal text k.toNat := by
  rw [read?_eq] at h
  exact literal_iff.mpr (digits_of_readBase? (parts_le text) h)

theorem Literal.unique {m : ℕ} (hn : Literal text n) (hm : Literal text m) : n = m := by
  have hvalue {k : ℕ} (h : Literal text k) : value (parts text).1 (unsigned (parts text).2) = k := by
    obtain ⟨sign, cs, htext, hsign, hdigits⟩ := literal_iff.mp h
    rw [htext, unsigned_of_digits (parts_le text) hsign hdigits, hdigits.value_eq (parts_le text)]
  exact (hvalue hn).symm.trans (hvalue hm)

theorem read?_eq_some_iff {k : UInt32} : read? text = some k ↔ Literal text k.toNat := by
  refine ⟨literal_of_read?, fun h => ?_⟩
  rw [read?_of_literal h, if_pos k.toNat_lt, UInt32.ofNat_toNat]

theorem read?_eq_none_iff : read? text = none ↔ ∀ n, Literal text n → 2 ^ 32 ≤ n := by
  constructor
  · intro h n hn
    rw [read?_of_literal hn] at h
    by_contra hlt
    rw [if_pos (by omega)] at h
    cases h
  · intro h
    cases hread : read? text with
    | none => rfl
    | some k =>
      have hlarge := h _ (literal_of_read? hread)
      have hsmall := k.toNat_lt
      omega

/-! ## Renderings -/

theorem Digits.append (h : Digits base cs n) (hd : DigitOf base c d) :
    Digits base (cs ++ [c]) (base * n + d) := by
  obtain ⟨ds, hne, hall, rfl⟩ := h
  refine ⟨ds ++ [d], by simp, List.rel_append hall (.cons hd .nil), ?_⟩
  rw [List.reverse_append, List.reverse_singleton, List.singleton_append, Nat.ofDigits_cons]
  exact Nat.add_comm _ _

theorem digits_toDigits (hbase : 1 < base) (n : ℕ) : Digits base (Nat.toDigits base n) n := by
  induction n using Nat.strong_induction_on with
  | _ n ih =>
    rw [Nat.toDigits_eq_if hbase]
    split_ifs with hlt
    · refine ⟨[n], by simp, .cons ⟨hlt, .inl rfl⟩ .nil, ?_⟩
      rw [List.reverse_singleton, Nat.ofDigits_singleton]
    · have hpos : 0 < n := by omega
      have hfront := ih (n / base) (Nat.div_lt_self hpos hbase)
      have hlast := hfront.append ⟨Nat.mod_lt n (by omega), .inl rfl⟩
      rwa [Nat.div_add_mod] at hlast

theorem Digits.map_toUpper (hbase : base ≤ 16) (h : Digits base cs n) :
    Digits base (cs.map Char.toUpper) n := by
  have hall : ∀ d < 16, (Nat.digitChar d).toUpper.toUpper = (Nat.digitChar d).toUpper := by decide
  obtain ⟨ds, hne, hdigits, hn⟩ := h
  refine ⟨ds, hne, ?_, hn⟩
  rw [List.forall₂_map_left_iff]
  refine hdigits.imp fun c d hd => ⟨hd.1, .inr ?_⟩
  rcases hd.2 with rfl | rfl
  · rfl
  · exact hall d (hd.1.trans_le hbase)

/-- The decimal rendering of a number, and the hexadecimal ones in small and in capital letters. -/
def renderings (n : ℕ) : List (List Char) :=
  [Nat.toDigits 10 n, '0' :: 'x' :: Nat.toDigits 16 n, '0' :: 'X' :: (Nat.toDigits 16 n).map Char.toUpper]

theorem literal_of_rendering (h : text ∈ renderings n) : Literal text n := by
  simp only [renderings, List.mem_cons, List.not_mem_nil, or_false] at h
  rcases h with rfl | rfl | rfl
  · exact .decimal (.inl rfl) (digits_toDigits (by decide) n)
  · exact .hexadecimal (.inl rfl) (.inl rfl) (digits_toDigits (by decide) n)
  · exact .hexadecimal (.inr rfl) (.inl rfl) ((digits_toDigits (by decide) n).map_toUpper le_rfl)

end Numeral

namespace Arguments

open Numeral (Literal renderings)

/-- What the number of a key is whose value is a text. -/
structure GivesNumber (args : Arguments) (key value : String) (default : UInt32) : Prop where
  ok_iff : ∀ n, args.getUInt32 key default = .ok n ↔ Literal value.toList n.toNat
  /-- All other texts are refused, also the numbers that are too large. -/
  error_iff : ∀ e, args.getUInt32 key default = .error e ↔
    e = .config (.invalidValue (fieldName key)) ∧ ∀ n, Literal value.toList n → 2 ^ 32 ≤ n
  unique : ∀ n m, Literal value.toList n → Literal value.toList m → n = m
  rendered : ∀ n : UInt32, value.toList ∈ renderings n.toNat → args.getUInt32 key default = .ok n

theorem getUInt32_of_last {args : Arguments} {key value : String} (h : args.Last key value)
    (default : UInt32) :
    args.getUInt32 key default = (Numeral.read? value.toList).elim (.error (invalid key)) .ok := by
  have hget := get?_eq_some_iff.mpr h
  simp only [getUInt32, hget]
  cases Numeral.read? value.toList <;> rfl

theorem getUInt32_reads {args : Arguments} {key value : String} (h : args.Last key value)
    (default : UInt32) : GivesNumber args key value default := by
  have hget := getUInt32_of_last h default
  have hok (n : UInt32) : args.getUInt32 key default = .ok n ↔ Literal value.toList n.toNat := by
    rw [hget, ← Numeral.read?_eq_some_iff]
    cases Numeral.read? value.toList <;> simp
  refine ⟨hok, fun e => ?_, fun n m hn hm => hn.unique hm, fun n hn => ?_⟩
  · rw [hget, ← Numeral.read?_eq_none_iff]
    cases Numeral.read? value.toList <;> simp [invalid, eq_comm]
  · exact (hok n).mpr (Numeral.literal_of_rendering hn)

example : (Arguments.parse "u.stop=4294967296").getUInt32 "u.stop" 1 =
    .error (.config (.invalidValue "stop")) := by
  decide +kernel

/-- A sign, leading zeros and letters of both cases. -/
theorem getUInt32_reads_hexadecimal :
    (Arguments.parse "n=0x+00fF").Last "n" "0x+00fF" ∧
      (Arguments.parse "n=0x+00fF").getUInt32 "n" 7 = .ok 255 := by
  have hlast : (Arguments.parse "n=0x+00fF").Last "n" "0x+00fF" :=
    get?_eq_some_iff.mp (by decide +kernel)
  refine ⟨hlast, ((getUInt32_reads hlast 7).ok_iff 255).mpr ?_⟩
  have hdigits : Numeral.Digits 16 ['0', '0', 'f', 'F'] 255 :=
    Numeral.digits_of_all (by decide) (by decide) (List.all_eq_true.mp (by decide))
  exact .hexadecimal (.inl rfl) (.inr rfl) hdigits

end Arguments
end SerialLine
