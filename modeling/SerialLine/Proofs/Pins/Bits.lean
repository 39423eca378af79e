import Mathlib.Data.List.Induction
import Mathlib.Data.Nat.Bitwise
import SerialLine.PinRegistry
/-! # The bits of a pin registry

A registry is a function from pin numbers to bits.

* `bit_setBit`, `bit_clearBit`: the two writes change the bit of their pin and no other.
* `ext_bit`: registries of one size with the same bits are equal, because their tables have the same
  length.
* `claimedCount_eq_length`: the words' bit counts add up to the number of set bits.
-/
set_option autoImplicit false

namespace SerialLine

def Pin.numbers (pins : List Pin) : List Nat := pins.map fun pin => pin.number.toNat

namespace PinRegistry

/-- The bit at a pin number. -/
def bit (reg : PinRegistry) (n : Nat) : Bool :=
  (reg.words.getD (n / 64) 0).toNat.testBit (n % 64)

/-! ## One bit -/

theorem toNat_mask (pin : Pin) : (mask pin).toNat = 2 ^ (pin.number.toNat % 64) := by
  have hlt : pin.number.toNat % 64 < 64 := Nat.mod_lt _ (by decide)
  have hpow : 2 ^ (pin.number.toNat % 64) < 2 ^ 64 := Nat.pow_lt_pow_right (by decide) hlt
  unfold mask
  rw [UInt64.toNat_shiftLeft, UInt64.toNat_ofNat', UInt64.toNat_one,
    Nat.mod_eq_of_lt (by omega : pin.number.toNat % 64 < 2 ^ 64), Nat.mod_eq_of_lt hlt,
    Nat.one_shiftLeft, Nat.mod_eq_of_lt hpow]

theorem isSet_eq_bit (reg : PinRegistry) (pin : Pin) : reg.isSet pin = reg.bit pin.number.toNat := by
  unfold isSet bit wordIndex
  set word := reg.words.getD (pin.number.toNat / 64) 0
  have hand : (word &&& mask pin).toNat =
      (word.toNat.testBit (pin.number.toNat % 64)).toNat * 2 ^ (pin.number.toNat % 64) := by
    rw [UInt64.toNat_and, toNat_mask, Nat.and_two_pow]
  cases hbit : word.toNat.testBit (pin.number.toNat % 64) with
  | false =>
    have hzero : word &&& mask pin = 0 := UInt64.toNat_inj.mp (by rw [hand, hbit]; simp)
    simp [hzero]
  | true =>
    have hne : word &&& mask pin ≠ 0 := by
      intro h
      have := congrArg UInt64.toNat h
      rw [hand, hbit] at this
      simp at this
    simpa using hne

theorem isClaimed_eq_bit {reg : PinRegistry} {pin : Pin} (h : reg.contains pin = true) :
    reg.isClaimed pin = reg.bit pin.number.toNat := by
  rw [isClaimed, h, Bool.true_and, isSet_eq_bit]

theorem contains_iff {reg : PinRegistry} {pin : Pin} :
    reg.contains pin = true ↔ pin.number.toNat < reg.pinCount := by
  simp [contains]

/-- The bits of a number inside the registry lie in a word of the table. -/
theorem wordIndex_lt {reg : PinRegistry} {pin : Pin} (h : reg.contains pin = true) :
    wordIndex pin < reg.words.size := by
  have hlt := contains_iff.mp h
  rw [reg.size_words, wordIndex]
  omega

/-- What rewriting one word does to a bit. -/
theorem bit_modify {reg reg' : PinRegistry} {f : UInt64 → UInt64} {k : Nat} (hk : k < reg.words.size)
    (h : reg'.words = reg.words.modify k f) (n : Nat) :
    reg'.bit n =
      if n / 64 = k then (f (reg.words.getD k 0)).toNat.testBit (n % 64) else reg.bit n := by
  unfold bit
  rw [h]
  simp only [Array.getD_eq_getD_getElem?, Array.getElem?_modify]
  by_cases hn : n / 64 = k
  · subst hn
    simp [hk]
  · rw [if_neg (fun e => hn e.symm), if_neg hn]

theorem words_setBit (reg : PinRegistry) (pin : Pin) :
    (reg.setBit pin).words = reg.words.modify (wordIndex pin) (· ||| mask pin) := rfl

theorem words_clearBit (reg : PinRegistry) (pin : Pin) :
    (reg.clearBit pin).words = reg.words.modify (wordIndex pin) (· &&& ~~~(mask pin)) := rfl

theorem bit_setBit {reg : PinRegistry} {pin : Pin} (h : reg.contains pin = true) (n : Nat) :
    (reg.setBit pin).bit n = (decide (n = pin.number.toNat) || reg.bit n) := by
  have hindex : wordIndex pin = pin.number.toNat / 64 := rfl
  rw [bit_modify (wordIndex_lt h) (words_setBit reg pin)]
  by_cases hword : n / 64 = wordIndex pin
  · have hiff : pin.number.toNat % 64 = n % 64 ↔ n = pin.number.toNat := by omega
    rw [if_pos hword, ← hword, UInt64.toNat_or, Nat.testBit_or, toNat_mask, Nat.testBit_two_pow,
      Bool.or_comm, decide_eq_decide.mpr hiff]
    rfl
  · have hne : n ≠ pin.number.toNat := fun e => hword (by rw [e, hindex])
    rw [if_neg hword, decide_eq_false hne, Bool.false_or]

theorem testBit_not_mask (pin : Pin) {i : Nat} (hi : i < 64) :
    (~~~mask pin).toNat.testBit i = !decide (pin.number.toNat % 64 = i) := by
  rw [← UInt64.toNat_toBitVec, UInt64.toBitVec_not, BitVec.testBit_toNat, BitVec.getLsbD_not,
    ← BitVec.testBit_toNat, UInt64.toNat_toBitVec, toNat_mask, Nat.testBit_two_pow,
    decide_eq_true hi, Bool.true_and]

theorem bit_clearBit {reg : PinRegistry} {pin : Pin} (h : reg.contains pin = true) (n : Nat) :
    (reg.clearBit pin).bit n = (!decide (n = pin.number.toNat) && reg.bit n) := by
  have hindex : wordIndex pin = pin.number.toNat / 64 := rfl
  rw [bit_modify (wordIndex_lt h) (words_clearBit reg pin)]
  by_cases hword : n / 64 = wordIndex pin
  · have hiff : pin.number.toNat % 64 = n % 64 ↔ n = pin.number.toNat := by omega
    rw [if_pos hword, ← hword, UInt64.toNat_and, Nat.testBit_and,
      testBit_not_mask pin (Nat.mod_lt _ (by decide)), Bool.and_comm, decide_eq_decide.mpr hiff]
    rfl
  · have hne : n ≠ pin.number.toNat := fun e => hword (by rw [e, hindex])
    rw [if_neg hword, decide_eq_false hne, Bool.not_false, Bool.true_and]

/-! ## The whole table -/

@[simp] theorem bit_create (pinCount n : Nat) : (create pinCount).bit n = false := by
  unfold bit create
  rw [Array.getD_eq_getD_getElem?, Array.getElem?_replicate]
  split <;> simp

/-- Registries of one size with the same bits are the same. -/
theorem ext_bit {reg reg' : PinRegistry} (hcount : reg.pinCount = reg'.pinCount)
    (hbit : ∀ n, reg.bit n = reg'.bit n) : reg = reg' := by
  have hsize : reg.words.size = reg'.words.size := by rw [reg.size_words, reg'.size_words, hcount]
  have hwords : reg.words = reg'.words := by
    apply Array.ext hsize
    intro k hk hk'
    apply UInt64.toNat_inj.mp
    apply Nat.eq_of_testBit_eq
    intro i
    by_cases hi : i < 64
    · have h := hbit (64 * k + i)
      unfold bit at h
      have hdiv : (64 * k + i) / 64 = k := by omega
      have hmod : (64 * k + i) % 64 = i := by omega
      rw [hdiv, hmod, Array.getD_eq_getD_getElem?, Array.getD_eq_getD_getElem?,
        Array.getElem?_eq_getElem hk, Array.getElem?_eq_getElem hk'] at h
      exact h
    · have hle : 2 ^ 64 ≤ 2 ^ i := Nat.pow_le_pow_right (by decide) (by omega)
      rw [Nat.testBit_lt_two_pow (Nat.lt_of_lt_of_le (UInt64.toNat_lt _) hle),
        Nat.testBit_lt_two_pow (Nat.lt_of_lt_of_le (UInt64.toNat_lt _) hle)]
  cases reg
  cases reg'
  simp only at hcount hwords
  subst hcount hwords
  rfl

/-! ## Counting -/

/-- The bit counts of a list of words count the bits of all of them. -/
theorem sum_bitCount (words : List UInt64) :
    (words.map bitCount).sum = (List.range (64 * words.length)).countP fun n =>
      (words.getD (n / 64) 0).toNat.testBit (n % 64) := by
  induction words using List.reverseRecOn with
  | nil => rfl
  | append_singleton words word ih =>
    have hrange : 64 * (words ++ [word]).length = 64 * words.length + 64 := by
      simp [Nat.mul_add]
    rw [List.map_append, List.sum_append, ih, hrange, List.range_add, List.countP_append,
      List.countP_map]
    congr 1
    · apply List.countP_congr
      intro n hn
      have hlt : n / 64 < words.length := by
        have := List.mem_range.mp hn
        omega
      rw [List.getD_append _ _ _ _ hlt]
    · simp only [List.map_cons, List.map_nil, List.sum_cons, List.sum_nil, bitCount]
      apply List.countP_congr
      intro i hi
      have hlt := List.mem_range.mp hi
      have hdiv : (64 * words.length + i) / 64 = words.length := by omega
      have hmod : (64 * words.length + i) % 64 = i := by omega
      simp [hdiv, hmod]

theorem claimedCount_eq_countP (reg : PinRegistry) :
    reg.claimedCount = (List.range (64 * reg.words.size)).countP reg.bit := by
  have hsum : reg.claimedCount = (reg.words.toList.map bitCount).sum := by
    rw [claimedCount, ← Array.foldl_toList, List.sum_eq_foldl, List.foldl_map]
  rw [hsum, sum_bitCount, Array.length_toList]
  apply List.countP_congr
  intro n _
  simp [bit, Array.getD_eq_getD_getElem?]

theorem bit_eq_false_of_size_le {reg : PinRegistry} {n : Nat} (h : 64 * reg.words.size ≤ n) :
    reg.bit n = false := by
  have hlt : ¬n / 64 < reg.words.size := by omega
  simp [bit, Array.getD_eq_getD_getElem?, hlt]

/-- The count of a registry whose set bits are listed without repetition is the length of the list. -/
theorem claimedCount_eq_length {reg : PinRegistry} {numbers : List Nat} (hnodup : numbers.Nodup)
    (hbit : ∀ n, reg.bit n = true ↔ n ∈ numbers) : reg.claimedCount = numbers.length := by
  rw [claimedCount_eq_countP, List.countP_eq_length_filter]
  apply List.Perm.length_eq
  rw [List.perm_ext_iff_of_nodup (List.nodup_range.filter _) hnodup]
  intro n
  rw [List.mem_filter, List.mem_range, hbit]
  constructor
  · exact fun h => h.2
  · intro hn
    refine ⟨?_, hn⟩
    by_contra hle
    have := bit_eq_false_of_size_le (Nat.le_of_not_lt hle)
    rw [(hbit n).mpr hn] at this
    cases this

end PinRegistry
end SerialLine
