import SerialLine.Proofs.Pins.Bits
/-! # Claiming and giving back

What `claimAll` and `releaseAll` do to the bits of a registry.

* `claimAll_eq_ok`: a claim that succeeds found every pin known, wanted once and free, and sets the
  bits of exactly these pins.
* `claimAll_fault`: a claim that fails names a fault of a pin.
* `ClaimsExactly`: an account of all claimed pins; claiming adds to it and giving back takes away.
* `releaseAll_claimAll`: giving back what was claimed restores the registry, because each of the pins
  was free before.
-/
set_option autoImplicit false

namespace SerialLine

@[simp] theorem Pin.numbers_nil : Pin.numbers [] = [] := rfl

@[simp] theorem Pin.numbers_cons (pin : Pin) (pins : List Pin) :
    Pin.numbers (pin :: pins) = pin.number.toNat :: Pin.numbers pins := rfl

@[simp] theorem Pin.numbers_append (pins pins' : List Pin) :
    Pin.numbers (pins ++ pins') = Pin.numbers pins ++ Pin.numbers pins' := List.map_append

theorem Pin.mem_numbers {n : Nat} {pins : List Pin} :
    n ∈ Pin.numbers pins ↔ ∃ pin ∈ pins, pin.number.toNat = n := List.mem_map

theorem Pin.mem_numbers_of_mem {pin : Pin} {pins : List Pin} (h : pin ∈ pins) :
    pin.number.toNat ∈ Pin.numbers pins := Pin.mem_numbers.mpr ⟨pin, h, rfl⟩

/-- Whether an error says that a pin is unknown, wanted twice or held by someone else. -/
def Error.isPinFault : Error → Bool
  | .config (.pinInUse _) => true
  | .config (.duplicatePin _) => true
  | .config (.invalidPin _) => true
  | _ => false

namespace PinRegistry

/-! ## Faults in a list of pins -/

theorem any_same_eq_false {pin : Pin} {pins : List Pin} :
    pins.any (·.same pin) = false ↔ pin.number.toNat ∉ Pin.numbers pins := by
  rw [List.any_eq_false, Pin.mem_numbers]
  constructor
  · rintro h ⟨other, hmem, heq⟩
    exact h other hmem ((Pin.same_iff other pin).mpr (UInt16.toNat_inj.mp heq))
  · intro h other hmem hsame
    exact h ⟨other, hmem, congrArg UInt16.toNat ((Pin.same_iff other pin).mp hsame)⟩

/-- No fault stands in a list whose pins are known, different from each other and different from the
earlier ones. -/
theorem faultIn?_eq_none_iff {reg : PinRegistry} {earlier pins : List Pin} :
    reg.faultIn? earlier pins = none ↔
      (∀ pin ∈ pins, reg.contains pin = true) ∧ (Pin.numbers pins).Nodup ∧
        ∀ n ∈ Pin.numbers pins, n ∉ Pin.numbers earlier := by
  induction pins generalizing earlier with
  | nil => simp [faultIn?]
  | cons pin pins ih =>
    rw [faultIn?]
    by_cases hknown : reg.contains pin = true
    · by_cases hseen : earlier.any (·.same pin) = true
      · have hmem : pin.number.toNat ∈ Pin.numbers earlier := by
          by_contra hnot
          rw [any_same_eq_false.mpr hnot] at hseen
          cases hseen
        simp only [hknown, hseen, Bool.not_true, Bool.false_eq_true, if_false, if_true,
          reduceCtorEq, false_iff]
        rintro ⟨-, -, hfresh⟩
        exact hfresh _ (List.mem_cons_self ..) hmem
      · have hnew := any_same_eq_false.mp (Bool.eq_false_iff.mpr hseen)
        rw [if_neg (by simp [hknown]), if_neg hseen, ih, List.forall_mem_cons, Pin.numbers_cons,
          Pin.numbers_cons, List.nodup_cons, List.forall_mem_cons]
        constructor
        · rintro ⟨hall, hnodup, hfresh⟩
          have hself : pin.number.toNat ∉ Pin.numbers pins :=
            fun hmem => hfresh _ hmem (List.mem_cons_self ..)
          exact ⟨⟨hknown, hall⟩, ⟨hself, hnodup⟩, hnew,
            fun n hn hmem => hfresh n hn (List.mem_cons_of_mem _ hmem)⟩
        · rintro ⟨⟨-, hall⟩, ⟨hself, hnodup⟩, -, hfresh⟩
          refine ⟨hall, hnodup, fun n hn hmem => ?_⟩
          rcases List.mem_cons.mp hmem with heq | hmem
          · exact hself (heq ▸ hn)
          · exact hfresh n hn hmem
    · simp [hknown]

theorem faultIn?_isPinFault {reg : PinRegistry} {earlier pins : List Pin} {fault : ConfigError}
    (h : reg.faultIn? earlier pins = some fault) : (Error.config fault).isPinFault = true := by
  induction pins generalizing earlier with
  | nil => cases h
  | cons pin pins ih =>
    rw [faultIn?] at h
    split at h
    · cases h
      rfl
    · split at h
      · cases h
        rfl
      · exact ih h

/-! ## Claiming -/

theorem bit_claim {reg : PinRegistry} {pins : List Pin}
    (h : ∀ pin ∈ pins, reg.contains pin = true) (n : Nat) :
    (pins.foldl setBit reg).bit n = (decide (n ∈ Pin.numbers pins) || reg.bit n) := by
  induction pins generalizing reg with
  | nil => simp
  | cons pin pins ih =>
    have hpin := h pin (List.mem_cons_self ..)
    have hrest : ∀ other ∈ pins, (reg.setBit pin).contains other = true :=
      fun other hmem => h other (List.mem_cons_of_mem _ hmem)
    rw [List.foldl_cons, ih hrest, bit_setBit hpin]
    simp only [Pin.numbers_cons, List.mem_cons, Bool.decide_or]
    cases decide (n = pin.number.toNat) <;> simp

theorem pinCount_claim (reg : PinRegistry) (pins : List Pin) :
    (pins.foldl setBit reg).pinCount = reg.pinCount := by
  induction pins generalizing reg with
  | nil => rfl
  | cons pin pins ih => rw [List.foldl_cons, ih, pinCount_setBit]

/-- What it takes to claim pins: all are known, wanted once and free. -/
structure Claimable (reg : PinRegistry) (pins : List Pin) : Prop where
  contains : ∀ pin ∈ pins, reg.contains pin = true
  nodup : (Pin.numbers pins).Nodup
  free : ∀ n ∈ Pin.numbers pins, reg.bit n = false

theorem claimAll_eq_ok {reg reg' : PinRegistry} {pins : List Pin} :
    reg.claimAll pins = .ok reg' ↔ reg.Claimable pins ∧ reg' = pins.foldl setBit reg := by
  rw [claimAll]
  split
  · rename_i fault hfault
    constructor
    · intro h
      cases h
    · rintro ⟨⟨hall, hnodup, -⟩, -⟩
      rw [faultIn?_eq_none_iff.mpr ⟨hall, hnodup, by simp⟩] at hfault
      cases hfault
  · rename_i hfault
    obtain ⟨hall, hnodup, -⟩ := faultIn?_eq_none_iff.mp hfault
    split
    · rename_i busy hbusy
      constructor
      · intro h
        cases h
      · rintro ⟨⟨-, -, hfree⟩, -⟩
        have hset := List.find?_some hbusy
        rw [isSet_eq_bit, hfree _ (Pin.mem_numbers_of_mem (List.mem_of_find?_eq_some hbusy))] at hset
        cases hset
    · rename_i hfree
      rw [List.find?_eq_none] at hfree
      have hbits : ∀ n ∈ Pin.numbers pins, reg.bit n = false := by
        intro n hn
        obtain ⟨pin, hmem, rfl⟩ := Pin.mem_numbers.mp hn
        rw [← isSet_eq_bit]
        exact Bool.eq_false_iff.mpr (hfree pin hmem)
      constructor
      · intro h
        injection h with h
        exact ⟨⟨hall, hnodup, hbits⟩, h.symm⟩
      · rintro ⟨-, rfl⟩
        rfl

/-- A claim fails only for a pin. -/
theorem claimAll_fault {reg : PinRegistry} {pins : List Pin} {e : Error}
    (h : reg.claimAll pins = .error e) : e.isPinFault = true := by
  rw [claimAll] at h
  split at h
  · rename_i fault hfault
    cases h
    exact faultIn?_isPinFault hfault
  · split at h
    · cases h
      rfl
    · cases h

/-! ## Giving back -/

theorem bit_release (reg : PinRegistry) (pin : Pin) (n : Nat) :
    (reg.release pin).bit n =
      (!(decide (n = pin.number.toNat) && decide (n < reg.pinCount)) && reg.bit n) := by
  unfold release
  by_cases hknown : reg.contains pin = true
  · have hlt := contains_iff.mp hknown
    rw [if_pos hknown, bit_clearBit hknown]
    by_cases hn : n = pin.number.toNat
    · subst hn
      simp [hlt]
    · simp [hn]
  · have hlt : ¬pin.number.toNat < reg.pinCount := fun h => hknown (contains_iff.mpr h)
    rw [if_neg hknown]
    by_cases hn : n = pin.number.toNat
    · subst hn
      simp [hlt]
    · simp [hn]

theorem bit_releaseAll (reg : PinRegistry) (pins : List Pin) (n : Nat) :
    (reg.releaseAll pins).bit n =
      (!(decide (n ∈ Pin.numbers pins) && decide (n < reg.pinCount)) && reg.bit n) := by
  unfold releaseAll
  induction pins generalizing reg with
  | nil => simp
  | cons pin pins ih =>
    rw [List.foldl_cons, ih, bit_release, pinCount_release]
    simp only [Pin.numbers_cons, List.mem_cons, Bool.decide_or]
    cases decide (n = pin.number.toNat) <;> cases decide (n ∈ Pin.numbers pins) <;>
      cases decide (n < reg.pinCount) <;> simp

/-- Giving back what was claimed restores the registry. -/
theorem releaseAll_claimAll {reg reg' : PinRegistry} {pins : List Pin}
    (h : reg.claimAll pins = .ok reg') : reg'.releaseAll pins = reg := by
  obtain ⟨hclaim, rfl⟩ := claimAll_eq_ok.mp h
  apply ext_bit
  · rw [pinCount_releaseAll, pinCount_claim]
  · intro n
    rw [bit_releaseAll, bit_claim hclaim.contains, pinCount_claim]
    by_cases hn : n ∈ Pin.numbers pins
    · obtain ⟨pin, hmem, rfl⟩ := Pin.mem_numbers.mp hn
      have hlt := contains_iff.mp (hclaim.contains pin hmem)
      simp [hn, hlt, hclaim.free _ hn]
    · simp [hn]

/-- After a claim, the claimed pins are those claimed before and the claimed ones. -/
theorem isClaimed_claimAll {reg reg' : PinRegistry} {pins : List Pin}
    (h : reg.claimAll pins = .ok reg') (pin : Pin) :
    reg'.isClaimed pin = true ↔
      reg.isClaimed pin = true ∨ pin.number.toNat ∈ Pin.numbers pins := by
  obtain ⟨hclaim, rfl⟩ := claimAll_eq_ok.mp h
  have hcontains : (pins.foldl setBit reg).contains pin = reg.contains pin := by
    rw [contains, pinCount_claim, contains]
  rw [isClaimed, hcontains, isSet_eq_bit, bit_claim hclaim.contains, isClaimed, isSet_eq_bit]
  have hknown : pin.number.toNat ∈ Pin.numbers pins → reg.contains pin = true := by
    intro hmem
    obtain ⟨other, hother, hnumber⟩ := Pin.mem_numbers.mp hmem
    rw [contains_iff, ← hnumber]
    exact contains_iff.mp (hclaim.contains other hother)
  simp only [Bool.and_eq_true, Bool.or_eq_true, decide_eq_true_eq]
  constructor
  · rintro ⟨hc, hmem | hbit⟩
    · exact .inr hmem
    · exact .inl ⟨hc, hbit⟩
  · rintro (⟨hc, hbit⟩ | hmem)
    · exact ⟨hc, .inr hbit⟩
    · exact ⟨hknown hmem, .inl hmem⟩

/-- After pins are given back, the claimed pins are those claimed before without them. -/
theorem isClaimed_releaseAll (reg : PinRegistry) (pins : List Pin) (pin : Pin) :
    (reg.releaseAll pins).isClaimed pin = true ↔
      reg.isClaimed pin = true ∧ pin.number.toNat ∉ Pin.numbers pins := by
  have hcontains : (reg.releaseAll pins).contains pin = reg.contains pin := by
    rw [contains, pinCount_releaseAll, contains]
  rw [isClaimed, hcontains, isSet_eq_bit, bit_releaseAll, isClaimed, isSet_eq_bit]
  cases hknown : reg.contains pin with
  | false => simp
  | true =>
    have hlt := contains_iff.mp hknown
    simp [hlt, and_comm]

/-! ## Accounts of all claims -/

/-- The claimed pins are the listed ones, each listed once. -/
structure ClaimsExactly (reg : PinRegistry) (pins : List Pin) : Prop where
  bit_iff : ∀ n, reg.bit n = true ↔ n ∈ Pin.numbers pins
  nodup : (Pin.numbers pins).Nodup
  contains : ∀ pin ∈ pins, reg.contains pin = true

theorem claimsExactly_create (pinCount : Nat) : (create pinCount).ClaimsExactly [] where
  bit_iff n := by simp
  nodup := List.nodup_nil
  contains pin h := by cases h

namespace ClaimsExactly

theorem claimAll {reg reg' : PinRegistry} {pins new : List Pin} (h : reg.ClaimsExactly pins)
    (hclaim : reg.claimAll new = .ok reg') : reg'.ClaimsExactly (pins ++ new) := by
  obtain ⟨⟨hcontains, hnodup, hfree⟩, rfl⟩ := claimAll_eq_ok.mp hclaim
  have hknown (pin : Pin) : (new.foldl setBit reg).contains pin = reg.contains pin := by
    rw [PinRegistry.contains, pinCount_claim, PinRegistry.contains]
  refine ⟨fun n => ?_, ?_, fun pin hmem => ?_⟩
  · rw [bit_claim hcontains, Bool.or_eq_true, decide_eq_true_eq, h.bit_iff, Pin.numbers_append,
      List.mem_append, or_comm]
  · rw [Pin.numbers_append, List.nodup_append]
    refine ⟨h.nodup, hnodup, fun n hold m hnew heq => ?_⟩
    have hbit := (h.bit_iff n).mpr hold
    rw [heq, hfree m hnew] at hbit
    cases hbit
  · rw [hknown]
    rcases List.mem_append.mp hmem with hold | hnew
    · exact h.contains pin hold
    · exact hcontains pin hnew

/-- Giving back the pins of one holder leaves those of the others, since no pin is listed twice. -/
theorem releaseAll {reg : PinRegistry} {before gone after : List Pin}
    (h : reg.ClaimsExactly (before ++ gone ++ after)) :
    (reg.releaseAll gone).ClaimsExactly (before ++ after) := by
  have hnodup := h.nodup
  have hperm : List.Perm (Pin.numbers (before ++ gone ++ after))
      (Pin.numbers gone ++ Pin.numbers (before ++ after)) := by
    simp only [Pin.numbers_append, List.append_assoc]
    exact List.perm_append_comm_assoc _ _ _
  rw [hperm.nodup_iff, List.nodup_append] at hnodup
  obtain ⟨-, hrest, hapart⟩ := hnodup
  refine ⟨fun n => ?_, hrest, fun pin hmem => ?_⟩
  · rw [bit_releaseAll, Bool.and_eq_true, h.bit_iff, hperm.mem_iff, List.mem_append]
    by_cases hgone : n ∈ Pin.numbers gone
    · obtain ⟨pin, hmem, hn⟩ := Pin.mem_numbers.mp hgone
      have hlt := contains_iff.mp (h.contains pin (by simp [hmem]))
      rw [hn] at hlt
      have hnot : n ∉ Pin.numbers (before ++ after) := fun hmem => hapart n hgone n hmem rfl
      rw [decide_eq_true hgone, decide_eq_true hlt]
      simpa using hnot
    · simp [hgone]
  · rw [PinRegistry.contains, pinCount_releaseAll]
    apply h.contains pin
    rcases List.mem_append.mp hmem with hbefore | hafter
    · simp [hbefore]
    · simp [hafter]

theorem isClaimed_iff {reg : PinRegistry} {pins : List Pin} (h : reg.ClaimsExactly pins)
    (pin : Pin) : reg.isClaimed pin = true ↔ pin.number.toNat ∈ Pin.numbers pins := by
  rw [isClaimed, isSet_eq_bit, Bool.and_eq_true, h.bit_iff]
  constructor
  · exact fun hboth => hboth.2
  · intro hmem
    obtain ⟨other, hother, hnumber⟩ := Pin.mem_numbers.mp hmem
    refine ⟨?_, hmem⟩
    rw [PinRegistry.contains_iff, ← hnumber]
    exact PinRegistry.contains_iff.mp (h.contains other hother)

theorem claimedCount_eq {reg : PinRegistry} {pins : List Pin} (h : reg.ClaimsExactly pins) :
    reg.claimedCount = pins.length := by
  rw [claimedCount_eq_length h.nodup h.bit_iff, Pin.numbers, List.length_map]

end ClaimsExactly

end PinRegistry
end SerialLine
