import Mathlib.Data.Finset.Card
import Mathlib.Data.Finset.SDiff
import Mathlib.Data.Finset.Dedup
import SerialLine.Bench
import SerialLine.Proofs.Pins.Claims
/-! # A registry is a set of numbers

`SetStep` is what a registry is meant to do with the set of the claimed numbers, all of them below the number
of pins; `Claims` is the part of it that can fail. Runs of steps are compared by the answers and by the
number of claimed pins after each step.

* `Represents`: the bits of a registry are those of a set.
* `exists_fault`: a list with a fault has a first one, and it stands where the list was in order so far.
* `claimAll_claims`, `Claims.claimAll_eq`: a claim does what it does on the set, and nothing else is possible.
* `pinSteps_refine_set`: whole runs on a shared registry, from an empty one on.
-/
set_option autoImplicit false

namespace SerialLine

/-! ## Sets and steps -/

/-- What can be asked of a registry. -/
inductive PinStep where
  | claim (pin : Pin)
  | claimAll (pins : List Pin)
  | release (pin : Pin)
  | releaseAll (pins : List Pin)
  | isClaimed (pin : Pin)
  | checkFree (pin : Pin)
  deriving DecidableEq

inductive PinAnswer where
  | done (result : Except Error Unit)
  | claimed (yes : Bool)
  deriving DecidableEq

/-- The pins of a list are pins of a registry with `count` of them, each wanted once. -/
structure Pin.Proper (count : ℕ) (pins : List Pin) : Prop where
  below : ∀ n ∈ Pin.numbers pins, n < count
  nodup : (Pin.numbers pins).Nodup

/-- What a claim comes to when the numbers in `S` are claimed. A list that is not proper is refused for the
first pin that makes it so, and only a proper one for the first pin that is claimed. -/
inductive Claims (count : ℕ) (S : Finset ℕ) (pins : List Pin) : Except Error Unit → Finset ℕ → Prop where
  | taken (hproper : Pin.Proper count pins) (hfree : ∀ n ∈ Pin.numbers pins, n ∉ S) :
      Claims count S pins (.ok ()) (S ∪ (Pin.numbers pins).toFinset)
  | unknown {before after : List Pin} {pin : Pin} (hpins : pins = before ++ pin :: after)
      (hbefore : Pin.Proper count before) (hout : count ≤ pin.number.toNat) :
      Claims count S pins (.error (.config (.invalidPin pin))) S
  | repeated {before after : List Pin} {pin : Pin} (hpins : pins = before ++ pin :: after)
      (hbefore : Pin.Proper count before) (hseen : pin.number.toNat ∈ Pin.numbers before) :
      Claims count S pins (.error (.config (.duplicatePin pin))) S
  | held {before after : List Pin} {pin : Pin} (hproper : Pin.Proper count pins)
      (hpins : pins = before ++ pin :: after) (hbefore : ∀ n ∈ Pin.numbers before, n ∉ S)
      (hheld : pin.number.toNat ∈ S) : Claims count S pins (.error (.config (.pinInUse pin))) S

/-- One step on the set of the claimed numbers. -/
inductive SetStep (count : ℕ) (S : Finset ℕ) : PinStep → PinAnswer → Finset ℕ → Prop where
  | claim {pin : Pin} {result : Except Error Unit} {S' : Finset ℕ} (h : Claims count S [pin] result S') :
      SetStep count S (.claim pin) (.done result) S'
  | claimAll {pins : List Pin} {result : Except Error Unit} {S' : Finset ℕ}
      (h : Claims count S pins result S') : SetStep count S (.claimAll pins) (.done result) S'
  | release {pin : Pin} : SetStep count S (.release pin) (.done (.ok ())) (S.erase pin.number.toNat)
  | releaseAll {pins : List Pin} :
      SetStep count S (.releaseAll pins) (.done (.ok ())) (S \ (Pin.numbers pins).toFinset)
  | isClaimed {pin : Pin} :
      SetStep count S (.isClaimed pin) (.claimed (decide (pin.number.toNat ∈ S))) S
  /-- The answer is that of a claim, which is not made. -/
  | checkFree {pin : Pin} {result : Except Error Unit} {S' : Finset ℕ}
      (h : Claims count S [pin] result S') : SetStep count S (.checkFree pin) (.done result) S

/-- A run with its answers and the number of claimed pins after every step. -/
inductive SetRun (count : ℕ) :
    Finset ℕ → List PinStep → List (PinAnswer × ℕ) → Finset ℕ → Prop where
  | nil {S : Finset ℕ} : SetRun count S [] [] S
  | cons {S S₁ S₂ : Finset ℕ} {step : PinStep} {answer : PinAnswer} {steps : List PinStep}
      {reports : List (PinAnswer × ℕ)} (hstep : SetStep count S step answer S₁)
      (hrest : SetRun count S₁ steps reports S₂) :
      SetRun count S (step :: steps) ((answer, S₁.card) :: reports) S₂

namespace World

variable {σ : Type}

def pinStep : PinStep → StateM (World σ) PinAnswer
  | .claim pin => return .done (← claimAll [pin])
  | .claimAll pins => return .done (← claimAll pins)
  | .release pin => do
    modify fun w => { w with pins := w.pins.release pin }
    return .done (.ok ())
  | .releaseAll pins => do
    releaseAll pins
    return .done (.ok ())
  | .isClaimed pin => return .claimed ((← get).pins.isClaimed pin)
  | .checkFree pin => return .done ((← get).pins.checkFree pin)

def pinSteps : List PinStep → StateM (World σ) (List (PinAnswer × ℕ))
  | [] => return []
  | step :: steps => do
    let answer ← pinStep step
    let count := (← get).pins.claimedCount
    return (answer, count) :: (← pinSteps steps)

end World

/-! ## Faults in a list -/

namespace PinRegistry

variable {reg : PinRegistry} {earlier before pins : List Pin} {pin : Pin} {fault : ConfigError}

theorem faultIn?_cons (reg : PinRegistry) (earlier : List Pin) (pin : Pin) (rest : List Pin) :
    reg.faultIn? earlier (pin :: rest) =
      (reg.faultIn? earlier [pin]).or (reg.faultIn? (pin :: earlier) rest) := by
  simp only [faultIn?]
  split_ifs <;> rfl

theorem faultIn?_append (reg : PinRegistry) (earlier before rest : List Pin) :
    reg.faultIn? earlier (before ++ rest) =
      (reg.faultIn? earlier before).or (reg.faultIn? (before.reverse ++ earlier) rest) := by
  induction before generalizing earlier with
  | nil => rfl
  | cons pin before ih =>
    rw [List.cons_append, faultIn?_cons, ih, faultIn?_cons reg earlier pin before, Option.or_assoc,
      List.reverse_cons, List.append_assoc, List.singleton_append]

theorem exists_fault (h : reg.faultIn? earlier pins = some fault) : ∃ before pin after,
    pins = before ++ pin :: after ∧ reg.faultIn? earlier before = none ∧
      reg.faultIn? (before.reverse ++ earlier) [pin] = some fault := by
  induction pins generalizing earlier with
  | nil => cases h
  | cons pin pins ih =>
    rw [faultIn?_cons] at h
    cases hpin : reg.faultIn? earlier [pin] with
    | some fault' =>
      rw [hpin] at h
      exact ⟨[], pin, pins, rfl, rfl, hpin.trans h⟩
    | none =>
      rw [hpin, Option.none_or] at h
      obtain ⟨before, other, after, rfl, hbefore, hother⟩ := ih h
      refine ⟨pin :: before, other, after, rfl, ?_, ?_⟩
      · rw [faultIn?_cons, hpin, hbefore]
        rfl
      · rwa [List.reverse_cons, List.append_assoc]

theorem faultIn?_of_unknown (h : reg.pinCount ≤ pin.number.toNat) (rest : List Pin) :
    reg.faultIn? earlier (pin :: rest) = some (.invalidPin pin) := by
  have hout : reg.contains pin = false := by
    rw [← Bool.not_eq_true, contains_iff]
    omega
  rw [faultIn?, hout]
  rfl

theorem faultIn?_of_repeated (h : pin.number.toNat < reg.pinCount)
    (hseen : pin.number.toNat ∈ Pin.numbers earlier) (rest : List Pin) :
    reg.faultIn? earlier (pin :: rest) = some (.duplicatePin pin) := by
  have hany : earlier.any (·.same pin) = true := by
    rw [← Bool.not_eq_false, any_same_eq_false]
    exact fun hnot => hnot hseen
  rw [faultIn?, contains_iff.mpr h, hany]
  rfl

theorem faultIn?_of_fresh (h : pin.number.toNat < reg.pinCount)
    (hfresh : pin.number.toNat ∉ Pin.numbers earlier) : reg.faultIn? earlier [pin] = none := by
  rw [faultIn?, contains_iff.mpr h, any_same_eq_false.mpr hfresh]
  rfl

theorem proper_iff : Pin.Proper reg.pinCount pins ↔ reg.faultIn? [] pins = none := by
  rw [faultIn?_eq_none_iff]
  constructor
  · intro h
    refine ⟨fun pin hmem => contains_iff.mpr (h.below _ (Pin.mem_numbers_of_mem hmem)), h.nodup, ?_⟩
    exact fun n _ => List.not_mem_nil
  · rintro ⟨hcontains, hnodup, -⟩
    refine ⟨fun n hn => ?_, hnodup⟩
    obtain ⟨pin, hmem, rfl⟩ := Pin.mem_numbers.mp hn
    exact contains_iff.mp (hcontains pin hmem)

/-! ## Claims -/

/-- The bits of a registry of `count` pins are those of a set of numbers below. -/
structure Represents (reg : PinRegistry) (count : ℕ) (S : Finset ℕ) : Prop where
  pinCount_eq : reg.pinCount = count
  bit_iff : ∀ n, reg.bit n = true ↔ n ∈ S
  below : ∀ n ∈ S, n < count

theorem represents_create (count : ℕ) : (create count).Represents count ∅ where
  pinCount_eq := rfl
  bit_iff n := by simp
  below n hn := absurd hn (Finset.notMem_empty n)

namespace Represents

variable {count : ℕ} {S S' : Finset ℕ} {result : Except Error Unit}

theorem unique (h : reg.Represents count S) (h' : reg.Represents count S') : S = S' := by
  ext n
  rw [← h.bit_iff, h'.bit_iff]

theorem bit_eq_false_iff (h : reg.Represents count S) (n : ℕ) : reg.bit n = false ↔ n ∉ S := by
  rw [← h.bit_iff, Bool.not_eq_true]

theorem isClaimed_iff (h : reg.Represents count S) (pin : Pin) :
    reg.isClaimed pin = true ↔ pin.number.toNat ∈ S := by
  rw [isClaimed, isSet_eq_bit, Bool.and_eq_true, contains_iff, h.bit_iff, h.pinCount_eq]
  exact and_iff_right_of_imp (h.below _)

theorem claimedCount_eq (h : reg.Represents count S) : reg.claimedCount = S.card := by
  rw [← Finset.length_toList]
  exact claimedCount_eq_length S.nodup_toList fun n => by rw [h.bit_iff, Finset.mem_toList]

theorem claimable_iff (h : reg.Represents count S) :
    reg.Claimable pins ↔ Pin.Proper count pins ∧ ∀ n ∈ Pin.numbers pins, n ∉ S := by
  rw [← h.pinCount_eq, proper_iff, faultIn?_eq_none_iff]
  constructor
  · rintro ⟨hcontains, hnodup, hfree⟩
    exact ⟨⟨hcontains, hnodup, fun _ _ => List.not_mem_nil⟩,
      fun n hn => (h.bit_eq_false_iff n).mp (hfree n hn)⟩
  · rintro ⟨⟨hcontains, hnodup, -⟩, hfree⟩
    exact ⟨hcontains, hnodup, fun n hn => (h.bit_eq_false_iff n).mpr (hfree n hn)⟩

theorem claimed (h : reg.Represents count S) (hproper : Pin.Proper count pins) :
    (pins.foldl setBit reg).Represents count (S ∪ (Pin.numbers pins).toFinset) where
  pinCount_eq := (pinCount_claim reg pins).trans h.pinCount_eq
  bit_iff n := by
    have hcontains : ∀ pin ∈ pins, reg.contains pin = true := fun pin hmem => by
      rw [contains_iff, h.pinCount_eq]
      exact hproper.below _ (Pin.mem_numbers_of_mem hmem)
    rw [bit_claim hcontains, Bool.or_eq_true, decide_eq_true_eq, h.bit_iff, Finset.mem_union,
      List.mem_toFinset, or_comm]
  below n hn := by
    rw [Finset.mem_union, List.mem_toFinset] at hn
    exact hn.elim (h.below n) (hproper.below n)

theorem released (h : reg.Represents count S) (pin : Pin) :
    (reg.release pin).Represents count (S.erase pin.number.toNat) where
  pinCount_eq := (pinCount_release reg pin).trans h.pinCount_eq
  bit_iff n := by
    rw [bit_release, h.pinCount_eq, Bool.and_eq_true, h.bit_iff, Finset.mem_erase]
    have hbelow := h.below n
    simp only [Bool.not_eq_true', Bool.and_eq_false_iff, decide_eq_false_iff_not]
    tauto
  below n hn := h.below n (Finset.mem_of_mem_erase hn)

theorem releasedAll (h : reg.Represents count S) (pins : List Pin) :
    (reg.releaseAll pins).Represents count (S \ (Pin.numbers pins).toFinset) where
  pinCount_eq := (pinCount_releaseAll reg pins).trans h.pinCount_eq
  bit_iff n := by
    rw [bit_releaseAll, h.pinCount_eq, Bool.and_eq_true, h.bit_iff, Finset.mem_sdiff, List.mem_toFinset]
    have hbelow := h.below n
    simp only [Bool.not_eq_true', Bool.and_eq_false_iff, decide_eq_false_iff_not]
    tauto
  below n hn := h.below n (Finset.mem_sdiff.mp hn).1

theorem find?_isSet (h : reg.Represents count S) {busy : Pin} : pins.find? reg.isSet = some busy ↔
    ∃ before after, pins = before ++ busy :: after ∧ (∀ n ∈ Pin.numbers before, n ∉ S) ∧
      busy.number.toNat ∈ S := by
  have hset (pin : Pin) : reg.isSet pin = true ↔ pin.number.toNat ∈ S := by
    rw [isSet_eq_bit, h.bit_iff]
  rw [List.find?_eq_some_iff_append, hset]
  constructor
  · rintro ⟨hheld, before, after, hpins, hbefore⟩
    refine ⟨before, after, hpins, fun n hn => ?_, hheld⟩
    obtain ⟨pin, hmem, rfl⟩ := Pin.mem_numbers.mp hn
    rw [← hset]
    simpa using hbefore pin hmem
  · rintro ⟨before, after, hpins, hbefore, hheld⟩
    refine ⟨hheld, before, after, hpins, fun pin hmem => ?_⟩
    have hfree := hbefore _ (Pin.mem_numbers_of_mem hmem)
    rw [← hset] at hfree
    simpa using hfree

theorem faultIn?_before (h : reg.Represents count S) {before : List Pin} (hbefore : Pin.Proper count before)
    (rest : List Pin) : reg.faultIn? [] (before ++ rest) = reg.faultIn? before.reverse rest := by
  rw [← h.pinCount_eq, proper_iff] at hbefore
  rw [faultIn?_append, hbefore, Option.none_or, List.append_nil]

/-- What a claim on a set comes to is what it comes to on the registry. -/
theorem claimAll_eq (h : reg.Represents count S) (hclaim : Claims count S pins result S') :
    (∃ reg', reg.claimAll pins = .ok reg' ∧ result = .ok () ∧ reg'.Represents count S') ∨
      ∃ e, reg.claimAll pins = .error e ∧ result = .error e ∧ S' = S := by
  have hcount := h.pinCount_eq
  cases hclaim with
  | taken hproper hfree =>
    exact .inl ⟨_, claimAll_eq_ok.mpr ⟨h.claimable_iff.mpr ⟨hproper, hfree⟩, rfl⟩, rfl, h.claimed hproper⟩
  | unknown hpins hbefore hout =>
    have hfault := h.faultIn?_before hbefore
    refine .inr ⟨_, ?_, rfl, rfl⟩
    rw [claimAll, hpins, hfault, faultIn?_of_unknown (by omega)]
  | @repeated before after pin hpins hbefore hseen =>
    have hfault := h.faultIn?_before hbefore
    have hlt := hbefore.below _ hseen
    have hseen' : pin.number.toNat ∈ Pin.numbers before.reverse := by
      rwa [Pin.numbers, List.map_reverse, List.mem_reverse]
    refine .inr ⟨_, ?_, rfl, rfl⟩
    rw [claimAll, hpins, hfault, faultIn?_of_repeated (by omega) hseen']
  | held hproper hpins hbefore hheld =>
    rw [← hcount, proper_iff] at hproper
    refine .inr ⟨_, ?_, rfl, rfl⟩
    rw [claimAll, hproper, h.find?_isSet.mpr ⟨_, _, hpins, hbefore, hheld⟩]

/-- And a claim on the registry that fails, fails on the set. -/
theorem claims_of_error {e : Error} (h : reg.Represents count S) (herror : reg.claimAll pins = .error e) :
    Claims count S pins (.error e) S := by
  rw [claimAll] at herror
  cases hfault : reg.faultIn? [] pins with
  | some fault =>
    rw [hfault] at herror
    obtain ⟨before, pin, after, hpins, hbefore, hpin⟩ := exists_fault hfault
    rw [← proper_iff, h.pinCount_eq] at hbefore
    have hsame : Pin.numbers (before.reverse ++ []) = (Pin.numbers before).reverse := by
      rw [List.append_nil, Pin.numbers, List.map_reverse, Pin.numbers]
    by_cases hout : reg.pinCount ≤ pin.number.toNat
    · rw [faultIn?_of_unknown hout] at hpin
      cases hpin
      cases herror
      exact .unknown hpins hbefore (h.pinCount_eq ▸ hout)
    · by_cases hseen : pin.number.toNat ∈ Pin.numbers before
      · rw [faultIn?_of_repeated (by omega) (by rwa [hsame, List.mem_reverse])] at hpin
        cases hpin
        cases herror
        exact .repeated hpins hbefore hseen
      · rw [faultIn?_of_fresh (by omega) (by rwa [hsame, List.mem_reverse])] at hpin
        cases hpin
  | none =>
    rw [hfault] at herror
    cases hbusy : pins.find? reg.isSet with
    | none =>
      rw [hbusy] at herror
      cases herror
    | some busy =>
      rw [hbusy] at herror
      cases herror
      obtain ⟨before, after, hpins, hbefore, hheld⟩ := h.find?_isSet.mp hbusy
      rw [← proper_iff, h.pinCount_eq] at hfault
      exact .held hfault hpins hbefore hheld

end Represents

/-- Checking a pin answers what claiming it would. -/
theorem checkFree_eq (reg : PinRegistry) (pin : Pin) :
    reg.checkFree pin = (reg.claimAll [pin]).map fun _ => () := by
  rw [checkFree, claimAll, faultIn?, isClaimed]
  cases reg.contains pin with
  | false => rfl
  | true =>
    rw [List.find?_singleton]
    cases reg.isSet pin <;> rfl

end PinRegistry

/-! ## Steps and runs -/

namespace World

variable {σ : Type} {w : World σ} {count : ℕ} {S S' : Finset ℕ} {pins : List Pin}

theorem claimAll_of_ok {reg : PinRegistry} (h : w.pins.claimAll pins = .ok reg) :
    claimAll pins w = (.ok (), { w with pins := reg }) := by
  rw [claimAll, h]

theorem claimAll_of_error {e : Error} (h : w.pins.claimAll pins = .error e) :
    (claimAll pins w).1 = .error e ∧ (claimAll pins w).2.pins = w.pins := by
  rw [claimAll, h]
  exact ⟨rfl, rfl⟩

theorem claims_iff (h : w.pins.Represents count S) {result : Except Error Unit} :
    Claims count S pins result S' ↔
      (claimAll pins w).1 = result ∧ (claimAll pins w).2.pins.Represents count S' := by
  constructor
  · intro hclaim
    rcases h.claimAll_eq hclaim with ⟨reg, hreg, rfl, hrep⟩ | ⟨e, hreg, rfl, rfl⟩
    · rw [claimAll_of_ok hreg]
      exact ⟨rfl, hrep⟩
    · obtain ⟨hresult, hkept⟩ := claimAll_of_error hreg
      rw [hkept]
      exact ⟨hresult, h⟩
  · rintro ⟨rfl, hrep⟩
    cases hreg : w.pins.claimAll pins with
    | error e =>
      obtain ⟨hresult, hkept⟩ := claimAll_of_error hreg
      rw [hkept] at hrep
      rw [hresult, hrep.unique h]
      exact h.claims_of_error hreg
    | ok reg =>
      obtain ⟨hclaimable, rfl⟩ := PinRegistry.claimAll_eq_ok.mp hreg
      obtain ⟨hproper, hfree⟩ := h.claimable_iff.mp hclaimable
      rw [claimAll_of_ok hreg] at hrep ⊢
      rw [hrep.unique (h.claimed hproper)]
      exact .taken hproper hfree

theorem exists_represents_claimAll (h : w.pins.Represents count S) (pins : List Pin) :
    ∃ S', (claimAll pins w).2.pins.Represents count S' := by
  cases hreg : w.pins.claimAll pins with
  | error e => exact ⟨S, (claimAll_of_error hreg).2 ▸ h⟩
  | ok reg =>
    obtain ⟨hclaimable, rfl⟩ := PinRegistry.claimAll_eq_ok.mp hreg
    rw [claimAll_of_ok hreg]
    exact ⟨_, h.claimed (h.claimable_iff.mp hclaimable).1⟩

theorem exists_represents_step (h : w.pins.Represents count S) (step : PinStep) :
    ∃ S', (pinStep step w).2.pins.Represents count S' := by
  cases step with
  | claim pin => exact exists_represents_claimAll h [pin]
  | claimAll pins => exact exists_represents_claimAll h pins
  | release pin => exact ⟨_, h.released pin⟩
  | releaseAll pins => exact ⟨_, h.releasedAll pins⟩
  | isClaimed pin => exact ⟨S, h⟩
  | checkFree pin => exact ⟨S, h⟩

theorem checkFree_result (w : World σ) (pin : Pin) : w.pins.checkFree pin = (claimAll [pin] w).1 := by
  rw [PinRegistry.checkFree_eq, claimAll]
  cases w.pins.claimAll [pin] <;> rfl

/-- A step on the registry is the step on the set: same answer, and the set after it. -/
theorem setStep_iff (h : w.pins.Represents count S) {step : PinStep} {answer : PinAnswer} :
    SetStep count S step answer S' ↔
      (pinStep step w).1 = answer ∧ (pinStep step w).2.pins.Represents count S' := by
  constructor
  · intro hstep
    cases hstep with
    | claim hclaim =>
      obtain ⟨hresult, hrep⟩ := (claims_iff h).mp hclaim
      exact ⟨congrArg PinAnswer.done hresult, hrep⟩
    | claimAll hclaim =>
      obtain ⟨hresult, hrep⟩ := (claims_iff h).mp hclaim
      exact ⟨congrArg PinAnswer.done hresult, hrep⟩
    | release => exact ⟨rfl, h.released _⟩
    | releaseAll => exact ⟨rfl, h.releasedAll _⟩
    | isClaimed =>
      refine ⟨congrArg PinAnswer.claimed ?_, h⟩
      rw [Bool.eq_iff_iff, decide_eq_true_iff]
      exact h.isClaimed_iff _
    | checkFree hclaim =>
      refine ⟨congrArg PinAnswer.done ?_, h⟩
      rw [← ((claims_iff h).mp hclaim).1]
      exact checkFree_result w _
  · rintro ⟨rfl, hrep⟩
    cases step with
    | claim pin => exact .claim ((claims_iff h).mpr ⟨rfl, hrep⟩)
    | claimAll pins => exact .claimAll ((claims_iff h).mpr ⟨rfl, hrep⟩)
    | release pin =>
      rw [hrep.unique (h.released pin)]
      exact .release
    | releaseAll pins =>
      rw [hrep.unique (h.releasedAll pins)]
      exact .releaseAll
    | isClaimed pin =>
      have hanswer : w.pins.isClaimed pin = decide (pin.number.toNat ∈ S) := by
        rw [Bool.eq_iff_iff, decide_eq_true_iff]
        exact h.isClaimed_iff pin
      rw [hrep.unique h]
      show SetStep count S (.isClaimed pin) (.claimed (w.pins.isClaimed pin)) S
      rw [hanswer]
      exact .isClaimed
    | checkFree pin =>
      obtain ⟨S₁, hrep₁⟩ := exists_represents_claimAll h [pin]
      rw [hrep.unique h]
      show SetStep count S (.checkFree pin) (.done (w.pins.checkFree pin)) S
      rw [checkFree_result]
      exact .checkFree ((claims_iff h).mpr ⟨rfl, hrep₁⟩)

theorem pinSteps_cons (step : PinStep) (steps : List PinStep) (w : World σ) :
    pinSteps (step :: steps) w =
      (((pinStep step w).1, (pinStep step w).2.pins.claimedCount) ::
        (pinSteps steps (pinStep step w).2).1, (pinSteps steps (pinStep step w).2).2) := rfl

theorem exists_represents_steps (h : w.pins.Represents count S) (steps : List PinStep) :
    ∃ S', (pinSteps steps w).2.pins.Represents count S' := by
  induction steps generalizing w S with
  | nil => exact ⟨S, h⟩
  | cons step steps ih =>
    obtain ⟨S₁, hrep⟩ := exists_represents_step h step
    exact ih hrep

theorem setRun_iff (h : w.pins.Represents count S) {steps : List PinStep}
    {reports : List (PinAnswer × ℕ)} : SetRun count S steps reports S' ↔
      (pinSteps steps w).1 = reports ∧ (pinSteps steps w).2.pins.Represents count S' := by
  induction steps generalizing w S reports with
  | nil =>
    constructor
    · rintro ⟨⟩
      exact ⟨rfl, h⟩
    · rintro ⟨rfl, hrep⟩
      rw [h.unique hrep]
      exact .nil
  | cons step steps ih =>
    rw [pinSteps_cons]
    constructor
    · rintro (_ | ⟨hstep, hrest⟩)
      obtain ⟨rfl, hrep⟩ := (setStep_iff h).mp hstep
      obtain ⟨rfl, hend⟩ := (ih hrep).mp hrest
      exact ⟨by rw [hrep.claimedCount_eq], hend⟩
    · rintro ⟨rfl, hend⟩
      obtain ⟨S₁, hrep⟩ := exists_represents_step h step
      rw [hrep.claimedCount_eq]
      exact .cons ((setStep_iff h).mpr ⟨rfl, hrep⟩) ((ih hrep).mpr ⟨rfl, hend⟩)

theorem claimAll_ok_iff (h : w.pins.Represents count S) : (claimAll pins w).1 = .ok () ↔
    Pin.Proper count pins ∧ ∀ n ∈ Pin.numbers pins, n ∉ S := by
  rw [← h.claimable_iff]
  cases hreg : w.pins.claimAll pins with
  | error e =>
    rw [(claimAll_of_error hreg).1]
    refine ⟨fun herror => (by cases herror), fun hclaimable => ?_⟩
    rw [PinRegistry.claimAll_eq_ok.mpr ⟨hclaimable, rfl⟩] at hreg
    cases hreg
  | ok reg =>
    rw [claimAll_of_ok hreg]
    exact ⟨fun _ => (PinRegistry.claimAll_eq_ok.mp hreg).1, fun _ => rfl⟩

theorem releaseAll_of_claimed (h : (pinStep (.claimAll pins) w).1 = .done (.ok ())) :
    (pinStep (.releaseAll pins) (pinStep (.claimAll pins) w).2).2.pins = w.pins := by
  have hresult : (claimAll pins w).1 = .ok () := PinAnswer.done.inj h
  cases hreg : w.pins.claimAll pins with
  | error e =>
    rw [(claimAll_of_error hreg).1] at hresult
    cases hresult
  | ok reg =>
    show (claimAll pins w).2.pins.releaseAll pins = w.pins
    rw [claimAll_of_ok hreg]
    exact PinRegistry.releaseAll_claimAll hreg

end World

/-- A run of steps on a registry of `count` pins and where it ends. -/
structure Refined {σ : Type} (count : ℕ) (steps : List PinStep) (reports : List (PinAnswer × ℕ))
    (w : World σ) (S : Finset ℕ) : Prop where
  /-- It is the only run of these steps on sets of numbers. -/
  run_iff : ∀ reports' S', SetRun count ∅ steps reports' S' ↔ reports' = reports ∧ S' = S
  represents : w.pins.Represents count S
  isClaimed_iff : ∀ pin, w.pins.isClaimed pin = true ↔ pin.number.toNat ∈ S
  claimedCount_eq : w.pins.claimedCount = S.card
  claimed_iff : ∀ pins, (World.pinStep (.claimAll pins) w).1 = .done (.ok ()) ↔
    Pin.Proper count pins ∧ ∀ n ∈ Pin.numbers pins, n ∉ S
  /-- Giving back what could be claimed restores the registry bit by bit. -/
  restored : ∀ pins, (World.pinStep (.claimAll pins) w).1 = .done (.ok ()) →
    (World.pinStep (.releaseAll pins) (World.pinStep (.claimAll pins) w).2).2.pins = w.pins

/-- Every run of steps on an empty registry is the run on the empty set: the same answers, the same number
of claimed pins after every step, and at its end the bits of the same set. -/
theorem pinSteps_refine_set {σ : Type} (b : Bench σ) (count : ℕ) (steps : List PinStep) :
    ∃ S, Refined count steps (World.pinSteps steps ⟨.create count, b⟩).1
      (World.pinSteps steps ⟨.create count, b⟩).2 S := by
  have hstart : (World.mk (.create count) b).pins.Represents count ∅ :=
    PinRegistry.represents_create count
  obtain ⟨S, hend⟩ := World.exists_represents_steps hstart steps
  refine ⟨S, fun reports' S' => ?_, hend, hend.isClaimed_iff, hend.claimedCount_eq, fun pins => ?_,
    fun pins hclaimed => World.releaseAll_of_claimed hclaimed⟩
  · rw [World.setRun_iff hstart]
    constructor
    · rintro ⟨rfl, hrep⟩
      exact ⟨rfl, hrep.unique hend⟩
    · rintro ⟨rfl, rfl⟩
      exact ⟨rfl, hend⟩
  · rw [← World.claimAll_ok_iff hend]
    exact ⟨PinAnswer.done.inj, congrArg PinAnswer.done⟩

/-- A pin that is wanted twice counts before one that is held, and a pin outside before one that is wanted
twice later. -/
example : (World.pinSteps [.claim ⟨3, "A"⟩, .claimAll [⟨3, "B"⟩, ⟨70, ""⟩, ⟨3, "C"⟩],
      .claimAll [⟨70, ""⟩, ⟨99, ""⟩, ⟨70, ""⟩], .claimAll [⟨70, ""⟩, ⟨3, "B"⟩], .releaseAll [⟨3, ""⟩, ⟨99, ""⟩]]
      (⟨.create 71, ⟨{}, {}, ()⟩⟩ : World Unit)).1 =
    [(.done (.ok ()), 1), (.done (.error (.config (.duplicatePin ⟨3, "C"⟩))), 1),
      (.done (.error (.config (.invalidPin ⟨99, ""⟩))), 1),
      (.done (.error (.config (.pinInUse ⟨3, "B"⟩))), 1), (.done (.ok ()), 0)] := by
  decide +kernel

end SerialLine
