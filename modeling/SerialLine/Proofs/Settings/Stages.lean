import SerialLine.Proofs.Settings.Overrides
/-! # Arguments in two steps

A configuration to which some arguments and then more of them are applied is the one to which all of them
are applied at once.

* `faultIn?_append`, `given_append`: one field. A later argument with its key hides the earlier ones.
* `overridden_append`: all fields. The capacity of the receive buffer loses what does not fit in 32 bits in
  the first step already, and the second step takes nothing more from it.
* `override_append`: complete results, the configuration or the error.
-/
set_option autoImplicit false

namespace SerialLine.Config

variable {α : Type} {c c₁ : Config} {args : Arguments} {scope text : String} {s : Slot}

/-! ## One field -/

theorem faultIn?_append (h : s.faultIn? args scope = none) :
    s.faultIn? (args.append text) scope = s.faultIn? (Arguments.parse text) scope := by
  rw [Slot.faultIn?] at h
  rw [Slot.faultIn?, Slot.faultIn?, Arguments.get?_append]
  cases (Arguments.parse text).get? (key scope s.field) with
  | none => exact h
  | some value => rfl

/-- What the earlier arguments give is what the later ones find and leave, unless they name the field too. -/
theorem given_append (s : Slot) {read? : String → Option α} (present : α)
    (hread : ∀ value, s.fault? value = none → (read? value).isSome = true)
    (h : s.faultIn? (Arguments.parse text) scope = none) :
    given (args.append text) (key scope s.field) read? present =
      given (Arguments.parse text) (key scope s.field) read?
        (given args (key scope s.field) read? present) := by
  rw [Slot.faultIn?] at h
  rw [given, given, Arguments.get?_append]
  cases hget : (Arguments.parse text).get? (key scope s.field) with
  | none => rfl
  | some value =>
    -- the later value can be read, so that what stood there before does not count on either side
    rw [hget, Option.bind_some] at h
    obtain ⟨a, ha⟩ := Option.isSome_iff_exists.mp (hread value h)
    simp only [Option.some_or, Option.bind_some, ha, Option.getD_some]

theorem receiveCapacity_overridden (c : Config) (args : Arguments) (scope : String) :
    (c.overridden args scope).receiveCapacity =
      given args (key scope "rxbuf") (fun value => (number? value).map UInt32.toNat)
        (c.receiveCapacity % UInt32.size) := rfl

theorem receiveCapacity_lt (c : Config) (args : Arguments) (scope : String) :
    (c.overridden args scope).receiveCapacity < UInt32.size := by
  have hpresent : c.receiveCapacity % UInt32.size < UInt32.size := Nat.mod_lt _ (by decide)
  rw [receiveCapacity_overridden, given]
  cases args.get? (key scope "rxbuf") with
  | none => exact hpresent
  | some value =>
    rw [Option.bind_some]
    cases number? value with
    | none => exact hpresent
    | some n => exact n.toNat_lt_size

theorem receiveCapacity_append (c : Config) (args : Arguments)
    (h : (numberSlot "rxbuf").faultIn? (Arguments.parse text) scope = none) :
    (c.overridden (args.append text) scope).receiveCapacity =
      ((c.overridden args scope).overridden (Arguments.parse text) scope).receiveCapacity := by
  have hread (value : String) (hnone : (numberSlot "rxbuf").fault? value = none) :
      ((number? value).map UInt32.toNat).isSome = true := by
    rw [Option.isSome_map]
    exact isSome_of_slot value hnone
  rw [receiveCapacity_overridden, receiveCapacity_overridden _ (Arguments.parse text),
    Nat.mod_eq_of_lt (receiveCapacity_lt c args scope), receiveCapacity_overridden]
  exact given_append (numberSlot "rxbuf") _ hread h

/-! ## All fields -/

theorem overridden_append (c : Config) (args : Arguments)
    (h : ∀ s ∈ slots, s.faultIn? (Arguments.parse text) scope = none) :
    c.overridden (args.append text) scope =
      (c.overridden args scope).overridden (Arguments.parse text) scope := by
  simp only [slots, List.forall_mem_cons] at h
  obtain ⟨hbaudrate, hbits, hstop, htimeout, hrxbuf, hinvert, hparity, htx, hrx, hrts, hcts, hdirection,
    -⟩ := h
  have hcapacity := receiveCapacity_append c args hrxbuf
  simp only [overridden, mk.injEq] at hcapacity ⊢
  exact ⟨given_append (pinSlot "tx") _ isSome_of_pinSlot htx,
    given_append (pinSlot "rx") _ isSome_of_pinSlot hrx,
    given_append (pinSlot "rts") _ isSome_of_pinSlot hrts,
    given_append (pinSlot "cts") _ isSome_of_pinSlot hcts,
    given_append (pinSlot "rs485_dir") _ isSome_of_pinSlot hdirection,
    given_append invertSlot _ isSome_of_slot hinvert,
    given_append (numberSlot "baudrate") _ isSome_of_slot hbaudrate,
    given_append (byteSlot "bits") _ isSome_of_slot hbits,
    given_append paritySlot _ isSome_of_slot hparity,
    given_append (byteSlot "stop") _ isSome_of_slot hstop,
    given_append timeoutSlot _ isSome_of_slot htimeout, hcapacity⟩

/-- Arguments that could be applied and a text of later ones: applied together they come to the same
configuration, or to the same error, as the later ones applied to what the earlier ones made. -/
theorem override_append (h : c.override args scope = .ok c₁) (text : String) :
    c.override (args.append text) scope = c₁.override (Arguments.parse text) scope := by
  rw [override_eq, settle_eq_ok_iff, List.findSome?_eq_none_iff] at h
  obtain ⟨hearlier, rfl⟩ := h
  have hfault : (slots.findSome? fun s => s.faultIn? (args.append text) scope) =
      slots.findSome? fun s => s.faultIn? (Arguments.parse text) scope :=
    findSome?_congr fun s hs => faultIn?_append (hearlier s hs)
  rw [override_eq, override_eq, hfault]
  cases hlater : slots.findSome? fun s => s.faultIn? (Arguments.parse text) scope with
  | some e => rfl
  | none => rw [overridden_append c args (List.findSome?_eq_none_iff.mp hlater)]

/-- A named capacity, a renamed one and a pin, over a capacity that was too large. -/
theorem override_append_renamed :
    override { receiveCapacity := UInt32.size + 5 } (.parse "u.rxbuf=7 u.tx=1") "u" =
        .ok { receiveCapacity := 7, tx := some ⟨1, ""⟩ } ∧
      override { receiveCapacity := UInt32.size + 5 }
          ((Arguments.parse "u.rxbuf=7 u.tx=1").append "u.rxbuf=0x10 u.parity=odd") "u" =
        .ok { receiveCapacity := 16, tx := some ⟨1, ""⟩, parity := .odd } := by
  have hfirst : override { receiveCapacity := UInt32.size + 5 } (.parse "u.rxbuf=7 u.tx=1") "u" =
      .ok { receiveCapacity := 7, tx := some ⟨1, ""⟩ } := by decide +kernel
  refine ⟨hfirst, ?_⟩
  rw [override_append hfirst]
  decide +kernel

end SerialLine.Config
