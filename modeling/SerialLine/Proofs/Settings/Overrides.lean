import Mathlib.Data.List.Basic
import SerialLine.Config.Overrides
/-! # What arguments override

* `Arguments.Last`, `Arguments.Lacks`: the value that counts for a key, or none. `get?_filter`: arguments with
  other keys play no part.
* `Slot`: a field that arguments may name, and what is wrong with a value of it. `slots`: all of them, in the
  order in which they are read.
* `override_eq`: the first fault, or else the values that are given. One step per field.
* `override_replaces`: what becomes of every field, and which fault is reported.
-/
set_option autoImplicit false

namespace SerialLine

/-! ## Arguments with a key -/

namespace Arguments

variable {args : Arguments} {key value : String}

/-- No argument has the key. -/
def Lacks (args : Arguments) (key : String) : Prop := ∀ arg ∈ args.entries, arg.key ≠ key

/-- The last argument with the key has the value. -/
def Last (args : Arguments) (key value : String) : Prop :=
  ∃ before after, args.entries = before ++ ⟨key, value⟩ :: after ∧ ∀ arg ∈ after, arg.key ≠ key

theorem get?_eq_none_iff : args.get? key = none ↔ args.Lacks key := by
  rw [get?, Option.map_eq_none_iff, List.find?_eq_none]
  simp only [List.mem_reverse, decide_eq_true_eq]
  rfl

theorem get?_eq_some_iff : args.get? key = some value ↔ args.Last key value := by
  rw [get?, Option.map_eq_some_iff]
  constructor
  · rintro ⟨⟨key', value'⟩, hfind, rfl⟩
    obtain ⟨hkey, before, after, hentries, hbefore⟩ := List.find?_eq_some_iff_append.mp hfind
    obtain rfl : key' = key := of_decide_eq_true hkey
    refine ⟨after.reverse, before.reverse, ?_, fun arg harg => ?_⟩
    · rw [← List.reverse_reverse args.entries, hentries, List.reverse_append, List.reverse_cons,
        List.append_assoc]
      rfl
    · have hother := hbefore arg (List.mem_reverse.mp harg)
      simpa using hother
  · rintro ⟨before, after, hentries, hafter⟩
    refine ⟨⟨key, value⟩, List.find?_eq_some_iff_append.mpr
      ⟨decide_eq_true rfl, after.reverse, before.reverse, ?_, fun arg harg => ?_⟩, rfl⟩
    · rw [hentries, List.reverse_append, List.reverse_cons, List.append_assoc]
      rfl
    · have hother := hafter arg (List.mem_reverse.mp harg)
      simpa using hother

/-- Arguments with other keys play no part. -/
theorem get?_filter {keys : List String} (hkey : key ∈ keys) :
    Arguments.get? ⟨args.entries.filter (·.key ∈ keys)⟩ key = args.get? key := by
  rw [get?, get?, ← List.filter_reverse, List.find?_filter]
  congr 2
  funext arg
  by_cases hsame : arg.key = key
  · simp [hsame, hkey]
  · simp [hsame]

theorem toList_key (scope field : String) :
    (Config.key scope field).toList = scope.toList ++ '.' :: field.toList := by
  show (scope ++ "." ++ field).toList = _
  rw [String.toList_append, String.toList_append, List.append_assoc]
  rfl

/-- The part of a key after its last point is the field that it was made of. -/
theorem lastField_key {field : String} (hfield : '.' ∉ field.toList) (scope : String) :
    lastField (Config.key scope field) = field := by
  have hdistinct : ∀ c ∈ field.toList.reverse, decide (c ≠ '.') = true := by
    intro c hc
    rw [decide_eq_true_iff]
    rintro rfl
    exact hfield (List.mem_reverse.mp hc)
  rw [lastField, toList_key, List.reverse_append, List.reverse_cons, List.append_assoc,
    List.takeWhile_append_of_pos hdistinct, List.singleton_append,
    List.takeWhile_cons_of_neg (by simp), List.append_nil, List.reverse_reverse, String.ofList_toList]

theorem invalid_key {field : String} (hfield : field ∈ knownFields) (scope : String) :
    invalid (Config.key scope field) = .config (.invalidValue field) := by
  have hplain : ∀ field ∈ knownFields, '.' ∉ field.toList := by decide
  rw [invalid, fieldName, lastField_key (hplain field hfield), if_pos (List.contains_iff_mem.mpr hfield)]

end Arguments

namespace Config

variable {α β : Type} {c : Config} {args : Arguments} {scope field : String}

/-! ## Fields and their values -/

def number? (text : String) : Option UInt32 := Numeral.read? text.toList

def byte? (text : String) : Option UInt8 :=
  (number? text).bind fun n => if n.toNat < 256 then some n.toUInt8 else none

def pin? (text : String) : Option (Option Pin) :=
  (number? text).bind fun n => if n.toNat < 65536 then some (some ⟨n.toUInt16, ""⟩) else none

def truth? (text : String) : Option Bool := some !(["0", "false", "off"].contains text)

/-- A field that an argument may name, and the fault of a value that cannot be read. -/
structure Slot where
  field : String
  fault? : String → Option Error

/-- A field whose values are read in one way and have one fault. -/
def slot (field : String) (read? : String → Option α) (fault : Error) : Slot where
  field := field
  fault? text := if (read? text).isNone then some fault else none

/-- A pin has another fault if its number is too large. -/
def pinSlot (field : String) : Slot where
  field := field
  fault? text :=
    match number? text with
    | none => some (.config (.invalidValue field))
    | some n => if n.toNat < 65536 then none else some (.config (.invalidValue "pin"))

def numberSlot (field : String) : Slot := slot field number? (.config (.invalidValue field))

def byteSlot (field : String) : Slot := slot field byte? (.config (.invalidValue field))

def timeoutSlot : Slot := slot "timeout" Binary32.ofText? (.config (.invalidValue "timeout"))

/-- No value of it is wrong. -/
def invertSlot : Slot := slot "rs485_invert" truth? (.config (.invalidValue "rs485_invert"))

def paritySlot : Slot := slot "parity" Parity.ofName? (.config .invalidParity)

/-- The fields in the order in which they are read. -/
def slots : List Slot :=
  [numberSlot "baudrate", byteSlot "bits", byteSlot "stop", timeoutSlot, numberSlot "rxbuf", invertSlot,
    paritySlot, pinSlot "tx", pinSlot "rx", pinSlot "rts", pinSlot "cts", pinSlot "rs485_dir"]

/-- What is wrong with the argument that names a field, if one does. -/
def Slot.faultIn? (s : Slot) (args : Arguments) (scope : String) : Option Error :=
  (args.get? (key scope s.field)).bind s.fault?

/-- The value that arguments give for a key, or the present one. -/
def given (args : Arguments) (key : String) (read? : String → Option α) (present : α) : α :=
  ((args.get? key).bind read?).getD present

/-- The configuration with the values that arguments give. The capacity of the receive buffer loses what
does not fit in 32 bits, even if no argument names it. -/
def overridden (c : Config) (args : Arguments) (scope : String) : Config where
  baudrate := given args (key scope "baudrate") number? c.baudrate
  bits := given args (key scope "bits") byte? c.bits
  stop := given args (key scope "stop") byte? c.stop
  timeout := given args (key scope "timeout") Binary32.ofText? c.timeout
  receiveCapacity := given args (key scope "rxbuf") (fun text => (number? text).map UInt32.toNat)
    (c.receiveCapacity % UInt32.size)
  directionInverted := given args (key scope "rs485_invert") truth? c.directionInverted
  parity := given args (key scope "parity") Parity.ofName? c.parity
  tx := given args (key scope "tx") pin? c.tx
  rx := given args (key scope "rx") pin? c.rx
  rts := given args (key scope "rts") pin? c.rts
  cts := given args (key scope "cts") pin? c.cts
  direction := given args (key scope "rs485_dir") pin? c.direction

/-! ## One field after the other -/

/-- A value, unless there is a fault. -/
def settle (fault : Option Error) (a : α) : Except Error α :=
  match fault with
  | some e => .error e
  | none => .ok a

theorem settle_bind {act : Except Error α} {fault rest : Option Error} {a : α} {b : β}
    {f : α → Except Error β} (hact : act = settle fault a) (h : f a = settle rest b) :
    (act >>= f) = settle (fault.or rest) b := by
  rw [hact]
  cases fault with
  | some e => rfl
  | none => exact h

/-- How a field is read: what happens without an argument and with one. -/
theorem eq_settle (s : Slot) (read? : String → Option α) {present : α} {act : Except Error α}
    (habsent : args.get? (key scope s.field) = none → act = .ok present)
    (hgiven : ∀ text, args.get? (key scope s.field) = some text →
      act = settle (s.fault? text) ((read? text).getD present)) :
    act = settle (s.faultIn? args scope) (given args (key scope s.field) read? present) := by
  rw [Slot.faultIn?, given]
  cases hget : args.get? (key scope s.field) with
  | none => exact habsent hget
  | some text => exact hgiven text hget

theorem getUInt32_settle (hfield : field ∈ Arguments.knownFields) (present : UInt32) :
    args.getUInt32 (key scope field) present =
      settle ((numberSlot field).faultIn? args scope)
        (given args (key scope field) number? present) := by
  refine eq_settle (numberSlot field) number? (fun hget => ?_) fun text hget => ?_
  · rw [Arguments.getUInt32, show args.get? (key scope field) = none from hget]
  · rw [Arguments.getUInt32, show args.get? (key scope field) = some text from hget,
      Arguments.invalid_key hfield]
    cases hread : Numeral.read? text.toList <;> simp only [numberSlot, slot, number?, hread] <;> rfl

theorem getBinary32_settle (present : Binary32) :
    args.getBinary32 (key scope "timeout") present =
      settle (timeoutSlot.faultIn? args scope)
        (given args (key scope "timeout") Binary32.ofText? present) := by
  refine eq_settle timeoutSlot Binary32.ofText? (fun hget => ?_) fun text hget => ?_
  · rw [Arguments.getBinary32, show args.get? (key scope "timeout") = none from hget]
  · rw [Arguments.getBinary32, show args.get? (key scope "timeout") = some text from hget,
      Arguments.invalid_key (by decide)]
    simp only [timeoutSlot, slot]
    cases Binary32.ofText? text <;> rfl

theorem parityOf_settle (present : Parity) :
    parityOf args (key scope "parity") present =
      settle (paritySlot.faultIn? args scope)
        (given args (key scope "parity") Parity.ofName? present) := by
  refine eq_settle paritySlot Parity.ofName? (fun hget => ?_) fun text hget => ?_
  · rw [parityOf, show args.get? (key scope "parity") = none from hget]
  · rw [parityOf, show args.get? (key scope "parity") = some text from hget]
    simp only [paritySlot, slot]
    cases Parity.ofName? text <;> rfl

theorem getBool_given (present : Bool) : invertSlot.faultIn? args scope = none ∧
      args.getBool (key scope "rs485_invert") present =
        given args (key scope "rs485_invert") truth? present := by
  rw [Slot.faultIn?, Arguments.getBool, given]
  show (args.get? (key scope "rs485_invert")).bind _ = none ∧ _
  cases args.get? (key scope "rs485_invert") with
  | none => exact ⟨rfl, rfl⟩
  | some text => exact ⟨rfl, rfl⟩

/-- A number that is given has to fit in a byte, and the present one does. -/
theorem byte_settle (hfield : field ∈ Arguments.knownFields) (present : UInt8) :
    (args.getUInt32 (key scope field) present.toUInt32 >>= fun n => toByte n field) =
      settle ((byteSlot field).faultIn? args scope) (given args (key scope field) byte? present) := by
  refine eq_settle (byteSlot field) byte? (fun hget => ?_) fun text hget => ?_
  · have hfits : present.toUInt32.toNat < 256 := by
      rw [UInt8.toNat_toUInt32]
      exact present.toNat_lt
    rw [Arguments.getUInt32, show args.get? (key scope field) = none from hget]
    show toByte present.toUInt32 field = _
    rw [toByte, if_pos hfits, UInt8.toUInt8_toUInt32]
  · rw [Arguments.getUInt32, show args.get? (key scope field) = some text from hget,
      Arguments.invalid_key hfield]
    cases hread : Numeral.read? text.toList with
    | none =>
      simp only [byteSlot, slot, byte?, number?, hread]
      rfl
    | some n =>
      simp only [byteSlot, slot, byte?, number?, hread, Option.bind_some]
      show toByte n field = _
      rw [toByte]
      by_cases hfits : n.toNat < 256
      · rw [if_pos hfits, if_pos hfits]
        rfl
      · rw [if_neg hfits, if_neg hfits]
        rfl

theorem pinOf_settle (hfield : field ∈ Arguments.knownFields) (present : Option Pin) :
    pinOf args (key scope field) present =
      settle ((pinSlot field).faultIn? args scope) (given args (key scope field) pin? present) := by
  refine eq_settle (pinSlot field) pin? (fun hget => ?_) fun text hget => ?_
  · rw [pinOf, show args.get? (key scope field) = none from hget]
    rfl
  · rw [pinOf, Arguments.getUInt32, show args.get? (key scope field) = some text from hget,
      Arguments.invalid_key hfield]
    rw [if_neg (by simp)]
    cases hread : Numeral.read? text.toList with
    | none =>
      simp only [pinSlot, pin?, number?, hread]
      rfl
    | some n =>
      simp only [pinSlot, pin?, number?, hread, Option.bind_some]
      show (if n.toNat < 65536 then _ else _) = _
      split_ifs <;> rfl

theorem capacity_given (capacity : Nat) :
    (given args (key scope "rxbuf") number? (UInt32.ofNat capacity)).toNat =
      given args (key scope "rxbuf") (fun text => (number? text).map UInt32.toNat)
        (capacity % UInt32.size) := by
  rw [given, given]
  cases args.get? (key scope "rxbuf") with
  | none => rfl
  | some text =>
    rw [Option.bind_some, Option.bind_some]
    cases number? text <;> rfl

theorem findSome?_cons {f : Slot → Option Error} (s : Slot) (rest : List Slot) :
    (s :: rest).findSome? f = (f s).or (rest.findSome? f) := by
  rw [List.findSome?_cons]
  cases f s <;> rfl

/-- The first fault in the order of the fields is reported. Without any, every field has the value that is
given for it. -/
theorem override_eq (c : Config) (args : Arguments) (scope : String) : c.override args scope =
    settle (slots.findSome? fun s => s.faultIn? args scope) (c.overridden args scope) := by
  have hbyte {field : String} (hfield : field ∈ Arguments.knownFields) (present : UInt8)
      {β : Type} {f : UInt8 → Except Error β} :
      (args.getUInt32 (key scope field) present.toUInt32 >>= fun n => toByte n field >>= f) =
        ((args.getUInt32 (key scope field) present.toUInt32 >>= fun n => toByte n field) >>= f) :=
    (bind_assoc _ _ _).symm
  rw [override]
  simp only [slots, findSome?_cons, List.findSome?_nil]
  refine settle_bind (getUInt32_settle (by decide) _) ?_
  rw [hbyte (by decide)]
  refine settle_bind (byte_settle (by decide) _) ?_
  rw [hbyte (by decide)]
  refine settle_bind (byte_settle (by decide) _) ?_
  refine settle_bind (getBinary32_settle _) ?_
  refine settle_bind (getUInt32_settle (by decide) _) ?_
  rw [(getBool_given c.directionInverted).1, (getBool_given c.directionInverted).2, Option.none_or]
  refine settle_bind (parityOf_settle _) ?_
  refine settle_bind (pinOf_settle (by decide) _) ?_
  refine settle_bind (pinOf_settle (by decide) _) ?_
  refine settle_bind (pinOf_settle (by decide) _) ?_
  refine settle_bind (pinOf_settle (by decide) _) ?_
  refine settle_bind (pinOf_settle (by decide) _) ?_
  rw [overridden, ← capacity_given]
  rfl

/-! ## What is overridden -/

/-- The value of a field afterwards: read off the last argument with its key, or what it was. -/
inductive Given (args : Arguments) (key : String) (read? : String → Option α) (present : α) :
    α → Prop where
  | kept (h : args.Lacks key) : Given args key read? present present
  | read {value : String} {a : α} (hlast : args.Last key value) (hread : read? value = some a) :
      Given args key read? present a

/-- A field is named by an argument whose value cannot be read. -/
def Slot.Malformed (s : Slot) (args : Arguments) (scope : String) (e : Error) : Prop :=
  ∃ value, args.Last (key scope s.field) value ∧ s.fault? value = some e

theorem Slot.malformed_iff {s : Slot} {e : Error} :
    s.Malformed args scope e ↔ s.faultIn? args scope = some e := by
  rw [Slot.faultIn?, Option.bind_eq_some_iff]
  exact exists_congr fun value => and_congr_left fun _ => Arguments.get?_eq_some_iff.symm

theorem given_given {s : Slot} {read? : String → Option α} (present : α)
    (hread : ∀ text, s.fault? text = none → (read? text).isSome = true)
    (h : s.faultIn? args scope = none) : Given args (key scope s.field) read? present
      (given args (key scope s.field) read? present) := by
  rw [given]
  rw [Slot.faultIn?] at h
  cases hget : args.get? (key scope s.field) with
  | none => exact .kept (Arguments.get?_eq_none_iff.mp hget)
  | some text =>
    rw [hget, Option.bind_some] at h
    obtain ⟨a, ha⟩ := Option.isSome_iff_exists.mp (hread text h)
    rw [Option.bind_some, ha]
    exact .read (Arguments.get?_eq_some_iff.mp hget) ha

theorem isSome_of_slot {read? : String → Option α} {fault : Error} (text : String)
    (h : (slot field read? fault).fault? text = none) : (read? text).isSome = true := by
  cases hread : read? text with
  | none => simp [slot, hread] at h
  | some a => rfl

theorem isSome_of_pinSlot (text : String) (h : (pinSlot field).fault? text = none) :
    (pin? text).isSome = true := by
  cases hnumber : number? text with
  | none => simp [pinSlot, hnumber] at h
  | some n =>
    by_cases hfits : n.toNat < 65536
    · simp [pin?, hnumber, hfits]
    · simp [pinSlot, hnumber, hfits] at h

/-- Every field has the value that the last argument with its key gives, or keeps its own. The capacity of
the receive buffer keeps what fits in 32 bits. -/
structure Replaced (c : Config) (args : Arguments) (scope : String) (c' : Config) : Prop where
  baudrate : Given args (key scope "baudrate") number? c.baudrate c'.baudrate
  bits : Given args (key scope "bits") byte? c.bits c'.bits
  stop : Given args (key scope "stop") byte? c.stop c'.stop
  timeout : Given args (key scope "timeout") Binary32.ofText? c.timeout c'.timeout
  receiveCapacity : Given args (key scope "rxbuf") (fun text => (number? text).map UInt32.toNat)
    (c.receiveCapacity % UInt32.size) c'.receiveCapacity
  directionInverted : Given args (key scope "rs485_invert") truth? c.directionInverted
    c'.directionInverted
  parity : Given args (key scope "parity") Parity.ofName? c.parity c'.parity
  tx : Given args (key scope "tx") pin? c.tx c'.tx
  rx : Given args (key scope "rx") pin? c.rx c'.rx
  rts : Given args (key scope "rts") pin? c.rts c'.rts
  cts : Given args (key scope "cts") pin? c.cts c'.cts
  direction : Given args (key scope "rs485_dir") pin? c.direction c'.direction

theorem replaced_overridden (c : Config) (h : ∀ s ∈ slots, s.faultIn? args scope = none) :
    Replaced c args scope (c.overridden args scope) := by
  simp only [slots, List.forall_mem_cons] at h
  obtain ⟨hbaudrate, hbits, hstop, htimeout, hrxbuf, hinvert, hparity, htx, hrx, hrts, hcts, hdirection,
    -⟩ := h
  have hcapacity (text : String) (hnone : (numberSlot "rxbuf").fault? text = none) :
      ((number? text).map UInt32.toNat).isSome = true := by
    rw [Option.isSome_map]
    exact isSome_of_slot text hnone
  exact
    { baudrate := given_given _ isSome_of_slot hbaudrate
      bits := given_given _ isSome_of_slot hbits
      stop := given_given _ isSome_of_slot hstop
      timeout := given_given _ isSome_of_slot htimeout
      receiveCapacity := given_given _ hcapacity hrxbuf
      directionInverted := given_given _ isSome_of_slot hinvert
      parity := given_given _ isSome_of_slot hparity
      tx := given_given _ isSome_of_pinSlot htx
      rx := given_given _ isSome_of_pinSlot hrx
      rts := given_given _ isSome_of_pinSlot hrts
      cts := given_given _ isSome_of_pinSlot hcts
      direction := given_given _ isSome_of_pinSlot hdirection }

/-- What is promised of a configuration that arguments are applied to. -/
structure Overrides (c : Config) (args : Arguments) (scope : String) : Prop where
  replaced : ∀ c', c.override args scope = .ok c' → Replaced c args scope c'
  /-- The first field that is named by a value that cannot be read decides the error. -/
  fails_iff : ∀ e, c.override args scope = .error e ↔ ∃ before s after,
    slots = before ++ s :: after ∧ s.Malformed args scope e ∧
      ∀ s' ∈ before, ∀ e', ¬ s'.Malformed args scope e'
  /-- Arguments with other keys play no part. -/
  others : ∀ args' : Arguments,
    (args'.entries.filter fun arg => arg.key ∈ slots.map fun s => key scope s.field) =
      (args.entries.filter fun arg => arg.key ∈ slots.map fun s => key scope s.field) →
    c.override args' scope = c.override args scope

theorem settle_eq_ok_iff {fault : Option Error} {a a' : α} :
    settle fault a = .ok a' ↔ fault = none ∧ a = a' := by
  cases fault <;> simp [settle]

theorem settle_eq_error_iff {fault : Option Error} {a : α} {e : Error} :
    settle fault a = .error e ↔ fault = some e := by
  cases fault <;> simp [settle]

theorem findSome?_congr {f g : Slot → Option Error} (h : ∀ s ∈ slots, f s = g s) :
    slots.findSome? f = slots.findSome? g := by
  have hmapped := congrArg (List.findSome? id) (List.map_congr_left h)
  rwa [List.findSome?_map, List.findSome?_map] at hmapped

/-- Only the arguments that name a field count. -/
theorem override_congr (c : Config) {args' : Arguments}
    (hget : ∀ s ∈ slots, args'.get? (key scope s.field) = args.get? (key scope s.field)) :
    c.override args' scope = c.override args scope := by
  have hfault : (slots.findSome? fun s => s.faultIn? args' scope) =
      slots.findSome? fun s => s.faultIn? args scope :=
    findSome?_congr fun s hs => by rw [Slot.faultIn?, Slot.faultIn?, hget s hs]
  have hgiven {field : String} (hfield : field ∈ slots.map Slot.field) {α : Type}
      (read? : String → Option α) (present : α) :
      given args' (key scope field) read? present = given args (key scope field) read? present := by
    obtain ⟨s, hs, rfl⟩ := List.mem_map.mp hfield
    rw [given, given, hget s hs]
  have hoverridden : c.overridden args' scope = c.overridden args scope := by
    simp (disch := decide) only [overridden, hgiven]
  rw [override_eq, override_eq, hfault, hoverridden]

theorem override_replaces (c : Config) (args : Arguments) (scope : String) :
    Overrides c args scope := by
  refine ⟨fun c' hok => ?_, fun e => ?_, fun args' hsame => ?_⟩
  · rw [override_eq, settle_eq_ok_iff, List.findSome?_eq_none_iff] at hok
    obtain ⟨hnone, rfl⟩ := hok
    exact replaced_overridden c hnone
  · rw [override_eq, settle_eq_error_iff, List.findSome?_eq_some_iff]
    simp only [Slot.malformed_iff, Option.eq_none_iff_forall_ne_some, ne_eq]
  · refine override_congr c fun s hs => ?_
    have hkey : key scope s.field ∈ slots.map fun s => key scope s.field :=
      List.mem_map_of_mem hs
    rw [← Arguments.get?_filter hkey, hsame, Arguments.get?_filter hkey]

/-- No argument is given, and a capacity that does not fit in 32 bits is lost. -/
theorem override_loses_capacity :
    override { receiveCapacity := UInt32.size } {} "uart0" = .ok { receiveCapacity := 0 } := by
  decide +kernel

end Config
end SerialLine
