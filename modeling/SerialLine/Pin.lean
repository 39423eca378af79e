/-!
# Pins

A pin is a number with a name for messages. Two pins are the same pin when their numbers agree,
whatever they are called; every ownership question is asked through `Pin.same`.
-/
set_option autoImplicit false

namespace SerialLine

/-- A hardware pin: the number identifies it, the name (possibly empty) only appears in messages. -/
structure Pin where
  number : UInt16
  name : String := ""
  deriving DecidableEq, Inhabited

namespace Pin

/-- Whether two descriptors stand for one pin. -/
def same (a b : Pin) : Bool :=
  a.number == b.number

/-- The bytes that identify a pin in a hash: its number, low byte first. -/
def identity (p : Pin) : List UInt8 :=
  [p.number.toUInt8, (p.number >>> 8).toUInt8]

/-- A pin as messages show it: its name, or its number when it has none. -/
def label (p : Pin) : String :=
  if p.name.isEmpty then s!"GPIO{p.number.toNat}" else p.name

/-- A pin as listings show it: the number, then the name if there is one. -/
def describe (p : Pin) : String :=
  if p.name.isEmpty then s!"Pin({p.number.toNat})" else s!"Pin({p.number.toNat} {p.name})"

def describeAll (ps : List Pin) : String :=
  "[" ++ ", ".intercalate (ps.map describe) ++ "]"

@[simp] theorem same_iff (a b : Pin) : a.same b = true ↔ a.number = b.number := by
  simp [same]

theorem same_refl (a : Pin) : a.same a = true := by
  simp

theorem same_symm {a b : Pin} (h : a.same b = true) : b.same a = true := by
  rw [same_iff] at h ⊢
  exact h.symm

end Pin
end SerialLine
