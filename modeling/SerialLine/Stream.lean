import SerialLine.Act
import SerialLine.Error
/-!
# Byte streams

A stream reads, writes and answers control requests. Its reads and writes move as many bytes as they
can and tell how many; zero bytes read means that the stream has ended, and the error `shouldWait`
that nothing could be moved now.
-/
set_option autoImplicit false

namespace SerialLine

/-- A set of readiness conditions, as bits. -/
structure PollFlags where
  bits : UInt32
  deriving DecidableEq, Inhabited

namespace PollFlags

def readable : PollFlags := ⟨0x01⟩

def writable : PollFlags := ⟨0x04⟩

def failed : PollFlags := ⟨0x08⟩

/-- The other side is gone. -/
def hungUp : PollFlags := ⟨0x10⟩

/-- There is no such stream. -/
def invalid : PollFlags := ⟨0x20⟩

def empty : PollFlags := ⟨0⟩

def union (a b : PollFlags) : PollFlags := ⟨a.bits ||| b.bits⟩

def all : PollFlags :=
  readable.union (writable.union (failed.union (hungUp.union invalid)))

/-- Whether all conditions of the second set are in the first. -/
def includes (a b : PollFlags) : Bool := a.bits &&& b.bits = b.bits

/-- The known conditions among the low 32 bits of a number. -/
def ofNumber (n : Nat) : PollFlags := ⟨UInt32.ofNat n &&& all.bits⟩

end PollFlags

inductive ControlRequest where
  | poll (flags : PollFlags)
  /-- Wait until everything written has been sent. -/
  | flush
  /-- A request of a special kind of stream. -/
  | other (code : UInt32)
  deriving DecidableEq, Inhabited

/-- How a stream behaves by its nature. -/
structure StreamProperties where
  isText : Bool := false
  /-- Whether reading into a buffer refuses a count other than the size of the buffer. -/
  exactLength : Bool := false
  deriving DecidableEq, Inhabited

/-- What a read tells: a count or an error, and the bytes that it put at the front of the buffer.
The count need not agree with the bytes; a stream may lie. -/
structure ReadReply where
  outcome : Except Error Nat
  bytes : List UInt8

/-- A buffer after bytes were put at its front; what does not fit is lost. -/
def overlay (bytes buffer : List UInt8) : List UInt8 :=
  bytes.take buffer.length ++ buffer.drop bytes.length

@[simp] theorem length_overlay (bytes buffer : List UInt8) :
    (overlay bytes buffer).length = buffer.length := by
  simp only [overlay, List.length_append, List.length_take, List.length_drop]
  omega

@[simp] theorem overlay_nil (buffer : List UInt8) : overlay [] buffer = buffer := by
  simp [overlay]

/-- Bytes that fit are at the front of the buffer. -/
theorem overlay_eq_append {bytes buffer : List UInt8} (h : bytes.length ≤ buffer.length) :
    overlay bytes buffer = bytes ++ buffer.drop bytes.length := by
  rw [overlay, List.take_of_length_le h]

theorem overlay_append {bytes bytes' buffer : List UInt8} (h : bytes.length ≤ buffer.length) :
    overlay (bytes ++ bytes') buffer = bytes ++ overlay bytes' (buffer.drop bytes.length) := by
  have htake : (bytes ++ bytes').take buffer.length =
      bytes ++ bytes'.take (buffer.length - bytes.length) := by
    rw [List.take_append, List.take_of_length_le h]
  rw [overlay, overlay, htake, List.length_append, List.length_drop, List.drop_drop, List.append_assoc]

/-- A byte stream over states of type `W`. -/
structure Stream (W : Type) where
  read : List UInt8 → Act W ReadReply
  /-- Writes from the front of the given bytes and tells how many were accepted. -/
  write : List UInt8 → Act W (Except Error Nat)
  control : ControlRequest → Act W (Except Error Nat)
  properties : W → StreamProperties := fun _ => {}

end SerialLine
