import SerialLine.Log
import SerialLine.Stream
/-!
# Transfers

The operations that users of a stream call, written once for all streams. A transfer repeats the
stream's own reads or writes until the request is met, the stream ends, or nothing can be moved now.
If nothing was moved by then because of the latter, the answer is `none`; otherwise it tells what was
moved. All counts are 64-bit: a sum that does not fit halts the transfer, and so does a count that
reaches past the piece of memory it refers to.
-/
set_option autoImplicit false

namespace SerialLine.Stream

variable {W : Type}

/-- The number of bytes that an unlimited read asks for at a time. -/
def chunkSize : Nat := 256

/-- Counts fit in 64 bits. -/
def countLimit : Nat := Nat.pow 2 64

/-- How far a transfer came: the bytes moved, and whether it ended because nothing could be moved. -/
structure Progress where
  count : Nat
  blocked : Bool
  deriving DecidableEq

namespace Progress

/-- What a transfer answers: nothing if it was blocked before it moved anything. -/
def answer? (p : Progress) : Option Nat :=
  if p.count = 0 && p.blocked then none else some p.count

end Progress

/-- A sum of counts. One that does not fit in 64 bits is a halt, as in a build that checks for overflow;
a build that does not would go on with the rest of the sum by 2^64. -/
def addCounts (a b : Nat) : Act W Nat :=
  if a + b < countLimit then pure (a + b) else throw .aborted

/-- Reads into the part `rest` of a buffer behind the bytes `filled` until the buffer is full. Gives
the whole buffer as well. -/
def fill (s : Stream W) (filled : List UInt8) : List UInt8 →
    Act W (Except Error Progress × List UInt8)
  | [] => pure (.ok ⟨filled.length, false⟩, filled)
  | b :: bs => do
    let reply ← s.read (b :: bs)
    let rest := overlay reply.bytes (b :: bs)
    match reply.outcome with
    | .ok 0 => return (.ok ⟨filled.length, false⟩, filled ++ rest)
    | .ok (n + 1) =>
      let count ← addCounts filled.length (n + 1)
      if rest.length ≤ n + 1 then return (.ok ⟨count, false⟩, filled ++ rest)
      else fill s (filled ++ rest.take (n + 1)) (rest.drop (n + 1))
    | .error .shouldWait => return (.ok ⟨filled.length, true⟩, filled ++ rest)
    | .error e => return (.error e, filled ++ rest)
termination_by rest => rest.length
decreasing_by simp only [List.length_drop, length_overlay, List.length_cons]; omega

/-- Writes data from its byte number `done` on until all of it is accepted. -/
def drain (s : Stream W) (done : Nat) : List UInt8 → Act W (Except Error Progress)
  | [] => pure (.ok ⟨done, false⟩)
  | b :: bs => do
    match ← s.write (b :: bs) with
    | .ok 0 => return .ok ⟨done, false⟩
    | .ok (n + 1) =>
      let count ← addCounts done (n + 1)
      drain s count (bs.drop n)
    | .error .shouldWait => return .ok ⟨done, true⟩
    | .error e => return .error e
termination_by rest => rest.length
decreasing_by simp only [List.length_drop, List.length_cons]; omega

/-- Reads into a buffer of so many bytes, which is made at first. A size that no memory has halts the
transfer; memory for any other is taken to be available. -/
def readSized (s : Stream W) (size : Nat) : Act W (Except Error (Option (List UInt8))) := do
  if maxBytes < size then throw .aborted
  let (result, buffer) ← s.fill [] (List.replicate size 0)
  return result.map fun progress => progress.answer?.map fun n => buffer.take n

/-- Reads chunk after chunk behind the bytes `data`. The chunk keeps its old bytes where a read puts
no new ones. -/
def readChunks (s : Stream W) : Nat → List UInt8 → List UInt8 →
    Act W (Except Error (Option (List UInt8)))
  | 0, _, _ => throw .unfinished
  | patience + 1, chunk, data => do
    let reply ← s.read chunk
    let chunk := overlay reply.bytes chunk
    match reply.outcome with
    | .ok 0 => return .ok (some data)
    | .ok n =>
      if chunk.length < n then throw .aborted
      readChunks s patience chunk (data ++ chunk.take n)
    | .error .shouldWait => return .ok (if data.isEmpty then none else some data)
    | .error e => return .error e

/-- Reads until the stream ends or has nothing more now. -/
def readAll (s : Stream W) (patience : Nat) : Act W (Except Error (Option (List UInt8))) :=
  s.readChunks patience (List.replicate chunkSize 0) []

/-- Reads at most `size` bytes, or everything if no size is given. -/
def readBytes (s : Stream W) (patience : Nat) :
    Option Nat → Act W (Except Error (Option (List UInt8)))
  | some size => s.readSized size
  | none => s.readAll patience

/-- Reads into a buffer, or into its first `length` bytes. Gives the whole buffer as well. -/
def readInto [HasLog W] (s : Stream W) (buffer : List UInt8) (length : Option Nat) :
    Act W (Except Error (Option Nat) × List UInt8) := do
  let properties := s.properties (← get)
  let length := length.getD buffer.length
  if properties.exactLength && length ≠ buffer.length then
    logNote (W := W) .debug "readinto: length argument not allowed for this stream"
    return (.error .invalidArgs, buffer)
  let (result, front) ← s.fill [] (buffer.take length)
  return (result.map Progress.answer?, front ++ buffer.drop length)

/-- Reads a line byte by byte behind the bytes `line`. The byte keeps its old value where a read puts
no new one. `rounds` bounds the bytes still read; running out of them is the end of the line if
`limited`, and otherwise a halt. -/
def readLineBytes (s : Stream W) (limited : Bool) : Nat → UInt8 → List UInt8 →
    Act W (Except Error (Option (List UInt8)))
  | 0, _, line => if limited then return .ok (some line) else throw .unfinished
  | rounds + 1, byte, line => do
    let reply ← s.read [byte]
    let byte := (overlay reply.bytes [byte]).headD byte
    match reply.outcome with
    | .ok 0 => return .ok (some line)
    | .ok _ =>
      if byte = 10 then return .ok (some (line ++ [byte]))
      else readLineBytes s limited rounds byte (line ++ [byte])
    | .error .shouldWait => return .ok (if line.isEmpty then none else some line)
    | .error e => return .error e

/-- Reads up to the end of a line, of at most `limit` bytes if a limit is given. -/
def readLine (s : Stream W) (patience : Nat) (limit : Option Nat) :
    Act W (Except Error (Option (List UInt8))) :=
  s.readLineBytes limit.isSome (limit.getD patience) 0 []

def writeBytes (s : Stream W) (data : List UInt8) : Act W (Except Error (Option Nat)) := do
  return (← s.drain 0 data).map Progress.answer?

/-- Which of the given conditions hold, as far as they are known ones. -/
def pollFor (s : Stream W) (flags : PollFlags) : Act W (Except Error PollFlags) := do
  return (← s.control (.poll flags)).map PollFlags.ofNumber

def flush (s : Stream W) : Act W (Except Error Unit) := do
  return (← s.control .flush).map fun _ => ()

end SerialLine.Stream
