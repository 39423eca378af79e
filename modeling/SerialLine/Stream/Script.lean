import SerialLine.Log
import SerialLine.Stream
/-!
# Scripted streams

A stream whose answers are written down beforehand: queues of answers for reads, writes and control
requests, and what reads and writes answer when their queue is used up. It keeps the calls made to it
and the bytes written. The answers need not be honest about counts.
-/
set_option autoImplicit false

namespace SerialLine

/-- One written-down answer. -/
inductive ScriptItem where
  /-- Bytes to be read. What does not fit into one buffer is left for the next read. -/
  | data (bytes : List UInt8)
  /-- A bare count; a read leaves its buffer alone. -/
  | count (n : Nat)
  | fail (e : Error)
  deriving DecidableEq

structure Script where
  reads : List ScriptItem := []
  writes : List ScriptItem := []
  controls : List ScriptItem := []
  /-- What reads answer after the last written-down one. -/
  readTail : Except Error Nat := .error .shouldWait
  writeTail : Except Error Nat := .error .shouldWait
  properties : StreamProperties := {}
  calls : Array String := #[]
  written : List UInt8 := []
  log : Log := {}

namespace Script

instance : HasLog Script where
  log s := s.log
  setLog log s := { s with log := log }

def called (s : Script) (call : String) : Script :=
  { s with calls := s.calls.push call }

/-- The answer to a read into a buffer of `room` bytes, and the script after it. -/
def answerRead (s : Script) (room : Nat) : ReadReply × Script :=
  match s.reads with
  | [] => (⟨s.readTail, []⟩, s)
  | .fail e :: rest => (⟨.error e, []⟩, { s with reads := rest })
  | .count n :: rest => (⟨.ok n, []⟩, { s with reads := rest })
  | .data bytes :: rest =>
    let front := bytes.take room
    let left := bytes.drop room
    (⟨.ok front.length, front⟩,
      { s with reads := if left.isEmpty then rest else .data left :: rest })

/-- The script after a write of `data` was answered. -/
def accept (s : Script) (data : List UInt8) : Except Error Nat → Script
  | .ok n => { s with written := s.written ++ data.take n }
  | .error _ => s

def answerWrite (s : Script) (data : List UInt8) : Except Error Nat × Script :=
  let (result, s) := match s.writes with
    | [] => (s.writeTail, s)
    | .fail e :: rest => (.error e, { s with writes := rest })
    | .count n :: rest => (.ok n, { s with writes := rest })
    | .data bytes :: rest => (.ok bytes.length, { s with writes := rest })
  (result, s.accept data result)

def answerControl (s : Script) : Except Error Nat × Script :=
  match s.controls with
  | [] => (.error .invalidArgs, s)
  | .fail e :: rest => (.error e, { s with controls := rest })
  | .count n :: rest => (.ok n, { s with controls := rest })
  | .data bytes :: rest => (.ok bytes.length, { s with controls := rest })

def controlCall : ControlRequest → String
  | .poll flags => s!"ioctl poll {flags.bits.toNat}"
  | .flush => "ioctl flush"
  | .other code => s!"ioctl other {code.toNat}"

def stream : Stream Script where
  read buffer := fun s =>
    let (reply, s) := (s.called s!"read {buffer.length}").answerRead buffer.length
    .ok reply s
  write data := fun s =>
    let (result, s) := (s.called s!"write {data.length}").answerWrite data
    .ok result s
  control request := fun s =>
    let (result, s) := (s.called (controlCall request)).answerControl
    .ok result s
  properties s := s.properties

end Script
end SerialLine
