import SerialLine.Driver
import SerialLine.Platform
/-!
# Recordings

A driver or a platform can be replaced by one that does the same and writes down what it was asked,
together with the answer where waits and transfers depend on it. What an operation of a device did to
its peripheral, in which order and after how many rounds of waiting, is then read off the events.
-/
set_option autoImplicit false

namespace SerialLine

/-- Something that a driver or a platform was asked. -/
inductive Event where
  | configure (settings : LineSettings)
  | setBaudrate (baudrate : UInt32)
  | startReceiving (sink : BufferId)
  | stopReceiving
  | resumeReceiving
  | receivedCount (count : Nat)
  | takeWord (word : Option UInt16)
  | isReady (ready : Bool)
  | sendWord (word : UInt16)
  | isIdle (idle : Bool)
  | clearToSend (clear : Bool)
  | setDirection (high : Bool)
  | disable
  | ticks (now : Nat)
  | background
  | isInterrupted (interrupted : Bool)
  deriving DecidableEq

/-- An outside with the events so far, oldest first. -/
structure Recorded (σ : Type) where
  inner : σ
  events : List Event := []

variable {σ α : Type}

def Bench.unrecorded (b : Bench (Recorded σ)) : Bench σ :=
  { buffers := b.buffers, log := b.log, outside := b.outside.inner }

/-- Does something and writes an event down. -/
def recording (event : α → Event) (f : StateM (Bench σ) α) : StateM (Bench (Recorded σ)) α := fun b =>
  let (a, c) := f b.unrecorded
  (a, { buffers := c.buffers, log := c.log,
        outside := ⟨c.outside, b.outside.events ++ [event a]⟩ })

def Driver.recorded (d : Driver σ) : Driver (Recorded σ) where
  configure s := recording (fun _ => .configure s) (d.configure s)
  setBaudrate b := recording (fun _ => .setBaudrate b) (d.setBaudrate b)
  startReceiving id := recording (fun _ => .startReceiving id) (d.startReceiving id)
  stopReceiving := recording (fun _ => .stopReceiving) d.stopReceiving
  resumeReceiving := recording (fun _ => .resumeReceiving) d.resumeReceiving
  receivedCount := recording .receivedCount d.receivedCount
  takeWord := recording .takeWord d.takeWord
  isReady := recording .isReady d.isReady
  sendWord w := recording (fun _ => .sendWord w) (d.sendWord w)
  isIdle := recording .isIdle d.isIdle
  clearToSend := recording .clearToSend d.clearToSend
  setDirection high := recording (fun _ => .setDirection high) (d.setDirection high)
  disable := recording (fun _ => .disable) d.disable

def Platform.recorded (p : Platform σ) : Platform (Recorded σ) where
  ticks := recording .ticks p.ticks
  background := recording (fun _ => .background) p.background
  isInterrupted := recording .isInterrupted p.isInterrupted
  patience := p.patience

end SerialLine
