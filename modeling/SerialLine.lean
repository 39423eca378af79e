import SerialLine.Act
import SerialLine.Arguments
import SerialLine.Arguments.Numeral
import SerialLine.Bench
import SerialLine.Binary32
import SerialLine.Binary32.Reading
import SerialLine.Binary32.Shortest
import SerialLine.CharWidth
import SerialLine.Config
import SerialLine.Config.Overrides
import SerialLine.Driver
import SerialLine.Error
import SerialLine.Log
import SerialLine.Parity
import SerialLine.Pin
import SerialLine.PinRegistry
import SerialLine.Pl011
import SerialLine.Pl011.Framing
import SerialLine.Pl011.Interrupt
import SerialLine.Pl011.Registers
import SerialLine.Platform
import SerialLine.Proofs.Events.Instants
import SerialLine.Proofs.Events.Kinds
import SerialLine.Proofs.Events.Shown
import SerialLine.Proofs.Lines.Clocks
import SerialLine.Proofs.Lines.Creation
import SerialLine.Proofs.Lines.Exchange
import SerialLine.Proofs.Lines.Frame
import SerialLine.Proofs.Lines.Halts
import SerialLine.Proofs.Lines.Indices
import SerialLine.Proofs.Lines.Lifecycle
import SerialLine.Proofs.Lines.Loopback
import SerialLine.Proofs.Lines.Mirror
import SerialLine.Proofs.Lines.Ownership
import SerialLine.Proofs.Lines.Polling
import SerialLine.Proofs.Lines.Reading
import SerialLine.Proofs.Lines.Replies
import SerialLine.Proofs.Lines.Sharing
import SerialLine.Proofs.Lines.Upkeep
import SerialLine.Proofs.Pins.Bits
import SerialLine.Proofs.Pins.Claims
import SerialLine.Proofs.Pins.Sets
import SerialLine.Proofs.Receiving.Buffering
import SerialLine.Proofs.Receiving.Cancellation
import SerialLine.Proofs.Receiving.Delivery
import SerialLine.Proofs.Receiving.Discarding
import SerialLine.Proofs.Receiving.Freshness
import SerialLine.Proofs.Receiving.Inlet
import SerialLine.Proofs.Receiving.Intake
import SerialLine.Proofs.Receiving.Levels
import SerialLine.Proofs.Receiving.Outlet
import SerialLine.Proofs.Receiving.Progress
import SerialLine.Proofs.Receiving.Readiness
import SerialLine.Proofs.Receiving.Station
import SerialLine.Proofs.Receiving.Surroundings
import SerialLine.Proofs.Receiving.Timing
import SerialLine.Proofs.Receiving.Transfers
import SerialLine.Proofs.Receiving.Twins
import SerialLine.Proofs.Reception.Accounts
import SerialLine.Proofs.Reception.Calls
import SerialLine.Proofs.Reception.Conservation
import SerialLine.Proofs.Reception.Dormant
import SerialLine.Proofs.Reception.Draining
import SerialLine.Proofs.Reception.Flow
import SerialLine.Proofs.Reception.Installing
import SerialLine.Proofs.Reception.Latched
import SerialLine.Proofs.Reception.Listening
import SerialLine.Proofs.Reception.Losses
import SerialLine.Proofs.Reception.Mask
import SerialLine.Proofs.Reception.Moving
import SerialLine.Proofs.Reception.Overruns
import SerialLine.Proofs.Reception.Serving
import SerialLine.Proofs.Reception.Simulated
import SerialLine.Proofs.Reception.Stale
import SerialLine.Proofs.Reception.Survey
import SerialLine.Proofs.Reception.Tallies
import SerialLine.Proofs.Reception.Traffic
import SerialLine.Proofs.Reception.Window
import SerialLine.Proofs.Registers.Divisors
import SerialLine.Proofs.Registers.Files
import SerialLine.Proofs.Registers.Rates
import SerialLine.Proofs.Registers.Resting
import SerialLine.Proofs.Registers.Turning
import SerialLine.Proofs.Ring.Admission
import SerialLine.Proofs.Ring.Bounds
import SerialLine.Proofs.Ring.Contents
import SerialLine.Proofs.Ring.Life
import SerialLine.Proofs.Ring.Queue
import SerialLine.Proofs.Ring.Wrapping
import SerialLine.Proofs.Sending.Course
import SerialLine.Proofs.Sending.Delivery
import SerialLine.Proofs.Sending.Direction
import SerialLine.Proofs.Sending.Draining
import SerialLine.Proofs.Sending.Duration
import SerialLine.Proofs.Sending.Interruption
import SerialLine.Proofs.Sending.Opening
import SerialLine.Proofs.Settings.Grammar
import SerialLine.Proofs.Settings.Numerals
import SerialLine.Proofs.Settings.Overrides
import SerialLine.Proofs.Settings.Stages
import SerialLine.Proofs.Streams.Overstating
import SerialLine.Proofs.Streams.Requests
import SerialLine.Proofs.Streams.Scripted
import SerialLine.Proofs.Streams.Walks
import SerialLine.Proofs.Streams.Writing
import SerialLine.Recording
import SerialLine.Rig
import SerialLine.Rig.Clock
import SerialLine.Rig.Devices
import SerialLine.Rig.LineModel
import SerialLine.Rig.RegisterBlock
import SerialLine.Rig.Wiring
import SerialLine.RingBuffer
import SerialLine.RxBuffers
import SerialLine.Stream
import SerialLine.Stream.Lines
import SerialLine.Stream.Script
import SerialLine.Stream.Transfers
import SerialLine.Timeout
import SerialLine.Uart
import SerialLine.Uart.Calls
import SerialLine.Uart.Control
import SerialLine.Uart.Receiving
import SerialLine.Uart.Sending
import SerialLine.Uart.Shutdown
