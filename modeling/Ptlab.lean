import Ptlab.Lib.Effect
import Ptlab.Lib.Trace
import Ptlab.Lib.Dialogue
import Ptlab.Lib.Deframe
import Ptlab.Lib.Bytes
import Ptlab.Lib.Await
import Ptlab.Gatt.Frame
import Ptlab.Gatt.Parser
import Ptlab.Gatt.Oversized
import Ptlab.Protocol
import Ptlab.Gatt.Client
import Ptlab.Gatt.Receive
import Ptlab.Gatt.Session
import Ptlab.Gatt.Unknown
import Ptlab.Processes
import Ptlab.Sim.State
import Ptlab.Sim.Stop
import Ptlab.Artifacts
import Ptlab.Scenario
import Ptlab.Lib.Utf8
import Ptlab.Lib.Civil
import Ptlab.Wire.Record
import Ptlab.Js.ScheduleProtocol
import Ptlab.Js.CompanionCli
import Ptlab.Wire.Push
import Ptlab.Sim.Start
import Ptlab.Sim.Reached
import Ptlab.Sim.Orphans
import Ptlab.Js.Bridge
import Ptlab.Control.Line
import Ptlab.Control.Response
import Ptlab.Control.Client
import Ptlab.Control.Session
import Ptlab.Hardware.Status
import Ptlab.Hardware.Ble
import Ptlab.Hardware.Pairing
import Ptlab.Hardware.Acceptance
import Ptlab.Hardware.Soak
import Ptlab.Hardware.Settled
import Ptlab.Wire.Transaction
import Ptlab.Wire.Watch
import Ptlab.Wire.Pull
import Ptlab.Wire.PushClient
import Ptlab.Js.Pull
import Ptlab.Js.Push
import Ptlab.Lib.Crc
import Ptlab.Js.MutationToken
import Ptlab.Control.Feeds
import Ptlab.Lib.Json
import Ptlab.Lib.Files
import Ptlab.Hardware.Evidence
import Ptlab.Sim.OnDisk
import Ptlab.Sim.Described
import Ptlab.Sim.Recovery
import Ptlab.Gatt.Delivered
import Ptlab.Gatt.Requests
import Ptlab.Sim.Ports
import Ptlab.Lib.Lines
import Ptlab.Js.BridgeTest
import Ptlab.Control.Grammar
import Ptlab.Wire.Refused
import Ptlab.Js.FamilyCommit
import Ptlab.Wire.TaskRecord
import Ptlab.Js.Lossless
import Ptlab.Processes.Escalation
import Ptlab.Scenario.Deadline
import Ptlab.Hardware.Sighting
import Ptlab.Gatt.Escapes
import Ptlab.Control.Commands
import Ptlab.Lib.CrcForward
import Ptlab.Scenario.Dfu
import Ptlab.Workspace
import Ptlab.Hardware.Adb
import Ptlab.Sim.Listener
import Ptlab.Hardware.Observation
import Ptlab.Lib.PyValue
import Ptlab.Hardware.Plan
import Ptlab.Lib.JsNumber
import Ptlab.Js.Event
import Ptlab.Js.Add
import Ptlab.Js.Keeper
import Ptlab.Js.Delete
import Ptlab.Processes.Settled
import Ptlab.Sim.Ledger
import Ptlab.Lib.Register
import Ptlab.Wire.Family
import Ptlab.Js.Errands
import Ptlab.Gatt.Transcript
import Ptlab.Sim.Healthy
import Ptlab.Lib.JsonValue
import Ptlab.JsonLines
import Ptlab.Scenario.Events
import Ptlab.Lib.Lock
import Ptlab.Transcript
import Ptlab.Lib.Xml
import Ptlab.Junit
import Ptlab.Scenario.OnWatch
import Ptlab.Lib.Rounding
import Ptlab.Sim.Input
import Ptlab.Scenario.Suite
