import EmulatorHost.Coordinator.Operation
import EmulatorHost.Lockstep.Rehearsal
import EmulatorHost.Lockstep.ShellRehearsal
import EmulatorHost.Main
import EmulatorHost.Proofs.Calls
import EmulatorHost.Proofs.Coordinator.History
import EmulatorHost.Proofs.Coordinator.Resizes
import EmulatorHost.Proofs.Coordinator.Roms
import EmulatorHost.Proofs.Drawable
import EmulatorHost.Proofs.Foreign.Behind
import EmulatorHost.Proofs.Foreign.Contract
import EmulatorHost.Proofs.Foreign.Driving
import EmulatorHost.Proofs.Foreign.History
import EmulatorHost.Proofs.Foreign.Isolation
import EmulatorHost.Proofs.Foreign.Lives
import EmulatorHost.Proofs.Foreign.Overlap
import EmulatorHost.Proofs.Foreign.Paths
import EmulatorHost.Proofs.Foreign.Replay
import EmulatorHost.Proofs.Foreign.SizeAnswers
import EmulatorHost.Proofs.Foreign.Slot
import EmulatorHost.Proofs.Headless.Arguments
import EmulatorHost.Proofs.Headless.CommandLine
import EmulatorHost.Proofs.Headless.Course
import EmulatorHost.Proofs.Headless.Failures
import EmulatorHost.Proofs.Headless.History
import EmulatorHost.Proofs.Headless.Picks
import EmulatorHost.Proofs.Headless.Polling
import EmulatorHost.Proofs.Headless.PumpRun
import EmulatorHost.Proofs.Headless.Reports
import EmulatorHost.Proofs.Headless.Settling
import EmulatorHost.Proofs.Headless.Shares
import EmulatorHost.Proofs.Headless.SizeText
import EmulatorHost.Proofs.Machine
import EmulatorHost.Proofs.Mirrors
import EmulatorHost.Proofs.Notifier
import EmulatorHost.Proofs.Pump.Account
import EmulatorHost.Proofs.Pump.Counters
import EmulatorHost.Proofs.Pump.Custody
import EmulatorHost.Proofs.Pump.Deliveries
import EmulatorHost.Proofs.Pump.Interleavings
import EmulatorHost.Proofs.Pump.Life
import EmulatorHost.Proofs.Pump.Notifications
import EmulatorHost.Proofs.Pump.Order
import EmulatorHost.Proofs.Pump.Pausing
import EmulatorHost.Proofs.Pump.Promptness
import EmulatorHost.Proofs.Pump.Refusals
import EmulatorHost.Proofs.Pump.Replay
import EmulatorHost.Proofs.Pump.Requests
import EmulatorHost.Proofs.Pump.Schedule
import EmulatorHost.Proofs.Pump.Stopping
import EmulatorHost.Proofs.Pump.Teardown
import EmulatorHost.Proofs.Software.Digest
import EmulatorHost.Proofs.Software.Faults
import EmulatorHost.Proofs.Software.Fingerprint
import EmulatorHost.Proofs.Software.History
import EmulatorHost.Proofs.Software.Picture
import EmulatorHost.Proofs.Text.Utf8
