import BringUp.Board.Recorder
import BringUp.Firmware
import BringUp.Simulation.Part
import BringUp.Fault
import BringUp.Log
import BringUp.Proofs.AppliedLimits
import BringUp.Proofs.CoreRate
import BringUp.Proofs.Calls
import BringUp.Proofs.BackupAccess
import BringUp.Proofs.FlagProgress
import BringUp.Proofs.Success
import BringUp.Proofs.OscillatorSuccess
import BringUp.Proofs.AcceptedPlans
import BringUp.Proofs.WarmDomain
import BringUp.Proofs.PortClocks
import BringUp.Proofs.UsartHistory
import BringUp.Proofs.SystemReset
import BringUp.Proofs.WaitStateCover
import BringUp.Proofs.BusOvershoot
import BringUp.Proofs.OscillatorStages
import BringUp.Proofs.NamedBuses
import BringUp.Proofs.BusFailures
import BringUp.Proofs.RtcSource
import BringUp.Proofs.PllInUse
import BringUp.Proofs.ExactLimits
import BringUp.Proofs.BypassChanges
import BringUp.Proofs.UnnamedFields
import BringUp.Proofs.AppliedTwice
import BringUp.Proofs.ClockReset
import BringUp.Proofs.PinHistory
import BringUp.Proofs.GateHistory
import BringUp.Proofs.Transmission
import BringUp.Proofs.VectorTable
import BringUp.Proofs.ConsoleClock
import BringUp.Proofs.ReportReplay
import BringUp.Proofs.ReadBounds
import BringUp.Proofs.RegisterFields
import BringUp.Proofs.BaudRate
