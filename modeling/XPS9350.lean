import XPS9350.Aml.Hardware
import XPS9350.Aml.Prog
import XPS9350.Aml.Wp
import XPS9350.Aml.Emits
import XPS9350.Aml.Effects
import XPS9350.Aml.Clock
import XPS9350.Aml.Registers
import XPS9350.TB3.Table
import XPS9350.TB3.Mailbox
import XPS9350.TB3.Port
import XPS9350.TB3.Icm
import XPS9350.TB3.Power
import XPS9350.TB3.Equiv.Footprint
import XPS9350.TB3.Equiv.Termination
import XPS9350.TB3.Equiv.Restore
import XPS9350.TB3.Equiv.Start
import XPS9350.TB3.Equiv.Pced
import XPS9350.TB3.Equiv.Flags
import XPS9350.TB3.Equiv.Powered
import XPS9350.TB3.Equiv.Link
import XPS9350.TB3.Dsdt
import XPS9350.TB3.H530
import XPS9350.TB3.Router
import XPS9350.TB3.Equiv.Crmw
import XPS9350.TB3.Equiv.Cycle
import XPS9350.TB3.Equiv.Handshake
import XPS9350.Aml.Countdown
import XPS9350.Aml.Snapshots
import XPS9350.TB3.Equiv.Wait
import XPS9350.Aml.Trace
import XPS9350.TB3.Equiv.Stages
import XPS9350.TB3.Equiv.Reset
import XPS9350.TB3.Equiv.Verdict
import XPS9350.Aml.Latch
import XPS9350.OpenCore.Cascade
import XPS9350.Properties.Agree
import XPS9350.TB3.Equiv.Retrain
import XPS9350.TB3.Equiv.Presence
import XPS9350.TB3.Equiv.Windows
import XPS9350.Aml.Arrivals
import XPS9350.TB3.Equiv.Accepted
import XPS9350.Sync.Basic
import XPS9350.Sync.Progress
import XPS9350.Sync.Extension
import XPS9350.Aml.Monitor
import XPS9350.Aml.Threads
import XPS9350.Dsdt.Gexp
import XPS9350.Dsdt.Gpio
import XPS9350.Dsdt.Sleep
import XPS9350.Dsdt.Protocol
import XPS9350.Dsdt.Equiv.Discipline
import XPS9350.Dsdt.Equiv.Interleave
import XPS9350.Dsdt.Equiv.Notify
import XPS9350.Dsdt.Equiv.Bus
import XPS9350.Dsdt.Equiv.Tini
import XPS9350.Dsdt.Equiv.Pads
import XPS9350.Dsdt.Equiv.ForcePower
import XPS9350.Dsdt.Equiv.Capability
import XPS9350.Dsdt.Equiv.Events
import XPS9350.Dsdt.Equiv.Lines
import XPS9350.Dsdt.Equiv.Endings
