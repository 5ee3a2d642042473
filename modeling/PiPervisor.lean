import PiPervisor.Library.BitField
import PiPervisor.Library.Memory
import PiPervisor.Library.LongDescriptor
import PiPervisor.Library.Aarch32
import PiPervisor.Library.Observed
import PiPervisor.Library.RadixTree
import PiPervisor.Library.BudgetedMap
import PiPervisor.Library.Transition
import PiPervisor.Library.RoundRobin
import PiPervisor.Platform
import PiPervisor.Stage2.Descriptor
import PiPervisor.Stage2.Region
import PiPervisor.Stage2.Table
import PiPervisor.Stage2.TreeInvariant
import PiPervisor.Stage2.PageMap
import PiPervisor.Stage2.Refinement
import PiPervisor.Stage2.CallRefinement
import PiPervisor.Stage2.Lookup
import PiPervisor.Stage2.Build
import PiPervisor.Stage2.Policy
import PiPervisor.Stage2.MapFailure
import PiPervisor.Stage2.TableShape
import PiPervisor.Stage2.SharedPools
import PiPervisor.Stage2.Isolation
import PiPervisor.Stage2.Hardware
import PiPervisor.Hv.Vcpu
import PiPervisor.Hv.Virq
import PiPervisor.Hv.Machine
import PiPervisor.Hv.Scheduler
import PiPervisor.Hv.Mmio
import PiPervisor.Hv.Hypercall
import PiPervisor.Hv.Exceptions
import PiPervisor.Hv.Boot
import PiPervisor.Hv.Switch
import PiPervisor.Hv.Invariant
import PiPervisor.Hv.SchedulerSpec
import PiPervisor.Hv.HandlerSpec
import PiPervisor.Hv.SyncSpec
import PiPervisor.Hv.IrqSpec
import PiPervisor.Hv.GuestSpace
import PiPervisor.Hv.BootSpec
import PiPervisor.Hv.Runs
import PiPervisor.Hv.Closed
import PiPervisor.Hv.GuestIsolation
import PiPervisor.Hv.GuestContexts
import PiPervisor.Hv.RunningVcpu
import PiPervisor.Hv.TimerWakeup
import PiPervisor.Hv.Containment
import PiPervisor.Hv.Sched
import PiPervisor.Hv.Alarm
import PiPervisor.Hv.SchedRefinement
import PiPervisor.Hv.Exit
import PiPervisor.Hv.Delay
import PiPervisor.Hv.TimerCoverage
import PiPervisor.Hv.Fairness
import PiPervisor.Hv.MmioSpec
import PiPervisor.Hv.VuartStorage
import PiPervisor.Library.SharedRegister
import PiPervisor.Hv.SystemRegisters
import PiPervisor.Library.Channels
import PiPervisor.Loader.Protocol
import PiPervisor.Loader.Pi
import PiPervisor.Loader.Host
import PiPervisor.Loader.Exchange
import PiPervisor.Loader.Transfer
import PiPervisor.Loader.Reception
import PiPervisor.Loader.Integrity
import PiPervisor.Library.WrappedRange
import PiPervisor.Loader.Overwrite
import PiPervisor.Loader.Resync
import PiPervisor.Library.Positional
import PiPervisor.Printk.Format
import PiPervisor.Printk.Numeral
import PiPervisor.Printk.Grammar
import PiPervisor.Printk.Rendering
import PiPervisor.Printk.FormatString
import PiPervisor.Printk.ReadBack
import PiPervisor.Printk.Arguments
import PiPervisor.Hv.TimerDelivery
import PiPervisor.Hv.TimerInterval
import PiPervisor.Hv.TimerFrequency
import PiPervisor.Hv.HypercallResult
import PiPervisor.Hv.AbortOutcome
import PiPervisor.Hv.MmioRefusal
import PiPervisor.Hv.MmioRegister
import PiPervisor.Hv.Output
import PiPervisor.Hv.Console
import PiPervisor.Hv.Mmu
import PiPervisor.Hv.GuestMemory
import PiPervisor.Arch.Assembly
import PiPervisor.Arch.Vectors
import PiPervisor.Arch.Contexts
import PiPervisor.Arch.LowerModes
import PiPervisor.Arch.TrapPath
