import ZeroCpu.Assembler.Toolchain
import ZeroCpu.Core.InterruptRequests
import ZeroCpu.Core.Interrupts
import ZeroCpu.Core.LockStep
import ZeroCpu.Core.StepConformance
import ZeroCpu.Kernel.Confinement
import ZeroCpu.Kernel.ContextSwitch
import ZeroCpu.Kernel.FilesystemRefinement
import ZeroCpu.System.Consistency
import ZeroCpu.System.IsolatedRuns
import ZeroCpu.System.TraceReplay
import ZeroCpu.System.ZeroFsContents
import ZeroCpu.System.ZeroFsListing
import ZeroCpu.System.ZeroFsPaths
import ZeroCpu.Trace.ControlFlow
import ZeroCpu.Trace.JsonDiff
import ZeroCpu.Assembler.Literals
import ZeroCpu.Assembler.NumericData
import ZeroCpu.Assembler.Printing
import ZeroCpu.Assembler.Reassembly
import ZeroCpu.Core.Accesses
import ZeroCpu.Debug.Condition
import ZeroCpu.Debug.Continue
import ZeroCpu.Debug.Inspector
import ZeroCpu.Debug.MultiProcess
import ZeroCpu.Debug.MultiProcessRuns
import ZeroCpu.Debug.Resuming
import ZeroCpu.Debug.SymbolFile
import ZeroCpu.Debug.SymbolMap
import ZeroCpu.Debug.Watchpoints
import ZeroCpu.Trace.StackReports
import ZeroCpu.Core.MemoryWords
import ZeroCpu.Core.DeviceMappings
import ZeroCpu.Hardware.Buses
import ZeroCpu.Hardware.Firmware
import ZeroCpu.Hardware.InStep
import ZeroCpu.Hardware.SerialRefinement
import ZeroCpu.System.Preemption
import ZeroCpu.Debug.Transparency
import ZeroCpu.Kernel.OwnSteps
import ZeroCpu.System.Schedules
import ZeroCpu.Trace.JsonReading
import ZeroCpu.System.JsonCompare
import ZeroCpu.Core.Worlds
import ZeroCpu.Hardware.Handshake
import ZeroCpu.Hardware.Runtime
import ZeroCpu.System.Coherence
import ZeroCpu.System.Turns
