import RadioService.Accounts
import RadioService.Airings
import RadioService.Assembly
import RadioService.BufferSafety
import RadioService.Burst
import RadioService.BurstAired
import RadioService.BurstIds
import RadioService.BurstMode
import RadioService.BurstRoundTrip
import RadioService.BurstTrace
import RadioService.Cadence
import RadioService.ChannelTuned
import RadioService.ChipModes
import RadioService.ChipTrace
import RadioService.ClockShift
import RadioService.ConfigAck
import RadioService.ConfigSpec
import RadioService.Connection
import RadioService.Crc32
import RadioService.Driver.Bus
import RadioService.Driver.LR2021
import RadioService.Driver.Radio
import RadioService.Driver.Spi
import RadioService.Dwell
import RadioService.Emissions
import RadioService.Forgetting
import RadioService.FrameDecode
import RadioService.Hearing
import RadioService.HomeFrequency
import RadioService.HostCommands
import RadioService.Hysteresis
import RadioService.IpcCores
import RadioService.IpcFifo
import RadioService.IpcFrames
import RadioService.IpcRepair
import RadioService.IpcRing
import RadioService.IpcService
import RadioService.Leftovers
import RadioService.Line
import RadioService.Listening
import RadioService.Machine.Blocks
import RadioService.Machine.Bytes
import RadioService.Machine.Fifos
import RadioService.Machine.Gathering
import RadioService.Machine.Mirrors
import RadioService.Machine.Monitors
import RadioService.Machine.ReflectedCrc
import RadioService.Machine.Rings
import RadioService.Machine.Runs
import RadioService.Machine.Settling
import RadioService.Machine.Streams
import RadioService.Machine.Struct
import RadioService.Machine.Traced
import RadioService.Machine.Yields
import RadioService.Parser
import RadioService.PendingFlag
import RadioService.Polls
import RadioService.PowerCap
import RadioService.PowerCut
import RadioService.PowerLaw
import RadioService.Quiet
import RadioService.Relay
import RadioService.Replies
import RadioService.Resync
import RadioService.RxChip
import RadioService.RxDelivery
import RadioService.RxEndless
import RadioService.RxFifo
import RadioService.RxLoop
import RadioService.RxRules
import RadioService.RxTurn
import RadioService.ScanRun
import RadioService.ScanSpec
import RadioService.Scanless
import RadioService.Service
import RadioService.Sessions
import RadioService.Setup
import RadioService.SetupRules
import RadioService.SimAgrees
import RadioService.SimBursts
import RadioService.SimDevice
import RadioService.SimEchoes
import RadioService.SimFrames
import RadioService.SimSweeps
import RadioService.SimThreads
import RadioService.Stats
import RadioService.StatsFrames
import RadioService.Superloop
import RadioService.Sweep
import RadioService.SweepOrder
import RadioService.Tally
import RadioService.Thermal
import RadioService.ThermalRecovery
import RadioService.ThermalSpec
import RadioService.Traffic
import RadioService.TxGate
import RadioService.TxLedger
import RadioService.TxProgress
import RadioService.TxRules
import RadioService.TxSystem
import RadioService.TxTerminals
import RadioService.Wire
import RadioService.Worker
import RadioService.WorkerRun
import RadioService.WorkerState
import RadioService.WrapSafe
