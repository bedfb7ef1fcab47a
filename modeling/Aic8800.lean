import Aic8800.Lib.SerialOrder
import Aic8800.Lib.ReorderBuffer
import Aic8800.Lib.ReorderDelivery
import Aic8800.Lib.Trace
import Aic8800.Lib.LoopRun
import Aic8800.Lib.GuardedRun
import Aic8800.Lib.SingleServer
import Aic8800.Lib.SlotTable
import Aic8800.Lib.PlacedOnce
import Aic8800.SkBuff
import Aic8800.PowerTable
import Aic8800.Lib.LastWrite
import Aic8800.Lib.ByteText
import Aic8800.RequestBounds
import Aic8800.ScanRequest
import Aic8800.Lib.CheckedBuffer
import Aic8800.VendorExtension
import Aic8800.Lib.IndexedReads
import Aic8800.PrivateCommand
import Aic8800.CommandLine
import Aic8800.ReorderMachine
import Aic8800.ReorderWindow
import Aic8800.ReorderRun
import Aic8800.ReorderTimer
import Aic8800.ReorderPending
import Aic8800.ReorderStream
import Aic8800.RxAggregate
import Aic8800.RxAggregateTotal
import Aic8800.RxAggregateFormat
import Aic8800.RxThread
import Aic8800.DefragMachine
import Aic8800.DefragIntegrity
import Aic8800.DefragTimer
import Aic8800.DefragLifetime
import Aic8800.CommandMachine
import Aic8800.CommandSlots
import Aic8800.CommandMoves
import Aic8800.CommandOrder
import Aic8800.CommandTimeout
import Aic8800.CommandWakeup
import Aic8800.CommandAnswer
import Aic8800.CommandLedger
import Aic8800.CommandConserved
import Aic8800.CommandMatching
import Aic8800.TxAggregate
import Aic8800.TxAggregateFormat
import Aic8800.BusTxMachine
import Aic8800.BusTxAggregation
import Aic8800.BusTxWork
import Aic8800.CmdBufferMachine
import Aic8800.CmdBufferSafety
import Aic8800.TxConfirmRing
import Aic8800.MsduPool
import Aic8800.MsduPoolConserved
import Aic8800.RxDataInd
import Aic8800.RxDataOwnership
import Aic8800.RxDataAmsdu
import Aic8800.RxDataConsumed
import Aic8800.Lib.TableAccess
import Aic8800.RxDataAccess
import Aic8800.MsgRx
import Aic8800.MsgRxAccess
import Aic8800.Lib.CursorLoop
import Aic8800.TxqMachine
import Aic8800.TxqPowerSave
import Aic8800.TxqViews
import Aic8800.TxqTurns
import Aic8800.TxqMembership
import Aic8800.TxqLists
import Aic8800.Lib.Tally
import Aic8800.TxqWork
import Aic8800.TxqAccounting
import Aic8800.TxqCredits
import Aic8800.TxqNetdev
import Aic8800.TxqFlowControl
import Aic8800.PowerMachine
import Aic8800.PowerState
import Aic8800.RxStreamMachine
import Aic8800.RxIsolation
import Aic8800.CommandHolders
import Aic8800.CommandMessages
import Aic8800.CommandOwnership
import Aic8800.ScanMachine
import Aic8800.ScanProtocol
import Aic8800.ChannelContext
import Aic8800.ChannelMachine
import Aic8800.ChannelCounts
import Aic8800.CacLifecycle
import Aic8800.InterfaceTable
import Aic8800.InterfaceConsistency
import Aic8800.RocLifecycle
import Aic8800.RocMachine
import Aic8800.ChannelGate
import Aic8800.ChannelQueues
import Aic8800.DefragBuffer
import Aic8800.AmsduSplit
import Aic8800.ArpOffload
import Aic8800.MuGroup
import Aic8800.MuGroupConsistency
import Aic8800.Lib.LoadedBuffers
import Aic8800.Lib.RunningFrames
import Aic8800.UsbRx
import Aic8800.UsbRxBuffers
import Aic8800.UsbTx
import Aic8800.UsbTxBuffers
import Aic8800.RxRelay
import Aic8800.RxRelayPolicy
import Aic8800.RxRelayQueue
import Aic8800.RxRelayReturns
import Aic8800.FramePriority
import Aic8800.Lib.KeyedList
import Aic8800.MeshTables
import Aic8800.TxqRetry
import Aic8800.TxqProcess
import Aic8800.Lib.GreedyShares
import Aic8800.TxqServicePeriod
import Aic8800.TxqIndex
import Aic8800.CommandEncoding
import Aic8800.Lib.AlignedFields
import Aic8800.RadiotapHeader
import Aic8800.Lib.ElementList
import Aic8800.Lib.ReservedArea
import Aic8800.TdlsFrame
import Aic8800.TdlsWellFormed
import Aic8800.Lib.PulseTrain
import Aic8800.RadarDetector
import Aic8800.RadarSoundness
import Aic8800.RadarBurst
import Aic8800.RadarPattern
import Aic8800.RadarTimeBase
import Aic8800.RadarInvariant
import Aic8800.BeaconBuild
import Aic8800.Lib.FlatMemory
import Aic8800.AmsduHeader
import Aic8800.AmsduQueue
import Aic8800.Lib.StringBuffer
import Aic8800.PowerTableParser
import Aic8800.PowerTableFile
import Aic8800.KeyValue
import Aic8800.ModuleConfig
import Aic8800.Lib.PointerScan
import Aic8800.ModuleConfigFields
import Aic8800.ModuleConfigFile
import Aic8800.Lib.BubbleSort
import Aic8800.MuGroupSelection
import Aic8800.Lib.NarrowBitmap
import Aic8800.InterfaceIndex
import Aic8800.BspCommand
import Aic8800.BspCommandLifetime
import Aic8800.BspRxFrames
import Aic8800.BspRxHandled
import Aic8800.BtPatchTable
import Aic8800.BtPatchLoad
import Aic8800.Lib.RequestRun
import Aic8800.FirmwareUpload
import Aic8800.MpduConversion
import Aic8800.Lib.SafeReads
import Aic8800.MgmtUpload
import Aic8800.Lib.RingWindow
import Aic8800.FirmwareLog
import Aic8800.RcStat
import Aic8800.ChannelSwitch
import Aic8800.ChannelSwitchAtomic
import Aic8800.Lib.Histogram
import Aic8800.RxStatistic
import Aic8800.RxStatisticEntries
import Aic8800.RxStatisticRuns
import Aic8800.HeaderCheck
import Aic8800.Lib.CrcRegister
import Aic8800.FlashUpdate
import Aic8800.FlashUpdateRight
import Aic8800.Lib.ResourceRun
import Aic8800.VendorCommand
import Aic8800.VendorCommandSafe
import Aic8800.StationTable
import Aic8800.StationConsistency
import Aic8800.Lib.HeldPlaces
import Aic8800.TxOwnership
import Aic8800.TxOwnershipKept
import Aic8800.TxOwnershipRun
import Aic8800.Lib.BlockStream
import Aic8800.Md5
import Aic8800.Md5Digest
import Aic8800.Lib.PointerChain
import Aic8800.Nat25Table
import Aic8800.Nat25Refines
import Aic8800.Lib.CallProgram
import Aic8800.Nat25Frame
import Aic8800.Nat25Translation
import Aic8800.Nat25Reply
import Aic8800.LowPower
import Aic8800.LowPowerSettled
import Aic8800.Nat25Sent
import Aic8800.KeyTable
import Aic8800.Connection
import Aic8800.ConnectionRuns
