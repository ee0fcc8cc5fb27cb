import BTool.BoostNet.CallbackDelivery
import BTool.BoostNet.CallbackReentrancy
import BTool.BoostNet.RpcCall
import BTool.BoostNet.RpcSegmentation
import BTool.BoostNet.StreamFields
import BTool.BoostNet.StreamReading
import BTool.BoostNet.StreamRepresentation
import BTool.BoostNet.SyncDelivery
import BTool.BoostNet.TcpServer
import BTool.BoostNet.TcpSessionRead
import BTool.BoostNet.TcpSessionWrite
import BTool.BoostNet.WriteBufferAccount
import BTool.DateTime.Arithmetic
import BTool.DateTime.IntEncoding
import BTool.DateTime.Ordering
import BTool.DateTime.TextRoundTrip
import BTool.DateTime.Weekday
import BTool.Encrypt.Aes
import BTool.Encrypt.AesRoundTrip
import BTool.Encrypt.Des
import BTool.Encrypt.DesModes
import BTool.Encrypt.DesRoundTrip
import BTool.Encrypt.EcbIv
import BTool.Encrypt.EncryptBase
import BTool.Encrypt.HexText
import BTool.Encrypt.Unpadding
import BTool.Foundation.BlockModes
import BTool.Foundation.Growth
import BTool.Foundation.Image
import BTool.Foundation.Monitor
import BTool.Foundation.Regions
import BTool.Foundation.Rounds
import BTool.Foundation.TextPieces
import BTool.MMapFile.BatchWriter
import BTool.MMapFile.FileWriter
import BTool.MMapFile.FixBuffer
import BTool.MMapFile.FixBufferImage
import BTool.MMapFile.FixBufferOpening
import BTool.MMapFile.FixBufferReading
import BTool.MMapFile.FixBufferRuns
import BTool.MMapFile.ReadFailure
import BTool.MMapFile.VectorAppend
import BTool.MMapFile.VectorBounds
import BTool.MMapFile.VectorItems
import BTool.MMapFile.VectorReader
import BTool.MMapFile.VectorReading
import BTool.MMapFile.VectorWriter
import BTool.MMapFile.WholeFile
import BTool.ObjectPool.FreeSlots
import BTool.ParquetRow.RowFrame
import BTool.ParquetRow.WriterColumns
import BTool.PbMessage.JsonRoundTrip
import BTool.PbMessage.JsonTermination
import BTool.PbMessage.MemoryBounds
import BTool.PbMessage.WebsocketRoundTrip
import BTool.Rmq.ConnectionRuns
import BTool.Rmq.SessionWrite
import BTool.Rmq.WriteQueue
import BTool.ScrollWindow.AccessPaths
import BTool.ScrollWindow.ScrollWindowArray
import BTool.ScrollWindow.ScrollWindowVector
import BTool.StringConvert.ReplaceAll
import BTool.StringConvert.Split
import BTool.StringConvert.SplitLaws
import BTool.StringConvert.Termination
import BTool.StringConvert.Trim
import BTool.Sync.Event
import BTool.Sync.RecursiveLaw
import BTool.TaskPool.ConcurrentRestart
import BTool.TaskPool.ConditionGracefulStop
import BTool.TaskPool.ConditionWakeup
import BTool.TaskPool.CoroDelivery
import BTool.TaskPool.GracefulStop
import BTool.TaskPool.LastTaskPool
import BTool.TaskPool.LifeCycle
import BTool.TaskPool.LockFreeGracefulStop
import BTool.TaskPool.RotateGracefulStop
import BTool.TaskPool.RotateIndex
import BTool.TaskPool.SPMCGracefulStop
import BTool.TaskPool.SwitchCalls
import BTool.TaskQueue.BoundedFifo
import BTool.TaskQueue.BoundedHandOff
import BTool.TaskQueue.LastCapacity
import BTool.TaskQueue.LatestTask
import BTool.TaskQueue.NodeListRuns
import BTool.TaskQueue.RunningSet
import BTool.TaskQueue.SPMCSerialStranded
import BTool.TaskQueue.SerialBound
import BTool.TaskQueue.SerialCapacity
import BTool.TaskQueue.SerialProgress
import BTool.TaskQueue.SerialRefinement
import BTool.TaskQueue.TaskQueue
import BTool.TaskQueue.WaitReturns
import BTool.Timer.InsertRounding
import BTool.Timer.PeriodicCalls
import BTool.Timer.TimerArming
import BTool.Timer.TimerLife
import BTool.UniqueId.SnowFlakeID
