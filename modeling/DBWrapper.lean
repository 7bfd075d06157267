import DBWrapper.Foundation.Runs
import DBWrapper.Foundation.DoWhile
import DBWrapper.Foundation.Latch
import DBWrapper.Foundation.Reassembly
import DBWrapper.Foundation.RoundRobin
import DBWrapper.Translib.TcpSocket
import DBWrapper.Translib.Tpkt
import DBWrapper.Translib.TpktReassembly
import DBWrapper.Translib.TpktTermination
import DBWrapper.Translib.TpktReads
import DBWrapper.Translib.TpktResync
import DBWrapper.Translib.TpktClient
import DBWrapper.Translib.TpktSending
import DBWrapper.Translib.TpktHeader
import DBWrapper.Translib.Closing
import DBWrapper.Translib.Dispatcher
import DBWrapper.Translib.Timer
import DBWrapper.Translib.TimerCalls
import DBWrapper.Translib.TimerManager
import DBWrapper.Translib.Killing
import DBWrapper.Translib.Finished
import DBWrapper.Translib.Callbacks
import DBWrapper.Translib.Loop
import DBWrapper.Translib.TcpClient
import DBWrapper.Translib.HttpServer
import DBWrapper.Translib.Serving
import DBWrapper.Foundation.DoubleBuffer
import DBWrapper.Foundation.Responder
import DBWrapper.TaskBase.Task
import DBWrapper.TaskBase.Heartbeat
import DBWrapper.TaskBase.Stalling
import DBWrapper.TaskBase.Interval
import DBWrapper.TaskBase.Forever
import DBWrapper.TaskBase.Sending
import DBWrapper.TaskBase.Rounds
import DBWrapper.TaskBase.Scheduling
import DBWrapper.TaskBase.Wakeup
import DBWrapper.TaskBase.Answering
import DBWrapper.TaskBase.Asking
import DBWrapper.TaskBase.Lookup
import DBWrapper.ConnManager.ConnInfo
import DBWrapper.ConnManager.MessageBus
import DBWrapper.ConnManager.ConnPool
import DBWrapper.ConnManager.ConnManager
import DBWrapper.ConnManager.Changes
import DBWrapper.ConnManager.Effects
import DBWrapper.ConnManager.Operations
import DBWrapper.ConnManager.Membership
import DBWrapper.ConnManager.Duplicates
import DBWrapper.ConnManager.Routing
import DBWrapper.ConnManager.Isolation
import DBWrapper.ConnManager.Stamping
import DBWrapper.ConnManager.Fairness
import DBWrapper.ConnManager.Availability
import DBWrapper.ConnManager.Discovery
import DBWrapper.ConnManager.Forgetting
import DBWrapper.ConnManager.Confinement
import DBWrapper.ConnManager.Unavailable
import DBWrapper.Foundation.SetTraversal
import DBWrapper.ConnManager.Erasing
import DBWrapper.ConnManager.Polling
import DBWrapper.Foundation.Bytes
import DBWrapper.Foundation.SelfDelimiting
import DBWrapper.Redis.Command
import DBWrapper.Redis.Client
import DBWrapper.Foundation.Words
import DBWrapper.Redis.FormatCommand
import DBWrapper.Foundation.Lifetime
import DBWrapper.Redis.Worker
import DBWrapper.Redis.Lifetimes
import DBWrapper.Redis.LiveContexts
import DBWrapper.Redis.Reconnecting
import DBWrapper.Redis.MissingWorker
import DBWrapper.Redis.FailedConnect
import DBWrapper.Redis.RawCommand
import DBWrapper.Foundation.Incremental
import DBWrapper.Foundation.PartialInput
import DBWrapper.Redis.Reader
import DBWrapper.Redis.Reply
import DBWrapper.Redis.ReplyCursor
import DBWrapper.Redis.ReplyObjects
import DBWrapper.Redis.ReaderRefinement
import DBWrapper.Redis.Receiving
import DBWrapper.Redis.Arguments
import DBWrapper.Redis.Async
import DBWrapper.Redis.AsyncHistory
import DBWrapper.Redis.CallbackQueue
import DBWrapper.Redis.Pipelining
import DBWrapper.Redis.Dict
import DBWrapper.Redis.DictRefinement
import DBWrapper.Redis.SplitArgs
import DBWrapper.Foundation.Blocks
import DBWrapper.Redis.SdsString
import DBWrapper.Redis.SdsRefinement
import DBWrapper.Redis.FormatArgv
import DBWrapper.Redis.Blocking
import DBWrapper.Translib.TcpServer
import DBWrapper.Foundation.PendingRequests
import DBWrapper.Foundation.Buckets
