import ToDoList.CLib.Text
import ToDoList.CLib.Stdio
import ToDoList.CLib.Buffer
import ToDoList.CLib.Keyed
import ToDoList.CLib.StepRun
import ToDoList.Db
import ToDoList.Queues
import ToDoList.Reorder
import ToDoList.Storage
import ToDoList.TableInv
import ToDoList.RoundTrip
import ToDoList.Prune
import ToDoList.CLib.Descriptors
import ToDoList.Connections
import ToDoList.CLib.Replay
import ToDoList.Requests
import ToDoList.Pair
import ToDoList.PairInv
import ToDoList.Failover
import ToDoList.Elections
import ToDoList.Cluster
import ToDoList.Primaries
import ToDoList.Active
import ToDoList.LongText
import ToDoList.Delivery
import ToDoList.Backlog
import ToDoList.Parked
import ToDoList.Quiesce
import ToDoList.Recovery
import ToDoList.ChkptThread
import ToDoList.Senders
import ToDoList.Socket
import ToDoList.Header
import ToDoList.Relay
import ToDoList.CLib.Between
import ToDoList.Startups
import ToDoList.Watchdog
import ToDoList.Told
import ToDoList.HeapFree
import ToDoList.Chains
import ToDoList.Keys
import ToDoList.TaskText
import ToDoList.OneReply
import ToDoList.Payload
import ToDoList.Modify
import ToDoList.Response
import ToDoList.Polling
import ToDoList.ClientReplies
import ToDoList.FirstReply
import ToDoList.Heartbeat
import ToDoList.CLib.Fifo
import ToDoList.Log
import ToDoList.LogRuns
import ToDoList.LogRing
import ToDoList.CLib.Strtol
import ToDoList.Numbers
import ToDoList.StopThread
import ToDoList.Rejected
import ToDoList.WriteChkpt
import ToDoList.FailedImport
import ToDoList.GetAll
import ToDoList.MsgBuf
import ToDoList.FaultReports
import ToDoList.CLib.Reader
import ToDoList.SockReads
import ToDoList.ReadErrors
import ToDoList.SockWrites
import ToDoList.Informing
import ToDoList.Wire
import ToDoList.CLib.Copies
import ToDoList.ReplicaGroup
import ToDoList.CLib.Custody
import ToDoList.Threads
import ToDoList.Handover
import ToDoList.QuiesceRuns
import ToDoList.Uninterrupted
import ToDoList.Session
import ToDoList.PassiveRoles
import ToDoList.Backups
import ToDoList.PassiveService
