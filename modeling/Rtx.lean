import Rtx.Config
import Rtx.Lib.BlockTree
import Rtx.Lib.Linked
import Rtx.Mem.Pool
import Rtx.Mem.Layout
import Rtx.Mem.FreeList
import Rtx.Mem.Rep
import Rtx.Mem.Alloc
import Rtx.Mem.Dealloc
import Rtx.Lib.Runs
import Rtx.Mem.Heap
import Rtx.Mem.Pools
import Rtx.Lib.Circular
import Rtx.Msg.Ring
import Rtx.Kern.Queue
import Rtx.Kern.QueueSpec
import Rtx.Msg.RingSpec
import Rtx.Kern.State
import Rtx.Kern.Task
import Rtx.Kern.Msg
import Rtx.Kern.System
import Rtx.Lib.Outcome
import Rtx.Kern.Placement
import Rtx.Kern.Rest
import Rtx.Kern.RestTask
import Rtx.Kern.RestMsg
import Rtx.Kern.Rings
import Rtx.Kern.Blocks
import Rtx.Kern.Boot
import Rtx.Kern.RestTimer
import Rtx.Kern.RestStep
import Rtx.Kern.Scheduling
import Rtx.Kern.Guard
import Rtx.Kern.Index
import Rtx.Lib.Shape
import Rtx.Mem.Trees
import Rtx.Kern.Effect
import Rtx.Kern.Deque
import Rtx.Kern.Atomic
import Rtx.Kern.Order
import Rtx.Kern.Edf
import Rtx.Kern.Deadline
import Rtx.Kern.Channel
import Rtx.Kern.Carried
import Rtx.Kern.Reliable
import Rtx.Kern.Transfer
import Rtx.Kern.Steady
import Rtx.Kern.View
import Rtx.Kern.Period
import Rtx.Kern.Drift
import Rtx.Kern.Clock
import Rtx.Kern.Lineup
import Rtx.Kern.Tick
import Rtx.Kern.Tidy
import Rtx.Kern.Wrap
import Rtx.Kern.Jobs
import Rtx.Kern.Ledger
import Rtx.Kern.RoundRobin
import Rtx.Kern.Stack
import Rtx.Kern.Roster
import Rtx.Kern.Listing
import Rtx.Kern.Insertion
import Rtx.Lib.Pipe
import Rtx.Lib.Process
import Rtx.User.Request
import Rtx.User.WallClock
import Rtx.User.SetCommand
import Rtx.User.Timekeeping
import Rtx.User.Cdisp
import Rtx.Lib.Strung
import Rtx.User.Kcd
import Rtx.Lib.LastWriter
import Rtx.User.Registry
import Rtx.User.Line
import Rtx.User.Dispatch
import Rtx.Kern.Uart
import Rtx.Lib.Core
import Rtx.Hal.Switch
import Rtx.Hal.Threads
import Rtx.Lib.Numeral
import Rtx.Libu.Printf
import Rtx.Mem.Dump
import Rtx.Kern.Console
import Rtx.Kern.Progress
import Rtx.Kern.Pipes
import Rtx.Mem.Contents
