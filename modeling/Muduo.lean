import Muduo.Library.BatchQueue
import Muduo.Library.Labelled
import Muduo.Library.Machine
import Muduo.Library.OrderedSet
import Muduo.Library.Ownership
import Muduo.Library.Search
import Muduo.Library.Trace
import Muduo.Library.Window
import Muduo.Library.Handles
import Muduo.Base.Assert
import Muduo.Base.Buffer
import Muduo.Base.BufferRuns
import Muduo.Base.Timer
import Muduo.Http.Request
import Muduo.Http.Context
import Muduo.Http.Parsing
import Muduo.Http.Rendering
import Muduo.Http.Grammar
import Muduo.Http.Incremental
import Muduo.Http.Server
import Muduo.Http.ServerSteps
import Muduo.Http.ServerAsserts
import Muduo.Http.Dispatch
import Muduo.Http.HeaderEnds
import Muduo.Http.Refusals
import Muduo.Http.ConnectionRuns
import Muduo.Http.Answers
import Muduo.Http.LateRequests
import Muduo.Http.ResponseStream
import Muduo.Http.ReplyRuns
import Muduo.Http.ServerThreads
import Muduo.Http.ThreadSteps
import Muduo.Http.ThreadRuns
import Muduo.Net.FdHandler
import Muduo.Net.LinkedSocket
import Muduo.Net.SendRuns
import Muduo.Net.LinkCallbacks
import Muduo.Net.EventLoop
import Muduo.Net.EventLoopRuns
import Muduo.Net.EventLoopThread
import Muduo.Net.LinkLoop
import Muduo.Net.LinkSteps
import Muduo.Net.LinkLifetime
import Muduo.Net.LinkControl
import Muduo.Net.LinkCloses
import Muduo.Net.ForceClose
import Muduo.Net.LinkBytes
import Muduo.Net.HalfClose
import Muduo.Net.LinkFrames
import Muduo.Net.NestedSends
import Muduo.Net.SharedLink
import Muduo.Net.SharedSteps
import Muduo.Net.SharedOrder
import Muduo.Net.SharedDelivery
import Muduo.Net.TimerQueue
import Muduo.Net.TimerSpecs
import Muduo.Net.TimerOwnership
import Muduo.Net.TimerArming
import Muduo.Net.TimerBatch
import Muduo.Net.TimerHistory
import Muduo.Net.TimerCancel
import Muduo.Net.TimerThreads
import Muduo.Net.EchoServer
import Muduo.Net.Epoll
import Muduo.Net.EpollRuns
import Muduo.Net.ConnectSocket
import Muduo.Net.ConnectSteps
import Muduo.Net.ConnectRuns
import Muduo.Net.StopRuns
import Muduo.Net.TcpClient
import Muduo.Net.ClientRuns
import Muduo.Base.Atomic
import Muduo.Base.NetworkInts
import Muduo.Base.Logging
import Muduo.Net.ListeningSocket
import Muduo.Base.StringPiece
import Muduo.Http.ContentLength
import Muduo.Net.HighWater
import Muduo.Net.LoopDestruction
import Muduo.Base.InetAddress
import Muduo.Library.CutNumerals
import Muduo.Net.TcpServer
import Muduo.Net.ServerNames
import Muduo.Net.TimerIds
import Muduo.Net.Reconnect
import Muduo.Base.ThreadUtil
import Muduo.Base.Thread
import Muduo.Library.Refinement
import Muduo.Net.StartLoop
import Muduo.Library.RoundRobin
import Muduo.Net.EventLoopThreadPool
import Muduo.Net.PooledServer
import Muduo.Net.LoopQuit
import Muduo.Library.CriticalSection
import Muduo.Base.LogStamps
import Muduo.Http.Conversations
import Muduo.Http.Site
import Muduo.Net.TimerPeriods
import Muduo.Base.BufferMemory
import Muduo.Http.InputMemory
import Muduo.Net.ConnectBackoff
import Muduo.Net.LinkDrains
import Muduo.Library.Rounds
import Muduo.Net.PollBatches
import Muduo.Net.HandlerLifetimes
