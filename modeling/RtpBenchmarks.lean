import RtpBenchmarks.Foundation.Bits
import RtpBenchmarks.Foundation.Bytes
import RtpBenchmarks.Foundation.Cursor
import RtpBenchmarks.Foundation.Runs
import RtpBenchmarks.Foundation.Scalars
import RtpBenchmarks.Foundation.Swar
import RtpBenchmarks.V3c.Header
import RtpBenchmarks.V3c.FileMap
import RtpBenchmarks.V3c.Parse
import RtpBenchmarks.V3c.SampleStream
import RtpBenchmarks.V3c.Write
import RtpBenchmarks.V3c.HeaderCodec
import RtpBenchmarks.V3c.Bounds
import RtpBenchmarks.V3c.Receive
import RtpBenchmarks.V3c.Gop
import RtpBenchmarks.V3c.RoundTrip
import RtpBenchmarks.Live555.StartCode
import RtpBenchmarks.Live555.Nals
import RtpBenchmarks.Uvgrtp.Receiver
import RtpBenchmarks.Uvgrtp.ResultLines
import RtpBenchmarks.Uvgrtp.Statistics
import RtpBenchmarks.Ffmpeg.Receiver
import RtpBenchmarks.Uvgrtp.LatencySender
import RtpBenchmarks.Foundation.KeyedMap
import RtpBenchmarks.Foundation.Averages
import RtpBenchmarks.Latency.Report
import RtpBenchmarks.Live555.LatencySender
import RtpBenchmarks.Foundation.Channel
import RtpBenchmarks.Ffmpeg.LatencySender
import RtpBenchmarks.Latency.Averages
import RtpBenchmarks.Uvgrtp.VpccLatencySender
import RtpBenchmarks.Foundation.DecimalText
import RtpBenchmarks.Results.Lines
import RtpBenchmarks.Uvgrtp.VpccResults
import RtpBenchmarks.V3c.ParseResult
import RtpBenchmarks.V3c.Readiness
import RtpBenchmarks.V3c.ParameterSetId
import RtpBenchmarks.Foundation.Blocks
import RtpBenchmarks.Util.ChunkFile
import RtpBenchmarks.Foundation.Stream
import RtpBenchmarks.Scripts.Rounds
import RtpBenchmarks.Foundation.Fragments
import RtpBenchmarks.Live555.FramedSource
import RtpBenchmarks.Live555.Source
import RtpBenchmarks.Live555.LatencyReceiver
import RtpBenchmarks.Network.Udperf
import RtpBenchmarks.Scripts.Schedule
import RtpBenchmarks.Foundation.Pattern
import RtpBenchmarks.Foundation.TextLines
import RtpBenchmarks.Results.TimeReport
import RtpBenchmarks.Results.ParseRecv
import RtpBenchmarks.Foundation.ReadLoop
import RtpBenchmarks.Results.RunLog
import RtpBenchmarks.Results.RunTimes
import RtpBenchmarks.Results.ParseSend
import RtpBenchmarks.Uvgrtp.VpccFraming
import RtpBenchmarks.Results.FileNames
import RtpBenchmarks.Foundation.Words
import RtpBenchmarks.Foundation.Collect
import RtpBenchmarks.Results.Csv
import RtpBenchmarks.Results.CsvColumns
import RtpBenchmarks.Foundation.TextOrder
import RtpBenchmarks.Foundation.Grouping
import RtpBenchmarks.Results.CsvTable
import RtpBenchmarks.Ffmpeg.LatencyPackets
import RtpBenchmarks.Uvgrtp.FullFrames
import RtpBenchmarks.Uvgrtp.VpccPacing
import RtpBenchmarks.Uvgrtp.VpccReceiver
import RtpBenchmarks.V3c.NalLayout
import RtpBenchmarks.V3c.SizeFields
import RtpBenchmarks.V3c.ReadyAccess
import RtpBenchmarks.Util.ChunkSlices
import RtpBenchmarks.Results.LongTime
import RtpBenchmarks.Foundation.Means
import RtpBenchmarks.Results.SendLog
import RtpBenchmarks.Results.SendGoodput
import RtpBenchmarks.Results.ThreadGoodput
import RtpBenchmarks.Results.AbortedRuns
import RtpBenchmarks.Foundation.Selection
import RtpBenchmarks.Results.Directory
import RtpBenchmarks.Results.Thresholds
import RtpBenchmarks.Results.BestGoodput
import RtpBenchmarks.Latency.ParseLatency
import RtpBenchmarks.Foundation.TrailingRuns
import RtpBenchmarks.Util.NextFrameStart
import RtpBenchmarks.Util.SplitIntoNals
import RtpBenchmarks.Live555.SourcePacing
import RtpBenchmarks.Foundation.Paths
import RtpBenchmarks.Util.EncodedNames
import RtpBenchmarks.Foundation.Watch
import RtpBenchmarks.Live555.Sink
import RtpBenchmarks.Live555.SinkLog
import RtpBenchmarks.Live555.Monitors
import RtpBenchmarks.Foundation.Threads
import RtpBenchmarks.Uvgrtp.Sender
import RtpBenchmarks.Uvgrtp.SenderGoodput
import RtpBenchmarks.Foundation.Link
import RtpBenchmarks.Uvgrtp.LatencyReceiver
import RtpBenchmarks.Uvgrtp.Echo
import RtpBenchmarks.Uvgrtp.VpccLoop
import RtpBenchmarks.Uvgrtp.VpccReceiverLine
import RtpBenchmarks.Uvgrtp.VpccEcho
import RtpBenchmarks.Foundation.Progress
import RtpBenchmarks.Scripts.Finish
import RtpBenchmarks.V3c.Transcode
import RtpBenchmarks.Foundation.Simulation
import RtpBenchmarks.Live555.Echo
import RtpBenchmarks.Ffmpeg.Echo
import RtpBenchmarks.Uvgrtp.Throughput
import RtpBenchmarks.Util.TestFile
import RtpBenchmarks.Foundation.Records
import RtpBenchmarks.Live555.Container
import RtpBenchmarks.Live555.Splitters
import RtpBenchmarks.Ffmpeg.Output
import RtpBenchmarks.Ffmpeg.RecvLog
