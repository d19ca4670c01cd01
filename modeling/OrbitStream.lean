import OrbitStream.Lib.Links
import OrbitStream.Lib.Memory
import OrbitStream.VideoMap
import OrbitStream.Lib.Sets
import OrbitStream.VideoMapGraph
import OrbitStream.Rtp
import OrbitStream.VideoFrameQueue
import OrbitStream.ForwardNew
import OrbitStream.ForwardNewAgree
import OrbitStream.ForwardNewContinuity
import OrbitStream.ForwardOld
import OrbitStream.ForwardOldViewers
import OrbitStream.DispatcherRoom
import OrbitStream.Lib.Rebase
import OrbitStream.Lib.Scan
import OrbitStream.Lib.BitSize
import OrbitStream.DispatcherStream
import OrbitStream.StreamService
import OrbitStream.StreamServiceLifecycle
import OrbitStream.Master
import OrbitStream.RtcpContext
import OrbitStream.RtcpStream
import OrbitStream.RtcpDispatch
import OrbitStream.Lib.Heap
import OrbitStream.RtpSender
import OrbitStream.Codec
import OrbitStream.Lib.Bytes
import OrbitStream.RecordIO
import OrbitStream.SSTable
import OrbitStream.SdpInfo
import OrbitStream.SdpInfoSafety
import OrbitStream.RtcpWalk
import OrbitStream.RtcpRewrite
import OrbitStream.RtcpBounds
import OrbitStream.RtcpNacks
import OrbitStream.Retransmit
import OrbitStream.Lib.CircList
import OrbitStream.NackTracker
import OrbitStream.NackPacing
import OrbitStream.RtcpRemb
import OrbitStream.RtcpStrip
import OrbitStream.RtcpSdes
import OrbitStream.Lib.Queue
import OrbitStream.RtpPacketQueue
import OrbitStream.LiveStream
import OrbitStream.SpeakerEstimator
import OrbitStream.AudioEnergy
import OrbitStream.AudioMixer
import OrbitStream.ClassRoomPlugin
import OrbitStream.ClassRoom
import OrbitStream.NetworkStatusRecv
import OrbitStream.Lib.Round
import OrbitStream.MasterAllocation
import OrbitStream.NetworkStatusSend
import OrbitStream.HttpSession
import OrbitStream.SessionInfo
import OrbitStream.VideoMixer
import OrbitStream.RembProcessor
import OrbitStream.AudioBuffer
import OrbitStream.SdpPayload
import OrbitStream.Lib.Text
import OrbitStream.SdpCandidate
import OrbitStream.SdpText
import OrbitStream.Lib.History
import OrbitStream.SrHistory
import OrbitStream.Lib.Markers
import OrbitStream.StrUtil
import OrbitStream.HtmlWriter
import OrbitStream.HtmlTemplate
import OrbitStream.HtmlCalls
import OrbitStream.HtmlRender
import OrbitStream.NackRecovery
import OrbitStream.TransportSend
import OrbitStream.TransportStack
import OrbitStream.RttLoop
import OrbitStream.Lib.Reorder
import OrbitStream.StreamRecorder
import OrbitStream.ClassRecording
import OrbitStream.TimeRecorder
import OrbitStream.KeyFrameRequests
import OrbitStream.HttpServer
import OrbitStream.Lib.Workers
import OrbitStream.AudioEncode
