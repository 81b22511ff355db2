import FrameworksAv.AudioTrackShared.LateRelease
import FrameworksAv.AudioTrackShared.StaticWindow
import FrameworksAv.AudioTrackShared.StaticCommands
import FrameworksAv.SingleStateQueue.Alone
import FrameworksAv.StateQueue.Guarantees
import FrameworksAv.MonoPipe.Guarantees
import FrameworksAv.EffectParams.Delivery
import FrameworksAv.SampleTable.RandomAccess
import FrameworksAv.Effects.Ownership
import FrameworksAv.Effects.ChainWiring
import FrameworksAv.Effects.Nesting
import FrameworksAv.AudioMixer.Blocks
import FrameworksAv.AudioResamplerDyn.Fragmentation
import FrameworksAv.SkipCutBuffer.Stream
import FrameworksAv.NuCachedSource.Reads
import FrameworksAv.AMessage.RoundTrip
import FrameworksAv.AMessage.Items
import FrameworksAv.PacketSource.Bookkeeping
import FrameworksAv.MPEG4Writer.Recording
import FrameworksAv.MPEG4Writer.Durations
import FrameworksAv.RTP.Receiving
import FrameworksAv.ANetworkSession.Fragmentation
import FrameworksAv.Camera3.IdleTracking
import FrameworksAv.Mtp.PropertyRoundTrip
import FrameworksAv.MtpServer.Editing
import FrameworksAv.MtpServer.Sending
import FrameworksAv.PlaylistFetcher.Padding
import FrameworksAv.TimedEventQueue.Delivery
import FrameworksAv.TimedEventQueue.WakeLock
import FrameworksAv.Webm.EbmlRoundTrip
import FrameworksAv.Webm.FrameWriting
import FrameworksAv.ATSParser.PesRuns
import FrameworksAv.ATSParser.RecoverPTS
import FrameworksAv.BufferProviders.CopyBuffer
import FrameworksAv.Camera3Device.InFlightRuns
import FrameworksAv.ClientManager.Refusals
import FrameworksAv.ESQueue.Termination
import FrameworksAv.ClearKey.Decryption
import FrameworksAv.Foundation.NALBitReader
import FrameworksAv.FwdLock.Decoder
import FrameworksAv.MonoPipe.PipeReader
import FrameworksAv.RTP.Damage
import FrameworksAv.RTP.SequenceNumbers
import FrameworksAv.SampleTable.Near
import FrameworksAv.TSPacketizer.ClockReference
import FrameworksAv.AudioPolicy.PortConfig
import FrameworksAv.Tiff.Strips
import FrameworksAv.MtpServer.Ranges
import FrameworksAv.Foundation.AStringUtils
import FrameworksAv.RTP.Control
import FrameworksAv.PlaylistFetcher.Segments
import FrameworksAv.AudioPolicy.SamplingRates
import FrameworksAv.AudioPolicy.StreamVolume
import FrameworksAv.ANetworkSession.Sending
import FrameworksAv.Camera3.Preparation
import FrameworksAv.Camera3.RingBufferConsumer
import FrameworksAv.AudioPolicy.Patches
import FrameworksAv.ClearKey.InitData
