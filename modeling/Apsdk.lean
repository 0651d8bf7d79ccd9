import Apsdk.Library.PriorityQueue
import Apsdk.AudioStream
import Apsdk.Proofs.AudioRetention
import Apsdk.Proofs.SequenceShift
import Apsdk.Connection
import Apsdk.Proofs.BodyRead
import Apsdk.Proofs.Framing
import Apsdk.Proofs.RequestFraming
import Apsdk.Proofs.ResponseFraming
import Apsdk.Proofs.VideoBuffer
import Apsdk.Library.Traced
import Apsdk.Library.WriteLog
import Apsdk.MediaDataStore
import Apsdk.CondensedPlaylist
import Apsdk.PlistDecoder
import Apsdk.PlistEncoder
import Apsdk.Proofs.DecoderSafety
import Apsdk.Proofs.PlaylistCompletion
import Apsdk.Proofs.PlistLayout
import Apsdk.Proofs.PlistRoundTrip
import Apsdk.ApCrypto
import Apsdk.MessageGrammar
import Apsdk.Mirroring
import Apsdk.Proofs.CounterMode
import Apsdk.Proofs.DeliveryOrder
import Apsdk.Proofs.HeadGrammar
import Apsdk.Proofs.MessageReuse
import Apsdk.Proofs.ResponseOrder
import Apsdk.Proofs.SerializedHead
import Apsdk.Proofs.StreamKeys
import Apsdk.Proofs.VideoDecryption
import Apsdk.AirplayConnection
import Apsdk.CastingHandlers
import Apsdk.Proofs.ComposedResponse
import Apsdk.Proofs.HandlerSafety
import Apsdk.Proofs.WellFormedResponse
import Apsdk.Library.Chains
import Apsdk.Proofs.DecoderTermination
import Apsdk.Proofs.EventConnections
import Apsdk.Proofs.SessionPairing
import Apsdk.Proofs.RejectedRequests
import Apsdk.Proofs.PairRequests
import Apsdk.Proofs.PairVerified
import Apsdk.Proofs.Reordering
import Apsdk.PlistGraph
import Apsdk.PlistFormat
import Apsdk.Proofs.GraphDecoding
import Apsdk.Proofs.FormatDecoding
import Apsdk.Proofs.Reencoding
import Apsdk.Proofs.CastingRun
import Apsdk.Proofs.PlayerLocations
import Apsdk.Proofs.StreamCallbacks
import Apsdk.ApServer
import Apsdk.Proofs.ServerLifecycle
import Apsdk.Proofs.EncoderSizes
import Apsdk.Proofs.EncoderBounds
import Apsdk.Library.Numbering
import Apsdk.Library.Regex
import Apsdk.Library.RegexSyntax
import Apsdk.Library.RegexLiteral
import Apsdk.Library.RegexCaptures
import Apsdk.Proofs.ObjectTable
import Apsdk.Proofs.PlaylistCollection
import Apsdk.Proofs.FcupRequests
import Apsdk.Proofs.CondensedExpansion
import Apsdk.Proofs.BoundedBuffer
import Apsdk.Proofs.RouteLookup
import Apsdk.Proofs.SessionMethods
import Apsdk.Proofs.BodyTaken
import Apsdk.Proofs.ContentLength
import Apsdk.TimingSync
import Apsdk.Proofs.TimingQuery
import Apsdk.Library.Rendering
import Apsdk.AudioReceiver
import Apsdk.Proofs.AudioDecryption
import Apsdk.Proofs.AudioPlayback
import Apsdk.Proofs.VideoPlayback
import Apsdk.Proofs.AesChaining
import Apsdk.Proofs.Sha512Digest
import Apsdk.Proofs.HlsDocuments
import Apsdk.Proofs.MediaServing
import Apsdk.Proofs.CastPlayback
import Apsdk.Proofs.Linearization
