import Bjoern.Runs
import Bjoern.Server
import Bjoern.Answering
import Bjoern.CloseOnce
import Bjoern.ContinueExchange
import Bjoern.FileRouting
import Bjoern.RaisingClose
import Bjoern.BodylessResponses
import Bjoern.ChunkSizes
import Bjoern.ExpectationDecision
import Bjoern.FastPath
import Bjoern.HeaderRoundTrip
import Bjoern.PipelinedRequests
import Bjoern.RepeatedHeaders
import Bjoern.ExpectComparison
import Bjoern.HeaderBuffer
import Bjoern.Metrics
import Bjoern.ServerAddress
import Bjoern.ResponseStream
import Bjoern.ErrorIndicator
import Bjoern.HttpReading
import Bjoern.ClientReading
import Bjoern.Assertions
import Bjoern.UndefinedBehaviour
import Bjoern.Schedules
import Bjoern.FreshStart
import Bjoern.WriteProgress
import Bjoern.MainLoop
import Bjoern.FileRoutes
import Bjoern.EnvironComplete
import Bjoern.References
import Bjoern.PortableSendfile
import Bjoern.Conversation
import Bjoern.DefaultInstance
import Bjoern.StatsdReading
import Bjoern.StatsdTags
