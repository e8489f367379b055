import HueStream.Flow.Attempts
import HueStream.Flow.Reset
import HueStream.Dispatch.Library
import HueStream.Dispatch.MessageDispatcher
import HueStream.Flow.Late
import HueStream.Flow.Terminal
import HueStream.Retriever.Identities
import HueStream.Retriever.Busy
import HueStream.Retriever.Copies
import HueStream.Session.Callbacks
import HueStream.Session.Streams
import HueStream.Session.Framing
import HueStream.Data.Remembering
import HueStream.Data.DeepCopy
import HueStream.Render.Stopping
import HueStream.Effects.Stack
import HueStream.Effects.Turns
import HueStream.Effects.Assigning
import HueStream.Effects.Directions
import HueStream.Effects.Stepping
import HueStream.Config.Groups
import HueStream.Flow.Detection
import HueStream.Streaming.Decoding
import HueStream.Streaming.Sessions
import HueStream.Streaming.Missing
import HueStream.Storage.RoundTrip
import HueStream.Scripts.RoundTrip
import HueStream.Storage.Typed
import HueStream.Scripts.Actions
import HueStream.Scripts.Timeline
import HueStream.Scripts.Enabling
import HueStream.Animations.Shows
import HueStream.Animations.Indexing
import HueStream.Animations.Linearizing
import HueStream.Animations.Triggers
import HueStream.Animations.FramesAnimation
import HueStream.Animations.Player
import HueStream.Threading.Waiting
import HueStream.Network.Answers
import HueStream.Network.Attending
import HueStream.Discovery.Answered
import HueStream.Storage.Loading
import HueStream.Monitor.Monitoring
import HueStream.Monitor.Checks
import HueStream.Retriever.Listening
import HueStream.Retriever.Refreshing
import HueStream.Retriever.Applying
import HueStream.Lights.Overlap
import HueStream.Threading.Blocking
import HueStream.Threading.Clearing
import HueStream.Threading.ThreadPool
import HueStream.Curl.Serving
import HueStream.Scheduling.Ticks
import HueStream.Scheduling.Removing
import HueStream.Futures.Gathering
import HueStream.Futures.Assigning
import HueStream.Methods.Merging
import HueStream.Methods.Scanning
import HueStream.Methods.Grouping
import HueStream.Config.Response
import HueStream.Animations.HueMath
import HueStream.Effects.Angles
import HueStream.Support.Utf8
import HueStream.Support.Splitting
