import JFlac.Lib.Transition
import JFlac.Basic
import JFlac.Handles.Safety
import JFlac.Decode.CopySafety
import JFlac.Decode.Corruption
import JFlac.Decode.PullChannels
import JFlac.Decode.TrueEnds
import JFlac.Decode.AllOrNothing
import JFlac.Encode.Jobs
import JFlac.Decode.CountChecks
import JFlac.Decode.Interchange
import JFlac.Decode.StreamInfoFirst
import JFlac.Sessions.Decoding
import JFlac.Sessions.Encoding
import JFlac.Sessions.PullSafety
import JFlac.Sound.Lossless
import JFlac.Sound.FormatProbe
import JFlac.Sound.Fragments
import JFlac.Sound.StreamOpen
import JFlac.Encode.Transport
import JFlac.Streams.Progress
import JFlac.Metadata.Editing
import JFlac.Metadata.EditSession
import JFlac.Metadata.Requests
import JFlac.Pcm.Views
import JFlac.Streams.EmbeddedStream
