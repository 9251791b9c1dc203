import Lamseryn.Properties.AcceptArmed
import Lamseryn.Properties.AcceptEncoding
import Lamseryn.Properties.AcceptOwned
import Lamseryn.Properties.AccessLogDirect
import Lamseryn.Properties.AccessLogQueue
import Lamseryn.Properties.ActiveSet
import Lamseryn.Properties.BodyLimit
import Lamseryn.Properties.BufferReturn
import Lamseryn.Properties.ClosedDescriptor
import Lamseryn.Properties.Confidential
import Lamseryn.Properties.CutValues
import Lamseryn.Properties.Drain431
import Lamseryn.Properties.HeaderLimit
import Lamseryn.Properties.Lifetime
import Lamseryn.Properties.LogShards
import Lamseryn.Properties.MalformedInput
import Lamseryn.Properties.PendingResponse
import Lamseryn.Properties.Preflight
import Lamseryn.Properties.RangeGrammar
import Lamseryn.Properties.Redirects
import Lamseryn.Properties.Rejection
import Lamseryn.Properties.Restart
import Lamseryn.Properties.Revalidation
import Lamseryn.Properties.SingleRead
import Lamseryn.Properties.Timers
import Lamseryn.Properties.TlsDrain
import Lamseryn.Properties.TlsReload
import Lamseryn.Properties.Trailers
