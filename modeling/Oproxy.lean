import Oproxy.Session.Bounds
import Oproxy.ControlPlane.TokenGate
import Oproxy.ControlPlane.Csrf
import Oproxy.Middleware.Plugins.AccessControl
import Oproxy.Middleware.Plugins.DnsOverride
import Oproxy.Middleware.Plugins.MapRemote
import Oproxy.Middleware.Plugins.Rules
import Oproxy.Engine.Upstream
import Oproxy.Engine.DialledHost
import Oproxy.Engine.RewrittenUrl
import Oproxy.Engine.InterceptedOrigin
import Oproxy.Core.Grpc
import Oproxy.Middleware.Plugins.LuaEngine
import Oproxy.Middleware.Plugins.Breakpoints
import Oproxy.Middleware.Plugins.Mock
import Oproxy.Middleware.Plugins.MapLocal
import Oproxy.Core.Decompression
import Oproxy.Engine.Exchange
import Oproxy.Engine.Production
import Oproxy.Engine.Transparency
import Oproxy.Engine.Framing
import Oproxy.Lib.Frames
import Oproxy.Middleware.Plugins.GrpcInspector
import Oproxy.Engine.SizeLimits
import Oproxy.Engine.BodyBreakpoints
import Oproxy.Engine.GrpcTrailers
import Oproxy.Transport.Http3
import Oproxy.ControlPlane.StoragePaths
import Oproxy.ControlPlane.AdminEgress
import Oproxy.Engine.Recording
import Oproxy.Lib.Base64
import Oproxy.ControlPlane.Forward
import Oproxy.ControlPlane.ComposeErrors
import Oproxy.ControlPlane.ComposeParity
import Oproxy.Engine.TerminalGuard
import Oproxy.Transport.Connect
import Oproxy.Transport.Socks5
import Oproxy.Transport.TunnelSessions
import Oproxy.Middleware.ContextWire
import Oproxy.Transport.FrameTransparency
import Oproxy.Transport.FilteredRecording
import Oproxy.Middleware.Plugins.GrpcRelay
import Oproxy.ControlPlane.ResolveBreakpoint
import Oproxy.Middleware.Plugins.BreakpointManager
import Oproxy.Middleware.Plugins.BreakpointDelivery
import Oproxy.Middleware.Plugins.BreakpointCleanup
import Oproxy.Session.Budget
import Oproxy.Session.OldestFirst
import Oproxy.Session.Polling
import Oproxy.Engine.Annotations
import Oproxy.Engine.BothSides
import Oproxy.Core.Playback
import Oproxy.Engine.BrokenBodies
import Oproxy.Engine.Acts
import Oproxy.Engine.TerminalResponses
import Oproxy.Transport.Lifecycle
import Oproxy.Middleware.Plugins.MockRotation
import Oproxy.Middleware.Plugins.LuaTransparency
import Oproxy.ControlPlane.Dispatch
import Oproxy.ControlPlane.EgressLiterals
import Oproxy.Lib.SharedFile
import Oproxy.ControlPlane.PersistedRules
import Oproxy.Lib.Normalize
import Oproxy.ControlPlane.Workspace
import Oproxy.ControlPlane.WorkspaceActions
import Oproxy.ControlPlane.WorkspaceRuns
import Oproxy.Middleware.Traces
import Oproxy.Session.Traces
import Oproxy.Engine.CompleteTraces
import Oproxy.Har.Entry
import Oproxy.Har.RoundTrip
import Oproxy.Har.Redaction
import Oproxy.Har.Echoes
import Oproxy.Har.RedactedExport
import Oproxy.Lib.Loop
import Oproxy.Lib.Wildcard
import Oproxy.Middleware.Glob
import Oproxy.Middleware.Plugins.GrpcSplitter
import Oproxy.ControlPlane.GrpcLengths
import Oproxy.Middleware.Plugins.WireFormat
import Oproxy.ControlPlane.AssistantActions
import Oproxy.ControlPlane.Confirmation
import Oproxy.ControlPlane.Identities
import Oproxy.ControlPlane.AssistantExecution
import Oproxy.ControlPlane.RefusedChanges
import Oproxy.ControlPlane.DnsTables
import Oproxy.ControlPlane.AdminPaths
import Oproxy.ControlPlane.Effects
import Oproxy.Diff
import Oproxy.Middleware.AppendHeader
import Oproxy.Middleware.QueryEdits
import Oproxy.Middleware.Plugins.WireEncoding
import Oproxy.Lib.Marks
import Oproxy.Middleware.Plugins.MockTemplate
import Oproxy.Core.ContentCodings
import Oproxy.Har.HiddenValues
import Oproxy.Lib.Cuts
import Oproxy.Har.KnownValues
import Oproxy.Engine.RecorderAgreement
import Oproxy.Transport.DialPaths
import Oproxy.ControlPlane.AssistantParity
import Oproxy.Engine.ProxyLoops
import Oproxy.Lib.Segments
import Oproxy.Transport.Socks5Handshake
import Oproxy.Transport.Socks5Grammar
import Oproxy.Lib.Shell
import Oproxy.Middleware.Plugins.LuaRep
import Oproxy.Middleware.Plugins.LuaTables
import Oproxy.Middleware.Plugins.ReplacedBodies
import Oproxy.Export.Replay
import Oproxy.Export.CurlWords
import Oproxy.Lib.Literals
import Oproxy.Lib.ScriptGrammars
import Oproxy.Export.ScriptLiterals
import Oproxy.Export.ParseCurl
import Oproxy.Export.CurlImport
import Oproxy.Export.RedactedSnippets
import Oproxy.ControlPlane.PayloadRepair
import Oproxy.ControlPlane.ProposedActions
import Oproxy.Certs.Leaves
import Oproxy.Certs.RootFiles
import Oproxy.ControlPlane.Login
import Oproxy.Lib.Cookies
import Oproxy.Transport.CertificateNames
import Oproxy.ControlPlane.SignInCookies
import Oproxy.Lib.Browser
import Oproxy.ControlPlane.SignInRedirects
import Oproxy.ControlPlane.AssistantRedaction
import Oproxy.Session.Notifications
import Oproxy.ControlPlane.SessionList
import Oproxy.ControlPlane.SessionView
import Oproxy.ControlPlane.AssistantContext
import Oproxy.ControlPlane.MapLocalFiles
import Oproxy.ControlPlane.Fixtures
import Oproxy.ControlPlane.Connections
import Oproxy.Middleware.HeaderOps
import Oproxy.ControlPlane.Overflow
import Oproxy.ControlPlane.Preconditions
import Oproxy.ControlPlane.LostUpdates
import Oproxy.ControlPlane.Proposals
import Oproxy.ControlPlane.AssistantChat
import Oproxy.Runtime.Examples
import Oproxy.Runtime.Storage
import Oproxy.Runtime.SaneWebhooks
import Oproxy.Runtime.Restarts
import Oproxy.Runtime.Inert
import Oproxy.Runtime.AtomicSaves
