import Nightcrow.Application.DrawBackend
import Nightcrow.Application.Mouse
import Nightcrow.Backend.Drain
import Nightcrow.Backend.InputQueue
import Nightcrow.Backend.Relaunch
import Nightcrow.Daemon.Pump
import Nightcrow.Daemon.Routing
import Nightcrow.Git.Admission
import Nightcrow.Git.Clone
import Nightcrow.Git.LoadController
import Nightcrow.Git.LoadWorker
import Nightcrow.Git.Tree
import Nightcrow.Library.Channel
import Nightcrow.Library.Runs
import Nightcrow.Page.Edit.Markers
import Nightcrow.Page.Edit.Preview
import Nightcrow.Page.StatusDiff
import Nightcrow.Page.Terminal.Writes
import Nightcrow.Plugin.Ceiling
import Nightcrow.Recovery.Budget
import Nightcrow.Recovery.Episode
import Nightcrow.Recovery.Provider.CodexPane
import Nightcrow.Recovery.Provider.OpenCode
import Nightcrow.Recovery.RealTime
import Nightcrow.Runtime.Emulator.Parser
import Nightcrow.Runtime.Snapshot.Worker
import Nightcrow.Runtime.Terminal.Replies
import Nightcrow.Runtime.Terminal.Sizes
import Nightcrow.Session.Catalog.Facade
import Nightcrow.Session.Catalog.Promises
import Nightcrow.Session.CloneJobs
import Nightcrow.Session.Prefs
import Nightcrow.Session.Runtime.Greeting
import Nightcrow.Session.SizeOwner.Ownership
import Nightcrow.Session.SizeOwner.Verdicts
import Nightcrow.Session.Terminal.AltRecords
import Nightcrow.Session.Terminal.Arrangement
import Nightcrow.Session.Terminal.Delivery
import Nightcrow.Session.Terminal.ReplayRecord
import Nightcrow.Session.Terminal.Ring
import Nightcrow.Session.Terminal.StartupOffers
import Nightcrow.Session.Watchers.Authority
import Nightcrow.Ui.DiffPane.Layout
import Nightcrow.Ui.FileLines
import Nightcrow.Viewer.FileWrite
import Nightcrow.Web.RateLimiter
import Nightcrow.Web.Request
import Nightcrow.Web.Sessions
import Nightcrow.Web.SessionsFile
import Nightcrow.Web.Sse
import Nightcrow.Workspace.PathTree
import Nightcrow.Workspace.Tabs
import Nightcrow.Daemon.Watch
import Nightcrow.Application.SessionLink
import Nightcrow.Session.Calls
import Nightcrow.Library.Cursor
import Nightcrow.Runtime.Terminal.SplitView
import Nightcrow.Application.Navigation
