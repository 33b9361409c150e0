import LanWeave.Server.SyntheticPool
import LanWeave.Server.StaleGrants
import LanWeave.Server.LostUpdates
import LanWeave.Server.Attachments
import LanWeave.Server.Orphans
import LanWeave.Client.Tunnel
import LanWeave.Client.Routes
import LanWeave.Client.RouteBooks
import LanWeave.Client.Connect
import LanWeave.Client.Attempts
import LanWeave.Server.Startup
import LanWeave.Server.Incremental
import LanWeave.Server.Effects
import LanWeave.Golang.Base64
import LanWeave.Golang.Time
import LanWeave.Server.SingleUse
import LanWeave.Server.Authority
import LanWeave.Server.Strangers
import LanWeave.Server.DeletedUser
import LanWeave.Server.OwnPeers
import LanWeave.Server.Compensation
import LanWeave.Router.Translation
import LanWeave.Router.Freeze
import LanWeave.Server.Issued
import LanWeave.Router.Commands
import LanWeave.Router.Credentials
import LanWeave.Client.RouteLife
import LanWeave.Server.RefreshTokens
import LanWeave.Server.TokenLife
import LanWeave.Server.UserDeletion
import LanWeave.Client.Panel
import LanWeave.Client.HostFirewall
import LanWeave.Client.Gateway
import LanWeave.Server.Served
import LanWeave.Server.Tidy
import LanWeave.Client.Replies
import LanWeave.Library.Dialogue
import LanWeave.Library.Renewal
import LanWeave.Router.Leftovers
import LanWeave.Server.PoolRange
import LanWeave.Server.BlockAllocation
import LanWeave.Server.AnnouncementCreate
import LanWeave.Client.FetchExact
import LanWeave.Client.FastPath
import LanWeave.Golang.Net
import LanWeave.Server.ConfigPools
import LanWeave.Client.SignOut
import LanWeave.Server.SignIn
import LanWeave.Client.ErrorMapping
import LanWeave.Client.AtMostOnce
import LanWeave.Server.NodeAllocation
import LanWeave.Router.AnnounceAdd
import LanWeave.Router.LogoutAgreement
import LanWeave.Router.Reads
import LanWeave.Router.NatUpkeep
import LanWeave.Library.IntervalSet
import LanWeave.Server.RouteElements
import LanWeave.Router.ReadBack
import LanWeave.Library.Argv
import LanWeave.Client.Winelevate
import LanWeave.Golang.ServeMux
import LanWeave.Server.ApiRoutes
import LanWeave.Client.ZoneNames
import LanWeave.Server.InviteStatus
import LanWeave.Library.History
import LanWeave.Client.Preference
import LanWeave.Library.Journal
import LanWeave.Router.Daemon
import LanWeave.Router.AnnounceRemove
import LanWeave.Client.OnboardRetry
import LanWeave.Client.ThisMachine
import LanWeave.Golang.Json
import LanWeave.Client.StateFile
import LanWeave.Library.AtomicFile
import LanWeave.Router.FileStore
import LanWeave.Library.Rely
import LanWeave.Server.Quotas
import LanWeave.Golang.Base64Text
import LanWeave.Server.KeyFile
import LanWeave.Server.Password
import LanWeave.Server.Jwt
import LanWeave.Server.Status
import LanWeave.Client.Session
