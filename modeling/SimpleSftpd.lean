import SimpleSftpd.Core.Dispatch
import SimpleSftpd.Interaction.System
import SimpleSftpd.Core.Footprint
import SimpleSftpd.Core.Run
import SimpleSftpd.Sessions.Login
import SimpleSftpd.Sessions.VerifiedUser
import SimpleSftpd.Interaction.Tally
import SimpleSftpd.Sessions.Counts
import SimpleSftpd.Sessions.ActiveMode
import SimpleSftpd.Core.HandleClient
import SimpleSftpd.Sessions.CommandLines
import SimpleSftpd.Core.Access
import SimpleSftpd.Cxx.Resolution
import SimpleSftpd.Core.Descriptors
import SimpleSftpd.Core.HandlerAccess
import SimpleSftpd.Core.TraceAccess
import SimpleSftpd.Sessions.Listings
import SimpleSftpd.Sessions.Writes
import SimpleSftpd.Sessions.Encryption
import SimpleSftpd.Core.Answered
import SimpleSftpd.Sessions.Renames
import SimpleSftpd.Sessions.PamLogin
import SimpleSftpd.Core.Ledger
import SimpleSftpd.Core.Received
import SimpleSftpd.Sessions.Restarts
import SimpleSftpd.Sessions.Completions
import SimpleSftpd.Sessions.Protection
import SimpleSftpd.Sessions.Permits
import SimpleSftpd.Cxx.Json
import SimpleSftpd.User.UserManager
import SimpleSftpd.User.SharedFile
import SimpleSftpd.Sessions.AnonymousLogin
import SimpleSftpd.VirtualHost.VirtualHostManager
import SimpleSftpd.VirtualHost.HostFile
import SimpleSftpd.VirtualHost.SavedHosts
import SimpleSftpd.Config.Loaders
import SimpleSftpd.Sessions.BeforeLogin
import SimpleSftpd.Sessions.EpsvAll
import SimpleSftpd.Cxx.Numerals
import SimpleSftpd.Sessions.PassivePorts
import SimpleSftpd.Security.Verification
import SimpleSftpd.User.Credentials
import SimpleSftpd.Sessions.CurrentDirectory
import SimpleSftpd.Cxx.Normal
import SimpleSftpd.Sessions.ReportedPaths
import SimpleSftpd.Core.Storage
import SimpleSftpd.Cxx.Contents
import SimpleSftpd.Core.Uploads
import SimpleSftpd.Core.Downloads
import SimpleSftpd.Core.Transfers
import SimpleSftpd.Sessions.Resumption
import SimpleSftpd.Sessions.Streams
import SimpleSftpd.User.UserChanges
import SimpleSftpd.VirtualHost.HostChanges
import SimpleSftpd.Security.RateLimiter
import SimpleSftpd.Core.Server
import SimpleSftpd.Sessions.Admission
import SimpleSftpd.Interaction.Alike
import SimpleSftpd.Sessions.HiddenUsers
import SimpleSftpd.Sessions.StoredPasswords
import SimpleSftpd.Config.Spellings
import SimpleSftpd.Utils.Compression
import SimpleSftpd.Sessions.ModeZ
import SimpleSftpd.Cxx.Usage
import SimpleSftpd.Sessions.Quota
import SimpleSftpd.Security.Comparison
import SimpleSftpd.Security.StoredHashes
import SimpleSftpd.Utils.Termination
import SimpleSftpd.Config.LoadFromFile
import SimpleSftpd.User.FailedLoads
import SimpleSftpd.Config.YamlSections
import SimpleSftpd.Core.ComparedPaths
import SimpleSftpd.Sessions.ClientPaths
import SimpleSftpd.Cxx.Walking
import SimpleSftpd.Core.LinkedPaths
import SimpleSftpd.Sessions.DanglingLinks
import SimpleSftpd.Core.Reading
import SimpleSftpd.Sessions.Offsets
import SimpleSftpd.Core.Conduct
import SimpleSftpd.Core.Handled
import SimpleSftpd.Sessions.OneReply
import SimpleSftpd.Cxx.Maps
import SimpleSftpd.Utils.FileCache
import SimpleSftpd.Cxx.Fields
import SimpleSftpd.Sessions.Endpoints
import SimpleSftpd.Cxx.Octets
import SimpleSftpd.Security.AddressLists
import SimpleSftpd.Core.PathForms
import SimpleSftpd.Sessions.TrailingSlashes
import SimpleSftpd.Sessions.Chroot
import SimpleSftpd.Config.QuotedValues
import SimpleSftpd.Core.Throttling
import SimpleSftpd.Sessions.TransferRate
import SimpleSftpd.Config.Reloading
import SimpleSftpd.Cxx.Doubles
import SimpleSftpd.Sessions.DirectorySizes
import SimpleSftpd.Sessions.Registrations
import SimpleSftpd.Utils.OneShot
import SimpleSftpd.VirtualHost.OptionFlags
import SimpleSftpd.Cxx.JsonText
import SimpleSftpd.Utils.Logger
import SimpleSftpd.Core.Ownership
import SimpleSftpd.Interaction.Pool
import SimpleSftpd.Sessions.Closing
import SimpleSftpd.Sessions.OpenDescriptors
import SimpleSftpd.Interaction.Projection
import SimpleSftpd.Sessions.UniqueNames
import SimpleSftpd.Sessions.UniqueFiles
import SimpleSftpd.Core.InsidePaths
import SimpleSftpd.Sessions.Containment
import SimpleSftpd.Core.ConnectionPool
import SimpleSftpd.Sessions.StoredFiles
import SimpleSftpd.User.UserCommand
import SimpleSftpd.Cxx.AbsentBytes
import SimpleSftpd.Core.Speech
import SimpleSftpd.Core.SpokenReplies
import SimpleSftpd.Sessions.ReplyLines
import SimpleSftpd.Sessions.ClientView
import SimpleSftpd.Sessions.ListedEntries
