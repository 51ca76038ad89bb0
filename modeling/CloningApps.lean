import CloningApps.Cmdline.Agreement
import CloningApps.Cmdline.RoundTrip
import CloningApps.Cmdline.Tokenize
import CloningApps.Cmdline.Valid
import CloningApps.Fuzz.Release
import CloningApps.Main.CommandLine
import CloningApps.Main.Drain
import CloningApps.Main.Kin
import CloningApps.Main.Permissions
import CloningApps.Main.Uninitialised
import CloningApps.Memory.BlockRuns
import CloningApps.Memory.Duration
import CloningApps.Memory.PageRuns
import CloningApps.Memory.Size
import CloningApps.Memory.SizeSyntax
import CloningApps.Net.Gateway
import CloningApps.Net.LanRuns
import CloningApps.Net.Listener
import CloningApps.Net.PosixServer
import CloningApps.Net.Retransmit
import CloningApps.Net.Sessions
import CloningApps.Profile.Timestamp
import CloningApps.Server.CloneRoles
import CloningApps.Server.Counter
import CloningApps.Server.Creation
import CloningApps.Server.ForkFamily
import CloningApps.Server.Message
import CloningApps.Server.OnRequest
import CloningApps.Server.Ownership
import CloningApps.Server.PageLengths
import CloningApps.Server.Ports
import CloningApps.Server.Released
import CloningApps.Server.Requests
import CloningApps.Server.Results
import CloningApps.Server.Writers
import CloningApps.Thread.Wait
