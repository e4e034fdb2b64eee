import Axess.Session.SessionRevocation
import Axess.Session.Binding
import Axess.Session.Fixation
import Axess.Authn.Moves
import Axess.Session.Finality
import Axess.Refresh.Refusal
import Axess.Refresh.Lifetime
import Axess.Refresh.MemoryRace
import Axess.Delegated.Disconnect
import Axess.Csrf.Match
import Axess.Authn.CodeReuse
import Axess.Authn.GuessLimit
import Axess.Service.Stripped
import Axess.Dpop.Replay
import Axess.Federation.Retention
import Axess.Federation.Ending
import Axess.Federation.PendingEnds
import Axess.Cache.Entities
import Axess.Cache.SingleFlight
import Axess.Device.OneDevice
import Axess.Audit.Marking
import Axess.ClientIp.Chain
import Axess.RateLimit.Capacity
import Axess.Authn.IpPolicy
import Axess.Authn.PasswordHistory
import Axess.Device.WebAuthn
import Axess.Authn.Lockout
import Axess.Session.MemoryRegistry
import Axess.Refresh.DeviceBinding
import Axess.Authn.CodeLimit
import Axess.Federation.SweepQueue
import Axess.Device.Listing
import Axess.RateLimit.Keys
import Axess.Authn.ResetCooldown
import Axess.Factors.Ldap
