import Legator.System
import Legator.Time
import Legator.Names
import Legator.Net
import Legator.Scheduler.RunTracker
import Legator.Scheduler.Gate
import Legator.Scheduler.Schedule
import Legator.Scheduler.Webhook
import Legator.Scheduler.Debounce
import Legator.Dashboard.OIDC
import Legator.Rbac.Engine
import Legator.Reporter.Channels
import Legator.Reporter.Transport
import Legator.Reporter.Engine
import Legator.Retention.Controller
import Legator.Retention.Store
import Legator.Skills.Path
import Legator.Skills.FileSystem
import Legator.Skills.Cache
import Legator.Skills.Pack
import Legator.Skills.OciRef
import Legator.Skills.Loader
import Legator.Vault.Credentials
import Legator.Multicluster.ClientFactory
import Legator.Lifecycle.Shutdown
import Legator.Tools.Classify
import Legator.Connectivity
