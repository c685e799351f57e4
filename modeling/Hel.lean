import Hel.Chat.Sanitize
import Hel.Checkpoint.RecoveryGate
import Hel.Checkpoint.Scan
import Hel.Config.Rename
import Hel.Controller.HiddenContext
import Hel.Controller.Restore
import Hel.Controller.Summary
import Hel.Daemon.PhoneCancel
import Hel.Daemon.Shutdown
import Hel.Lifecycle.GitCache
import Hel.Lifecycle.Teardown
import Hel.Profile.Credentials
import Hel.Quota.Kimi
import Hel.Review.Admission
import Hel.Review.Attribution
import Hel.Review.Coverage
import Hel.Review.Dispatch
import Hel.Review.Progress
import Hel.Review.PromptLock
import Hel.Server.CodeGuard
import Hel.Server.Cookie
import Hel.Session.Feed
import Hel.Session.Lease
import Hel.Worker.Faults
import Hel.Worker.Paging
import Hel.Worker.Resync
import Hel.Worker.Terminal
import Hel.Worker.UserShell
