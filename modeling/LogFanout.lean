import LogFanout.Session
import LogFanout.Threads.Trial
import LogFanout.Proofs.Attempts
import LogFanout.Proofs.Banner
import LogFanout.Proofs.Capture
import LogFanout.Proofs.Components
import LogFanout.Proofs.Custody
import LogFanout.Proofs.FanOut
import LogFanout.Proofs.Framing
import LogFanout.Proofs.LastWriter
import LogFanout.Proofs.LevelNames
import LogFanout.Proofs.Lifecycle
import LogFanout.Proofs.Misuse
import LogFanout.Proofs.Reentry
import LogFanout.Proofs.Replacement
import LogFanout.Proofs.RoundTrip
import LogFanout.Proofs.Schedules
import LogFanout.Proofs.SharedTarget
import LogFanout.Proofs.StaleHandles
import LogFanout.Proofs.Surface
import LogFanout.Proofs.Torn
