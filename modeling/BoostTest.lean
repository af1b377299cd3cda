import BoostTest.Transition
import BoostTest.Trace
import BoostTest.Connector.Accounts
import BoostTest.Connector.Sessions
import BoostTest.Dump.CrashReport
import BoostTest.Dump.ReportedOnce
import BoostTest.Dump.LogFile
import BoostTest.Echo.Listener
import BoostTest.Timeout.Coverage
import BoostTest.Timeout.Isolation
import BoostTest.Timeout.ParentSlot
import BoostTest.Timeout.Deadline
import BoostTest.Timeout.TimeLimit
import BoostTest.Token.Cancellation
import BoostTest.Token.Completion
import BoostTest.Token.FailedInitiation
import BoostTest.Dump.Unread
import BoostTest.Dump.OneCrash
import BoostTest.Dump.Requests
import BoostTest.Echo.ShortWrites
import BoostTest.Dump.Foreign
