import LogMaker.Exchange
import LogMaker.Lines
import LogMaker.Counter
import LogMaker.Lib.Mutex
import LogMaker.Report
import LogMaker.Handles
import LogMaker.Alone
import LogMaker.Waits
import LogMaker.Closing
import LogMaker.CountBox
import LogMaker.Clicks
import LogMaker.Frozen
import LogMaker.Stale
import LogMaker.SentLogs
import LogMaker.Mixed
import LogMaker.Turns
import LogMaker.Form
import LogMaker.Order
import LogMaker.Drain
import LogMaker.Over
import LogMaker.Opening
import LogMaker.Unedited
import LogMaker.Overtaken
import LogMaker.Controls
import LogMaker.Spdlog.LogFiles
import LogMaker.Unedited
import LogMaker.Overtaken
