import Immurok.Async.Trace
import Immurok.Text.Utf8
import Immurok.DualHost
import Immurok.Daemon.Correlation
import Immurok.Daemon.Approval
import Immurok.Daemon.Cancelling
import Immurok.Daemon.Abandoning
import Immurok.Daemon.Slot
import Immurok.Daemon.Released
import Immurok.Daemon.Windows
import Immurok.Daemon.Lines
import Immurok.Daemon.KeyCache
import Immurok.Daemon.HelperLink
import Immurok.Daemon.Handshake
import Immurok.Daemon.GatedReply
import Immurok.Daemon.ByName
import Immurok.Client.Values
import Immurok.Client.Names
import Immurok.Client.Push
import Immurok.Client.Updating
import Immurok.Cli.AgentCommand
import Immurok.PamImmurok
import Immurok.Daemon.Owning
import Immurok.Daemon.SwitchFinger
import Immurok.Daemon.Sleeping
import Immurok.Daemon.AgentStream
import Immurok.Daemon.Bystanders
import Immurok.SshConfig
import Immurok.Daemon.Staging
import Immurok.Daemon.PairingSteps
import Immurok.Daemon.BusyPrompt
import Immurok.Daemon.OtaBlocks
import Immurok.Daemon.Updaters
import Immurok.Client.Ending
import Immurok.Client.SshPayload
import Immurok.Daemon.Signature
import Immurok.Client.OtpSecret
import Immurok.Client.OtpImport
import Immurok.RequestTable
import Immurok.Client.EnrollRun
import Immurok.Daemon.SettingsFile
import Immurok.PamHelper
import Immurok.Client.Status
import Immurok.Daemon.LogStream
import Immurok.Daemon.SshStrings
import Immurok.Text.CharBoundary
import Immurok.Client.Fields
import Immurok.Cli.Tui
import Immurok.Client.Pam
import Immurok.Cli.PanelRuns
import Immurok.Daemon.Answering
