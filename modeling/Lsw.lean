import Lsw.Lib.Exec
import Lsw.Lib.Effect
import Lsw.Lib.Traced
import Lsw.Lib.Follows
import Lsw.Lib.Run
import Lsw.Lib.Raster
import Lsw.Lib.Wire
import Lsw.Lib.Text
import Lsw.Lib.Path
import Lsw.Lib.Pieces
import Lsw.Core.ManifestRoundTrip
import Lsw.Core.ShareRoots
import Lsw.Core.Store
import Lsw.Core.StoreRace
import Lsw.Core.StoredManifest
import Lsw.Core.Qemu
import Lsw.Cli.ManifestEdits
import Lsw.Protocol.Codec
import Lsw.Presenter.Render
import Lsw.Agent.GuiDamage
import Lsw.Agent.GuiRecovery
import Lsw.Gui.Stream
import Lsw.Daemon.ProcessEvidence
import Lsw.Daemon.SoleQemu
import Lsw.Daemon.Install
import Lsw.Daemon.StatusEvidence
import Lsw.Daemon.Hibernation
import Lsw.Daemon.Balloon
import Lsw.Daemon.PolicyPass
import Lsw.Protocol.Frame
import Lsw.Protocol.GuiMessages
import Lsw.Protocol.Requests
import Lsw.Agent.Requests
import Lsw.Host.Process
import Lsw.Cli.WatchUploads
import Lsw.Core.ByteRanges
import Lsw.Core.CustomizationTargets
import Lsw.Core.IsoProvenance
import Lsw.Core.PeOverlay
import Lsw.Core.StoreFaults
import Lsw.Gui.ForwardedInput
import Lsw.Core.PartFiles
import Lsw.Agent.CapturePoints
import Lsw.Agent.CompositeFrame
import Lsw.Daemon.SocketStart
import Lsw.Agent.SessionChild
import Lsw.Host.PutFile
import Lsw.Core.ImageManager
import Lsw.Core.InstanceIdentity
import Lsw.Cli.PathTranslation
import Lsw.Agent.CommandLine
import Lsw.Agent.ManifestAlias
import Lsw.Core.DisplayCommand
import Lsw.Cli.RemoteTree
import Lsw.Cli.LocalTree
import Lsw.Cli.PushTree
import Lsw.Cli.LiveFiles
import Lsw.Cli.CommandArguments
import Lsw.Core.SetupPassword
import Lsw.Core.DaemonProtocol
import Lsw.Lib.Json
import Lsw.Daemon.Qmp
import Lsw.Lib.Lossy
import Lsw.Cli.LogFollow
import Lsw.Core.WinPeRun
import Lsw.Core.Preparation
import Lsw.Core.SealedText
import Lsw.Lib.Search
import Lsw.Lib.Secret
import Lsw.Lib.KeyFile
import Lsw.Cli.DesktopLauncher
import Lsw.Cli.SambaLog
import Lsw.Lib.Xml
import Lsw.Core.XmlText
import Lsw.Core.WindowsMedia
import Lsw.Core.Unattend
import Lsw.Core.QemuOptions
import Lsw.Cli.PublishedPorts
import Lsw.Cli.LauncherIds
import Lsw.Cli.LauncherFiles
import Lsw.Core.SambaConfig
