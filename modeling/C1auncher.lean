import C1auncher.Update.ManifestText
import C1auncher.Update.RollbackConvergence
import C1auncher.Update.PendingReset
import C1auncher.Update.CandidateHealth
import C1auncher.Update.Check
import C1auncher.Update.RestartRequest
import C1auncher.Power.History
import C1auncher.Power.Handshake
import C1auncher.Package.VersionOrder
import C1auncher.Package.ArchiveNames
import C1auncher.Package.WrittenDates
import C1auncher.Package.CrashSafety
import C1auncher.Package.RollbackFloor
import C1auncher.Package.CooldownRun
import C1auncher.Package.CooldownImage
import C1auncher.Package.DownloadRanges
import C1auncher.Wifi.SsidCodec
import C1auncher.Wifi.ScanList
import C1auncher.Wifi.Psk
import C1auncher.Wifi.Capture
import C1auncher.Wifi.Rollback
import C1auncher.Battery.RoundTrip
import C1auncher.Pinao.VoiceRuns
import C1auncher.Pinao.ExportRuns
import C1auncher.Pinao.Tempo
import C1auncher.Power.PowerKey
import C1auncher.Records.Ndjson
import C1auncher.Ui.PreferencesFile
import C1auncher.Ui.Secrets
import C1auncher.Ui.LockTextEditor
import C1auncher.Package.IndexText
import C1auncher.Desktop.SummaryCache
import C1auncher.Terminal.InputQueue
import C1auncher.Update.LogRetention
import C1auncher.Services.TimeSyncRetry
import C1auncher.Security.Sha256File
import C1auncher.Power.UsbRestore
import C1auncher.Terminal.Framing
import C1auncher.Terminal.Isolation
import C1auncher.Platform.TerminalMode
import C1auncher.Services.DesktopJobRuns
import C1auncher.Package.GuiRefreshEnds
import C1auncher.Ui.InputMethodAnswers
import C1auncher.Ui.ImeRequest
import C1auncher.TermIme.Keyboard
import C1auncher.BookReader.Directory
import C1auncher.BookReader.IndexCache
import C1auncher.Games.G2048Runs
import C1auncher.Games.MinesRuns
import C1auncher.Games.Spider
import C1auncher.Games.Freecell
import C1auncher.Games.KlondikeRuns
import C1auncher.Games.Snake
import C1auncher.Games.WordleRuns
import C1auncher.Games.MahjongMatch
import C1auncher.Games.Tetris
import C1auncher.Games.FairShuffle
import C1auncher.Package.LabelDrawing
