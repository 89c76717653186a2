import Log73.LogCache.Account
import Log73.LogCache.Paging
import Log73.Scoring.Agreement
import Log73.Scoring.Caps
import Log73.Db.RoundTrip
import Log73.Db.Mirror
import Log73.Adif.Exported
import Log73.Adif.Import
import Log73.Adif.Reimport
import Log73.Adif.RoundTrip
import Log73.QsoTime.Epoch
import Log73.Adif.Scan
import Log73.Bands.Catalog
import Log73.Cabrillo.Layout
import Log73.Cabrillo.Operators
import Log73.ContestRules.Catalog
import Log73.ContestRules.Keyed
import Log73.Validation.Accepted
import Log73.DxCluster.Dedupe
import Log73.BandMap.TimeIndex
import Log73.BandMap.LocalSpots
import Log73.Frontend.DxccAgreement
import Log73.Frontend.CallsignAgreement
import Log73.Frontend.DupeAgreement
import Log73.Frontend.ConditionAgreement
import Log73.Frontend.MessageAgreement
import Log73.Frontend.FrequencyAgreement
import Log73.Frontend.ValidationAgreement
import Log73.Frontend.BandMapNavigation
import Log73.Frontend.BandMapRuns
import Log73.Frontend.SpotStore
import Log73.Db.Atomicity
import Log73.Auth.CacheSafety
import Log73.RadioIo.RadioLifecycle
import Log73.RadioIo.CwQueue
import Log73.RadioIo.OneListener
import Log73.Session.Delivery
import Log73.Frontend.OutboxOnce
import Log73.Frontend.OutboxUnique
import Log73.Frontend.OutboxAnswers
import Log73.Frontend.SerialSystem
import Log73.Frontend.SerialJoin
import Log73.Frontend.SocketLiveness
import Log73.Frontend.AdifPreview
import Log73.LogCache.Changed
import Log73.Stats.Windows
import Log73.ContestRules.ValueSetResolution
import Log73.ContestRules.Presets
import Log73.ClientRadios.Leases
import Log73.ClientWindow.Closing
import Log73.RadioIo.TargetRuns
import Log73.RadioIo.RadioExclusion
import Log73.RadioIo.VoicePlayback
import Log73.RadioIo.ManagedTexts
import Log73.RadioIo.ManagedState
import Log73.RadioIo.VoiceSilence
import Log73.LauncherWindow.Backends
import Log73.ClientRadios.Renewing
import Log73.Cty.Accepted
import Log73.Frontend.MessageRepeat
import Log73.DebugLog
import Log73.ClientSettings.CrashSafety
import Log73.DxCluster.Answers
import Log73.Frontend.EnterSendsMessage
