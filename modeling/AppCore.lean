import AppCore.Lib.Machine
import AppCore.Lib.Trace
import AppCore.Lib.Pointwise
import AppCore.Lib.Resources
import AppCore.Lib.Keyed
import AppCore.Lib.RoseTree
import AppCore.Lib.Scanf
import AppCore.Types
import AppCore.WinList
import AppCore.Rotation
import AppCore.I18n
import AppCore.Process
import AppCore.Efl
import AppCore.LifeCycle
import AppCore.EflSpec
import AppCore.MainCall
import AppCore.Visibility
import AppCore.Callbacks
import AppCore.Restart
import AppCore.InitFailure
import AppCore.WinMap
import AppCore.WinListFailure
import AppCore.Reclaiming
import AppCore.Dispatch
import AppCore.EventRouting
import AppCore.LocaleChange
import AppCore.TextDomain
import AppCore.Session
import AppCore.Targets
import AppCore.FlushTimer
import AppCore.FailedStart
import AppCore.Foreground
import AppCore.RotationSpec
import AppCore.RotationInvariant
import AppCore.RotationStep
import AppCore.RotationTrace
import AppCore.RotationConnections
import AppCore.RotationLock
import AppCore.RotationPairing
import AppCore.RotationReadings
import AppCore.RotationPending
import AppCore.RotationMirror
import AppCore.RotationRetry
import AppCore.RotationHeld
import AppCore.RotationRenewal
import AppCore.RotationReports
import AppCore.RotationUnlock
import AppCore.RotationSetFailure
import AppCore.RotationRecovery
import AppCore.WinSearch
import AppCore.Measure
import AppCore.EnvTime
import AppCore.SessionCallbacks
import AppCore.Delivery
import AppCore.LifeState
import AppCore.WindowOrder
import AppCore.System
import AppCore.SystemRuns
import AppCore.Resume
import AppCore.XCalls
import AppCore.Appends
import AppCore.CoreHistory
import AppCore.LocaleHistory
import AppCore.EventHistory
import AppCore.Elementary
import AppCore.Background
import AppCore.Shutdown
