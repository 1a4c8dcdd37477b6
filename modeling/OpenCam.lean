import OpenCam.Android.DeviceDescriptor
import OpenCam.Android.FilterState
import OpenCam.Control.Agreement
import OpenCam.Control.Integrity
import OpenCam.Control.NonceReuse
import OpenCam.Interaction.System
import OpenCam.Linux.DeviceDescriptor
import OpenCam.Linux.SecurityValidation
import OpenCam.Windows.Application
import OpenCam.Windows.Manager
import OpenCam.Android.ConnectionLifecycle
import OpenCam.Windows.Sources
import OpenCam.Linux.PipelineLifecycle
import OpenCam.Linux.LineRedactor
import OpenCam.Android.LegacyFraming
import OpenCam.Android.ActivationLayout
import OpenCam.Linux.StreamOptions
import OpenCam.Windows.Connection
import OpenCam.Linux.CredentialRedaction
import OpenCam.Windows.SettingsSession
import OpenCam.Linux.DecodeLoop
import OpenCam.Linux.RedactionCuts
import OpenCam.Android.HkdfExpand
import OpenCam.Control.Hex
import OpenCam.Control.PairingQr
import OpenCam.Linux.FramePacking
import OpenCam.Windows.FrameScaler
import OpenCam.Android.LockAndJoin
import OpenCam.Windows.Receiver
import OpenCam.Android.ReadDeadline
import OpenCam.Linux.PairingToken
import OpenCam.Linux.SessionGating
import OpenCam.Control.MutualAuthentication
import OpenCam.Control.FrameTransport
import OpenCam.Control.Session
import OpenCam.Android.TCPConnection
import OpenCam.Control.DescriptorExchange
import OpenCam.Linux.ControllerRuns
import OpenCam.Windows.Server
import OpenCam.Linux.WorkerResources
import OpenCam.Linux.PairingDisplay
import OpenCam.Windows.FrameConsumers
import OpenCam.Windows.ReceiveLoop
