import SidBridge.Bridge
import SidBridge.Sync.Divider
import SidBridge.Sync.Strober
import SidBridge.Transitions
import SidBridge.BusSafety
import SidBridge.RegisterFile
import SidBridge.Access
import SidBridge.ClockDivider
import SidBridge.Strobe
import SidBridge.ReadData
import SidBridge.WriteOrder
import SidBridge.Saturation
import SidBridge.Effects
import SidBridge.Transfers
import SidBridge.NoLoss
import SidBridge.NoPhantom
import SidBridge.CoreAhbLite.SlaveArbiter
import SidBridge.CoreAhbLite.AddressDecoder
import SidBridge.CoreAhbLite.MasterStage
import SidBridge.CoreAhbLite.SlaveStage
import SidBridge.CoreAhbLite.Matrix
import SidBridge.CoreAhbLite.MatrixSafety
import SidBridge.CoreAhbLite.Delivery
import SidBridge.CoreAhbLite.Fairness
import SidBridge.CoreAhbLite.SoleMaster
import SidBridge.CoreAhbLite.Progress
import SidBridge.SdramPort
import SidBridge.SidPlayer
import SidBridge.SidPlayerSdram
import SidBridge.SidPlayerDelivery
import SidBridge.SidPlayerAccess
import SidBridge.SidPlayerPhantom
import SidBridge.SidPlayerProgress
