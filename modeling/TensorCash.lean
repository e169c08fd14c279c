import TensorCash.Assets.AcceptanceRecords
import TensorCash.Assets.BandJson
import TensorCash.Assets.Frames
import TensorCash.Assets.RegLayout
import TensorCash.Assets.ScalarWire
import TensorCash.Assets.Utf8
import TensorCash.Coins.Cache
import TensorCash.Mempool.PendingRegs
import TensorCash.Models.Journal
import TensorCash.Net.SidecarProgress
import TensorCash.Script.KeySpends
import TensorCash.Script.Sighash
import TensorCash.Validation.AdjustedBits
import TensorCash.Validation.AmberFlow
import TensorCash.Validation.Atomicity
import TensorCash.Validation.BlockStore
import TensorCash.Validation.Bonds
import TensorCash.Validation.ChildTickers
import TensorCash.Validation.ChunkOrder
import TensorCash.Validation.Compliance
import TensorCash.Validation.KeyRotation
import TensorCash.Validation.Keywraps
import TensorCash.Validation.ModelNames
import TensorCash.Validation.Quorum
import TensorCash.Validation.Scalars
import TensorCash.Validation.ScriptCache
import TensorCash.Validation.Supply
import TensorCash.Validation.Verdicts
import TensorCash.Validation.VetoEscape
import TensorCash.Validation.WorkLanes
import TensorCash.Wallet.OptionBuilders
import TensorCash.Wallet.OptionDescriptor
import TensorCash.Wallet.ScalarLeaf
import TensorCash.Wallet.SwapManager
