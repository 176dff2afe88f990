import Dambi.Asset.Amm.Concentrated
import Dambi.Asset.Amm.ConstantProduct
import Dambi.Asset.Amm.IntentOrders
import Dambi.Asset.Amm.StableSwap
import Dambi.Asset.Amm.SwapLedger
import Dambi.Asset.BorrowHealth
import Dambi.Asset.PerpLedger
import Dambi.Asset.PositionUpdates
import Dambi.Bundle.References
import Dambi.Bundle.TimeWindow
import Dambi.Decode.Budget
import Dambi.Decode.Multisend
import Dambi.Decode.NoEmptyBatch
import Dambi.Decode.Registry
import Dambi.Decode.Reshape
import Dambi.Decode.Status
import Dambi.Decode.TypeGraph
import Dambi.Extension.ActorLock
import Dambi.Extension.Authenticity
import Dambi.Extension.BodyTree
import Dambi.Extension.Registration
import Dambi.Extension.UserDecision
import Dambi.Extension.VenueBody
import Dambi.Lowering.HlAmount
import Dambi.PolicyRpc.CallIds
import Dambi.Runtime.HostAnswers
import Dambi.ScamFilter.Coverage
import Dambi.ScamFilter.Density
import Dambi.Server.EquityAnchors
import Dambi.Server.NanoServices
import Dambi.Server.Permits
import Dambi.Server.Scheduler
import Dambi.Session.FailedPlan
import Dambi.Session.ScamInstall
import Dambi.Session.Source
import Dambi.Snapshot.Refresh
