import Warpstream.AccumulatorRuns
import Warpstream.AccumulatorView
import Warpstream.AgentBufferCap
import Warpstream.AgentBufferLinger
import Warpstream.AgentPoolRouting
import Warpstream.AgentStatsAgreement
import Warpstream.BatchSizes
import Warpstream.CachedAgentStatsPurge
import Warpstream.ClientRunSafety
import Warpstream.DemotedSet
import Warpstream.DemoterRuns
import Warpstream.FractionGuards
import Warpstream.HedgeAttempts
import Warpstream.HedgeRace
import Warpstream.PlacementStability
import Warpstream.PoolHistory
import Warpstream.ProducePathProgress
import Warpstream.RecordCounters
import Warpstream.RefreshLoop
import Warpstream.RefreshPool
import Warpstream.RouteLoop
import Warpstream.SinglePaths
import Warpstream.SplitFanIn
