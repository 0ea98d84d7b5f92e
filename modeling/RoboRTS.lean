import RoboRTS.Sdk.CrcErrors
import RoboRTS.Sdk.Stream.ReadResults
import RoboRTS.Sdk.MemoryPool.Runs
import RoboRTS.Sdk.Protocol.Receive
import RoboRTS.Sdk.Protocol.Delivery
import RoboRTS.Sdk.Protocol.AckTable
import RoboRTS.Sdk.Protocol.SendLength
import RoboRTS.Sdk.Protocol.BufferPool
import RoboRTS.Sdk.Protocol.Progress
import RoboRTS.Sdk.Protocol.CommandStream
import RoboRTS.Sdk.Dispatch.PendingRequests
import RoboRTS.Sdk.Protocol.SenderIsolation
import RoboRTS.Sdk.Protocol.Retransmission
import RoboRTS.Decision.ChassisExecutor
import RoboRTS.Decision.BehaviorTree.Threshold
import RoboRTS.Decision.BehaviorTree.Preemption
import RoboRTS.Planning.GlobalPlanner.AStarPlanner.Optimality
import RoboRTS.Planning.GlobalPlanner.AStarPlanner.GoalSearch
import RoboRTS.Planning.GlobalPlanner.HandOver
import RoboRTS.Planning.LocalPlanner.PlanHandOver
import RoboRTS.Planning.LocalPlanner.RobotPositionCost
import RoboRTS.Planning.LocalPlanner.LifeCycle
import RoboRTS.Costmap.InflationLayer.Wavefront
import RoboRTS.Localization.AmclMap.CSpace
import RoboRTS.Localization.Amcl.Weights
import RoboRTS.Detection.ArmorDetection.ThreadControl
import RoboRTS.Detection.CVToolbox.HandOver
import RoboRTS.Costmap.CostmapLayers.Consistency
import RoboRTS.Planning.LocalPlanner.TimedElasticBand.Resize
import RoboRTS.Planning.LocalPlanner.TebLocalPlanner.Commands
import RoboRTS.Costmap.CostmapInterface
import RoboRTS.Costmap.CostmapLayers.RayClipping
import RoboRTS.Costmap.UpdateOrigin
import RoboRTS.Costmap.CopyWindow
import RoboRTS.Costmap.ConvexCells
import RoboRTS.Costmap.CostmapLayers.StaticLayer
import RoboRTS.Decision.ChaseBehavior
import RoboRTS.Localization.Amcl.UpdateFilter
import RoboRTS.Localization.ParticleFilter.KDTreeNodes.Counters
import RoboRTS.Localization.Amcl.BeamSkip
import RoboRTS.Planning.GlobalPlanner.AStarPlanner.Neighbours
import RoboRTS.Planning.LocalPlanner.Obstacles.Distances
import RoboRTS.Planning.LocalPlanner.Obstacles.Association
import RoboRTS.Costmap.RaytraceLine
import RoboRTS.Detection.ArmorDetection.ConstraintSet.Suppression
import RoboRTS.Detection.ArmorDetection.ConstraintSet.Brightness
import RoboRTS.Common.Polygon.Convexity
import RoboRTS.Decision.ExampleBehavior.BehaviorTest
