import Paprika.Insights.QueryScheduler
import Paprika.Rollouts.RollingConvergence
import Paprika.Rollouts.CanarySteps
import Paprika.Rollouts.AbortServing
import Paprika.Rollouts.StableTemplate
import Paprika.Rollouts.BlueGreenPreview
import Paprika.Rollouts.BlueGreenDrain
import Paprika.Rollouts.CanaryWeight
import Paprika.Rollouts.LeakedRevisions
import Paprika.Rollouts.AbortLatch
import Paprika.Satellite.Sessions
import Paprika.Satellite.ObservationStore
import Paprika.Satellite.Link
import Paprika.Satellite.Autonomy
import Paprika.Fleet.SatelliteGenerations
import Paprika.Fleet.Editor
import Paprika.Fleet.SatelliteContributions
import Paprika.Fleet.Queries
import Paprika.Pipelines.Dependencies
import Paprika.Promotion.FullyVerified
import Paprika.Promotion.ObservationWindow
import Paprika.Promotion.RetryTokens
import Paprika.Releases.Concurrency
import Paprika.Releases.RolloutManaged
import Paprika.Releases.CanaryAnalysis
import Paprika.Releases.Pruning
import Paprika.Releases.HookRuns
import Paprika.Applications.RingOrder
import Paprika.Engine.Invalidation
import Paprika.Releases.ApprovalGates
import Paprika.Releases.AutoRetries
import Paprika.Applications.SyncOrder
import Paprika.Policies.Enforcement
import Paprika.Source.Checkout
import Paprika.Source.RevisionCache
import Paprika.Events.Broker
import Paprika.Engine.DiffMemory
import Paprika.Coordinator.Membership
import Paprika.Insights.QueryAgreement
import Paprika.Insights.Store
import Paprika.Gateway.Budget
import Paprika.Bundles.Refusal
import Paprika.Mcp.Confirmations
import Paprika.OAuth.RefreshAlike
import Paprika.OAuth.Indistinguishable
import Paprika.Engine.Documents
import Paprika.Rollouts.RollingProgress
import Paprika.Rollouts.HistoryPruning
import Paprika.Pipelines.StepJobs
import Paprika.Traffic.HeaderRoutes
import Paprika.Pipelines.ArtifactNames
import Paprika.Applications.Identities
import Paprika.Releases.Retention
import Paprika.Fleet.Facets
import Paprika.Engine.Containment
import Paprika.Engine.HelmValues
import Paprika.Pipelines.Batches
import Paprika.Health.SLO
import Paprika.Health.SLOAccounting
import Paprika.Governance.Globs
import Paprika.Rollouts.HashParsing
import Paprika.Releases.PipelineNames
import Paprika.Source.DirHash
