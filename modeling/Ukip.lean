import Ukip.Jobs.Transitions
import Ukip.Jobs.Attempts
import Ukip.Jobs.Execution
import Ukip.Schedules.Cutover
import Ukip.Jobs.Handlers
import Ukip.Analytics.Isolation
import Ukip.Linker.MergeLoss
import Ukip.Governance.Sentinel
import Ukip.Normalization.Equivalence
import Ukip.Signals.Feedback
import Ukip.Lifecycle.Erasure
import Ukip.Users.Administrators
import Ukip.Users.LoginSessions
import Ukip.Users.PasswordReset
import Ukip.Users.Lockout
import Ukip.Tenancy.Organizations
import Ukip.Stores.Sync
import Ukip.Secrets.Rotation
import Ukip.OpenAlexLake.PullWorks
import Ukip.Workflows.Isolation
import Ukip.Backups.Assurance
import Ukip.Coauthorship.DirtyScopes
import Ukip.Engine.Identity
import Ukip.Engine.CoauthorEdges
import Ukip.Engine.GraphWriter
import Ukip.Engine.Eviction
import Ukip.Transformations.Validation
import Ukip.Breaker.Probes
import Ukip.Retrospective.Features
import Ukip.Retrospective.Writer
import Ukip.Authority.FeedbackExactness
import Ukip.Authority.BatchDraining
import Ukip.Authority.FailureCaching
import Ukip.Authority.CacheRuns
import Ukip.Graph.Increments
import Ukip.Enrichment.Cascade
import Ukip.Harmonization.CrashPoints
import Ukip.Jobs.LostRace
import Ukip.Jobs.Recovery
import Ukip.Coauthorship.MergeStatements
import Ukip.Cache.Backends
import Ukip.Coauthorship.NameOrder
import Ukip.Engine.CopyNodes
import Ukip.Engine.FuzzyPartition
import Ukip.Clustering.UnionFindRuns
import Ukip.Transformations.Quoting
import Ukip.Authority.PublicationStamps
import Ukip.Authority.Reformulation
import Ukip.Retrospective.Comparison
import Ukip.Analytics.JournalShrinkage
import Ukip.Clustering.DisambiguationGroups
import Ukip.Analytics.RowAlignment
import Ukip.Entities.IngestHelpers
import Ukip.Governance.RuleKeys
import Ukip.Graph.ShortestPath
import Ukip.Analytics.EpistemicPages
import Ukip.Enrichment.ConceptIds
import Ukip.Lifecycle.RetentionSweep
import Ukip.Parsers.Ris
