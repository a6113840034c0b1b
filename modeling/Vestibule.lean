import Vestibule.Library.Dict
import Vestibule.Library.Except
import Vestibule.Library.Delimited
import Vestibule.Library.FirstSeen
import Vestibule.Library.Tally
import Vestibule.Library.Pattern
import Vestibule.Library.Loop
import Vestibule.Library.MonadRel
import Vestibule.Library.Program
import Vestibule.Library.Returning
import Vestibule.Library.Retry
import Vestibule.Library.Interleaving
import Vestibule.Library.Rely
import Vestibule.Library.KeyedStore
import Vestibule.Library.TtlCache
import Vestibule.Library.Layers
import Vestibule.Library.Remote
import Vestibule.Python
import Vestibule.Errors
import Vestibule.Validators
import Vestibule.Identity
import Vestibule.Identity.Chunks
import Vestibule.Identity.Language
import Vestibule.Ledger.Store
import Vestibule.Ledger.History
import Vestibule.Ledger.Triage
import Vestibule.Ledger.Attempts
import Vestibule.Envelope
import Vestibule.Pipeline.Model
import Vestibule.Pipeline.Effects
import Vestibule.Pipeline.Stage
import Vestibule.Vertical.Loader
import Vestibule.Vertical.ReviewQueue
import Vestibule.Vertical.Races
import Vestibule.Vertical.Assignments
import Vestibule.Vertical.Reparking
import Vestibule.Vertical.ReviewRegistry
import Vestibule.Vertical.Redelivery
import Vestibule.Analyzer.Analyzer
import Vestibule.Analyzer.Outcome
import Vestibule.Chunker
import Vestibule.Chunker.Strategies
import Vestibule.Chunker.Merge
import Vestibule.Chunker.Stream
import Vestibule.Chunker.Ceiling
import Vestibule.Chunker.MarkdownTable
import Vestibule.Chunker.Sections
import Vestibule.Embedder
import Vestibule.Embedder.Batches
import Vestibule.Indexer.Indexer
import Vestibule.Indexer.Contract
import Vestibule.Indexer.Coverage
import Vestibule.Indexer.InMemory
import Vestibule.Indexer.Histories
import Vestibule.Indexer.Retry
import Vestibule.Indexer.Overlap
import Vestibule.Pipeline.Outcome
import Vestibule.Pipeline.Contention
import Vestibule.Pipeline.Stragglers
import Vestibule.Scenarios.Model
import Vestibule.Scenarios.Completeness
import Vestibule.Scenarios.Configs
import Vestibule.Scenarios.Dimensions
import Vestibule.Scenarios.TableStorage
import Vestibule.Scenarios.Laws
import Vestibule.Scenarios.Edits
import Vestibule.Scenarios.EntityCodecs
import Vestibule.Provisioning.Model
import Vestibule.Provisioning.Registry
import Vestibule.Provisioning.Provisioner
import Vestibule.Provisioning.Codec
import Vestibule.Provisioning.TableStorage
import Vestibule.Provisioning.Backend
import Vestibule.Provisioning.Fleet
import Vestibule.Provisioning.Conduct
import Vestibule.Provisioning.Claims
import Vestibule.Provisioning.Exclusivity
import Vestibule.Provisioning.Creation
import Vestibule.Provisioning.Waiting
import Vestibule.Provisioning.Administration
import Vestibule.Provisioning.LifeCycle
import Vestibule.Provisioning.WaysOut
import Vestibule.Provisioning.Overtaking
import Vestibule.Provisioning.Conflicts
import Vestibule.Caches
import Vestibule.Reprocessor
import Vestibule.Reprocessor.Reports
import Vestibule.Reprocessor.BatchRequeue
import Vestibule.Retries
import Vestibule.Provisioning.LostAnswers
import Vestibule.Scenarios.LostAnswers
import Vestibule.Indexer.SearchDocuments
import Vestibule.Indexer.AzureSearch
import Vestibule.Pipeline.Ingest
import Vestibule.Pipeline.Ingested
import Vestibule.Pipeline.Redelivery
