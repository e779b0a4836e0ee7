import Workflow.Text.Blank
import Workflow.Text.Numeral
import Workflow.Data.Compact
import Workflow.Effect.Cold
import Workflow.Effect.Run
import Workflow.Failure
import Workflow.Instance.Fresh
import Workflow.Settings
import Workflow.Entry
import Workflow.Store.Memory
import Workflow.Mediator
import Workflow.Node.Zip
import Workflow.Node.Follow
import Workflow.Delivery
import Workflow.Process.Sequence
import Workflow.Database.Session
import Workflow.Database.Store
import Workflow.Script.Effect
import Workflow.Script.Process
import Workflow.Text.Quoted
import Workflow.Scenario.Hosting
import Workflow.Scenario.Routing
import Workflow.Scenario.Storage
import Workflow.Scenario.Database
import Workflow.Retry.Stored
import Workflow.Instance.Stored
import Workflow.Scenario.Inspection
import Workflow.Proofs.Node.Walk
import Workflow.Proofs.Node.Map
import Workflow.Proofs.Node.Zip
import Workflow.Proofs.Process.Parallel
import Workflow.Proofs.Effect.Run
import Workflow.Proofs.History
import Workflow.Proofs.Store.Memory
import Workflow.Proofs.Host
import Workflow.Proofs.Delivery.Sequential
import Workflow.Proofs.Delivery.Concurrent
import Workflow.Proofs.Delivery.Reentrant
import Workflow.Proofs.Node.Alike
import Workflow.Proofs.Node.Follow
import Workflow.Proofs.Process.Walk
import Workflow.Proofs.Process.Sequential
import Workflow.Proofs.Process.Monad
import Workflow.Proofs.Delivery.Standing
import Workflow.Proofs.Delivery.Persistence
import Workflow.Proofs.Store.Clearing
import Workflow.Proofs.Delivery.Clearing
import Workflow.Proofs.Database.Interchange
import Workflow.Proofs.Database.Atomic
import Workflow.Proofs.Database.Interleaving
import Workflow.Proofs.Delivery.Retrying
import Workflow.Proofs.Delivery.Errors
import Workflow.Proofs.Delivery.Contention
import Workflow.Proofs.Delivery.Isolation
import Workflow.Proofs.Node.Product
import Workflow.Proofs.Replay
import Workflow.Proofs.Delivery.Lifecycle
import Workflow.Proofs.Database.Loading
import Workflow.Proofs.Delivery.Spoilt
import Workflow.Proofs.Effect.Sequence
import Workflow.Proofs.Effect.Cold
import Workflow.Proofs.Script.Solitary
import Workflow.Proofs.Process.Spelling
import Workflow.Proofs.Process.Routing
import Workflow.Proofs.Work.Errors
import Workflow.Proofs.Settings
