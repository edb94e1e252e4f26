import Concordance.Journal.Basic
import Concordance.Main
import Concordance.Service.Lifespan
import Concordance.Proofs.Binding.History
import Concordance.Proofs.Sharing.Reversion
import Concordance.Proofs.Sharing.Verdict
import Concordance.Proofs.Binding.Spellings
import Concordance.Proofs.Binding.Execution
import Concordance.Proofs.Binding.Ending
import Concordance.Proofs.Metered
import Concordance.Proofs.Query.Answering
import Concordance.Proofs.Binding.Hints
import Concordance.Proofs.Workspace.Metadata
import Concordance.Proofs.Workspace.Walking
import Concordance.Proofs.Workspace.Loading
import Concordance.Proofs.Binding.Termination
import Concordance.Proofs.Declaration.Naming
import Concordance.Proofs.Query.Failing
import Concordance.Proofs.Service.Snapshots
import Concordance.Proofs.Syntax.Declared
import Concordance.Proofs.Text.Normal
import Concordance.Proofs.Workspace.Files
import Concordance.Proofs.Workspace.Identity
import Concordance.Proofs.Watch.Relevance
import Concordance.Proofs.Watch.Unnoticed
import Concordance.Proofs.Binding.Order
import Concordance.Proofs.Binding.Shadowing
import Concordance.Proofs.Settings.Legible
import Concordance.Proofs.Workspace.Relocation
import Concordance.Proofs.Watch.Timers
import Concordance.Proofs.Sharing.Closing
import Concordance.Proofs.Interruption
import Concordance.Proofs.Query.MeteredPool
import Concordance.Proofs.Query.Interruption
import Concordance.Proofs.Workspace.Interruption
import Concordance.Proofs.Service.Interruption
import Concordance.Proofs.Binding.Iterating
import Concordance.Proofs.Binding.Inheriting
import Concordance.Proofs.Workspace.Partition
import Concordance.Proofs.Declaration.Distinct
import Concordance.Proofs.Declaration.Sites
import Concordance.Proofs.Declaration.Tables
import Concordance.Proofs.Declaration.Ids
import Concordance.Proofs.Binding.Unwinding
import Concordance.Proofs.Binding.Visiting
import Concordance.Proofs.Binding.Origins
import Concordance.Proofs.Binding.Receivers
import Concordance.Proofs.Binding.FirstStores
import Concordance.Proofs.Binding.Chains
import Concordance.Proofs.Binding.OwnNames
import Concordance.Proofs.Binding.Preorder
import Concordance.Proofs.Query.Splitting
import Concordance.Proofs.Settings.Merging
import Concordance.Proofs.Workspace.Root
import Concordance.Proofs.Binding.Alternatives
import Concordance.Proofs.Declaration.TextOrder
import Concordance.Proofs.Binding.Lookups
import Concordance.Proofs.Declaration.Reached
