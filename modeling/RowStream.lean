import RowStream.Config.Environment
import RowStream.Ident
import RowStream.Json.Forms
import RowStream.Memory.Block
import RowStream.Store.Shared
import RowStream.Tree.Basic
import RowStream.Proofs.Stream.Script
import RowStream.Proofs.Join.Answer
import RowStream.Proofs.Stream.Leaves
import RowStream.Proofs.Stream.Scan
import RowStream.Proofs.Join.Profile
import RowStream.Proofs.Aggregate.Profile
import RowStream.Proofs.Aggregate.Refused
import RowStream.Proofs.Stream.Keeps
import RowStream.Proofs.Join.Keeps
import RowStream.Proofs.Join.Frame
import RowStream.Proofs.Store.Sound
import RowStream.Proofs.Tree.Request
import RowStream.Proofs.Tree.Profile
import RowStream.Proofs.Tree.Built
import RowStream.Proofs.Join.Matching
import RowStream.Proofs.Value.Order
import RowStream.Proofs.Join.SortMerge
import RowStream.Proofs.Join.Blocks
import RowStream.Proofs.Join.HashTable
import RowStream.Proofs.Join.Strategies
import RowStream.Proofs.Tree.Joined
import RowStream.Proofs.Tree.Session
import RowStream.Proofs.Stream.Together
import RowStream.Proofs.Join.Together
import RowStream.Proofs.Aggregate.Together
import RowStream.Proofs.Tree.Together
import RowStream.Proofs.Tree.Reopen
import RowStream.Proofs.Tree.Recalls
import RowStream.Proofs.Tree.Rewound
import RowStream.Proofs.Aggregate.Accumulate
import RowStream.Proofs.Aggregate.Groups
import RowStream.Proofs.Aggregate.History
import RowStream.Proofs.Aggregate.Answer
import RowStream.Proofs.Row.Conforms
import RowStream.Proofs.Tree.Alike
import RowStream.Proofs.Memory.Ledger
import RowStream.Proofs.Memory.Usage
import RowStream.Proofs.Config.Environment
import RowStream.Proofs.Json.Number
import RowStream.Proofs.Json.Quoted
import RowStream.Proofs.Json.Spelling
import RowStream.Proofs.Json.Grammar
import RowStream.Proofs.Json.Form
import RowStream.Proofs.Json.RoundTrip
import RowStream.Proofs.Store.Growth
import RowStream.Proofs.Store.Paged
import RowStream.Proofs.Store.Shared
import RowStream.Proofs.Store.History
import RowStream.Proofs.Stream.Handed
import RowStream.Proofs.Aggregate.Batch
import RowStream.Proofs.Aggregate.Mean
import RowStream.Proofs.Tree.Grouped
import RowStream.Proofs.Tree.Anew
import RowStream.Proofs.Tree.Isolated
import RowStream.Proofs.Join.Account
import RowStream.Proofs.Tree.Account
import RowStream.Proofs.Text.Truncate
import RowStream.Proofs.Row.Typed
import RowStream.Proofs.Row.Drafts
import RowStream.Proofs.Store.Stocked
import RowStream.Proofs.Stream.Typed
import RowStream.Proofs.Tree.Typed
import RowStream.Proofs.Stream.Reread
import RowStream.Proofs.Stream.Columns
import RowStream.Proofs.Join.Enumerated
import RowStream.Proofs.Memory.Chunks
import RowStream.Proofs.Join.Blockwise
import RowStream.Proofs.Stream.Lockstep
import RowStream.Proofs.Join.Lockstep
import RowStream.Proofs.Tree.Refuses
import RowStream.Proofs.Tree.Rebound
import RowStream.Proofs.Stream.Fetches
import RowStream.Proofs.Stream.Pages
import RowStream.Proofs.Join.Fetches
import RowStream.Proofs.Tree.Pages
