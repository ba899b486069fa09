import TileBench.Main
import TileBench.Proofs.Accelerator.Refinement
import TileBench.Proofs.Accelerator.Traffic
import TileBench.Proofs.Kernel.Split
import TileBench.Proofs.Tile.Service
import TileBench.Tile.Nested
import TileBench.Proofs.Work.Exact
import TileBench.Control.Cursor
import TileBench.Proofs.Control.Decode
import TileBench.Proofs.Verify.Stream
import TileBench.Proofs.Verify.Rounds
import TileBench.Proofs.Accelerator.Requests
import TileBench.Proofs.Accelerator.Words
import TileBench.Proofs.Accelerator.Offload
import TileBench.Proofs.Accelerator.History
import TileBench.Proofs.Kernel.Shell
import TileBench.Proofs.Tile.Identity
import TileBench.Proofs.Tile.Bindings
import TileBench.Proofs.Dataset.Generate
import TileBench.Proofs.Suite.Verified
import TileBench.Proofs.Work.Balance
import TileBench.Proofs.Accelerator.Overlap
import TileBench.Proofs.Tile.Outstanding
import TileBench.Proofs.Tile.Delivery
import TileBench.Proofs.Work.Split
import TileBench.Proofs.Accelerator.Accesses
import TileBench.Proofs.Dataset.RoundTrip
import TileBench.Proofs.Dataset.References
import TileBench.Proofs.Kernel.Passes
import TileBench.Proofs.Accelerator.Failure
import TileBench.Proofs.Accelerator.Echo
import TileBench.Proofs.Dataset.Period
import TileBench.Proofs.Dataset.Overflow
import TileBench.Proofs.Accelerator.Reach
