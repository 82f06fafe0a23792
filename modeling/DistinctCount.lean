import DistinctCount.Image.Loader
import DistinctCount.Image.Writer
import DistinctCount.Text.Summary
import DistinctCount.Proofs.Homomorphism
import DistinctCount.Proofs.FourBit
import DistinctCount.Proofs.Lockstep
import DistinctCount.Proofs.Resumption
import DistinctCount.Proofs.Acceptance
import DistinctCount.Proofs.AcceptedCoupons
import DistinctCount.Proofs.AcceptedRegisters
import DistinctCount.Proofs.StrayTokens
import DistinctCount.Proofs.Canonical
import DistinctCount.Proofs.Staleness
import DistinctCount.Proofs.Continuation
import DistinctCount.Proofs.Totality
import DistinctCount.Proofs.Scanning
import DistinctCount.Proofs.Thresholds
import DistinctCount.Proofs.Repetition
import DistinctCount.Proofs.Growth
import DistinctCount.Proofs.Bracketing
import DistinctCount.Proofs.Folding
import DistinctCount.Proofs.Chance
import DistinctCount.Proofs.LinearCounting
import DistinctCount.Proofs.Calibration
import DistinctCount.Proofs.Switching
import DistinctCount.Proofs.OutOfOrder
import DistinctCount.Proofs.FiniteSet
import DistinctCount.Proofs.Buffers
import DistinctCount.Proofs.Delimiting
import DistinctCount.Proofs.Confinement
import DistinctCount.Proofs.FiniteMap
import DistinctCount.Proofs.Contributions
import DistinctCount.Proofs.Windows
import DistinctCount.Proofs.Independence
