import Shading.Machine.Report
import Shading.Main
import Shading.Proofs.Loops
import Shading.Proofs.Kernels
import Shading.Proofs.Agreement
import Shading.Proofs.Blocks
import Shading.Proofs.Conditional
import Shading.Proofs.Declarations
import Shading.Proofs.Lockstep
import Shading.Proofs.Encoding
import Shading.Proofs.Listing
import Shading.Proofs.Reading
import Shading.Proofs.RoundTrip
import Shading.Proofs.Soundness
import Shading.Proofs.Faults
import Shading.Proofs.Checks
import Shading.Proofs.Safety
import Shading.Proofs.InPlace
import Shading.Proofs.Reuse
import Shading.Proofs.Bindings
import Shading.Proofs.Preparation
import Shading.Proofs.Conformance
import Shading.Proofs.Uniformity
import Shading.Proofs.Nesting
import Shading.Proofs.Truncation
import Shading.Proofs.Operands
import Shading.Proofs.TwoPass
import Shading.Proofs.Calls
import Shading.Proofs.Outputs
import Shading.Proofs.Locality
import Shading.Proofs.Broadcasting
import Shading.Proofs.Merging
import Shading.Proofs.Relisting
import Shading.Proofs.Overflow
import Shading.Proofs.Refusal
import Shading.Proofs.Derivatives
import Shading.Proofs.Transposition
import Shading.Proofs.Termination
import Shading.Proofs.Elements
import Shading.Proofs.Slots
import Shading.Proofs.Filling
import Shading.Proofs.Fitting
import Shading.Proofs.Texts
import Shading.Proofs.Display
import Shading.Proofs.Decoding
