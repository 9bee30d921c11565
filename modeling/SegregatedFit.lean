import SegregatedFit.GuardedHeap
import SegregatedFit.Source.Reservation
import SegregatedFit.Proofs.Client.BestFit
import SegregatedFit.Proofs.Client.Integrity
import SegregatedFit.Proofs.Client.Inverse
import SegregatedFit.Proofs.Client.Layout
import SegregatedFit.Proofs.Client.Noninterference
import SegregatedFit.Proofs.Client.Ownership
import SegregatedFit.Proofs.Client.Payloads
import SegregatedFit.Proofs.Client.Placement
import SegregatedFit.Proofs.Client.Progress
import SegregatedFit.Proofs.Client.Refusals
import SegregatedFit.Proofs.Client.Resizing
import SegregatedFit.Proofs.Client.Sources
import SegregatedFit.Proofs.Client.Supply
import SegregatedFit.Proofs.Client.Twins
import SegregatedFit.Proofs.GuardedHeap.Turns
import SegregatedFit.Proofs.Heap.Verdict
import SegregatedFit.Proofs.Client.Merging
import SegregatedFit.Proofs.FreeList.Refinement
import SegregatedFit.Proofs.Heap.Acceptance
import SegregatedFit.Proofs.Heap.Scrutiny
import SegregatedFit.Proofs.Client.Shrinking
import SegregatedFit.Proofs.Client.Slack
import SegregatedFit.Proofs.Source.Metered
import SegregatedFit.Proofs.Client.Statistics
import SegregatedFit.Proofs.Client.FirstGrowth
import SegregatedFit.Proofs.Arena.Encoding
import SegregatedFit.Proofs.Sizes
