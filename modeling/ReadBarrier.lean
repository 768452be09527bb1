import ReadBarrier.Config.File
import ReadBarrier.Proofs.Barrier
import ReadBarrier.Proofs.Chronicle
import ReadBarrier.Proofs.Config.Agreement
import ReadBarrier.Proofs.Delivery
import ReadBarrier.Proofs.Instrumentation
import ReadBarrier.Proofs.Isolation
import ReadBarrier.Proofs.Nesting
import ReadBarrier.Proofs.Orphans
import ReadBarrier.Proofs.Parking
import ReadBarrier.Proofs.Pass
import ReadBarrier.Proofs.Reentrancy
import ReadBarrier.Proofs.Saturation
import ReadBarrier.Proofs.Settlement
import ReadBarrier.Proofs.Spans
import ReadBarrier.Proofs.Transparency
import ReadBarrier.Proofs.Unwinding
import ReadBarrier.Proofs.WaitingRoom
import ReadBarrier.Scenario
