import BoundsCheck.Main
import BoundsCheck.Proofs.InFlight
import BoundsCheck.Proofs.Ledger
import BoundsCheck.Proofs.Safety
import BoundsCheck.Proofs.Order
import BoundsCheck.Proofs.Answering
import BoundsCheck.Proofs.Returning
import BoundsCheck.Proofs.Draining
import BoundsCheck.Proofs.Bypass
import BoundsCheck.Proofs.Tracking
import BoundsCheck.Proofs.Latency
import BoundsCheck.Proofs.Throughput
import BoundsCheck.Proofs.Agreement
import BoundsCheck.Proofs.Bounds
import BoundsCheck.Proofs.Resetting
import BoundsCheck.Proofs.Surroundings
import BoundsCheck.Proofs.Punctual
import BoundsCheck.Proofs.Idling
import BoundsCheck.Proofs.ColdMisses
import BoundsCheck.Proofs.Recency
import BoundsCheck.Proofs.Precedence
import BoundsCheck.Proofs.Defects
import BoundsCheck.Proofs.ReadingBack
import BoundsCheck.Proofs.Inclusion
import BoundsCheck.Proofs.Fairness
import BoundsCheck.Proofs.Keeping
import BoundsCheck.Proofs.Recovery
import BoundsCheck.Proofs.Delivery
import BoundsCheck.Proofs.Serving
import BoundsCheck.Proofs.Containment
import BoundsCheck.Proofs.WaitingTime
import BoundsCheck.Proofs.Budget
import BoundsCheck.Proofs.Totals
import BoundsCheck.Proofs.Handover
import BoundsCheck.Proofs.Grouping
