import FaultDrill.Group.Session
import FaultDrill.Frame.Stream
import FaultDrill.Main
import FaultDrill.Proofs.Barrier
import FaultDrill.Proofs.Codec
import FaultDrill.Proofs.Survival
import FaultDrill.Proofs.Tolerance
import FaultDrill.Proofs.Writing
import FaultDrill.Proofs.Received
import FaultDrill.Proofs.Departing
import FaultDrill.Proofs.Sleep
import FaultDrill.Proofs.Queue
import FaultDrill.Proofs.Placement
import FaultDrill.Proofs.Hub
import FaultDrill.Proofs.Refusal
import FaultDrill.Proofs.Membership
import FaultDrill.Proofs.Farewells
import FaultDrill.Proofs.Saturation
import FaultDrill.Proofs.Launching
