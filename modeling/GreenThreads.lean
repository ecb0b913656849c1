import GreenThreads.Program
import GreenThreads.Scheduler.Bench
import GreenThreads.Stack.Bench
import GreenThreads.Thread.Bench
import GreenThreads.Proofs.Placement
import GreenThreads.Proofs.Waiting
import GreenThreads.Proofs.Books
import GreenThreads.Proofs.Effect
import GreenThreads.Proofs.Calls
import GreenThreads.Proofs.Ledger
import GreenThreads.Proofs.Join
import GreenThreads.Proofs.Stacks
import GreenThreads.Proofs.Programs
import GreenThreads.Proofs.Underway
import GreenThreads.Proofs.Masks
import GreenThreads.Proofs.Endings
import GreenThreads.Proofs.Refusals
import GreenThreads.Proofs.Initialiser
import GreenThreads.Proofs.Reciprocity
import GreenThreads.Proofs.Moments
import GreenThreads.Proofs.Finality
import GreenThreads.Proofs.Routines
import GreenThreads.Proofs.Identity
import GreenThreads.Proofs.Whereabouts
import GreenThreads.Proofs.Skipping
import GreenThreads.Proofs.Views
import GreenThreads.Proofs.Alike
import GreenThreads.Proofs.Pending
import GreenThreads.Proofs.Preemption
import GreenThreads.Proofs.Conventions
import GreenThreads.Proofs.Rotation
import GreenThreads.Proofs.Reordering
import GreenThreads.Proofs.Cancellations
import GreenThreads.Proofs.Loops
import GreenThreads.Proofs.Numbering
import GreenThreads.Proofs.Rounding
import GreenThreads.Proofs.Quantum
import GreenThreads.Proofs.Nobody
import GreenThreads.Proofs.Guards
import GreenThreads.Proofs.Holdings
