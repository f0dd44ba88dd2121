import AttentiveReasoner.Parameters.Reader
import AttentiveReasoner.Proofs.Attention.Bag.Forgetting
import AttentiveReasoner.Proofs.Attention.Bag.Listing
import AttentiveReasoner.Proofs.Attention.Bag.Masses
import AttentiveReasoner.Proofs.Attention.Bag.Reinforcement
import AttentiveReasoner.Proofs.Attention.Bag.Seniority
import AttentiveReasoner.Proofs.Evidence.Bases
import AttentiveReasoner.Proofs.Inference.Conclusions
import AttentiveReasoner.Proofs.Inference.Premises
import AttentiveReasoner.Proofs.Knowledge.Merging
import AttentiveReasoner.Proofs.Language.Compositions
import AttentiveReasoner.Proofs.Language.Measures
import AttentiveReasoner.Proofs.Language.Redundancy
import AttentiveReasoner.Proofs.Language.Symmetry
import AttentiveReasoner.Proofs.Memory.Accounting
import AttentiveReasoner.Proofs.Memory.Activation
import AttentiveReasoner.Proofs.Memory.Activity
import AttentiveReasoner.Proofs.Memory.Backlog
import AttentiveReasoner.Proofs.Memory.Draining
import AttentiveReasoner.Proofs.Memory.Failures
import AttentiveReasoner.Proofs.Memory.Losses
import AttentiveReasoner.Proofs.Memory.Recovery
import AttentiveReasoner.Proofs.Memory.Serials
import AttentiveReasoner.Proofs.Memory.Soundness
import AttentiveReasoner.Proofs.Memory.Watching
import AttentiveReasoner.Reasoner
