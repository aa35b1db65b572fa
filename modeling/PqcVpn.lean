import PqcVpn.Lib.PrefixFree
import PqcVpn.Lib.Transition
import PqcVpn.Lib.ExceptState
import PqcVpn.Lib.Table
import PqcVpn.Lib.Lease
import PqcVpn.Lib.Mirror
import PqcVpn.Lib.Tiling
import PqcVpn.Lib.Debounce
import PqcVpn.Lib.Snapshot
import PqcVpn.Lib.Machine
import PqcVpn.Lib.Deque
import PqcVpn.Lib.Raises
import PqcVpn.Lib.Driven
import PqcVpn.Lib.Sampling
import PqcVpn.Lib.Average
import PqcVpn.Lib.Quantile
import PqcVpn.Lib.Amortized
import PqcVpn.Lib.Base64
import PqcVpn.Lib.Collect
import PqcVpn.Lib.Rounding
import PqcVpn.Basic.Bytes
import PqcVpn.Basic.Ipv4Text
import PqcVpn.Crypto.Algorithm
import PqcVpn.Wire.Error
import PqcVpn.Wire.Utf8
import PqcVpn.Wire.Message
import PqcVpn.Wire.RoundTrip
import PqcVpn.Wire.Frames
import PqcVpn.Wire.Canonical
import PqcVpn.Wire.ErrorText
import PqcVpn.Wire.SelfDelimiting
import PqcVpn.Crypto.HybridKem
import PqcVpn.Crypto.Transcript
import PqcVpn.Crypto.Reference
import PqcVpn.Handshake.Respond
import PqcVpn.Handshake.Client
import PqcVpn.Handshake.Connect
import PqcVpn.Handshake.Agreement
import PqcVpn.Handshake.Parity
import PqcVpn.Handshake.Kdf
import PqcVpn.Handshake.ClientState
import PqcVpn.Registry.Model
import PqcVpn.Registry.Persist
import PqcVpn.Registry.History
import PqcVpn.Registry.Reference
import PqcVpn.Registry.Capacity
import PqcVpn.Registry.Reload
import PqcVpn.Registry.Overflow
import PqcVpn.Registry.Addresses
import PqcVpn.Registry.Reconfigured
import PqcVpn.Registry.Sessions
import PqcVpn.Server.Tunnel
import PqcVpn.Server.Handler
import PqcVpn.Server.Negotiate
import PqcVpn.Server.Effects
import PqcVpn.Server.Completion
import PqcVpn.Server.Reference
import PqcVpn.Server.Replies
import PqcVpn.Server.Rejections
import PqcVpn.Server.Reconcile
import PqcVpn.Server.Restart
import PqcVpn.Server.Atomicity
import PqcVpn.Server.Authorisation
import PqcVpn.Server.Sweep
import PqcVpn.Server.Concurrent
import PqcVpn.Server.Overtaking
import PqcVpn.Server.SweepRace
import PqcVpn.Server.Identity
import PqcVpn.Server.Pinning
import PqcVpn.Server.Text
import PqcVpn.Server.WgText
import PqcVpn.Server.Cidr
import PqcVpn.Network.Model
import PqcVpn.Network.Invariant
import PqcVpn.Network.Reference
import PqcVpn.Network.Binding
import PqcVpn.Network.Honest
import PqcVpn.Gate.Model
import PqcVpn.Gate.Rule
import PqcVpn.Gate.Refinement
import PqcVpn.Gate.Python
import PqcVpn.Gate.Port
import PqcVpn.Gate.Laws
import PqcVpn.Gate.Negotiation
import PqcVpn.Gate.Budget
import PqcVpn.Gate.Logits
import PqcVpn.Anomaly.Baseline
import PqcVpn.Anomaly.Signatures
import PqcVpn.Anomaly.Combiner
import PqcVpn.Anomaly.Forest
import PqcVpn.Anomaly.Calibration
import PqcVpn.Anomaly.WarmUp
import PqcVpn.Anomaly.Streaks
import PqcVpn.Anomaly.Outliers
import PqcVpn.Anomaly.TickFeatures
import PqcVpn.Anomaly.SimulatedTicks
import PqcVpn.Anomaly.Thresholds
import PqcVpn.State.Pipeline
import PqcVpn.State.Observer
import PqcVpn.Policy.Reward
import PqcVpn.Policy.Boundary
import PqcVpn.Policy.Promotion
import PqcVpn.Policy.Environment
import PqcVpn.Policy.Episodes
import PqcVpn.Policy.Rollout
import PqcVpn.Policy.Sampling
import PqcVpn.Policy.Evaluation
import PqcVpn.Policy.Simulation
