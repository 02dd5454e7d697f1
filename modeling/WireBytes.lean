import WireBytes.Message
import WireBytes.Pool.Client
import WireBytes.Proofs.Attempt
import WireBytes.Proofs.BestFit
import WireBytes.Proofs.Message
import WireBytes.Proofs.Pool.Bounds
import WireBytes.Proofs.Pool.Faultless
import WireBytes.Proofs.Pool.IdleMemory
import WireBytes.Proofs.Pool.Isolation
import WireBytes.Proofs.Pool.Ledger
import WireBytes.Proofs.Pool.Lending
import WireBytes.Proofs.Pool.Retention
import WireBytes.Proofs.Pool.Transparency
import WireBytes.Proofs.Schedule
import WireBytes.Proofs.Source
import WireBytes.Proofs.Transport.Options
import WireBytes.Proofs.WholeReads
import WireBytes.Transport.Options.Json
import WireBytes.Proofs.Pool.Guards
import WireBytes.Proofs.Json.Characters
import WireBytes.Proofs.Transport.Loading
