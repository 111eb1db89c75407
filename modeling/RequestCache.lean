import RequestCache.Main
import RequestCache.Rehearsal.LedgerScript
import RequestCache.Rehearsal.RemoteScript
import RequestCache.Rehearsal.Session
import RequestCache.Proofs.Json.Numeral
import RequestCache.Proofs.Json.Reading
import RequestCache.Proofs.Bundle
import RequestCache.Proofs.Application
import RequestCache.Proofs.Calm
import RequestCache.Proofs.Schedule
import RequestCache.Proofs.Cascade
import RequestCache.Proofs.Invalidation
import RequestCache.Proofs.Retry
import RequestCache.Proofs.Interleaving
import RequestCache.Proofs.Provenance
import RequestCache.Proofs.Expiry
import RequestCache.Proofs.Host
import RequestCache.Proofs.Backends
import RequestCache.Proofs.Json.Depth
import RequestCache.Proofs.RoundTrip
import RequestCache.Proofs.Operations
import RequestCache.Proofs.Groups
import RequestCache.Proofs.Siblings
import RequestCache.Proofs.Overlap
import RequestCache.Proofs.Policies
import RequestCache.Proofs.Timeline
import RequestCache.Proofs.Cancellation
import RequestCache.Proofs.Crossing
import RequestCache.Proofs.Readers
import RequestCache.Proofs.KeySpaces
import RequestCache.Proofs.Errands
import RequestCache.Proofs.Aside
import RequestCache.Proofs.Registration
import RequestCache.Proofs.Calls
import RequestCache.Proofs.Protocol
import RequestCache.Proofs.Uncached
import RequestCache.Proofs.Healing
import RequestCache.Proofs.Passage
import RequestCache.Proofs.PartialWrites
import RequestCache.Proofs.OwnKeys
import RequestCache.Proofs.Balance
import RequestCache.Proofs.PartialRemovals
import RequestCache.Proofs.Rounds
import RequestCache.Proofs.Rounding
import RequestCache.Proofs.Deadlines
import RequestCache.Proofs.Words
import RequestCache.Proofs.RelativeEnds
import RequestCache.Proofs.FanOut
import RequestCache.Proofs.Recorders
import RequestCache.Proofs.Faults
import RequestCache.Proofs.SettingTexts
import RequestCache.Proofs.Elapsed
import RequestCache.Proofs.Derivation
