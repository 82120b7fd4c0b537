import TokenTable.Rejection.Reader
import TokenTable.Session.Operation
import TokenTable.Session.Play
import TokenTable.Settings
import TokenTable.Version
import TokenTable.Proofs.Batch.Nested
import TokenTable.Proofs.Fallible
import TokenTable.Proofs.Token
import TokenTable.Proofs.Item.Encoding
import TokenTable.Proofs.Item.RoundTrip
import TokenTable.Proofs.Client.Clauses
import TokenTable.Proofs.Sorting.Faults
import TokenTable.Proofs.Batch.Ordinary
import TokenTable.Proofs.Batch.Matching
import TokenTable.Proofs.Batch.Operation
import TokenTable.Proofs.Batch.Course
import TokenTable.Proofs.Batch.Conservation
import TokenTable.Proofs.Batch.Shortfall
import TokenTable.Proofs.Fingerprint.Rearranged
import TokenTable.Proofs.Batch.Ranking
import TokenTable.Proofs.Batch.Lookup
import TokenTable.Proofs.Fingerprint.Projected
import TokenTable.Proofs.Batch.WriteOrder
import TokenTable.Proofs.Fingerprint.Comparable
import TokenTable.Proofs.Batch.Comparable
import TokenTable.Proofs.Batch.Endings
import TokenTable.Proofs.Batch.Wire
import TokenTable.Proofs.Client.Scanned
import TokenTable.Proofs.Client.Moves
import TokenTable.Proofs.Batch.Classes
import TokenTable.Proofs.Batch.Deleting
import TokenTable.Proofs.Client.Emptying
import TokenTable.Proofs.Batch.Lockstep
import TokenTable.Proofs.Batch.Retries
import TokenTable.Proofs.Batch.Budget
import TokenTable.Proofs.Client.BareValues
import TokenTable.Proofs.Client.Arguments
import TokenTable.Proofs.Client.Unemptied
import TokenTable.Proofs.Session.Metering
import TokenTable.Proofs.Number.Exact
import TokenTable.Proofs.Ordering.Place
import TokenTable.Proofs.Client.Layouts
import TokenTable.Proofs.Ordering.Stable
import TokenTable.Proofs.Number.Normal
import TokenTable.Proofs.Number.Readback
import TokenTable.Proofs.Number.Spelling
import TokenTable.Proofs.Sorting.Uniform
import TokenTable.Proofs.Fingerprint.Elements
import TokenTable.Proofs.Fingerprint.Agreement
import TokenTable.Proofs.Value.Equivalence
import TokenTable.Proofs.Fingerprint.Proper
import TokenTable.Proofs.Batch.Assignment
import TokenTable.Proofs.Token.Grammar
import TokenTable.Proofs.Clause
import TokenTable.Proofs.Client.Conditions
import TokenTable.Proofs.Client.BinarySpellings
import TokenTable.Proofs.Canonical
import TokenTable.Proofs.Fingerprint.Echoed
import TokenTable.Proofs.Attribute.RoundTrip
import TokenTable.Proofs.Client.Updates
import TokenTable.Proofs.Client.Counting
import TokenTable.Proofs.Number.Doubles
import TokenTable.Proofs.Client.Waiting
import TokenTable.Proofs.Settings
import TokenTable.Proofs.Batch.Backoff
import TokenTable.Proofs.Batch.Exhausted
import TokenTable.Proofs.Session.Scripted
import TokenTable.Proofs.Store.Matching
import TokenTable.Proofs.Fingerprint.Native
import TokenTable.Proofs.Store.Echo
