import RiskTypology.Main
import RiskTypology.Proofs.Accumulator.Agreement
import RiskTypology.Proofs.Accumulator.Calls
import RiskTypology.Proofs.Accumulator.Log
import RiskTypology.Proofs.Accumulator.Record
import RiskTypology.Proofs.Distinct
import RiskTypology.Proofs.Draft.Written
import RiskTypology.Proofs.Evaluation.Weights
import RiskTypology.Proofs.Pass.Completion
import RiskTypology.Proofs.Pass.Finish
import RiskTypology.Proofs.Pass.HandOver
import RiskTypology.Proofs.Readiness
import RiskTypology.Proofs.Requirement
import RiskTypology.Proofs.Routing.Assessment
import RiskTypology.Proofs.Routing.DefaultChannel
import RiskTypology.Proofs.Routing.Timeless
import RiskTypology.Proofs.Run.Accumulation
import RiskTypology.Proofs.Run.Deletion
import RiskTypology.Proofs.Run.Lifetime
import RiskTypology.Proofs.Run.Order
import RiskTypology.Proofs.Run.Separation
import RiskTypology.Proofs.Run.Timing
import RiskTypology.Proofs.Run.Turns
import RiskTypology.Proofs.Pass.Disclosure
import RiskTypology.Proofs.Accumulator.Readable
import RiskTypology.Proofs.Pass.StoreEffect
import RiskTypology.Proofs.Routing.Failures
import RiskTypology.Proofs.Run.Isolation
import RiskTypology.Proofs.Pass.Scored
import RiskTypology.Proofs.Pass.Tally
import RiskTypology.Proofs.Run.Tally
import RiskTypology.Proofs.Accumulator.Origin
import RiskTypology.Proofs.Run.Weights
import RiskTypology.Proofs.Merged
import RiskTypology.Proofs.Run.Remapping
import RiskTypology.Proofs.Routing.Ruling
import RiskTypology.Proofs.Bare
import RiskTypology.Proofs.Accumulator.Bare
import RiskTypology.Proofs.Run.Decision
import RiskTypology.Proofs.Run.Blockage
import RiskTypology.Proofs.Run.Completeness
import RiskTypology.Proofs.Decimal.Finite
import RiskTypology.Proofs.Json.Canonical
import RiskTypology.Proofs.Draft.Apart
import RiskTypology.Proofs.Model.Untouched
import RiskTypology.Proofs.Draft.Survival
import RiskTypology.Proofs.Expression.Survival
import RiskTypology.Proofs.Model.Survival
import RiskTypology.Proofs.Evaluation.Denotation
import RiskTypology.Proofs.Routing.Trace
import RiskTypology.Proofs.Service.Exchanges
import RiskTypology.Proofs.Aggregation
import RiskTypology.Proofs.Expression.Grammar
import RiskTypology.Proofs.Expression.RoundTrip
import RiskTypology.Proofs.Yaml.Documents
import RiskTypology.Proofs.Yaml.Layers
import RiskTypology.Proofs.Yaml.Inclusion
import RiskTypology.Proofs.Yaml.Overriding
import RiskTypology.Proofs.Repository
