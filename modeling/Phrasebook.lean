import Phrasebook.Http.Service
import Phrasebook.OrderedMap.Lemmas
import Phrasebook.Proofs.Holder.Target
import Phrasebook.Proofs.Holder.Walk
import Phrasebook.Proofs.Holder.Chain
import Phrasebook.Proofs.Condition.Grammar
import Phrasebook.Proofs.Condition.Recognition
import Phrasebook.Proofs.Condition.Scanning
import Phrasebook.Proofs.Condition.Printing
import Phrasebook.Proofs.Influence.Coupling
import Phrasebook.Proofs.Influence.Isolation
import Phrasebook.Proofs.Influence.Reading
import Phrasebook.Proofs.Holder.Nesting
import Phrasebook.Proofs.Holder.Repetition
import Phrasebook.Proofs.Blueprint.Misuse
import Phrasebook.Proofs.Condition.Viable
import Phrasebook.Proofs.Condition.Lexing
import Phrasebook.Proofs.Condition.Layout
import Phrasebook.Proofs.Condition.Offence
import Phrasebook.Proofs.Registry.Building
import Phrasebook.Proofs.Registry.FirstMatch
import Phrasebook.Proofs.Registry.Pruning
import Phrasebook.Proofs.Engine.Run
import Phrasebook.Proofs.Engine.Injection
import Phrasebook.Proofs.Number.Range
import Phrasebook.Proofs.Number.Exact
import Phrasebook.Proofs.Number.Rounding
import Phrasebook.Proofs.Number.Numeral
import Phrasebook.Proofs.Condition.Totality
import Phrasebook.Proofs.Engine.Taxonomy
import Phrasebook.Proofs.Engine.Variants
import Phrasebook.Proofs.Condition.Spelling
import Phrasebook.Proofs.Condition.Comparing
import Phrasebook.Proofs.Condition.Integers
import Phrasebook.Proofs.Condition.Chains
import Phrasebook.Proofs.Http.Refusal
import Phrasebook.Proofs.Http.Resolution
import Phrasebook.Proofs.Template.Decomposition
import Phrasebook.Proofs.Template.Composition
import Phrasebook.Proofs.Holder.Persistence
import Phrasebook.Proofs.Holder.Footprint
import Phrasebook.Proofs.Registry.Flattening
import Phrasebook.Proofs.Engine.Languages
import Phrasebook.Proofs.Text.Surrogates
import Phrasebook.Proofs.Text.Utf8
import Phrasebook.Proofs.Http.Routing
import Phrasebook.Proofs.Http.Escaping
import Phrasebook.Proofs.Http.Defaults
import Phrasebook.Proofs.Http.Reachability
import Phrasebook.Proofs.Text.Trimming
import Phrasebook.Proofs.Blueprint.Fields
import Phrasebook.Proofs.Blueprint.Names
import Phrasebook.Proofs.Blueprint.Normal
import Phrasebook.Proofs.Registry.Overview
import Phrasebook.Proofs.Store.History
import Phrasebook.Proofs.Http.Histories
