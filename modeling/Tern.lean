import Tern.Compilation
import Tern.Grammar.Session
import Tern.Proofs.Grammar.Atomicity
import Tern.Proofs.Grammar.Termination
import Tern.Term.Listing
import Tern.Proofs.Grammar.Passing
import Tern.Proofs.Grammar.Alternatives
import Tern.Proofs.Grammar.Agreement
import Tern.Proofs.Grammar.Following
import Tern.Proofs.Grammar.Endings
import Tern.Proofs.Grammar.Reparsing
import Tern.Proofs.Term.Ownership
import Tern.Proofs.Term.Readiness
import Tern.Proofs.Term.Succession
import Tern.Proofs.Grammar.Yielding
import Tern.Proofs.Scope.Lookup
import Tern.Proofs.Scope.Marks
import Tern.Proofs.Scope.Rollback
import Tern.Proofs.Elaboration.MergeSoundness
import Tern.Proofs.Elaboration.Defining
import Tern.Proofs.Building.Additions
import Tern.Proofs.Building.Callables
import Tern.Proofs.Building.Entries
import Tern.Proofs.Building.Exchange
import Tern.Proofs.Building.Minting
import Tern.Proofs.Elaboration.Frame
import Tern.Proofs.Elaboration.Minting
import Tern.Proofs.Elaboration.Signatures
import Tern.Proofs.Elaboration.Passes
import Tern.Proofs.Elaboration.Histories
import Tern.Proofs.Elaboration.Coherence
import Tern.Proofs.Elaboration.Cleanness
import Tern.Proofs.Elaboration.Nesting
import Tern.Proofs.Grammar.Halting
import Tern.Proofs.Spelling.Precedence
import Tern.Proofs.Spelling.TypeParsing
import Tern.Proofs.Grammar.Discipline
import Tern.Proofs.Elaboration.CanonicalTypes
import Tern.Proofs.Token.Tokenization
import Tern.Proofs.Token.Respelling
import Tern.Proofs.Grammar.Capture
import Tern.Proofs.Grammar.Delimiting
import Tern.Proofs.Elaboration.Shrinking
import Tern.Proofs.Building.Enrolling
import Tern.Proofs.Term.Lists
import Tern.Proofs.Term.Words
import Tern.Proofs.Term.Searching
import Tern.Proofs.Elaboration.Recording
import Tern.Proofs.Elaboration.Steadiness
import Tern.Proofs.Elaboration.Hushing
import Tern.Proofs.Elaboration.Registering
import Tern.Proofs.Elaboration.Advancing
import Tern.Proofs.Elaboration.Visiting
import Tern.Proofs.Elaboration.Touring
import Tern.Proofs.Elaboration.Itinerary
import Tern.Proofs.Elaboration.Memberships
import Tern.Proofs.Elaboration.Idempotence
import Tern.Proofs.Elaboration.Overriders
import Tern.Proofs.Elaboration.Freshness
import Tern.Proofs.Elaboration.SortedSets
import Tern.Proofs.Elaboration.ImplicitTemplates
import Tern.Proofs.Report.Accounting
import Tern.Proofs.Report.Ordering
import Tern.Proofs.Term.Shape
import Tern.Proofs.Token.Interning
import Tern.Proofs.Token.Restriction
import Tern.Proofs.Grammar.Exactness
