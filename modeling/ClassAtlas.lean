import ClassAtlas.Proofs.Assembly
import ClassAtlas.Proofs.Atlas.Agreement
import ClassAtlas.Proofs.Atlas.Append
import ClassAtlas.Proofs.Atlas.Bounds
import ClassAtlas.Proofs.Atlas.Form
import ClassAtlas.Proofs.Atlas.Growth
import ClassAtlas.Proofs.Atlas.Identity
import ClassAtlas.Proofs.Atlas.Reorder
import ClassAtlas.Proofs.Atlas.Rounds
import ClassAtlas.Proofs.Call.Listing
import ClassAtlas.Proofs.Declaration.Listing
import ClassAtlas.Proofs.Declaration.Membership
import ClassAtlas.Proofs.Declarators
import ClassAtlas.Proofs.Heritage
import ClassAtlas.Proofs.Innermost
import ClassAtlas.Proofs.Isolation
import ClassAtlas.Proofs.Naming
import ClassAtlas.Proofs.Ownership
import ClassAtlas.Proofs.Query.Order
import ClassAtlas.Proofs.RuleBook
import ClassAtlas.Proofs.Scope
import ClassAtlas.Proofs.Scope.Declared
import ClassAtlas.Proofs.Scope.OnePlace
import ClassAtlas.Proofs.Scope.Spacing
import ClassAtlas.Proofs.Spelling
import ClassAtlas.Proofs.Superclass
import ClassAtlas.Proofs.Survey.Counts
import ClassAtlas.Proofs.Survey.Files
import ClassAtlas.Proofs.Survey.FreeCalls
import ClassAtlas.Proofs.Text.LeadingName
import ClassAtlas.Proofs.Tree.Listing
import ClassAtlas.Survey
import ClassAtlas.Tag
