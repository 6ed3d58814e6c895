import Subscriptions.Files.Disk
import Subscriptions.Main
import Subscriptions.Proofs.Tracker.View
import Subscriptions.Tracker.Machine
import Subscriptions.Proofs.Tracker.Listing
import Subscriptions.Proofs.Tracker.Notices
import Subscriptions.Proofs.Tracker.Handles
import Subscriptions.Proofs.Tracker.Quiet
import Subscriptions.Proofs.Tracker.Nesting
import Subscriptions.Proofs.Tracker.Simulation
import Subscriptions.Proofs.Tracker.Multicast
import Subscriptions.Proofs.Tracker.Ownership
import Subscriptions.Proofs.Tracker.Release
import Subscriptions.Proofs.Tracker.Closing
import Subscriptions.Proofs.Tracker.Run
import Subscriptions.Proofs.Tracker.Custody
import Subscriptions.Proofs.Tracker.Housing
import Subscriptions.Proofs.Tracker.Dealing
import Subscriptions.Proofs.Tracker.Storage
import Subscriptions.Proofs.Tracker.Calls
import Subscriptions.Proofs.Tracker.Identities
import Subscriptions.Proofs.Tracker.Draining
import Subscriptions.Proofs.Tracker.Retirement
import Subscriptions.Proofs.Syntax.Scanning
import Subscriptions.Proofs.Grammar.Reading
import Subscriptions.Proofs.Grammar.Members
import Subscriptions.Proofs.Grammar.Expressions
import Subscriptions.Proofs.Grammar.Statements
import Subscriptions.Proofs.Grammar.Integrity
import Subscriptions.Proofs.Grammar.Approximation
import Subscriptions.Proofs.Grammar.Termination
import Subscriptions.Proofs.Core.Expressions
import Subscriptions.Proofs.Core.Members
import Subscriptions.Proofs.Core.RoundTrip
import Subscriptions.Proofs.Nesting.Expressions
import Subscriptions.Proofs.Nesting.Limit
import Subscriptions.Proofs.Rule.Classification
import Subscriptions.Proofs.Rule.Exemption
import Subscriptions.Proofs.Rule.DocumentOrder
import Subscriptions.Proofs.Resolve.Shadowing
import Subscriptions.Proofs.Lockstep.Siting
import Subscriptions.Proofs.Layout.Flagging
import Subscriptions.Proofs.Syntax.Gaps
import Subscriptions.Proofs.Syntax.Respacing
import Subscriptions.Proofs.Linter.Pointing
import Subscriptions.Proofs.Linter.Totals
import Subscriptions.Proofs.Linter.Silencing
import Subscriptions.Proofs.Linter.Settings
import Subscriptions.Proofs.Config.Inheritance
import Subscriptions.Proofs.Suppression.Writing
import Subscriptions.Proofs.Suppression.Comments
import Subscriptions.Proofs.Types.Arrows
import Subscriptions.Proofs.Types.Returning
import Subscriptions.Proofs.Types.Declaring
import Subscriptions.Proofs.Making.Unknowns
import Subscriptions.Proofs.Operators.Chains
import Subscriptions.Proofs.Core.Conditionals
import Subscriptions.Proofs.Resolve.Depth
import Subscriptions.Proofs.Syntax.Substitutions
import Subscriptions.Proofs.Syntax.Closing
import Subscriptions.Proofs.Nesting.Containment
import Subscriptions.Proofs.Suppression.Queries
import Subscriptions.Proofs.Files.Respelling
import Subscriptions.Proofs.TypeName.Nullability
import Subscriptions.Proofs.TypeName.Misreading
import Subscriptions.Proofs.Report.Carets
import Subscriptions.Proofs.Report.Windows
import Subscriptions.Proofs.Report.Averages
import Subscriptions.Proofs.Report.SingleLines
