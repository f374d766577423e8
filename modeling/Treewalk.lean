import Treewalk.Document.Convert
import Treewalk.Expr.Access
import Treewalk.Main
import Treewalk.Proofs.Scoping.Reachable
import Treewalk.Proofs.Semantics.CallStack
import Treewalk.Proofs.Tree.NormalForm
import Treewalk.Proofs.SideBySide.Step
import Treewalk.Proofs.SideBySide.Eval
import Treewalk.Proofs.SideBySide.Same
import Treewalk.Proofs.Machine.Chains
import Treewalk.Proofs.Sessions.Batch
import Treewalk.Proofs.Regrouping.Syntax
import Treewalk.Proofs.Regrouping.Eval
import Treewalk.Proofs.Regrouping.Sessions
import Treewalk.Proofs.Sessions.Faults
import Treewalk.Proofs.Encapsulation.Eval
import Treewalk.Proofs.Sessions.Limits
import Treewalk.Proofs.Sessions.Termination
import Treewalk.Proofs.Sessions.Bookkeeping
import Treewalk.Proofs.Yaml.RoundTrip
import Treewalk.Proofs.Json.RoundTrip
import Treewalk.Proofs.Tree.Containers
import Treewalk.Proofs.Sessions.TextDocuments
import Treewalk.Proofs.Arithmetic.Exact
import Treewalk.Proofs.Scoping.Access
import Treewalk.Proofs.Calls.Arguments
import Treewalk.Proofs.Sessions.Output
import Treewalk.Proofs.Scoping.Unwritten
import Treewalk.Proofs.Semantics.Location
import Treewalk.Proofs.Machine.Depth
import Treewalk.Proofs.Regrouping.LeftNested
import Treewalk.Proofs.Source.Reader
import Treewalk.Proofs.Source.Productions
import Treewalk.Proofs.Source.Unambiguous
import Treewalk.Proofs.Source.Indentation
