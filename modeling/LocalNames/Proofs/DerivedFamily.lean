import LocalNames.Proofs.Accounting
import LocalNames.Proofs.CanonicalKey
import LocalNames.Proofs.Document
import LocalNames.Proofs.Stability

namespace LocalNames

namespace Scope

open LocalNames.TypeName

end Scope

end LocalNames
