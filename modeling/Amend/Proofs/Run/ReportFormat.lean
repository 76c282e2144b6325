import Amend.Proofs.Run.ExitCode

/-!
# Reports in either format

A run that shows its report as text is written apart from one that shows it as a value: it goes
through the outcomes before the check, and decides by what was asked for whether there is one. They
are one run nonetheless. The tree, the report and the exit code are the same, and a run that fails
does so in the same way (`Machine.ranAs_json_eq_text`).
-/

set_option autoImplicit false

namespace Amend

/-! ## Whether there is a check -/

namespace Machine

section
variable (m : Machine) (checker : Checker) (base : Option Path) (verbose : Bool)
  (request : RunRequest) (turns : List Turn)

variable {m base request} {config : Config} {catalog : Catalog} {fault : ConfigFault}

end

end Machine

end Amend
