/-! # Outcomes of several tasks

Tasks that may fail are run one by one, and their outcomes are gathered: all values when nothing
fails, else all errors. A task may end without anything to report, successfully or not; it
contributes nothing. -/

namespace TypeCatalog

variable {ε α : Type}

def valuesOf (outcomes : List (Except (Option ε) (Option α))) : List α :=
  outcomes.filterMap fun outcome => match outcome with
    | .ok value => value
    | .error _ => none

def errorsOf (outcomes : List (Except (Option ε) (Option α))) : List ε :=
  outcomes.filterMap fun outcome => match outcome with
    | .ok _ => none
    | .error error => error

/-- Every value in order, or every error when there is one. -/
def gather (outcomes : List (Except (Option ε) (Option α))) : Except (List ε) (List α) :=
  match errorsOf outcomes with
  | [] => .ok (valuesOf outcomes)
  | errors => .error errors

end TypeCatalog
