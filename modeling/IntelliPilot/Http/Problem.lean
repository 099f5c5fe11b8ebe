import Mathlib.Data.List.Basic

/-! # Problem documents

The refusals of the project handlers, as `problem` builds them. The request id
is left out.
-/

namespace IntelliPilot.Http

structure Problem where
  status : Nat
  code : String
  title : String
  detail : Option String
  deriving DecidableEq, Repr

def internal : Problem := ⟨500, "internal_error", "Internal Server Error", none⟩

def notFound : Problem := ⟨404, "not_found", "Not Found", none⟩

def forbidden : Problem := ⟨403, "forbidden", "Forbidden", none⟩

def conflict (detail : String) : Problem := ⟨409, "conflict", "Conflict", some detail⟩

/-- `backlog::unprocessable`. -/
def unprocessable (code detail : String) : Problem := ⟨422, code, "Unprocessable", some detail⟩

end IntelliPilot.Http
