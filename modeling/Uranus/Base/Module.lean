import Mathlib.Data.List.Basic

/-! The life of a server module, as its base class has it. -/
namespace Uranus

inductive EModuleState where
  | created
  | initialized
  | running
  | stopped
deriving DecidableEq, Repr

end Uranus
