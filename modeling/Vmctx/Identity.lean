import Vmctx.Machine
/-!
# Identities on the wire

The source names a context's address space by a binding. Its epoch orders the bindings of one
context.
-/

namespace Vmctx

/-- `struct vmr_mm_binding`. -/
structure MmBinding where
  context : Nat
  mm : Nat
  parentMm : Nat
  epoch : Nat
  deriving DecidableEq, Repr

namespace MmBinding

def zero : MmBinding := ⟨0, 0, 0, 0⟩

/-- `vmr_binding_valid`. -/
def valid (b : MmBinding) : Bool :=
  b.context != 0 && b.mm != 0 && b.epoch != 0 && b.parentMm != b.mm

end MmBinding

end Vmctx
