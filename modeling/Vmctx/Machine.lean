import Mathlib.Algebra.Group.Nat.Defs
/-!
# Machine quantities shared by the models

Pages are 4096 bytes. Addresses and identities are 64-bit words. The error numbers are the ones the
modelled operations return; their numeric values are never compared with each other. `EIOerr` is the
source's `EIO`.
-/

namespace Vmctx

abbrev PageBytes := Fin 4096 → UInt8

def zeroPage : PageBytes := fun _ => 0

/-- The address with its offset inside the page cleared, `page & ~4095`. -/
def pageBase (page : UInt64) : UInt64 := page &&& ~~~4095

/-- The error numbers that the modelled code returns. -/
inductive Errno
  | EPERM | ENOENT | ESRCH | EINTR | EIOerr | EAGAIN | ENOMEM | EFAULT | EBUSY | EEXIST | EINVAL
  | ERANGE | EPROTO | EOVERFLOW | EOPNOTSUPP | ETIMEDOUT | EALREADY | ESTALE | ENOTRECOVERABLE
  | ENXIO | EACCES | ESHUTDOWN | ECANCELED | EBADF | EXDEV | ENAMETOOLONG
  deriving DecidableEq, Repr

end Vmctx
