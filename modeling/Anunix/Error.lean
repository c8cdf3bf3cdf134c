import Mathlib

/-!
# Error codes

The negative return codes of `kernel/include/anx/types.h`. A C function that returns `ANX_OK` on
success and one of these on failure becomes a Lean function into `Except Err` (or a monad over it);
`ANX_OK` itself is the `ok` side.
-/

namespace Anunix

/-- The error codes of the kernel (C `ANX_ENOMEM` … `ANX_ERANGE`). -/
inductive Err where
  | enomem | einval | enoent | eexist | eperm | eio | ebusy | enosys | etimedout | econnreset
  | ehostunreach | enotimpl | efull | enodev | enotsup | ecanceled | eaudit | erange
  deriving DecidableEq, Repr

end Anunix
