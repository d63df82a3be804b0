import Mathlib.Tactic.Common

/-!
# The C library interface of `Compat.c.in`

The `errno` values, `getrandom` flags and `open` flags the compatibility layer tests or sets, with
their Linux x86-64 values, and the result of a system call as the C library reports it.
-/

namespace CvCuda.Compat

/-- `EINTR` (`<errno.h>`). -/
def EINTR : Int := 4

/-- `EIO` (`<errno.h>`). -/
def EIO : Int := 5

/-- `EINVAL` (`<errno.h>`). -/
def EINVAL : Int := 22

/-- `ENOSYS` (`<errno.h>`). -/
def ENOSYS : Int := 38

/-- `GRND_NONBLOCK` (`<sys/random.h>`). -/
def GRND_NONBLOCK : UInt32 := 1

/-- `GRND_RANDOM` (`<sys/random.h>`). -/
def GRND_RANDOM : UInt32 := 2

/-- `O_RDONLY` (`<fcntl.h>`). -/
def O_RDONLY : Nat := 0

/-- `O_NONBLOCK` (`<fcntl.h>`). -/
def O_NONBLOCK : Nat := 2048

/-- A system call's outcome as the C library reports it: a non-negative count, or `-1` with
`errno` set. -/
inductive SysResult
  | ok (n : Nat)
  | err (errno : Int)
  deriving DecidableEq, Repr

/-- The value the C function returns. -/
def SysResult.ret : SysResult → Int
  | .ok n => n
  | .err _ => -1

end CvCuda.Compat
