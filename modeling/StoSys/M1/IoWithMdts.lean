import StoSys.Lib.Batch
import StoSys.Lib.CInt

/-!
# `m1_assignment.cpp`: cutting a transfer

The first assignment has a loop of its own around the read and write commands.  It hands on a block
count, not a zero-based one, through a `uint16_t` parameter; the wrappers subtract one.  The limit
on the length of a command is a parameter, computed from what the controller says of itself.

A command is modelled by what it carries; `off` is the byte offset of its data in the buffer.  The
loop runs on a counter that bounds its commands, which is enough for every limit but zero.
-/

namespace StoSys.M1

open Effect CInt

/-- The commands of the loop. -/
inductive Command where
  | nvmeRead (slba nlb dataLen off : ℕ)
  | nvmeWrite (slba nlb dataLen off : ℕ)
  deriving DecidableEq

/-- A command is answered by its return code. -/
abbrev Command.Res : Command → Type := fun _ => ℤ

/-- `ss_nvme_device_read` -/
def ssNvmeDeviceRead (slba numbers off bufSize : ℕ) : Program Command Command.Res ℤ :=
  Program.perform (.nvmeRead slba (toU16 ((numbers : ℤ) - 1)) (toU32 bufSize) off)

/-- `ss_nvme_device_write` -/
def ssNvmeDeviceWrite (slba numbers off bufSize : ℕ) : Program Command Command.Res ℤ :=
  Program.perform (.nvmeWrite slba (toU16 ((numbers : ℤ) - 1)) (toU32 bufSize) off)

/-- The `while` loop; `ret` is what the last command has returned. -/
def ioLoop (lbaSize mdtsSize : ℕ) (read : Bool) :
    (fuel sizeToIo bufPtr writePointer : ℕ) → (ret : ℤ) → Program Command Command.Res ℤ
  | 0, _, _, _, ret => pure ret
  | fuel + 1, sizeToIo, bufPtr, writePointer, ret =>
      if 0 < sizeToIo then do
        let singleIoSize := if mdtsSize < sizeToIo then mdtsSize else sizeToIo
        let numbers := toU16 (singleIoSize / lbaSize : ℕ)
        let ret ←
          if read then ssNvmeDeviceRead writePointer numbers bufPtr singleIoSize
          else ssNvmeDeviceWrite writePointer numbers bufPtr singleIoSize
        if ret ≠ 0 then pure ret
        else
          ioLoop lbaSize mdtsSize read fuel (sizeToIo - singleIoSize) (bufPtr + singleIoSize)
            (toU64 (writePointer + singleIoSize / lbaSize : ℕ)) ret
      else pure ret

/-- `ENOSYS` -/
def enosys : ℤ := 38

/-- `ss_nvme_device_io_with_mdts` -/
def ssNvmeDeviceIoWithMdts (slba bufSize lbaSize mdtsSize : ℕ) (read : Bool) :
    Program Command Command.Res ℤ :=
  ioLoop lbaSize mdtsSize read (bufSize / mdtsSize + 1) bufSize 0 slba (-enosys)

/-- `get_mdts_size`: `pow(2, mdts - 1) * mps_min`, from the `mdts` byte of the controller and the
`mpsmax_mpsmin` byte of its capabilities.  Both factors are powers of two, so nothing is rounded. -/
def getMdtsSize (mdts mpsmaxMpsmin : ℕ) : ℕ := 2 ^ mdts * 2 ^ (12 + mpsmaxMpsmin % 16) / 2

lemma getMdtsSize_eq (mdts mpsmaxMpsmin : ℕ) :
    getMdtsSize mdts mpsmaxMpsmin = 2 ^ (mdts + 11 + mpsmaxMpsmin % 16) := by
  rw [getMdtsSize, ← Nat.pow_add, show mdts + (12 + mpsmaxMpsmin % 16)
    = mdts + 11 + mpsmaxMpsmin % 16 + 1 by omega, Nat.pow_succ]
  exact Nat.mul_div_cancel _ (by decide)

end StoSys.M1
