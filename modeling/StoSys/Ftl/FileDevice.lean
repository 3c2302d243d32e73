import StoSys.Ftl.ZnsDevice

/-!
# `backup_zns_device_file.cpp`

The other implementation of the device interface keeps the user's blocks in a file.  It looks at
a request before it does anything: the request has to end inside the capacity, and to be made of
whole blocks.

`init_ss_zns_device` takes the size of the device from the drive, and makes a file of that size.
Every number it handles on the way has 32 bits.

Both tests of a write and its call to `fseek` are on fixed-width integers.  The sum in the first
test may wrap, and then the address is so large that `fseek`, which takes a `long`, is given a
negative position (`fileUdeviceWrite_eq_zero_iff`): what the file accepts are the requests that are
`Acceptable` as exact integers.
-/

namespace StoSys

open Effect CInt

variable {B : Type}

/-! ## Opening -/

/-- What opening asks of its environment. -/
inductive FileOp where
  | nvmeOpen
  | nvmeGetNsid
  | nvmeIdentifyNs
  | nvmeZnsIdentifyNs
  | nvmeZnsReport
  | fopen
  | fseek (offset : ℤ)
  | fputc

/-- The answer: a return code, and the LBA format, the size of a zone or the number of zones. -/
abbrev FileOp.Res : FileOp → Type
  | .nvmeOpen => ℤ
  | .nvmeGetNsid => ℤ
  | .nvmeIdentifyNs => ℤ × ℕ
  | .nvmeZnsIdentifyNs => ℤ × ℕ
  | .nvmeZnsReport => ℤ × ℕ
  | .fopen => Unit
  | .fseek _ => ℤ
  | .fputc => ℤ

/-- The part of `user_zns_device` that opening fills in. -/
structure FileConfig where
  lbaSizeBytes : ℕ
  capacityBytes : ℕ
  znsLbaSize : ℕ
  znsZoneCapacity : ℕ
  znsNumZones : ℕ

/-- What it computes from its parameters, the LBA format, `zsze` and the number of zones. -/
def mkFileConfig (p : InitParams) (ds zsze nrZones : ℕ) : FileConfig :=
  let lbaSize := toU32 (2 ^ ds : ℕ)
  let zoneCapacity := toU32 (zsze * lbaSize : ℕ)
  let numZones := toU32 (nrZones - p.logZones)
  { lbaSizeBytes := lbaSize
    capacityBytes := toU32 (numZones * zoneCapacity : ℕ)
    znsLbaSize := lbaSize
    znsZoneCapacity := zoneCapacity
    znsNumZones := numZones }

/-- `init_ss_zns_device` of the file. -/
def fileInitSsZnsDevice (p : InitParams) : Program FileOp FileOp.Res (ℤ × Option FileConfig) := do
  let fd ← Program.perform FileOp.nvmeOpen
  if fd < 0 then pure (-fd, none)
  else do
    let ret ← Program.perform FileOp.nvmeGetNsid
    if ret ≠ 0 then pure (ret, none)
    else do
      let ns ← Program.perform FileOp.nvmeIdentifyNs
      if ns.1 ≠ 0 then pure (ns.1, none)
      else do
        let znsNs ← Program.perform FileOp.nvmeZnsIdentifyNs
        if znsNs.1 ≠ 0 then pure (znsNs.1, none)
        else do
          let report ← Program.perform FileOp.nvmeZnsReport
          if report.1 ≠ 0 then pure (report.1, none)
          else do
            let dev := mkFileConfig p ns.2 znsNs.2 report.2
            let _ ← Program.perform FileOp.fopen
            let ret ← Program.perform (FileOp.fseek (toI64 dev.capacityBytes))
            if ret < 0 then pure (ret, none)
            else do
              let ret ← Program.perform FileOp.fputc
              if ret = -1 then pure (ret, none)
              else do
                let ret ← Program.perform (FileOp.fseek 0)
                if ret < 0 then pure (ret, none) else pure (0, some dev)

/-! ## Writing -/

/-- What the file holds, one element a block. -/
abbrev File (B : Type) : Type := ℕ → B

/-- `EINVAL` -/
def einval : ℤ := 22

/-- `fseek(fp, offset, SEEK_SET)`: a file has no position below zero. -/
def fseek (offset : ℤ) : ℤ := if offset < 0 then -1 else 0

/-- `zns_udevice_write` of the file, which has room. -/
def fileUdeviceWrite (c : Config) (file : File B) (address size : ℕ) (buf : Buffer B) :
    ℤ × File B :=
  if c.capacityBytes < toU64 (address + size : ℕ) then (-einval, file)
  else if address % c.lbaSizeBytes ≠ 0 ∨ size % c.lbaSizeBytes ≠ 0 then (-einval, file)
  else
    let ret := fseek (toI64 address)
    if ret < 0 then (ret, file)
    else
      (0, fun i =>
        if address / c.lbaSizeBytes ≤ i ∧ i < (address + size) / c.lbaSizeBytes then
          buf ((i : ℤ) - (address / c.lbaSizeBytes : ℕ))
        else file i)

/-- A request of whole blocks inside the capacity, as exact integers. -/
def Acceptable (c : Config) (address size : ℕ) : Prop :=
  c.lbaSizeBytes ∣ address ∧ c.lbaSizeBytes ∣ size ∧ address + size ≤ c.capacityBytes

instance (c : Config) (address size : ℕ) : Decidable (Acceptable c address size) :=
  inferInstanceAs (Decidable (_ ∧ _ ∧ _))

lemma fseek_neg_iff (offset : ℤ) : fseek offset < 0 ↔ offset < 0 := by
  unfold fseek
  split <;> omega

/-- **What the file accepts**: no request wraps around and is let through. -/
theorem fileUdeviceWrite_eq_zero_iff {c : Config} (hcap : c.capacityBytes < 9223372036854775808)
    (file : File B) {address size : ℕ} (haddress : address < 18446744073709551616)
    (hsize : size < 4294967296) (buf : Buffer B) :
    (fileUdeviceWrite c file address size buf).1 = 0 ↔ Acceptable c address size := by
  have hneg : fseek (toI64 address) < 0 ↔ 9223372036854775808 ≤ address := by
    rw [fseek_neg_iff]
    unfold toI64
    split <;> omega
  have hwrap : ¬ 9223372036854775808 ≤ address → toU64 (address + size : ℕ) = address + size :=
    fun h => toU64_of_lt (by omega)
  have herror : ¬ (-einval : ℤ) = 0 := by decide
  rw [Acceptable, Nat.dvd_iff_mod_eq_zero, Nat.dvd_iff_mod_eq_zero, fileUdeviceWrite]
  by_cases hout : c.capacityBytes < toU64 (address + size : ℕ)
  · rw [if_pos hout]
    refine iff_of_false herror fun h => ?_
    rw [hwrap (by omega)] at hout
    omega
  rw [if_neg hout]
  by_cases halign : address % c.lbaSizeBytes ≠ 0 ∨ size % c.lbaSizeBytes ≠ 0
  · rw [if_pos halign]
    refine iff_of_false herror fun h => ?_
    exact halign.elim (fun h' => h' h.1) fun h' => h' h.2.1
  rw [if_neg halign]
  by_cases hseek : fseek (toI64 address) < 0
  · have hlarge := hneg.mp hseek
    have hne : ¬ fseek (toI64 address) = 0 := by omega
    simp only [if_pos hseek]
    refine iff_of_false hne fun h => ?_
    have hle : address ≤ c.capacityBytes := Nat.le_trans (Nat.le_add_right address size) h.2.2
    exact Nat.lt_irrefl _ (Nat.lt_of_le_of_lt (Nat.le_trans hlarge hle) hcap)
  · rw [hneg] at hseek
    rw [hwrap hseek] at hout
    simp only [hneg, if_neg hseek]
    refine iff_of_true trivial ⟨?_, ?_, by omega⟩
    · exact not_not.mp fun h => halign (Or.inl h)
    · exact not_not.mp fun h => halign (Or.inr h)

end StoSys
