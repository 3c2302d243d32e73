import StoSys.Ftl.FileDevice
import StoSys.Ftl.Session
import StoSys.M3.Ideal
import Mathlib.Data.UInt

/-!
# Two devices for the tests

The interface of `zns_device.h` hands over bytes.  Both implementations are brought to it here: the
translation layer over blocks that are bytes themselves (`ftlDevice`), and the file
(`fileDevice`).  Either stores what a client writes block by block (`stores_ftl`, `stores_file`).

The model of the file by whole blocks, `fileUdeviceWrite`, and the one by bytes are one:
`fileWrite_eq`.
-/

namespace StoSys

open Effect HashMap Zoned CInt M3

variable {ds : ℕ}

/-! ## Bytes and blocks -/

/-- A block, byte by byte. -/
abbrev Block (ds : ℕ) : Type := Fin (2 ^ ds) → UInt8

/-- A buffer, seen as blocks … -/
def toBlocks (ds : ℕ) (buf : Bytes) : Buffer (Block ds) := fun i k => buf (i.toNat * 2 ^ ds + k)

/-- … and as bytes again. -/
def toBytes (ds : ℕ) (buf : Buffer (Block ds)) : Bytes :=
  fun j => buf (j / 2 ^ ds : ℕ) ⟨j % 2 ^ ds, Nat.mod_lt _ (Nat.two_pow_pos _)⟩

lemma toBytes_toBlocks (buf : Bytes) : toBytes ds (toBlocks ds buf) = buf :=
  funext fun j => congrArg buf (Nat.div_add_mod' j (2 ^ ds))

/-- A block that is stored at the front of the buffer. -/
lemma toBytes_store (buf data : Bytes) :
    toBytes ds ((toBlocks ds buf).store 0 [fun k => data k]) = buf.put 0 (2 ^ ds) data := by
  funext j
  rw [Bytes.put]
  by_cases hj : j < 2 ^ ds
  · rw [if_pos ⟨Nat.zero_le j, by omega⟩, Nat.sub_zero]
    simp only [toBytes, Buffer.store, Nat.div_eq_of_lt hj, Nat.mod_eq_of_lt hj]
    rfl
  · rw [if_neg (by omega)]
    have hback : toBytes ds (toBlocks ds buf) j = buf j := congrFun (toBytes_toBlocks buf) j
    refine Eq.trans ?_ hback
    have hpos : 0 < j / 2 ^ ds := Nat.div_pos (Nat.not_lt.mp hj) (Nat.two_pow_pos _)
    have hnone : [fun k : Fin (2 ^ ds) => data k][(((j / 2 ^ ds : ℕ) : ℤ) - 0).toNat]? = none := by
      rw [List.getElem?_eq_none]
      rw [List.length_singleton]
      omega
    simp only [toBytes, Buffer.store, hnone, Option.getD_none, ite_self]

/-! ## The translation layer -/

section Layer

variable (g : Setup (Block ds))

/-- What a client sees of the device. -/
def userDevice : UserDevice where
  lbaSizeBytes := g.lba
  capacityBytes := g.capacity * g.lba
  lba_pos := g.lba_pos
  lba_lt := g.lba_lt

/-- **The translation layer as a device.**  A write is granted one pass, and `ord` supplies the orders
in which the passes find the hash maps.  A write that does not return has no code; it gets `-1`
here, and `stores_ftl` says that there is none. -/
def ftlDevice (ord : ℕ → HashOrder) : Device (World g.drive × ℕ) where
  write address buf size x :=
    let r := (znsUdeviceWrite g.config [ord x.2] address size (toBlocks ds buf)).run exec x.1
    (r.1.getD (-1), r.2, x.2 + 1)
  read address buf size x :=
    let r := (znsUdeviceRead g.config address size (toBlocks ds buf)).run exec x.1
    ((r.1.1, toBytes ds r.1.2), r.2, x.2)

/-- Every block that has been written can be read. -/
structure Keeping (x : World g.drive × ℕ) (st : Stored) : Prop where
  synced : Synced g x.1
  holds : ∀ q < g.capacity, st.Has (q * g.lba) g.lba →
    Holds x.1 q fun k => st.bytes (q * g.lba) k

lemma keeping_fresh (n : ℕ) : Keeping g (fresh g, n) fun _ => none :=
  ⟨synced_fresh g, fun _ _ h => by cases h 0 g.lba_pos⟩

variable {g}

/-- A request for one block names it. -/
lemma oneBlock_iff {address size : ℕ} :
    OneBlock (userDevice g) address size ↔
      ∃ q < g.capacity, address = q * g.lba ∧ size = g.lba := by
  constructor
  · rintro ⟨⟨q, rfl⟩, hsize, hle⟩
    have hsize' : size = g.lba := hsize
    subst hsize'
    have hle' : g.lba * q + g.lba ≤ g.capacity * g.lba := hle
    refine ⟨q, ?_, Nat.mul_comm _ _, rfl⟩
    have h : (q + 1) * g.lba ≤ g.capacity * g.lba := by
      rw [Nat.succ_mul, Nat.mul_comm q]
      exact hle'
    exact Nat.le_of_mul_le_mul_right h g.lba_pos
  · rintro ⟨q, hq, rfl, rfl⟩
    refine ⟨Nat.dvd_mul_left _ _, rfl, ?_⟩
    have h := Nat.mul_le_mul_right g.lba (Nat.succ_le_of_lt hq)
    rw [Nat.succ_mul] at h
    exact h

/-- **The translation layer stores**, with blocks below `MDTS` and room for two of them in the
log. -/
theorem stores_ftl (hds : g.ds = ds) (hsmall : ds < 18) (hroom : 1 < g.logRoom)
    (ord : ℕ → HashOrder) : Stores (userDevice g) (ftlDevice g ord) (Keeping g) := by
  have hlba : g.lba = 2 ^ ds := congrArg (2 ^ ·) hds
  have hlt : ∀ k : Fin (2 ^ ds), (k : ℕ) < g.lba := fun k =>
    Nat.lt_of_lt_of_eq k.isLt hlba.symm
  have hsmall' : g.ds < 18 := hds.trans_lt hsmall
  constructor
  · intro x st address size buf hx hone
    obtain ⟨q, hq, rfl, rfl⟩ := oneBlock_iff.mp hone
    obtain ⟨hsync, hholds⟩ := hx
    have hret := hsync.write_returns [ord x.2] hsmall' hq (toBlocks ds buf) hroom
      (Or.inl (List.cons_ne_nil _ _))
    rcases hsync.write [ord x.2] hsmall' hq (toBlocks ds buf) with hnone | ⟨-, hsync', hnew⟩
    · rw [hret] at hnone
      cases hnone
    have hrun : (znsUdeviceWrite g.config [ord x.2] (q * g.lba) g.lba (toBlocks ds buf)).run exec x.1
        = (some 0, ((znsUdeviceWrite g.config [ord x.2] (q * g.lba) g.lba
          (toBlocks ds buf)).run exec x.1).2) := Prod.ext hret rfl
    refine ⟨?_, hsync', fun q' hq' hhas => ?_⟩
    · simp only [ftlDevice, hret, Option.getD_some]
    · by_cases hne : q' = q
      · subst hne
        have hblock : (fun k : Fin (2 ^ ds) => (st.put (q' * g.lba) g.lba buf).bytes (q' * g.lba) k)
            = toBlocks ds buf 0 := by
          funext k
          rw [Stored.bytes, Stored.put_self st _ _ buf (hlt k), Option.getD_some, toBlocks,
            Int.toNat_zero, Nat.zero_mul, Nat.zero_add]
        rw [hblock]
        exact hnew
      · have hsame : (fun k : Fin (2 ^ ds) => (st.put (q * g.lba) g.lba buf).bytes (q' * g.lba) k)
            = fun k : Fin (2 ^ ds) => st.bytes (q' * g.lba) k := by
          funext k
          rw [Stored.bytes, Stored.put_other st buf hne (hlt k)]
          rfl
        rw [hsame]
        refine (hsync.inv.write_one hq hrun).2 (hholds q' hq' fun j hj => ?_) fun _ => hne
        have h := hhas j hj
        rw [Stored.put_other st buf hne hj] at h
        exact h
  · intro x st address size buf hx hone hhas
    obtain ⟨q, hq, rfl, rfl⟩ := oneBlock_iff.mp hone
    have hread := (hx.holds q hq hhas).run_read (by omega) hx.synced.inv.log hx.synced.inv.zones hq
      (toBlocks ds buf)
    simp only [ftlDevice, hread]
    refine ⟨Prod.ext rfl ?_, hx⟩
    rw [hlba]
    exact toBytes_store buf (st.bytes (q * 2 ^ ds))

end Layer

/-! ## The file -/

/-- A `FILE`: its bytes, with zeros behind its end. -/
structure ByteFile where
  bytes : Bytes
  size : ℕ
  rest : ∀ i, size ≤ i → bytes i = 0

namespace ByteFile

/-- `fwrite` of `n` bytes at a position.  Behind the end it leaves zeros in between. -/
def fwrite (fp : ByteFile) (pos n : ℕ) (data : Bytes) : ByteFile where
  bytes := fp.bytes.put pos n data
  size := if n = 0 then fp.size else max fp.size (pos + n)
  rest i hi := by
    rw [Bytes.put, if_neg]
    · refine fp.rest i ?_
      split at hi <;> omega
    · split at hi <;> omega

/-- `fread` of `n` bytes at a position: how many there are, and the buffer. -/
def fread (fp : ByteFile) (pos n : ℕ) (buf : Bytes) : ℕ × Bytes :=
  (min n (fp.size - pos), buf.put 0 (min n (fp.size - pos)) fun j => fp.bytes (pos + j))

end ByteFile

/-- What `fopen` with `"w+"` and a byte at the capacity make. -/
def fileOpened (c : FileConfig) : ByteFile :=
  ByteFile.fwrite ⟨fun _ => 0, 0, fun _ _ => rfl⟩ c.capacityBytes 1 fun _ => 0

/-- `zns_udevice_write` of the file, by bytes. -/
def fileWrite (c : FileConfig) (address : ℕ) (buf : Bytes) (size : ℕ) (fp : ByteFile) :
    ℤ × ByteFile :=
  if c.capacityBytes < toU64 (address + size : ℕ) then (-einval, fp)
  else if address % c.lbaSizeBytes ≠ 0 ∨ size % c.lbaSizeBytes ≠ 0 then (-einval, fp)
  else
    let ret := fseek (toI64 address)
    if ret < 0 then (ret, fp) else (0, fp.fwrite address size buf)

/-- `zns_udevice_read` of the file. -/
def fileRead (c : FileConfig) (address : ℕ) (buf : Bytes) (size : ℕ) (fp : ByteFile) : ℤ × Bytes :=
  if address % c.lbaSizeBytes ≠ 0 ∨ size % c.lbaSizeBytes ≠ 0 then (-einval, buf)
  else
    let ret := fseek (toI64 address)
    if ret < 0 then (ret, buf)
    else
      let r := fp.fread address size buf
      if r.1 < size then (-1, r.2) else (0, r.2)

/-- **The file as a device.** -/
def fileDevice (c : FileConfig) : Device ByteFile where
  write address buf size fp := fileWrite c address buf size fp
  read address buf size fp := (fileRead c address buf size fp, fp)

section File

variable {c : FileConfig}

/-- What has been written is in the file, which reaches to the capacity. -/
structure Filed (c : FileConfig) (fp : ByteFile) (st : Stored) : Prop where
  size : c.capacityBytes ≤ fp.size
  bytes : ∀ i b, st i = some b → fp.bytes i = b

lemma filed_opened (c : FileConfig) : Filed c (fileOpened c) fun _ => none := by
  refine ⟨?_, fun i b h => by cases h⟩
  change c.capacityBytes ≤ max 0 (c.capacityBytes + 1)
  omega

/-- A position in the file. -/
lemma fseek_zero {address : ℕ} (h : address < 9223372036854775808) :
    ¬ fseek (toI64 address) < 0 := by
  rw [fseek_neg_iff]
  unfold toI64
  split <;> omega

/-- **The file stores.** -/
theorem stores_file {dev : UserDevice} (hlba : c.lbaSizeBytes = dev.lbaSizeBytes)
    (hcap : c.capacityBytes = dev.capacityBytes) (hlt : c.capacityBytes < 9223372036854775808) :
    Stores dev (fileDevice c) (Filed c) := by
  -- a request for one block passes the tests
  have hpass : ∀ {address size : ℕ}, OneBlock dev address size →
      address + size ≤ c.capacityBytes ∧
        ¬ (address % c.lbaSizeBytes ≠ 0 ∨ size % c.lbaSizeBytes ≠ 0) ∧
        ¬ fseek (toI64 address) < 0 := by
    rintro address size ⟨hdvd, rfl, hle⟩
    rw [← hcap] at hle
    refine ⟨hle, ?_, fseek_zero (by omega)⟩
    rw [hlba, Nat.mod_self, Nat.mod_eq_zero_of_dvd hdvd]
    exact fun h => h.elim (fun h => h rfl) fun h => h rfl
  constructor
  · intro fp st address size buf hfp hone
    obtain ⟨hle, halign, hseek⟩ := hpass hone
    have hinside : ¬ c.capacityBytes < toU64 ((address + size : ℕ) : ℤ) := by
      rw [toU64_of_lt (by omega)]
      omega
    have hrun : fileWrite c address buf size fp = (0, fp.fwrite address size buf) := by
      simp only [fileWrite, if_neg hinside, if_neg halign, if_neg hseek]
    rw [show (fileDevice c).write address buf size fp = _ from hrun]
    refine ⟨rfl, ?_, fun i b hb => ?_⟩
    · change c.capacityBytes ≤ if size = 0 then fp.size else max fp.size (address + size)
      have := hfp.size
      split <;> omega
    · change fp.bytes.put address size buf i = b
      rw [Stored.put] at hb
      rw [Bytes.put]
      split at hb
      · rw [if_pos ‹_›]
        exact Option.some.inj hb
      · rw [if_neg ‹_›]
        exact hfp.bytes i b hb
  · intro fp st address size buf hfp hone hhas
    obtain ⟨hle, halign, hseek⟩ := hpass hone
    have hall : min size (fp.size - address) = size := by
      have := hfp.size
      omega
    have hrun : fileRead c address buf size fp
        = (0, buf.put 0 size fun j => fp.bytes (address + j)) := by
      simp only [fileRead, ByteFile.fread, hall, if_neg halign, if_neg hseek, Nat.lt_irrefl, if_false]
    rw [show (fileDevice c).read address buf size fp = (_, fp) from Prod.ext hrun rfl]
    refine ⟨Prod.ext rfl (funext fun j => ?_), hfp⟩
    simp only [Bytes.put]
    split
    · have hj : j - 0 < size := by omega
      obtain ⟨b, hb⟩ := Option.isSome_iff_exists.mp (hhas _ hj)
      rw [Stored.bytes, hb, hfp.bytes _ b hb, Option.getD_some]
    · rfl

/-- Byte `k` of block `i` is in a range of blocks when the block is. -/
lemma byte_in_range_iff {L a n i k : ℕ} (hk : k < L) :
    a * L ≤ i * L + k ∧ i * L + k < a * L + n * L ↔ a ≤ i ∧ i < a + n := by
  rw [← Nat.add_mul]
  constructor
  · rintro ⟨hlow, hhigh⟩
    have hlow' : a < i + 1 := by
      refine Nat.lt_of_mul_lt_mul_right (a := L) ?_
      rw [Nat.succ_mul]
      omega
    exact ⟨by omega, Nat.lt_of_mul_lt_mul_right (a := L) (by omega)⟩
  · rintro ⟨hlow, hhigh⟩
    have hlow' := Nat.mul_le_mul_right L hlow
    have hhigh' := Nat.mul_le_mul_right L (Nat.succ_le_of_lt hhigh)
    rw [Nat.succ_mul] at hhigh'
    exact ⟨by omega, by omega⟩

/-- The blocks of a file. -/
def ByteFile.blocks (ds : ℕ) (fp : ByteFile) : File (Block ds) :=
  fun i k => fp.bytes (i * 2 ^ ds + k)

/-- **By bytes and by blocks** the file does the same. -/
theorem fileWrite_eq {c' : Config} (hlba : c.lbaSizeBytes = 2 ^ ds)
    (hlba' : c'.lbaSizeBytes = c.lbaSizeBytes) (hcap : c'.capacityBytes = c.capacityBytes)
    (address size : ℕ) (buf : Bytes) (fp : ByteFile) :
    let r := fileWrite c address buf size fp
    (r.1, r.2.blocks ds) = fileUdeviceWrite c' (fp.blocks ds) address size (toBlocks ds buf) := by
  intro r
  have hpos : 0 < 2 ^ ds := Nat.two_pow_pos ds
  simp only [r, fileWrite, fileUdeviceWrite, hlba', hcap]
  split
  case isTrue => rfl
  split
  case isTrue => rfl
  case isFalse halign =>
    split
    case isTrue => dsimp only
    case isFalse =>
      refine Prod.ext rfl (funext fun i => funext fun k => ?_)
      rw [hlba, not_or, not_not, not_not] at halign
      obtain ⟨a, rfl⟩ := Nat.dvd_of_mod_eq_zero halign.1
      obtain ⟨n, rfl⟩ := Nat.dvd_of_mod_eq_zero halign.2
      rw [Nat.mul_comm _ a, Nat.mul_comm _ n, hlba, ← Nat.add_mul, Nat.mul_div_cancel _ hpos,
        Nat.mul_div_cancel _ hpos]
      change fp.bytes.put (a * 2 ^ ds) (n * 2 ^ ds) buf (i * 2 ^ ds + k) = _
      rw [Bytes.put]
      by_cases hin : a ≤ i ∧ i < a + n
      · obtain ⟨m, rfl⟩ := Nat.exists_eq_add_of_le hin.1
        have hsub : (((a + m : ℕ) : ℤ) - a).toNat = m := by omega
        dsimp only
        rw [if_pos hin, if_pos ((byte_in_range_iff k.isLt).mpr hin), toBlocks, hsub, Nat.add_mul]
        exact congrArg buf (by omega)
      · dsimp only
        rw [if_neg hin, if_neg (mt (byte_in_range_iff k.isLt).mp hin)]
        rfl

end File

end StoSys
