import StoSys.Properties.M1Threads
import StoSys.Properties.M1Transfers

/-!
# What `m1` finds out

`main` runs the first two tests on a drive that works.  Both pass on the zones that they are given; but
the zone of the second test is taken from an array that starts one element too early, with the header
of the zone report.  So the second test never sees the last zone, and when the random number picks the
header it fails: there is nothing to transfer, and the loop returns the error it starts from.  And the
limit of its transfers is asked of the standard input: when that is no controller, the null pointer
to its registers is used, and the process ends (`m1Main_passes_iff`).
-/

namespace StoSys.M1

open Effect Zoned CInt M3 Program

variable {ds : ℕ} {d : Drive (Block ds)} {n : ℕ} {i : Fin n} {l : List (Block ds)}

/-! ## A whole zone -/

/-- The blocks behind a pointer. -/
lemma slice_advance (data : Bytes) (start k : ℕ) :
    (toBlocks ds (advance data (start * 2 ^ ds))).slice 0 k = (toBlocks ds data).slice start k := by
  refine List.map_congr_left fun j _ => funext fun t => congrArg data ?_
  have hback : ((start : ℤ) + j).toNat = start + j := by omega
  rw [Int.zero_add, Int.toNat_natCast, hback, Nat.add_mul, Nat.add_assoc]

/-- One turn of the loop over the buffer, when it writes … -/
lemma onBuffer_write {lba mdtsSize size : ℕ} (hsize : 0 < size) (fuel bufPtr wp : ℕ) (ret : ℤ)
    (data : Bytes) :
    (onBuffer (ioLoop lba mdtsSize false (fuel + 1) size bufPtr wp ret) data : Prog ds _) =
      nvmeWrite wp (toU16 ((toU16 (min mdtsSize size / lba : ℕ) : ℤ) - 1))
        (toU32 (min mdtsSize size : ℕ)) (advance data bufPtr) >>= fun ret =>
          if ret ≠ 0 then Pure.pure (ret, data)
          else onBuffer (ioLoop lba mdtsSize false fuel (size - min mdtsSize size)
            (bufPtr + min mdtsSize size) (toU64 (wp + min mdtsSize size / lba : ℕ)) ret) data := by
  rw [ioLoop_succ hsize]
  refine congrArg (nvmeWrite wp _ _ _ >>= ·) (funext fun ret => ?_)
  change onBuffer (if ret ≠ 0 then _ else _) data = _
  split <;> rfl

/-- … and when it reads. -/
lemma onBuffer_read {lba mdtsSize size : ℕ} (hsize : 0 < size) (fuel bufPtr wp : ℕ) (ret : ℤ)
    (data : Bytes) :
    (onBuffer (ioLoop lba mdtsSize true (fuel + 1) size bufPtr wp ret) data : Prog ds _) =
      nvmeRead wp (toU16 ((toU16 (min mdtsSize size / lba : ℕ) : ℤ) - 1))
        (toU32 (min mdtsSize size : ℕ)) (advance data bufPtr) >>= fun r =>
          if r.1 ≠ 0 then Pure.pure (r.1, data.put bufPtr (toU32 (min mdtsSize size : ℕ)) r.2)
          else onBuffer (ioLoop lba mdtsSize true fuel (size - min mdtsSize size)
            (bufPtr + min mdtsSize size) (toU64 (wp + min mdtsSize size / lba : ℕ)) r.1)
            (data.put bufPtr (toU32 (min mdtsSize size : ℕ)) r.2) := by
  rw [ioLoop_succ hsize]
  refine congrArg (nvmeRead wp _ _ _ >>= ·) (funext fun r => ?_)
  change onBuffer (if r.1 ≠ 0 then _ else _) _ = _
  split <;> rfl

section Transfer

variable {per : ℕ} (hds : d.ds = ds) (hper : 0 < per) (h16 : per ≤ 65536)
  (h32 : per * d.lbaSize < 4294967296) (hfit : d.nrZones * d.zoneSize < 18446744073709551616)
  (hi : (i : ℕ) < d.nrZones)
include hds hper h16 h32 hfit hi

/-- The loop writes the buffer to the zone, command by command. -/
lemma local_ioLoop_write (data : Bytes) {total : ℕ} (htotal : total ≤ d.zoneCap) (fuel : ℕ) :
    ∀ (start cnt : ℕ) (ret : ℤ), start + cnt = total → cnt ≤ fuel * per → (cnt = 0 → ret = 0) →
    Local (d := d) (some i)
      (fun r l' => r = (0, data) ∧ l' = (toBlocks ds data).slice 0 total)
      (onBuffer (ioLoop d.lbaSize (per * d.lbaSize) false fuel (cnt * d.lbaSize)
        (start * d.lbaSize) (toU64 (i * d.zoneSize + start : ℕ)) ret) data)
      ((toBlocks ds data).slice 0 start) := by
  have hsize : d.lbaSize = 2 ^ ds := congrArg (2 ^ ·) hds
  induction fuel with
  | zero =>
      intro start cnt ret hstart hfuel hret
      have hcnt : cnt = 0 := by omega
      obtain rfl : start = total := by omega
      exact .pure ⟨congrArg (·, data) (hret hcnt), rfl⟩
  | succ fuel ih =>
      intro start cnt ret hstart hfuel hret
      rcases Nat.eq_zero_or_pos cnt with rfl | hpos
      · obtain rfl : start = total := by omega
        rw [ioLoop, Nat.zero_mul, if_neg (Nat.lt_irrefl 0)]
        exact .pure ⟨congrArg (·, data) (hret rfl), rfl⟩
      · obtain ⟨k, hk⟩ : ∃ k, k = min per cnt := ⟨_, rfl⟩
        have hlba := d.lbaSize_pos
        have hle : k * d.lbaSize ≤ per * d.lbaSize := Nat.mul_le_mul_right _ (by omega)
        have hlen : k * d.lbaSize < 4294967296 := hle.trans_lt h32
        rw [Nat.succ_mul] at hfuel
        have haddr : toU64 ((toU64 (i * d.zoneSize + start : ℕ) + k : ℕ) : ℤ)
            = toU64 (i * d.zoneSize + (start + k) : ℕ) := by
          unfold toU64
          omega
        rw [onBuffer_write (Nat.mul_pos hpos hlba), Nat.mul_min_mul_right, ← hk,
          Nat.mul_div_cancel _ hlba, ← Nat.sub_mul, ← Nat.add_mul, haddr,
          toU64_addr hfit hi (by have := d.cap_le; omega)]
        have hnlb : toU16 (toU16 ((toU16 (k : ℕ) : ℤ) - 1) : ℕ) + 1 = k := by
          unfold toU16
          omega
        have hbytes : toU32 (toU32 (k * d.lbaSize : ℕ) : ℕ) = k * d.lbaSize := by
          rw [toU32_of_lt hlen, toU32_of_lt hlen]
        have hwrite := local_nvmeWrite (l := (toBlocks ds data).slice 0 start) hi
          (advance data (start * d.lbaSize)) hnlb hbytes (by rw [Buffer.length_slice]; omega)
        rw [Buffer.length_slice, hsize, slice_advance, ← Int.zero_add (start : ℤ),
          ← Buffer.slice_add, ← hsize] at hwrite
        refine .bind hwrite ?_
        rintro ret _ ⟨rfl, rfl⟩
        rw [if_neg (not_not.mpr rfl)]
        exact ih (start + k) (cnt - k) 0 (by omega) (by omega) fun _ => rfl

/-- The loop reads the zone into the buffer. -/
lemma local_ioLoop_read (hl : l.length ≤ d.zoneCap) (fuel : ℕ) :
    ∀ (start cnt : ℕ) (ret : ℤ) (data : Bytes), start + cnt = l.length → cnt ≤ fuel * per →
      (cnt = 0 → ret = 0) →
      (∀ (b : ℕ) (hb : b < l.length), b < start → ∀ j : Fin (2 ^ ds),
        data (b * 2 ^ ds + j) = l[b] j) →
    Local (d := d) (some i)
      (fun r l' => l' = l ∧ r.1 = 0 ∧ ∀ (b : ℕ) (hb : b < l.length) (j : Fin (2 ^ ds)),
        r.2 (b * 2 ^ ds + j) = l[b] j)
      (onBuffer (ioLoop d.lbaSize (per * d.lbaSize) true fuel (cnt * d.lbaSize)
        (start * d.lbaSize) (toU64 (i * d.zoneSize + start : ℕ)) ret) data) l := by
  have hsize : d.lbaSize = 2 ^ ds := congrArg (2 ^ ·) hds
  induction fuel with
  | zero =>
      intro start cnt ret data hstart hfuel hret hdata
      have hcnt : cnt = 0 := by omega
      exact .pure ⟨rfl, hret hcnt, fun b hb j => hdata b hb (by omega) j⟩
  | succ fuel ih =>
      intro start cnt ret data hstart hfuel hret hdata
      rcases Nat.eq_zero_or_pos cnt with rfl | hpos
      · rw [ioLoop, Nat.zero_mul, if_neg (Nat.lt_irrefl 0)]
        exact .pure ⟨rfl, hret rfl, fun b hb j => hdata b hb (by omega) j⟩
      · obtain ⟨k, hk⟩ : ∃ k, k = min per cnt := ⟨_, rfl⟩
        have hlba := d.lbaSize_pos
        have hle : k * d.lbaSize ≤ per * d.lbaSize := Nat.mul_le_mul_right _ (by omega)
        have hlen : k * d.lbaSize < 4294967296 := hle.trans_lt h32
        rw [Nat.succ_mul] at hfuel
        have haddr : toU64 ((toU64 (i * d.zoneSize + start : ℕ) + k : ℕ) : ℤ)
            = toU64 (i * d.zoneSize + (start + k) : ℕ) := by
          unfold toU64
          omega
        rw [onBuffer_read (Nat.mul_pos hpos hlba), Nat.mul_min_mul_right, ← hk,
          Nat.mul_div_cancel _ hlba, ← Nat.sub_mul, ← Nat.add_mul, haddr,
          toU64_addr hfit hi (by have := d.cap_le; omega), toU32_of_lt hlen]
        refine .bind (local_nvmeRead hi _ (k := k) (by unfold toU16; omega) (toU32_of_lt hlen)
          (by omega) hl) ?_
        rintro r _ ⟨rfl, hret, hbytes⟩
        rw [if_neg (not_not.mpr hret), hret]
        refine ih (start + k) (cnt - k) 0 _ (by omega) (by omega) (fun _ => rfl) ?_
        intro b hb hlt j
        have hj := j.isLt
        rw [Bytes.put, hsize]
        rcases Nat.lt_or_ge b start with hbefore | hin
        · have := Nat.mul_le_mul_right (2 ^ ds) (Nat.succ_le_of_lt hbefore)
          rw [Nat.succ_mul] at this
          rw [if_neg (by omega)]
          exact hdata b hb hbefore j
        · have hsub : b * 2 ^ ds + j - start * 2 ^ ds = (b - start) * 2 ^ ds + j := by
            rw [Nat.sub_mul]
            have := Nat.mul_le_mul_right (2 ^ ds) hin
            omega
          have hlo := Nat.mul_le_mul_right (2 ^ ds) hin
          have hhi := Nat.mul_le_mul_right (2 ^ ds) (Nat.succ_le_of_lt hlt)
          rw [Nat.succ_mul, Nat.add_mul] at hhi
          have hidx : start + (b - start) = b := Nat.add_sub_of_le hin
          rw [if_pos (by omega), hsub, hbytes (b - start) (by omega) j]
          exact congrFun (getElem_congr_idx hidx) j

/-- **The second test** passes on a zone. -/
lemma local_test2 {stdin : Descriptor} (hstdin : stdin.getMdtsSize = some (per * d.lbaSize))
    (hcap : d.lbaSize * d.zoneCap < 18446744073709551616) :
    Local (d := d) (some i) (fun r _ => r = some 0)
      (test2ZoneFullIoTest stdin ⟨⟨d.zoneCap, i * d.zoneSize⟩, d.lbaSize⟩) l := by
  have hsize : d.lbaSize = 2 ^ ds := congrArg (2 ^ ·) hds
  have hlba := d.lbaSize_pos
  have hzone : toU64 ((d.lbaSize * d.zoneCap : ℕ) : ℤ) = d.zoneCap * d.lbaSize :=
    (toU64_of_lt hcap).trans (Nat.mul_comm _ _)
  have hstart : toU64 ((i * d.zoneSize + 0 : ℕ) : ℤ) = i * d.zoneSize :=
    toU64_addr hfit hi (Nat.zero_le _)
  have hfuel : d.zoneCap ≤ (d.zoneCap * d.lbaSize / (per * d.lbaSize) + 1) * per := by
    rw [Nat.mul_div_mul_right _ _ hlba, Nat.mul_comm]
    exact (Nat.lt_mul_div_succ d.zoneCap hper).le
  have hno : d.zoneCap = 0 → -enosys = 0 := fun h => absurd h d.cap_pos.ne'
  simp only [test2ZoneFullIoTest, hstdin, hzone]
  set data : Bytes := writePatternWithStart (fun _ => 0) (d.zoneCap * d.lbaSize) 0 with hdata
  refine .bind (local_reset hi) ?_
  rintro ret _ ⟨rfl, rfl⟩
  rw [if_neg (not_not.mpr rfl)]
  have hwrite := local_ioLoop_write hds hper h16 h32 hfit hi data (Nat.le_refl _) _ 0 d.zoneCap
    (-enosys) (Nat.zero_add _) hfuel hno
  rw [Nat.zero_mul, hstart] at hwrite
  refine .bind hwrite ?_
  rintro r _ ⟨rfl, rfl⟩
  rw [if_neg (not_not.mpr rfl)]
  have hread := local_ioLoop_read hds hper h16 h32 hfit hi (l := (toBlocks ds data).slice 0 d.zoneCap)
    (Buffer.length_slice _ _ _).le (d.zoneCap * d.lbaSize / (per * d.lbaSize) + 1) 0 d.zoneCap
    (-enosys) (data.put 0 (d.zoneCap * d.lbaSize) fun _ => 0)
    ((Nat.zero_add _).trans (Buffer.length_slice _ _ _).symm) hfuel hno
    fun b _ hb => absurd hb (Nat.not_lt_zero b)
  rw [Nat.zero_mul, hstart] at hread
  refine .bind hread ?_
  rintro r _ ⟨rfl, hret, hbytes⟩
  rw [if_neg (not_not.mpr hret), assert, if_pos]
  · exact .pure (congrArg some hret)
  · rw [matchPatternWithStart_iff]
    intro j hj
    have hb : j / 2 ^ ds < d.zoneCap := by
      rw [Nat.div_lt_iff_lt_mul (Nat.two_pow_pos ds), ← hsize]
      omega
    have hbyte := hbytes (j / 2 ^ ds) (by rwa [Buffer.length_slice])
      ⟨j % 2 ^ ds, Nat.mod_lt _ (Nat.two_pow_pos ds)⟩
    have hget := Buffer.getElem?_slice (toBlocks ds data) hb
    rw [List.getElem?_eq_getElem (by rwa [Buffer.length_slice]), Option.some_inj] at hget
    rw [Nat.div_add_mod', hget] at hbyte
    rw [hbyte]
    change data ((j / 2 ^ ds : ℕ) * 2 ^ ds + j % 2 ^ ds) = _
    rw [Nat.div_add_mod', hdata, writePatternWithStart_apply, if_pos hj]

end Transfer

/-- On the header of the report there is nothing to transfer. -/
lemma local_test2_header (hnr : 0 < d.nrZones) {stdin : Descriptor} {mdtsSize : ℕ}
    (hstdin : stdin.getMdtsSize = some mdtsSize) :
    Local (d := d) (some (⟨0, hnr⟩ : Fin d.nrZones)) (fun r _ => r = some (-enosys))
      (test2ZoneFullIoTest stdin ⟨⟨0, 0⟩, d.lbaSize⟩) l := by
  have hreset := local_reset (d := d) (i := ⟨0, hnr⟩) (l := l) hnr
  rw [Nat.zero_mul] at hreset
  rw [test2ZoneFullIoTest, hstdin]
  refine .bind hreset ?_
  rintro ret _ ⟨rfl, rfl⟩
  rw [if_neg (not_not.mpr rfl)]
  exact .pure rfl

/-! ## Five blocks -/

/-- The block that the first test writes over and over. -/
def patternBlock (ds : ℕ) : Block ds := fun k => patternByte k

/-- Blocks that hold the pattern. -/
lemma slice_pattern {buf : Bytes} {k : ℕ}
    (h : ∀ b < k, ∀ j < 2 ^ ds, buf (b * 2 ^ ds + j) = patternByte j) :
    (toBlocks ds buf).slice 0 k = List.replicate k (patternBlock ds) := by
  refine List.ext_getElem? fun b => ?_
  rcases Nat.lt_or_ge b k with hb | hb
  · rw [Buffer.getElem?_slice _ hb, List.getElem?_replicate, if_pos hb]
    exact congrArg some (funext fun j => h b hb j j.isLt)
  · rw [List.getElem?_eq_none (by simpa using hb), List.getElem?_eq_none (by simpa using hb)]

lemma writePattern_byte (buf : Bytes) {len j : ℕ} (hj : j < len) :
    writePatternWithStart buf len 0 j = patternByte j := by
  rw [writePatternWithStart_apply, Nat.sub_zero, if_pos hj, Nat.zero_add]

section Mixed

variable (hds : d.ds = ds) (h32 : 5 * d.lbaSize < 4294967296)
  (hfit : d.nrZones * d.zoneSize < 18446744073709551616) (hi : (i : ℕ) < d.nrZones)
  (hcap : 5 ≤ d.zoneCap)

/-- A buffer of blocks that hold the pattern. -/
def Pattern (ds k : ℕ) (buf : Bytes) : Prop :=
  ∀ b < k, ∀ j < 2 ^ ds, buf (b * 2 ^ ds + j) = patternByte j

/-- One block that has been filled. -/
lemma pattern_one (buf : Bytes) (hds : d.ds = ds) :
    Pattern ds 1 (writePatternWithStart buf d.lbaSize 0) := by
  intro b hb j hj
  obtain rfl : b = 0 := by omega
  have hlt : j < d.lbaSize := Nat.lt_of_lt_of_eq hj (congrArg (2 ^ ·) hds).symm
  rw [Nat.zero_mul, Nat.zero_add, writePattern_byte _ hlt]

/-- The zone behind `m` such blocks. -/
abbrev zonePattern (ds m : ℕ) : List (Block ds) := List.replicate m (patternBlock ds)

lemma numbers_ok {k : ℕ} (hk : 0 < k) (h16 : k ≤ 65535) :
    toU16 ((toU16 (k : ℤ) : ℤ) - 1) + 1 = k := by
  unfold toU16
  omega

include hi

section Commands

variable {k m : ℕ} {buf : Bytes} (hk : 0 < k) (hk5 : k ≤ 5)
include h32 hk hk5

omit hi hk in
lemma bytes_ok : toU32 ((k * d.lbaSize : ℕ) : ℤ) = k * d.lbaSize :=
  toU32_of_lt ((Nat.mul_le_mul_right _ hk5).trans_lt h32)

lemma local_deviceWrite (hbuf : Pattern ds k buf) (hroom : m + k ≤ d.zoneCap) :
    Local (d := d) (some i) (fun ret l' => ret = 0 ∧ l' = zonePattern ds (m + k))
      (deviceWrite (i * d.zoneSize + m) k buf (k * d.lbaSize)) (zonePattern ds m) := by
  have hlen : (zonePattern ds m).length = m := List.length_replicate
  have hwrite := local_nvmeWrite hi buf (numbers_ok hk (by omega)) (bytes_ok h32 hk5)
    (l := zonePattern ds m) (by rwa [hlen])
  rw [hlen, slice_pattern hbuf, List.replicate_append_replicate] at hwrite
  exact hwrite

lemma local_deviceAppend (hbuf : Pattern ds k buf) (hroom : m + k ≤ d.zoneCap) :
    Local (d := d) (some i)
      (fun r l' => r = (0, i * d.zoneSize + m) ∧ l' = zonePattern ds (m + k))
      (ssZnsDeviceZoneAppend (i * d.zoneSize) k buf (k * d.lbaSize)) (zonePattern ds m) := by
  have hlen : (zonePattern ds m).length = m := List.length_replicate
  have happend := local_nvmeZnsAppend hi buf (numbers_ok hk (by omega)) (bytes_ok h32 hk5)
    (l := zonePattern ds m) (by rwa [hlen])
  rw [hlen, slice_pattern hbuf, List.replicate_append_replicate] at happend
  exact happend

lemma local_deviceRead (buf : Bytes) (hcap : k ≤ d.zoneCap) :
    Local (d := d) (some i) (fun r l' => l' = zonePattern ds k ∧ r.1 = 0 ∧ Pattern ds k r.2)
      (deviceRead (i * d.zoneSize) k buf (k * d.lbaSize)) (zonePattern ds k) := by
  have hlen : (zonePattern ds k).length = k := List.length_replicate
  have hread := local_nvmeRead hi buf (numbers_ok hk (by omega)) (bytes_ok h32 hk5)
    (l := zonePattern ds k) (o := 0) (by omega) (by omega)
  refine hread.post fun r l' hr => ⟨hr.1, hr.2.1, fun b hb j hj => ?_⟩
  rw [hr.2.2 b hb ⟨j, hj⟩, List.getElem_replicate]
  rfl

end Commands

include hds h32 hfit hcap

/-- Two blocks written, two appended, one written, five read. -/
lemma local_test1Mixed :
    Local (d := d) (some i) (fun r _ => r = some 0)
      (test1Mixed (i * d.zoneSize) d.lbaSize
        (writePatternWithStart (fun _ => 0) d.lbaSize 0)) l := by
  have hsize : d.lbaSize = 2 ^ ds := congrArg (2 ^ ·) hds
  have hnext : ∀ o ≤ 3, updateLba (i * d.zoneSize + o) 2 = i * d.zoneSize + (o + 2) := by
    intro o ho
    have haddr := toU64_addr hfit hi (o := o + 2) (by have := d.cap_le; omega)
    rwa [← Nat.add_assoc, Nat.cast_add] at haddr
  have hone := pattern_one (fun _ => 0) hds
  rw [test1Mixed]
  refine .bind (local_reset hi) ?_
  rintro ret _ ⟨rfl, rfl⟩
  rw [assert, if_pos rfl]
  dsimp only
  set first : Bytes := writePatternWithStart (fun _ => 0) d.lbaSize 0 with hfirst
  have htwo : Pattern ds 2 (first.put d.lbaSize d.lbaSize
      (writePatternWithStart (advance first d.lbaSize) d.lbaSize 0)) := by
    intro b hb j hj
    rw [Bytes.put, hsize]
    obtain rfl | rfl : b = 0 ∨ b = 1 := by omega
    · rw [if_neg (by omega)]
      exact hone 0 Nat.one_pos j hj
    · rw [if_pos (by omega), Nat.one_mul, Nat.add_sub_cancel_left, writePattern_byte _ hj]
  refine .bind (local_deviceWrite (m := 0) h32 hi (k := 2) (by decide) (by decide) htwo (by omega)) ?_
  rintro ret _ ⟨rfl, rfl⟩
  rw [assert, if_pos rfl]
  refine .bind (local_deviceAppend h32 hi (k := 2) (by decide) (by decide) htwo (by omega)) ?_
  rintro r _ ⟨rfl, rfl⟩
  have hback : (i : ℕ) * d.zoneSize + (0 + 2) = updateLba (i * d.zoneSize) 2 :=
    (hnext 0 (by decide)).symm
  rw [assert, if_pos rfl]
  dsimp only
  rw [assert, if_pos hback]
  have hwrite := local_deviceWrite (m := 4) h32 hi (k := 1) (by decide) (by decide) hone hcap
  rw [Nat.one_mul] at hwrite
  rw [hnext (0 + 2) (by decide)]
  refine .bind hwrite ?_
  rintro ret _ ⟨rfl, rfl⟩
  rw [assert, if_pos rfl]
  refine .bind (local_deviceRead h32 hi (k := 5) (by decide) (by decide) _ hcap) ?_
  rintro r _ ⟨rfl, hret, hbytes⟩
  rw [assert, if_pos hret, assert, if_pos, hret]
  · exact .pure rfl
  · intro b hb
    rw [matchPatternWithStart_iff]
    intro j hj
    rw [Nat.zero_add, advance, hsize]
    exact hbytes b hb j (by omega)

/-- **The first test** passes on every zone with five blocks. -/
lemma local_test1 :
    Local (d := d) (some i) (fun r _ => r = some 0)
      (test1LbaIoTest 0 ⟨⟨d.zoneCap, i * d.zoneSize⟩, d.lbaSize⟩) l := by
  have hsize : d.lbaSize = 2 ^ ds := congrArg (2 ^ ·) hds
  have hone := pattern_one (fun _ => 0) hds
  rw [test1LbaIoTest, if_neg (not_not.mpr rfl)]
  refine .bind (local_reset hi) ?_
  rintro ret _ ⟨rfl, rfl⟩
  rw [if_neg (not_not.mpr rfl)]
  have hwrite := local_deviceWrite (m := 0) h32 hi (k := 1) (by decide) (by decide) hone (by omega)
  rw [Nat.one_mul] at hwrite
  refine .bind hwrite ?_
  rintro ret _ ⟨rfl, rfl⟩
  rw [if_neg (not_not.mpr rfl)]
  have hread := local_deviceRead h32 hi (k := 1) (by decide) (by decide) (fun _ => 0) (by omega)
  rw [Nat.one_mul] at hread
  refine .bind hread ?_
  rintro r _ ⟨rfl, hret, hbytes⟩
  rw [if_neg (not_not.mpr hret), assert, if_pos]
  · exact local_test1Mixed hds h32 hfit hi hcap
  · rw [matchPatternWithStart_iff]
    intro j hj
    have hbyte := hbytes 0 Nat.one_pos j (by rwa [← hsize])
    rw [Nat.zero_mul] at hbyte
    rwa [Nat.zero_add] at hbyte ⊢

end Mixed

/-! ## The whole of `m1` -/

/-- Without the registers of a controller behind the standard input, there is no second test. -/
lemma test2_unmapped {stdin : Descriptor} (hstdin : stdin.getMdtsSize = none) (ztest : ZoneToTest) :
    (test2ZoneFullIoTest stdin ztest : Prog ds _) = Pure.pure none := by
  rw [test2ZoneFullIoTest, hstdin]

/-- A limit of a block or more is a whole number of blocks, as both are powers of two. -/
lemma limit_blocks {stdin : Descriptor} {m : ℕ} (hm : stdin.getMdtsSize = some m)
    (hge : d.lbaSize ≤ m) : ∃ per, 0 < per ∧ m = per * d.lbaSize := by
  obtain ⟨byte, -, rfl⟩ := Option.map_eq_some_iff.mp hm
  have hdvd : d.lbaSize ∣ getMdtsSize stdin.mdts byte := by
    rw [getMdtsSize_eq] at hge ⊢
    exact Nat.pow_dvd_pow 2 ((Nat.pow_le_pow_iff_right (by decide)).mp hge)
  obtain ⟨per, hper⟩ := hdvd
  rw [Nat.mul_comm] at hper
  rw [hper] at hge
  exact ⟨per, Nat.pos_of_mul_pos_right (d.lbaSize_pos.trans_le hge), hper⟩

/-- `main` exits with success when both tests return zero. -/
lemma m1Main_passes {stdin : Descriptor} {numZones lbaSize rand₁ rand₂ : ℕ} {identified : ℤ}
    {entries : ℕ → ZoneDesc} {s s' : Machine d} {t : Option ℤ} {p : Prog ds (Option ℤ)}
    (hp : test1LbaIoTest identified ⟨entries (rand₁ % numZones), lbaSize⟩ = p)
    (hfirst : (p.run testExec s).1 = t) (hrest : (p.run testExec s).2 = s') :
    ((m1Main numZones lbaSize stdin rand₁ rand₂ identified entries).run testExec s).1 = some 0 ↔
      t = some 0 ∧ ((test2ZoneFullIoTest stdin
        ⟨reportElement entries (rand₂ % numZones), lbaSize⟩).run testExec s').1 = some 0 := by
  rw [m1Main, Program.run_bind, hp, hfirst, hrest]
  obtain _ | t1 := t
  · exact iff_of_false nofun nofun
  · dsimp only
    rw [Program.run_bind]
    generalize (test2ZoneFullIoTest _ _ : Prog ds _).run testExec s' = second
    obtain ⟨_ | t2, s''⟩ := second
    · exact iff_of_false nofun nofun
    · change some (if t1 ≠ 0 ∨ t2 ≠ 0 then (-1 : ℤ) else 0) = some 0 ↔
        some t1 = some 0 ∧ some t2 = some 0
      simp only [Option.some_inj]
      split <;> omega

/-- **`m1` passes** exactly when it can identify the namespace without a buffer for the answer, there
is a controller behind the standard input, and the second random number does not pick the header.
The limit of that controller, if there is one, is taken to be a block or more and to fit a command. -/
theorem m1Main_passes_iff (hds : d.ds = ds) (h32 : 5 * d.lbaSize < 4294967296)
    (hfit : d.nrZones * d.zoneSize < 18446744073709551616)
    (hbytes : d.lbaSize * d.zoneCap < 18446744073709551616) (hnr : 0 < d.nrZones)
    (hcap : 5 ≤ d.zoneCap) (stdin : Descriptor)
    (hmdts : ∀ m, stdin.getMdtsSize = some m →
      d.lbaSize ≤ m ∧ m ≤ 65536 * d.lbaSize ∧ m < 4294967296)
    (rand₁ rand₂ : ℕ) (identified : ℤ) {s : Machine d} (hs : s.errors = 0) :
    ((m1Main d.nrZones d.lbaSize stdin rand₁ rand₂ identified
      fun k => ⟨d.zoneCap, k * d.zoneSize⟩).run testExec s).1 = some 0 ↔
        identified = 0 ∧ stdin.registers.isSome ∧ rand₂ % d.nrZones ≠ 0 := by
  rcases ne_or_eq identified 0 with hid | rfl
  · rw [m1Main_passes (p := Pure.pure (some identified)) (if_pos hid) rfl rfl]
    exact iff_of_false (fun h => hid (Option.some_inj.mp h.1)) fun h => hid h.1
  · have hfirst : rand₁ % d.nrZones < d.nrZones := Nat.mod_lt _ hnr
    obtain ⟨hs', htest1⟩ := (local_test1 (i := (⟨_, hfirst⟩ : Fin d.nrZones)) hds h32 hfit hfirst
      hcap).run hs
    rw [m1Main_passes rfl htest1 rfl]
    rcases hstdin : stdin.getMdtsSize with _ | m
    · -- no registers
      have hnone : stdin.registers = none := Option.map_eq_none_iff.mp hstdin
      rw [test2_unmapped hstdin, hnone]
      exact iff_of_false nofun nofun
    · obtain ⟨hge, h16, hlt⟩ := hmdts m hstdin
      obtain ⟨per, hper, rfl⟩ := limit_blocks hstdin hge
      have hsome : stdin.registers.isSome := by
        rw [Descriptor.getMdtsSize] at hstdin
        exact Option.isSome_of_mem (Option.map_eq_some_iff.mp hstdin).choose_spec.1
      rcases hpick : rand₂ % d.nrZones with _ | k
      · -- the header
        obtain ⟨-, htest2⟩ := (local_test2_header hnr hstdin).run hs'
        rw [reportElement, htest2]
        exact iff_of_false (fun h => absurd h.2 (by decide)) fun h => h.2.2 rfl
      · have hsecond : k < d.nrZones := by
          have := Nat.mod_lt rand₂ hnr
          omega
        obtain ⟨-, htest2⟩ := (local_test2 (i := (⟨k, hsecond⟩ : Fin d.nrZones)) hds hper
          (Nat.le_of_mul_le_mul_right h16 d.lbaSize_pos) hlt hfit hsecond hstdin hbytes).run hs'
        rw [reportElement, htest2]
        exact iff_of_true ⟨rfl, rfl⟩ ⟨rfl, hsome, Nat.succ_ne_zero k⟩

/-- A drive with zones of six blocks of 4096 bytes. -/
def pageDrive : Drive (Block 12) where
  ds := 12
  nrZones := 3
  zoneSize := 8
  zoneCap := 6
  readAcross := false
  fill := fun _ => 0
  cap_pos := Nat.succ_pos 5
  cap_le := Nat.le_add_right 6 2

/-- The random numbers pick zone `2` and then descriptor `1`, which is that of zone `0`: the run
passes when the standard input is a controller with a limit of two pages, and not when it is no
controller. -/
theorem m1Main_passes_iff_tiny :
    let status (stdin : Descriptor) :=
      ((m1Main 3 4096 stdin 5 7 0 fun k => ⟨6, k * 8⟩).run testExec
        (⟨⟨Ftl.fresh, .empty pageDrive⟩, false, 0⟩ : Machine pageDrive)).1
    status ⟨2, some 0⟩ = some 0 ∧ status ⟨0, none⟩ ≠ some 0 := by
  intro status
  have hiff := fun stdin hmdts => m1Main_passes_iff (d := pageDrive) rfl (by decide) (by decide)
    (by decide) (by decide) (by decide) stdin hmdts 5 7 0
    (s := ⟨⟨Ftl.fresh, .empty pageDrive⟩, false, 0⟩) rfl
  have htwo : ∀ m, (Descriptor.mk 2 (some 0)).getMdtsSize = some m → m = 8192 :=
    fun m hm => (Option.some_inj.mp hm).symm
  refine ⟨(hiff ⟨2, some 0⟩ fun m hm => ?_).mpr ⟨rfl, rfl, by decide⟩, fun h => ?_⟩
  · rw [htwo m hm]
    decide
  · exact Bool.noConfusion ((hiff ⟨0, none⟩ nofun).mp h).2.1

end StoSys.M1
