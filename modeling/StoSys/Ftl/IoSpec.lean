import StoSys.Ftl.Setup

/-!
# What one transfer does

The environment works, so a call is a function on worlds; this file computes that function for the
single commands and for `ioWithMdts`, and says which states are visited on the way.

A transfer of `cnt` blocks is cut into commands of `g.per` blocks, `MDTS` bytes each, with a shorter
one at the end.  `ioLoop_step` is that cut for one command; the read and write results follow by
induction on the commands.
-/

namespace StoSys

open Effect HashMap Zoned CInt

variable {B : Type}

/-! ## Single calls -/

section Calls

variable {d : Drive B} {w : World d} {I : World d → Prop}

@[simp] lemma run_getFtl : (getFtl : Prog B Ftl).run exec w = (w.ftl, w) := rfl

@[simp] lemma run_modifyFtl (f : Ftl → Ftl) :
    (modifyFtl f : Prog B Unit).run exec w = ((), { w with ftl := f w.ftl }) := rfl

@[simp] lemma always_getFtl : Program.Always exec I (getFtl : Prog B Ftl) w ↔ I w := by
  rw [getFtl, Program.always_perform]
  exact and_self_iff

@[simp] lemma always_modifyFtl (f : Ftl → Ftl) :
    Program.Always exec I (modifyFtl f : Prog B Unit) w ↔ I w ∧ I { w with ftl := f w.ftl } :=
  Program.always_perform

@[simp] lemma run_sysCall (c : SysCall) : (sysCall c : Prog B ℤ).run exec w = (0, w) := rfl

@[simp] lemma run_nvmeIdentifyNs :
    (nvmeIdentifyNs : Prog B (ℤ × ℕ)).run exec w = ((0, d.ds), w) := rfl

@[simp] lemma run_nvmeZnsReport :
    (nvmeZnsReport : Prog B (ℤ × ZoneReport)).run exec w = ((0, zoneReport w.media), w) := rfl

@[simp] lemma run_nvmeZnsReset_all (slba : ℤ) :
    (nvmeZnsReset slba true : Prog B ℤ).run exec w = (0, { w with media := Media.empty d }) := rfl

/-- A reset the drive accepts. -/
lemma run_nvmeZnsReset_some {a : ℤ} {m : Media d} (h : w.media.reset (toU64 a) = some m) :
    (nvmeZnsReset a false : Prog B ℤ).run exec w = (0, { w with media := m }) := by
  simp [nvmeZnsReset, exec, h]

/-- A read command never changes anything. -/
lemma run_nvmeRead_snd (slba : ℕ) (nlb dataLen off : ℤ) :
    ((nvmeRead slba nlb dataLen off : Prog B _).run exec w).2 = w := by
  rw [nvmeRead, Program.run_perform]
  dsimp only [exec]
  split
  · split <;> rfl
  · rfl

lemma always_nvmeRead (slba : ℕ) (nlb dataLen off : ℤ) :
    Program.Always exec I (nvmeRead slba nlb dataLen off : Prog B _) w ↔ I w := by
  have h := run_nvmeRead_snd (w := w) slba nlb dataLen off
  rw [nvmeRead, Program.run_perform] at h
  rw [nvmeRead, Program.always_perform, h]
  exact and_self_iff

lemma always_nvmeWrite (slba : ℕ) (nlb dataLen off : ℤ) (bs : List B) :
    Program.Always exec I (nvmeWrite slba nlb dataLen off bs : Prog B ℤ) w
      ↔ I w ∧ I ((nvmeWrite slba nlb dataLen off bs : Prog B ℤ).run exec w).2 :=
  Program.always_perform

lemma always_nvmeZnsReset (slba : ℤ) (all : Bool) :
    Program.Always exec I (nvmeZnsReset slba all : Prog B ℤ) w
      ↔ I w ∧ I ((nvmeZnsReset slba all : Prog B ℤ).run exec w).2 :=
  Program.always_perform

/-- A write command is refused, or the medium has taken its blocks. -/
lemma run_nvmeWrite_cases (slba : ℕ) (nlb len off : ℤ) (bs : List B) (w : World d) :
    let r := (nvmeWrite slba nlb len off bs : Prog B ℤ).run exec w
    r = (commandError, w) ∨
      r.1 = 0 ∧ w.media.write slba bs = some r.2.media ∧ r.2.ftl = w.ftl ∧ bs ≠ [] := by
  intro r
  simp only [r, nvmeWrite, Program.run_perform, exec]
  split
  · rename_i hlen
    have hne : bs ≠ [] := List.ne_nil_of_length_eq_add_one hlen.2
    split
    · exact Or.inr ⟨rfl, ‹_›, rfl, hne⟩
    · exact Or.inl rfl
  · exact Or.inl rfl

/-- So is an append. -/
lemma run_nvmeZnsAppend_cases (zslba : ℕ) (nlb len : ℤ) (bs : List B) (w : World d) :
    let r := (nvmeZnsAppend zslba nlb len bs : Prog B (ℤ × ℕ)).run exec w
    r.1.1 ≠ 0 ∧ r.2 = w ∨
      r.1.1 = 0 ∧ w.media.append zslba bs = some (r.1.2, r.2.media) ∧ r.2.ftl = w.ftl ∧
        bs ≠ [] := by
  have herr : commandError ≠ 0 := by decide
  intro r
  simp only [r, nvmeZnsAppend, Program.run_perform, exec]
  split
  · rename_i hlen
    have hne : bs ≠ [] := List.ne_nil_of_length_eq_add_one hlen.2
    split
    · exact Or.inr ⟨rfl, ‹_›, rfl, hne⟩
    · exact Or.inl ⟨herr, rfl⟩
  · exact Or.inl ⟨herr, rfl⟩

end Calls

/-! ## Buffers -/

lemma Buffer.store_nil (buf : Buffer B) (i : ℤ) : buf.store i [] = buf := by
  funext j
  simp [Buffer.store]

/-- Two transfers that meet are one transfer. -/
lemma Buffer.store_append (buf : Buffer B) (i : ℤ) (xs ys : List B) :
    (buf.store i xs).store (i + xs.length) ys = buf.store i (xs ++ ys) := by
  funext j
  unfold Buffer.store
  by_cases h1 : i ≤ j
  · by_cases h2 : i + xs.length ≤ j
    · have hlen : xs.length ≤ (j - i).toNat := by omega
      have hidx : (j - (i + xs.length)).toNat = (j - i).toNat - xs.length := by omega
      rw [if_pos h2, if_pos h1, if_pos h1, List.getElem?_append_right hlen, hidx,
        List.getElem?_eq_none hlen]
      rfl
    · have hlen : (j - i).toNat < xs.length := by omega
      rw [if_neg h2, if_pos h1, if_pos h1, List.getElem?_append_left hlen]
  · rw [if_neg h1, if_neg h1, if_neg (by omega)]

lemma Buffer.slice_add (buf : Buffer B) (i : ℤ) (k r : ℕ) :
    buf.slice i (k + r) = buf.slice i k ++ buf.slice (i + k) r := by
  unfold Buffer.slice
  rw [List.range_add, List.map_append, List.map_map]
  refine congrArg _ (List.map_congr_left fun j _ => ?_)
  rw [Function.comp_apply, Nat.cast_add, Int.add_assoc]

/-! ## The cut into commands -/

namespace Setup

variable (g : Setup B)

/-- Blocks in one command of `MDTS` bytes. -/
def per : ℕ := 2 ^ (18 - g.ds)

lemma per_pos : 0 < g.per := Nat.two_pow_pos _

lemma per_le : g.per ≤ 65536 := by
  have h := g.ds_ge
  calc g.per ≤ 2 ^ 16 := Nat.pow_le_pow_right (show 0 < 2 by decide) (by omega)
    _ = 65536 := rfl

variable {g}

lemma mdts_eq (hds : g.ds ≤ 18) : mdts = g.per * g.lba := by
  rw [per, lba, ← Nat.pow_add, Nat.sub_add_cancel hds]
  rfl

end Setup

section Cut

variable {c : Config} {per lba : ℕ}

/-- The size of the next command. -/
lemma single_eq (hmdts : mdts = per * lba) (cnt : ℕ) :
    (if mdts < cnt * lba then mdts else cnt * lba) = min per cnt * lba := by
  rw [hmdts]
  rcases Nat.le_total per cnt with h | h
  · rw [Nat.min_eq_left h]
    have := Nat.mul_le_mul_right lba h
    split_ifs <;> omega
  · rw [Nat.min_eq_right h]
    have := Nat.mul_le_mul_right lba h
    split_ifs <;> omega

/-- Its zero-based block count. -/
lemma lbaNum_eq (hlba : 0 < lba) {k : ℕ} (hk : 0 < k) (hk' : k ≤ 65536) :
    toU64 ((k * lba / lba : ℕ) - (if k * lba % lba = 0 then 1 else 0)) = k - 1 := by
  rw [Nat.mul_div_cancel _ hlba, Nat.mul_mod_left, if_pos rfl]
  unfold toU64
  omega

/-- **One turn of the loop**, when `MDTS` is a whole number of blocks.  The next command covers `k`
blocks; the address of the one after it is a 64-bit number. -/
lemma ioLoop_succ (hlba : c.lbaSizeBytes = lba) (hpos : 0 < lba) (hmdts : mdts = per * lba)
    (hper : 0 < per) (hper' : per ≤ 65536) {cnt k : ℕ} (hk : k = min per cnt) (hcnt : 0 < cnt)
    (base : ℤ) (read : Bool) (fuel ptr wp : ℕ) (buf : Buffer B) :
    ioLoop c base read (fuel + 1) (cnt * lba) ptr wp buf =
      if read then
        nvmeRead wp ((k - 1 : ℕ) : ℤ) ((k * lba : ℕ) : ℤ) (base + ptr) >>= fun r =>
          if r.1 ≠ 0 then pure (r.1, buf.store ((base + ptr) / lba) r.2)
          else ioLoop c base read fuel ((cnt - k) * lba) (ptr + k * lba) (toU64 (wp + k : ℕ))
            (buf.store ((base + ptr) / lba) r.2)
      else
        nvmeWrite wp ((k - 1 : ℕ) : ℤ) ((k * lba : ℕ) : ℤ) (base + ptr)
            (buf.slice ((base + ptr) / lba) k) >>= fun ret =>
          if ret ≠ 0 then pure (ret, buf)
          else ioLoop c base read fuel ((cnt - k) * lba) (ptr + k * lba) (toU64 (wp + k : ℕ))
            buf := by
  have hk0 : 0 < k := by omega
  have hwp : toU64 ((wp : ℤ) + ((k - 1 : ℕ) : ℤ) + 1) = toU64 (wp + k : ℕ) := by
    congr 1
    omega
  rw [ioLoop, if_pos (Nat.mul_pos hcnt hpos)]
  simp only [hlba, single_eq hmdts, ← hk, lbaNum_eq hpos hk0 (show k ≤ 65536 by omega), hwp,
    ← Nat.sub_mul]
  simp only [Nat.mul_div_cancel _ hpos]

end Cut

section Loop

variable {g : Setup B} {w : World g.drive}

/-- The bounds one command of `k` blocks comes with. -/
lemma command_bounds (hds : g.ds ≤ 18) {cnt k : ℕ} (hk : k = min g.per cnt) (hcnt : 0 < cnt) :
    0 < k ∧ k ≤ cnt ∧ k ≤ 65536 ∧ k * g.lba < 4294967296 := by
  have hper := g.per_pos
  have hle := g.per_le
  have hbytes : k * g.lba ≤ mdts := by
    rw [Setup.mdts_eq hds]
    exact Nat.mul_le_mul_right _ (by omega)
  have : mdts = 262144 := rfl
  omega

/-- The place in the buffer moves by as many blocks. -/
lemma next_base {base b : ℤ} {ptr : ℕ} (hb : base + ptr = b * g.lba) (k : ℕ) :
    base + ((ptr + k * g.lba : ℕ) : ℤ) = (b + k) * g.lba := by
  push_cast
  rw [← Int.add_assoc, hb]
  ring

/-- **One turn of the loop, reading.**  The next command covers `k` blocks. -/
lemma ioLoop_read_step (hds : g.ds ≤ 18) {cnt k : ℕ} (hk : k = min g.per cnt) (hcnt : 0 < cnt)
    (base b : ℤ) (fuel ptr wp : ℕ) (hb : base + ptr = b * g.lba) (hwp : wp < 4294967296)
    (buf : Buffer B) :
    ioLoop g.config base true (fuel + 1) (cnt * g.lba) ptr wp buf
      = nvmeRead wp ((k - 1 : ℕ) : ℤ) ((k * g.lba : ℕ) : ℤ) (b * g.lba) >>= fun r =>
          if r.1 ≠ 0 then pure (r.1, buf.store b r.2)
          else ioLoop g.config base true fuel ((cnt - k) * g.lba) (ptr + k * g.lba) (wp + k)
            (buf.store b r.2) := by
  obtain ⟨-, -, hk16, -⟩ := command_bounds hds hk hcnt
  have hwp' : toU64 (wp + k : ℕ) = wp + k := toU64_of_lt (by omega)
  rw [ioLoop_succ g.config_lbaSizeBytes g.lba_pos (Setup.mdts_eq hds) g.per_pos g.per_le hk hcnt,
    if_pos rfl, hb, hwp', Int.mul_ediv_cancel b (Nat.cast_ne_zero.mpr (Nat.ne_of_gt g.lba_pos))]

/-- **One turn of the loop, writing.** -/
lemma ioLoop_write_step (hds : g.ds ≤ 18) {cnt k : ℕ} (hk : k = min g.per cnt) (hcnt : 0 < cnt)
    (base b : ℤ) (fuel ptr wp : ℕ) (hb : base + ptr = b * g.lba) (hwp : wp < 4294967296)
    (buf : Buffer B) :
    ioLoop g.config base false (fuel + 1) (cnt * g.lba) ptr wp buf
      = nvmeWrite wp ((k - 1 : ℕ) : ℤ) ((k * g.lba : ℕ) : ℤ) (b * g.lba) (buf.slice b k)
          >>= fun ret =>
            if ret ≠ 0 then pure (ret, buf)
            else ioLoop g.config base false fuel ((cnt - k) * g.lba) (ptr + k * g.lba) (wp + k)
              buf := by
  obtain ⟨-, -, hk16, -⟩ := command_bounds hds hk hcnt
  have hwp' : toU64 (wp + k : ℕ) = wp + k := toU64_of_lt (by omega)
  rw [ioLoop_succ g.config_lbaSizeBytes g.lba_pos (Setup.mdts_eq hds) g.per_pos g.per_le hk hcnt,
    if_neg Bool.false_ne_true, hb, hwp',
    Int.mul_ediv_cancel b (Nat.cast_ne_zero.mpr (Nat.ne_of_gt g.lba_pos))]

end Loop

/-! ## A whole transfer -/

/-- Reading never changes anything, whatever the drive answers. -/
@[simp] lemma always_ioLoop_read {d : Drive B} {w : World d} {I : World d → Prop} (c : Config)
    (base : ℤ) : ∀ (fuel size ptr wp : ℕ) (buf : Buffer B),
      Program.Always exec I (ioLoop c base true fuel size ptr wp buf) w ↔ I w
  | 0, _, _, _, _ => Program.always_pure
  | fuel + 1, size, ptr, wp, buf => by
      rw [ioLoop]
      by_cases h : 0 < size
      · simp only [if_pos h, if_true, Program.always_bind, always_nvmeRead, run_nvmeRead_snd]
        refine and_iff_left_of_imp fun hw => Program.Always.ite ?_ ?_
        · exact Program.always_pure.mpr hw
        · exact (always_ioLoop_read c base fuel _ _ _ _).mpr hw
      · rw [if_neg h]
        exact Program.always_pure

lemma run_ioLoop_read_snd {d : Drive B} (w : World d) (c : Config) (base : ℤ)
    (fuel size ptr wp : ℕ) (buf : Buffer B) :
    ((ioLoop c base true fuel size ptr wp buf).run exec w).2 = w :=
  Program.Always.last (I := (· = w)) ((always_ioLoop_read c base fuel size ptr wp buf).mpr rfl)

/-- Whatever is kept by every write command is kept by `io_with_mdts`. -/
lemma triple_ioLoop_write {σ : Type} {h : Handler (Op B) Op.Res σ} {P : σ → Prop} (c : Config)
    (base : ℤ) (hcmd : ∀ (slba : ℕ) (nlb len off : ℤ) (bs : List B),
      Program.Triple h P (nvmeWrite slba nlb len off bs : Prog B ℤ) fun _ => P)
    (fuel size ptr wp : ℕ) (buf : Buffer B) :
    Program.Triple h P (ioLoop c base false fuel size ptr wp buf) fun _ => P := by
  induction fuel generalizing size ptr wp with
  | zero => exact .pure fun _ hs => hs
  | succ fuel ih =>
      rw [ioLoop]
      refine .ite (fun _ => ?_) fun _ => .pure fun _ hs => hs
      rw [if_neg Bool.false_ne_true]
      refine .bind (hcmd _ _ _ _ _) fun r => ?_
      exact .ite (fun _ => .pure fun _ hs => hs) fun _ => ih _ _ _

section Transfer

variable {g : Setup B} {w : World g.drive}

/-- A reset of zone `i`. -/
lemma run_nvmeZnsReset_start {i : ℕ} (hi : i < g.nrZones) :
    (nvmeZnsReset ((i * g.nBlocks : ℕ) : ℤ) false : Prog B ℤ).run exec w
      = (0, ⟨w.ftl, w.media.setZone i [] (Nat.zero_le _)⟩) := by
  refine run_nvmeZnsReset_some ?_
  rw [g.toU64_start hi]
  exact Media.reset_start w.media hi

/-- A read command inside one zone. -/
lemma run_nvmeRead {i o cnt : ℕ} (hi : i < g.nrZones) (hcnt : 0 < cnt) (ho : o + cnt ≤ g.nBlocks)
    (h16 : cnt ≤ 65536) (off : ℤ) :
    (nvmeRead (i * g.nBlocks + o) ((cnt - 1 : ℕ) : ℤ) ((cnt * g.lba : ℕ) : ℤ) off
        : Prog B _).run exec w
      = ((0, w.media.blocks (i * g.nBlocks + o) cnt), w) := by
  have h32 : cnt * g.lba < 4294967296 :=
    Nat.lt_of_le_of_lt (Nat.mul_le_mul_right _ (by omega)) g.zone_lba_lt
  have hread := Media.read_addr w.media (i := i) (o := o) hi hcnt ho
  simp only [Setup.drive_zoneSize] at hread
  have hc : cnt - 1 + 1 = cnt := by omega
  rw [nvmeRead, Program.run_perform, toU16_of_lt (by omega), toU32_of_lt h32]
  simp only [exec, hc, Setup.drive_lbaSize, if_true, hread]

/-- A single block. -/
lemma run_nvmeRead_one {x : ℕ} (hx : x < g.nrZones * g.nBlocks) (off : ℤ) :
    (nvmeRead x 0 g.lba off : Prog B _).run exec w = ((0, [w.media.blockAt x]), w) := by
  have hi : x / g.nBlocks < g.nrZones := (Nat.div_lt_iff_lt_mul g.nBlocks_pos).mpr hx
  have ho := Nat.mod_lt x g.nBlocks_pos
  have h := run_nvmeRead (w := w) hi (show 0 < 1 by decide)
    (show x % g.nBlocks + 1 ≤ g.nBlocks by omega) (by decide) off
  rw [Nat.div_add_mod'] at h
  simpa [Media.blocks] using h

/-- A block the drive does not have. -/
lemma run_nvmeRead_outside {x : ℕ} (hx : g.nrZones * g.nBlocks ≤ x) (len off : ℤ) :
    (nvmeRead x 0 len off : Prog B _).run exec w = ((commandError, []), w) := by
  have hnone : w.media.read x (toU16 0 + 1) = none := by
    rw [Media.read, if_neg]
    rintro ⟨h, -⟩
    rw [Setup.drive_nrZones, Setup.drive_zoneSize] at h
    omega
  rw [nvmeRead, Program.run_perform]
  simp only [exec, hnone, ite_self]

/-- **Reading `cnt` blocks of zone `i`** puts them into the buffer at block index `b`. -/
lemma run_ioLoop_read (hds : g.ds ≤ 18) {i : ℕ} (hi : i < g.nrZones) (base : ℤ) :
    ∀ (fuel cnt o ptr : ℕ) (b : ℤ) (buf : Buffer B), cnt ≤ fuel * g.per → o + cnt ≤ g.nBlocks →
      base + ptr = b * g.lba →
      (ioLoop g.config base true fuel (cnt * g.lba) ptr (i * g.nBlocks + o) buf).run exec w
        = ((0, buf.store b (w.media.blocks (i * g.nBlocks + o) cnt)), w)
  | 0, cnt, o, ptr, b, buf, hfuel, _, _ => by
      have hcnt : cnt = 0 := by omega
      subst hcnt
      rw [ioLoop, Program.run_pure, Media.blocks, List.range_zero, List.map_nil, Buffer.store_nil]
  | fuel + 1, cnt, o, ptr, b, buf, hfuel, ho, hb => by
      rcases Nat.eq_zero_or_pos cnt with hcnt | hcnt
      · subst hcnt
        rw [ioLoop, Nat.zero_mul, if_neg (Nat.lt_irrefl 0), Program.run_pure, Media.blocks,
          List.range_zero, List.map_nil, Buffer.store_nil]
      · obtain ⟨k, hk⟩ : ∃ k, k = min g.per cnt := ⟨_, rfl⟩
        obtain ⟨hk0, hkc, hk16, -⟩ := command_bounds hds hk hcnt
        have hwp := g.addr_lt hi (o := o) (by omega)
        have hrest : cnt - k ≤ fuel * g.per := by
          rw [Nat.succ_mul] at hfuel
          omega
        have hbase := next_base hb k
        have ih := run_ioLoop_read hds hi base fuel (cnt - k) (o + k) (ptr + k * g.lba) (b + k)
          (buf.store b (w.media.blocks (i * g.nBlocks + o) k)) hrest (by omega) hbase
        rw [ioLoop_read_step hds hk hcnt base b fuel ptr _ hb (by omega), Program.run_bind,
          run_nvmeRead hi hk0 (by omega) hk16]
        simp only [ne_eq, not_true_eq_false, if_false]
        rw [Nat.add_assoc, ih]
        have hstore := Buffer.store_append buf b (w.media.blocks (i * g.nBlocks + o) k)
          (w.media.blocks (i * g.nBlocks + (o + k)) (cnt - k))
        rw [Media.length_blocks] at hstore
        rw [hstore, ← Nat.add_assoc, ← Media.blocks_add, Nat.add_sub_cancel' hkc]

/-- A write command at the write pointer of zone `i`. -/
lemma run_nvmeWrite {i cnt : ℕ} (hi : i < g.nrZones) (hcnt : 0 < cnt)
    (hroom : (w.media.zone i).length + cnt ≤ g.nBlocks) (h16 : cnt ≤ 65536) (off : ℤ)
    {bs : List B} (hbs : bs.length = cnt) :
    (nvmeWrite (i * g.nBlocks + (w.media.zone i).length) ((cnt - 1 : ℕ) : ℤ)
        ((cnt * g.lba : ℕ) : ℤ) off bs : Prog B _).run exec w
      = (0, World.mk w.ftl (w.media.setZone i (w.media.zone i ++ bs)
          (by rw [List.length_append, hbs]; exact hroom))) := by
  have h32 : cnt * g.lba < 4294967296 :=
    Nat.lt_of_le_of_lt (Nat.mul_le_mul_right _ (by omega)) g.zone_lba_lt
  have hne : bs ≠ [] := by
    rintro rfl
    simp at hbs
    omega
  have hwrite := Media.write_addr w.media (i := i) hi hne (by rw [hbs]; exact hroom)
  simp only [Setup.drive_zoneSize] at hwrite
  have hc : cnt - 1 + 1 = cnt := by omega
  rw [nvmeWrite, Program.run_perform, toU16_of_lt (by omega), toU32_of_lt h32]
  simp only [exec, hc, Setup.drive_lbaSize, hbs, and_self, if_true, hwrite]

/-- Zone `i` has grown by the first `k` blocks of the buffer; nothing else has changed. -/
def Grown (w : World g.drive) (i : ℕ) (buf : Buffer B) (b : ℤ) (k : ℕ) (s : World g.drive) : Prop :=
  s.ftl = w.ftl ∧
    s.media.zone = Function.update w.media.zone i (w.media.zone i ++ buf.slice b k)

lemma Grown.refl (w : World g.drive) (i : ℕ) (buf : Buffer B) (b : ℤ) : Grown w i buf b 0 w :=
  ⟨rfl, by simp [Buffer.slice]⟩

/-- **Writing `cnt` blocks to zone `i`**, from its write pointer on: the zone grows by the blocks,
command by command. -/
lemma run_ioLoop_write (hds : g.ds ≤ 18) {i : ℕ} (hi : i < g.nrZones) (base : ℤ) :
    ∀ (fuel cnt ptr : ℕ) (b : ℤ) (buf : Buffer B) (w : World g.drive), cnt ≤ fuel * g.per →
      (w.media.zone i).length + cnt ≤ g.nBlocks → base + ptr = b * g.lba →
      let p := ioLoop g.config base false fuel (cnt * g.lba) ptr
        (i * g.nBlocks + (w.media.zone i).length) buf
      (p.run exec w).1 = (0, buf) ∧ Grown w i buf b cnt (p.run exec w).2 ∧
        Program.Always exec (fun s => ∃ k ≤ cnt, Grown w i buf b k s) p w
  | 0, cnt, ptr, b, buf, w, hfuel, _, _ => by
      have hcnt : cnt = 0 := by omega
      subst hcnt
      have hw := Grown.refl w i buf b
      exact ⟨rfl, hw, Program.always_pure.mpr ⟨0, Nat.le_refl _, hw⟩⟩
  | fuel + 1, cnt, ptr, b, buf, w, hfuel, hroom, hb => by
      have hw := Grown.refl w i buf b
      rcases Nat.eq_zero_or_pos cnt with hcnt | hcnt
      · subst hcnt
        simp only [ioLoop, Nat.zero_mul, if_neg (Nat.lt_irrefl 0), Program.run_pure]
        exact ⟨trivial, hw, Program.always_pure.mpr ⟨0, Nat.le_refl _, hw⟩⟩
      · obtain ⟨k, hk⟩ : ∃ k, k = min g.per cnt := ⟨_, rfl⟩
        obtain ⟨hk0, hkc, hk16, -⟩ := command_bounds hds hk hcnt
        have hwp := g.addr_lt hi (o := (w.media.zone i).length) (by omega)
        have hrest : cnt - k ≤ fuel * g.per := by
          rw [Nat.succ_mul] at hfuel
          omega
        have hbase := next_base hb k
        have hslice := Buffer.length_slice buf b k
        have hcmd := run_nvmeWrite (w := w) hi hk0 (by omega) hk16 (b * g.lba) hslice
        generalize hw₁ : World.mk w.ftl (w.media.setZone i _ _) = w₁ at hcmd
        have hzone₁ : w₁.media.zone
            = Function.update w.media.zone i (w.media.zone i ++ buf.slice b k) := by
          rw [← hw₁]; rfl
        have hftl₁ : w₁.ftl = w.ftl := by rw [← hw₁]
        have hlen₁ : (w₁.media.zone i).length = (w.media.zone i).length + k := by
          rw [hzone₁, Function.update_self, List.length_append, hslice]
        -- what the rest adds to `w₁` it adds to `w`, after the first `k` blocks
        have hgrow : ∀ r s, Grown w₁ i buf (b + k) r s → Grown w i buf b (k + r) s := by
          rintro r s ⟨hs, hz⟩
          refine ⟨hs.trans hftl₁, ?_⟩
          rw [hz, hzone₁, Function.update_idem, Function.update_self, Buffer.slice_add,
            List.append_assoc]
        have ih := run_ioLoop_write hds hi base fuel (cnt - k) (ptr + k * g.lba) (b + k) buf w₁
          hrest (by omega) hbase
        simp only [hlen₁, ← Nat.add_assoc] at ih
        obtain ⟨hret, hend, hall⟩ := ih
        have hstep := ioLoop_write_step hds hk hcnt base b fuel ptr
          (i * g.nBlocks + (w.media.zone i).length) hb (by omega) buf
        intro p
        change p = _ at hstep
        rw [hstep]
        simp only [Program.run_bind, Program.always_bind, always_nvmeWrite, hcmd, ne_eq,
          not_true_eq_false, if_false]
        refine ⟨hret, ?_, ⟨?_, ?_⟩, ?_⟩
        · have h := hgrow _ _ hend
          rwa [Nat.add_sub_cancel' hkc] at h
        · exact ⟨0, Nat.zero_le _, hw⟩
        · exact ⟨k, hkc, hftl₁, hzone₁⟩
        · refine hall.mono ?_
          rintro s ⟨r, hr, hs⟩
          exact ⟨k + r, by omega, hgrow r s hs⟩

/-- The loop's bound is never the reason it stops. -/
lemma fuel_ge (hds : g.ds ≤ 18) (cnt : ℕ) : cnt ≤ (cnt * g.lba / mdts + 1) * g.per := by
  rw [Setup.mdts_eq hds, Nat.mul_div_mul_right _ _ g.lba_pos, Nat.mul_comm]
  exact Nat.le_of_lt (Nat.lt_mul_div_succ cnt g.per_pos)

/-- Reading `cnt` blocks from one zone into the buffer, from block index `b` on. -/
lemma run_ioWithMdts_read (hds : g.ds ≤ 18) {i o k : ℕ} (hi : i < g.nrZones)
    (ho : o + k ≤ g.nBlocks) (b : ℤ) (buf : Buffer B) :
    (ioWithMdts g.config (i * g.nBlocks + o) (b * g.lba) (k * g.lba) true buf).run exec w
      = ((0, buf.store b (w.media.blocks (i * g.nBlocks + o) k)), w) :=
  run_ioLoop_read hds hi (b * g.lba) _ k o 0 b buf (fuel_ge hds k) ho (by simp)

/-- Filling an empty zone from the buffer. -/
lemma run_ioWithMdts_fill (hds : g.ds ≤ 18) {i : ℕ} (hi : i < g.nrZones) (buf : Buffer B)
    (hempty : w.media.zone i = []) :
    let p := ioWithMdts g.config (i * g.nBlocks) 0 (g.nBlocks * g.lba) false buf
    (p.run exec w).1 = (0, buf) ∧ Grown w i buf 0 g.nBlocks (p.run exec w).2 ∧
      Program.Always exec (fun s => ∃ k ≤ g.nBlocks, Grown w i buf 0 k s) p w := by
  have hlen : (w.media.zone i).length = 0 := by rw [hempty, List.length_nil]
  have h := run_ioLoop_write hds hi 0 _ g.nBlocks 0 0 buf w (fuel_ge hds g.nBlocks)
    (by omega) (by simp)
  rw [hlen, Nat.add_zero] at h
  exact h

/-! ## A write the drive may refuse -/

/-- Zones have at most grown, and only zones with a block in `lo`, …, `hi - 1`. -/
structure Grew (w : World g.drive) (lo hi : ℕ) (s : World g.drive) : Prop where
  ftl : s.ftl = w.ftl
  grows : ∀ i, w.media.zone i <+: s.media.zone i
  within : ∀ i, s.media.zone i ≠ w.media.zone i → lo < (i + 1) * g.nBlocks ∧ i * g.nBlocks < hi

lemma Grew.refl (w : World g.drive) (lo hi : ℕ) : Grew w lo hi w :=
  ⟨rfl, fun _ => List.prefix_rfl, fun _ h => absurd rfl h⟩

lemma Grew.trans {lo lo' hi hi' : ℕ} {w₁ s : World g.drive} (h₁ : Grew w lo hi w₁)
    (h₂ : Grew w₁ lo' hi' s) (hlo : lo ≤ lo') (hhi : hi ≤ hi') : Grew w lo hi' s := by
  refine ⟨h₂.ftl.trans h₁.ftl, fun i => (h₁.grows i).trans (h₂.grows i), fun i hi => ?_⟩
  by_cases hs : s.media.zone i = w₁.media.zone i
  · rw [hs] at hi
    have := h₁.within i hi
    omega
  · have := h₂.within i hs
    omega

/-- A command writes to the zone of its address, or not at all. -/
lemma nvmeWrite_grew (slba : ℕ) (nlb dataLen off : ℤ) (bs : List B) :
    Grew w slba (slba + 1) ((nvmeWrite slba nlb dataLen off bs : Prog B ℤ).run exec w).2 := by
  rw [nvmeWrite, Program.run_perform]
  dsimp only [exec]
  split
  · split
    · rename_i m hm
      obtain ⟨-, -, hzone⟩ := Media.write_eq_some hm
      rw [Setup.drive_zoneSize] at hzone
      refine ⟨rfl, fun i => ?_, fun i hi => ?_⟩
      · change _ <+: m.zone i
        rw [hzone]
        by_cases h : i = slba / g.nBlocks
        · rw [h, Function.update_self]
          exact List.prefix_append _ _
        · simp only [Function.update_of_ne h, List.prefix_refl]
      · have h : i = slba / g.nBlocks := by
          by_contra h
          refine hi ?_
          change m.zone i = _
          rw [hzone, Function.update_of_ne h]
        have hlt := Nat.lt_div_mul_add g.nBlocks_pos (a := slba)
        rw [h, Nat.succ_mul]
        exact ⟨hlt, Nat.lt_succ_of_le (Nat.div_mul_le_self _ _)⟩
    · exact Grew.refl w _ _
  · exact Grew.refl w _ _

/-- **A write transfer** of `cnt` blocks from address `wp` on grows the zones it covers, however
far it gets. -/
lemma ioLoop_write_grew (hds : g.ds ≤ 18) (base : ℤ) : ∀ (fuel cnt ptr wp : ℕ) (b : ℤ)
    (buf : Buffer B) (w : World g.drive), wp + cnt < 4294967296 → base + ptr = b * g.lba →
    Program.Always exec (Grew w wp (wp + cnt))
      (ioLoop g.config base false fuel (cnt * g.lba) ptr wp buf) w
  | 0, cnt, ptr, wp, b, buf, w, _, _ => Program.always_pure.mpr (Grew.refl w _ _)
  | fuel + 1, cnt, ptr, wp, b, buf, w, hwp, hb => by
      rcases Nat.eq_zero_or_pos cnt with hcnt | hcnt
      · subst hcnt
        rw [ioLoop, Nat.zero_mul, if_neg (Nat.lt_irrefl 0)]
        exact Program.always_pure.mpr (Grew.refl w _ _)
      · obtain ⟨k, hk⟩ : ∃ k, k = min g.per cnt := ⟨_, rfl⟩
        obtain ⟨hk0, hkc, -, -⟩ := command_bounds hds hk hcnt
        have hbase := next_base hb k
        have hcmd := nvmeWrite_grew (w := w) wp ((k - 1 : ℕ) : ℤ) ((k * g.lba : ℕ) : ℤ) (b * g.lba)
          (buf.slice b k)
        rw [ioLoop_write_step hds hk hcnt base b fuel ptr wp hb (by omega), Program.always_bind,
          always_nvmeWrite]
        generalize ((nvmeWrite wp ((k - 1 : ℕ) : ℤ) ((k * g.lba : ℕ) : ℤ) (b * g.lba)
          (buf.slice b k) : Prog B ℤ).run exec w) = r at hcmd
        have hr : Grew w wp (wp + cnt) r.2 :=
          (hcmd.trans (Grew.refl r.2 wp (wp + cnt)) (Nat.le_refl _) (by omega))
        refine ⟨⟨Grew.refl w _ _, hr⟩, Program.Always.ite (Program.always_pure.mpr hr) ?_⟩
        have ih := ioLoop_write_grew hds base fuel (cnt - k) (ptr + k * g.lba) (wp + k) (b + k) buf r.2
          (by omega) hbase
        refine ih.mono fun s hs => ?_
        rw [show wp + k + (cnt - k) = wp + cnt by omega] at hs
        exact hcmd.trans hs (by omega) (by omega)

/-- The whole of one transfer, from the address it starts at. -/
lemma ioWithMdts_write_grew (hds : g.ds ≤ 18) {slba cnt : ℕ} (hend : slba + cnt < 4294967296)
    (buf : Buffer B) :
    Grew w slba (slba + cnt)
      ((ioWithMdts g.config slba 0 (cnt * g.lba) false buf).run exec w).2 :=
  (ioLoop_write_grew hds 0 (cnt * g.lba / mdts + 1) cnt 0 slba 0 buf w hend (by simp)).last

/-- With blocks larger than `MDTS` no command has the length of its blocks. -/
lemma length_ne_of_big (hds : 18 < g.ds) {len : ℕ} (hlen : len ≤ mdts) (n : ℕ) :
    toU32 (len : ℕ) ≠ (n + 1) * g.drive.lbaSize := by
  have hlba : mdts < g.lba := Nat.pow_lt_pow_right (show 1 < 2 by decide) hds
  have hblock : g.lba ≤ (n + 1) * g.lba := Nat.le_mul_of_pos_left _ (Nat.succ_pos n)
  have hmdts : mdts = 262144 := rfl
  rw [toU32_of_lt (by omega), Setup.drive_lbaSize]
  omega

lemma run_nvmeWrite_big (hds : 18 < g.ds) {len : ℕ} (hlen : len ≤ mdts) (slba : ℕ) (nlb off : ℤ)
    (bs : List B) :
    (nvmeWrite slba nlb len off bs : Prog B ℤ).run exec w = (commandError, w) := by
  rw [nvmeWrite, Program.run_perform]
  dsimp only [exec]
  exact if_neg fun h => length_ne_of_big hds hlen _ h.1

lemma run_nvmeRead_big (hds : 18 < g.ds) {len : ℕ} (hlen : len ≤ mdts) (slba : ℕ) (nlb off : ℤ) :
    (nvmeRead slba nlb len off : Prog B _).run exec w = ((commandError, []), w) := by
  rw [nvmeRead, Program.run_perform]
  dsimp only [exec]
  exact if_neg (length_ne_of_big hds hlen _)

/-- Such blocks cannot be written at all: the first command is refused. -/
lemma ioWithMdts_write_big (hds : 18 < g.ds) {cnt : ℕ} (hcnt : 0 < cnt) (slba : ℕ) (base : ℤ)
    (buf : Buffer B) :
    (ioWithMdts g.config slba base (cnt * g.lba) false buf).run exec w = ((commandError, buf), w) := by
  have herr : commandError ≠ 0 := by decide
  have hlen : (if mdts < cnt * g.lba then mdts else cnt * g.lba) ≤ mdts := by
    split_ifs <;> omega
  rw [ioWithMdts, ioLoop, if_pos (Nat.mul_pos hcnt g.lba_pos)]
  simp only [Bool.false_eq_true, if_false, Program.run_bind, run_nvmeWrite_big hds hlen, if_pos herr,
    Program.run_pure]

/-- A command the medium does not accept is refused. -/
lemma run_nvmeWrite_refused {slba : ℕ} {bs : List B} (h : w.media.write slba bs = none)
    (nlb dataLen off : ℤ) :
    (nvmeWrite slba nlb dataLen off bs : Prog B ℤ).run exec w = (commandError, w) := by
  rw [nvmeWrite, Program.run_perform]
  simp only [exec, h, ite_self]

/-- A transfer is refused when the medium accepts nothing at its address. -/
lemma ioWithMdts_write_refused {size slba : ℕ} (hsize : 0 < size)
    (hnone : ∀ bs, w.media.write slba bs = none) (base : ℤ) (buf : Buffer B) :
    (ioWithMdts g.config slba base size false buf).run exec w = ((commandError, buf), w) := by
  rw [ioWithMdts, ioLoop, if_pos hsize]
  simp only [Bool.false_eq_true, if_false, Program.run_bind, run_nvmeWrite_refused (hnone _)]
  rfl

/-- The drive does not have the address. -/
lemma ioWithMdts_write_outside {size slba : ℕ} (hsize : 0 < size)
    (hslba : g.nrZones ≤ slba / g.nBlocks) (base : ℤ) (buf : Buffer B) :
    (ioWithMdts g.config slba base size false buf).run exec w = ((commandError, buf), w) := by
  refine ioWithMdts_write_refused hsize (fun bs => ?_) base buf
  rw [Media.write, dif_neg]
  rintro ⟨h, -⟩
  exact absurd h (Nat.not_lt.mpr hslba)

/-- The start of a zone accepts nothing once the zone has been written. -/
lemma write_start_none {m : Media g.drive} {z : ℕ} (hz : m.zone z ≠ []) (bs : List B) :
    m.write (z * g.nBlocks) bs = none := by
  have hdiv : z * g.nBlocks / g.drive.zoneSize = z := Media.start_div (d := g.drive) z
  rw [Media.write, dif_neg]
  rintro ⟨-, hoff, -⟩
  rw [hdiv, Setup.drive_zoneSize, Nat.mul_mod_left] at hoff
  exact hz (List.length_eq_zero_iff.mp hoff.symm)

end Transfer

end StoSys
