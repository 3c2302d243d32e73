import StoSys.M2.Runs
import StoSys.Properties.Cadence
import StoSys.Properties.Interchange

/-!
# What `m2` finds out

**The first two tests** pass on every device that stores (`smallTests_pass`), wherever the random run
of blocks starts.

**The third test cannot pass** on the translation layer when its buffer reaches `MDTS`, as the default
buffer does, and so `m2` never exits with success (`m2Main_fails`).  The first two tests write as many
blocks as fill the log up to the watermark, so the last of them makes a pass and leaves one block in
the first log zone.  A large write starts at the beginning of that zone, where the drive does not
accept it.  The one way around is a buffer for which there is no room behind that block, but just
enough in an empty log, since then another pass is made first.
-/

namespace StoSys

open Effect HashMap Zoned CInt M3 M2

/-! ## One-block tests -/

/-- **The first two tests pass on every device that stores.** -/
theorem smallTests_pass {δ : Type} {dev : UserDevice} {device : Device δ} {R : δ → Stored → Prop}
    (hd : Stores dev device R) {x : δ} (hx : R x fun _ => none) (host : M3.Host)
    (hcapacity : dev.capacityBytes < 18446744073709551616) {max : ℕ} (hpos : 0 < max)
    (hmax : max < toU32 (dev.capacityBytes / dev.lbaSizeBytes : ℕ)) (buf file : Bytes) :
    let first := (testWriteReadLba0 buf dev.lbaSizeBytes).run (testEnv host device)
      { file := file, device := x }
    ∃ b, first.1 = some (0, b) ∧
      ((testWriteReadRandomLbas dev b dev.lbaSizeBytes max).run (testEnv host device) first.2).1
        = some 0 := by
  intro first
  have hcap : dev.lbaSizeBytes ≤ dev.capacityBytes := by
    have hentries : 0 < dev.capacityBytes / dev.lbaSizeBytes := by
      rw [toU32_natCast] at hmax
      have := Nat.mod_le (dev.capacityBytes / dev.lbaSizeBytes) 4294967296
      omega
    exact (Nat.div_pos_iff.mp hentries).2
  have hagrees : Agrees R { file := file, device := x }
      ({ file := file, device := fun _ => none } : TestState Stored) := ⟨rfl, rfl, rfl, rfl, rfl, hx⟩
  obtain ⟨t, ht, ⟨b, hb⟩, hcount⟩ := delivers_refined hd
    (testWriteReadLba0_delivers hcap buf 0) hagrees rfl
  obtain ⟨-, -, hlast, -⟩ := delivers_refined hd
    (testWriteReadRandomLbas_delivers hcapacity hpos hmax b 1) ht hcount
  exact ⟨b, hb, hlast⟩

/-- On the small drive, over two blocks. -/
theorem smallTests_pass_two :
    let device := ftlDevice byteDrive fun _ => .stored
    let first := (testWriteReadLba0 (fun _ => 0) 4096).run (testEnv calmHost device)
      { file := fun _ => 0, device := (fresh byteDrive, 0) }
    ∃ b, first.1 = some (0, b) ∧
      ((testWriteReadRandomLbas (userDevice byteDrive) b 4096 2).run (testEnv calmHost device)
        first.2).1 = some 0 :=
  smallTests_pass (stores_ftl (g := byteDrive) rfl (by decide) (by decide) fun _ => .stored)
    (keeping_fresh byteDrive 0) calmHost (by decide) (by decide) (by decide) (fun _ => 0) fun _ => 0

section Layer

variable {ds : ℕ} {g : Setup (Block ds)} {host : M3.Host} {ord : ℕ → HashOrder}

/-! ## The pace of a test -/

/-- The layer keeps what the tests have written, and the pace of their writes. -/
def Tracks (g : Setup (Block ds)) (s : TestState (World g.drive × ℕ)) (t : TestState Stored) : Prop :=
  Agrees (Keeping g) s t ∧ ∃ n, Pace g t.written.length n s.device.1

/-- A code of zero is that of a write that has returned. -/
lemma some_zero_of_getD {r : Option ℤ} (h : r.getD (-1) = 0) : r = some 0 := by
  cases r with
  | none => cases h
  | some r => exact congrArg some h

/-- One request. -/
lemma Tracks.step (hds : g.ds = ds) (hsmall : ds < 18) (hroom : 1 < g.logRoom)
    {s : TestState (World g.drive × ℕ)} {t : TestState Stored} {o : TestOp} (h : Tracks g s t)
    (hok : M3.Accepted o (testEnv host (ideal (userDevice g)) o t).1) :
    (testEnv host (ftlDevice g ord) o s).1 = (testEnv host (ideal (userDevice g)) o t).1 ∧
      Tracks g (testEnv host (ftlDevice g ord) o s).2
        (testEnv host (ideal (userDevice g)) o t).2 := by
  obtain ⟨hagrees, n, hpace⟩ := h
  have hstores := stores_ftl hds hsmall hroom ord
  obtain ⟨hres, hnext⟩ := hstores.step hagrees hok
  refine ⟨hres, hnext, ?_⟩
  cases o with
  | udeviceWrite address buf size =>
      have hone : OneBlock (userDevice g) address size := ideal_write_eq_zero_iff.mp hok
      obtain ⟨hret, -⟩ := hstores.write buf hagrees.device hone
      obtain ⟨q, hq, rfl, rfl⟩ := oneBlock_iff.mp hone
      have hrun : ((znsUdeviceWrite g.config [ord s.device.2] (q * g.lba) g.lba
          (toBlocks ds buf)).run exec s.device.1).1 = some 0 := some_zero_of_getD hret
      obtain ⟨m, -, hpace', -⟩ := hpace.write (hds.trans_lt hsmall) hq (Prod.ext hrun rfl)
      refine ⟨n + m, ?_⟩
      simpa [testEnv, ftlDevice] using hpace'
  | udeviceRead address buf size =>
      refine ⟨n, ?_⟩
      simpa [testEnv, ftlDevice, run_read_snd] using hpace
  | pwrite buf count offset =>
      refine ⟨n, ?_⟩
      dsimp only [testEnv]
      split <;> split <;> exact hpace
  | pread count offset =>
      refine ⟨n, ?_⟩
      dsimp only [testEnv]
      split <;> split <;> exact hpace
  | openFile | fallocate len | rand | removeFile => exact ⟨n, hpace⟩

/-- What is known of a client on `ideal` is true of it on the layer, which is at the same pace. -/
lemma Tracks.delivers {α : Type} (ord : ℕ → HashOrder) (hds : g.ds = ds) (hsmall : ds < 18)
    (hroom : 1 < g.logRoom) {s : TestState (World g.drive × ℕ)} {t : TestState Stored}
    (h : Tracks g s t) {p : M3.Prog α}
    {P : TestState Stored → Prop} {Q : α → TestState Stored → Prop}
    (hp : Program.Delivers (testEnv host (ideal (userDevice g))) M3.Accepted P p Q) (ht : P t) :
    ∃ t', Tracks g (p.run (testEnv host (ftlDevice g ord)) s).2 t' ∧
      Q (p.run (testEnv host (ftlDevice g ord)) s).1 t' := by
  obtain ⟨hserved, hQ⟩ := hp t ht
  obtain ⟨hres, htracks⟩ := Program.run_refines (h := testEnv host (ftlDevice g ord))
    (fun hR hok => Tracks.step hds hsmall hroom hR hok) h hserved
  exact ⟨_, htracks, hres ▸ hQ⟩

/-! ## The large write -/

variable {w : World g.drive} {k : ℕ}

/-- The first command of a large transfer does not fit the zone it goes to. -/
lemma ioWithMdts_first_refused {z : ℕ} (size : ℕ) (hsize : 0 < size)
    (hfull : g.nBlocks < (w.media.zone z).length + (if mdts < size then mdts else size) / g.lba
      ∨ w.media.zone z ≠ []) (buf : Buffer (Block ds)) :
    ((ioWithMdts g.config (z * g.nBlocks) 0 size false buf).run exec w).1.1 ≠ 0 := by
  have hnone : ∀ bs : List (Block ds), bs.length = (if mdts < size then mdts else size) / g.lba →
      w.media.write (z * g.nBlocks) bs = none := by
    intro bs hbs
    rcases hfull with hfull | hne
    · have hdiv : z * g.nBlocks / g.drive.zoneSize = z := Media.start_div (d := g.drive) z
      rw [Media.write, dif_neg]
      rintro ⟨-, -, hle⟩
      rw [hdiv, hbs, Setup.drive_zoneCap] at hle
      omega
    · exact write_start_none hne bs
  have hcmd := fun nlb dataLen off : ℤ => run_nvmeWrite_refused (hnone (buf.slice
    (((0 : ℤ) + (0 : ℕ)) / (g.lba : ℕ)) ((if mdts < size then mdts else size) / g.lba))
    (Buffer.length_slice _ _ _)) nlb dataLen off
  rw [ioWithMdts, ioLoop, if_pos hsize]
  simp only [Bool.false_eq_true, if_false, Setup.config_lbaSizeBytes, Program.run_bind, hcmd]
  rw [if_pos (show commandError ≠ 0 by decide)]
  exact show commandError ≠ 0 by decide

/-- **Behind one block** no large write succeeds, unless it fills an empty log exactly. -/
lemma Synced.large_refused (hds : g.ds < 18) (h : Synced g w) (hend : w.ftl.logZoneEnd = 1)
    (hroom : 1 < g.logRoom) (hlarge : mdts ≤ k * g.lba) (hsize : k * g.lba < 4294967296)
    (hne : k ≠ g.logRoom - 1) (passes : List HashOrder) (address : ℕ) (buf : Buffer (Block ds)) :
    ((znsUdeviceWrite g.config passes address (k * g.lba) buf).run exec w).1 ≠ some 0 := by
  intro hret
  obtain ⟨-, hl, hbody⟩ := write_left rfl (Prod.ext hret rfl)
  have hI : Inv g (locked w) := h.inv.setFlags rfl rfl
  have hk := blocks_lt hsize
  have hends : (locked w).ftl.logZoneEnd = 1 := hend
  have hleft := watermark_lt_iff (g := g) (m := (locked w).ftl) (k := k) hI.start (by omega)
  by_cases hfree : g.gcWmark < freeZoneNumber g.config (locked w).ftl (toI32 k)
  · -- the write starts at once, in a zone that does not take it
    rw [run_watermarkLoop_left hfree] at hbody
    have hrun := run_writeBody_large (w := locked w) (a := 0) hlarge (by omega) rfl buf
    have hrefused := ioWithMdts_first_refused (w := locked w) (z := (locked w).ftl.logZoneEnd
      / g.nBlocks) (k * g.lba) (by have : mdts = 262144 := rfl; omega) ?_ buf
    · dsimp only at hrun
      rw [if_neg hrefused] at hrun
      obtain ⟨hcode, -⟩ := writeBody_address g.config address (0 * g.lba) (k * g.lba) buf (locked w)
      rw [hbody, hrun] at hcode
      exact hrefused hcode.symm
    · have hzone := h.cursor.zone (show w.ftl.logZoneEnd < g.logRoom by omega)
      rw [hend] at hzone
      rw [hends]
      rcases Nat.lt_or_ge 1 g.nBlocks with hn | hn
      · refine Or.inr fun hempty => ?_
        change w.media.zone _ = [] at hempty
        rw [hempty, Nat.mod_eq_of_lt hn] at hzone
        cases hzone
      · -- with one block to a zone the command is too long
        left
        have hlba : 2 * g.lba ≤ mdts := by
          have hpow := Nat.pow_le_pow_right (show 0 < 2 by decide) (show g.ds + 1 ≤ 18 by omega)
          rw [Nat.pow_succ, Nat.mul_comm] at hpow
          exact hpow
        have htwo : 2 ≤ (if mdts < k * g.lba then mdts else k * g.lba) / g.lba := by
          rw [Nat.le_div_iff_mul_le g.lba_pos]
          split <;> omega
        omega
  · -- it waits for a pass, and then for another one
    rw [hleft, hends, not_or, Nat.not_lt, Nat.not_le] at hfree
    have hstuck : ((watermarkLoop g.config k passes : Prog (Block ds) Bool).run exec
        (locked w)).1 = false :=
      hI.watermarkLoop_stuck (by omega) (by omega) (Or.inr (by omega))
    rw [hstuck] at hl
    cases hl

/-! ## The whole of `m2` -/

/-- `m2` exits with success only if all tests pass. -/
lemma m2Main_passed {δ : Type} {dev : UserDevice} {device : Device δ} {s : TestState δ}
    {logZones zoneCapacity lbaSize bufferSize : ℕ} {deinitRet : ℤ}
    (h : ((m2Main dev logZones zoneCapacity lbaSize bufferSize deinitRet).run
      (testEnv host device) s).1 = some 0) :
    let max := toU32 (((logZones : ℤ) - 1) * (zoneCapacity / lbaSize : ℕ))
    let first := (testWriteReadLba0 (fun _ => 0) dev.lbaSizeBytes).run (testEnv host device) s
    ∃ b, first.1 = some (0, b) ∧
      let second := (testWriteReadRandomLbas dev b dev.lbaSizeBytes
        (toU64 ((max : ℤ) - 1))).run (testEnv host device) first.2
      second.1 = some 0 ∧ ∃ b',
        ((testLargeWriteRead (fun _ => 0) bufferSize).run (testEnv host device) second.2).1
          = some (0, b') := by
  intro max
  rw [m2Main, Program.run_bind] at h
  generalize hfirst : (testWriteReadLba0 (fun _ => 0) dev.lbaSizeBytes).run (testEnv host device) s
    = first at h
  obtain ⟨_ | ⟨t1, b⟩, s1⟩ := first
  · cases h
  dsimp only at h
  rw [Program.run_bind] at h
  generalize hsecond : (testWriteReadRandomLbas dev b dev.lbaSizeBytes
    (toU64 ((max : ℤ) - 1))).run (testEnv host device) s1 = second at h
  obtain ⟨_ | t2, s2⟩ := second
  · cases h
  dsimp only at h
  rw [Program.run_bind] at h
  generalize hthird : (testLargeWriteRead (fun _ => 0) bufferSize).run (testEnv host device) s2
    = third at h
  obtain ⟨_ | ⟨t3, b'⟩, s3⟩ := third
  · cases h
  dsimp only at h
  by_cases hbad : t1 ≠ 0 ∨ t2 ≠ 0 ∨ t3 ≠ 0
  · rw [if_pos hbad] at h
    cases h
  · simp only [not_or, not_not] at hbad
    obtain ⟨rfl, rfl, rfl⟩ := hbad
    exact ⟨b, rfl, by rw [hsecond], b', by rw [hsecond, hthird]⟩

lemma run_write_unaligned {passes : List HashOrder} {address size : ℕ} {buf : Buffer (Block ds)}
    (h : size % g.lba ≠ 0) :
    (znsUdeviceWrite g.config passes address size buf).run exec w = (some (-1), w) := by
  have hprog : znsUdeviceWrite g.config passes address size buf = pure (some (-1)) := if_pos h
  rw [hprog]
  rfl

/-- A large write that is refused fails the third test. -/
lemma testLargeWriteRead_failed {δ : Type} {device : Device δ} {s : TestState δ} {buf : Bytes}
    {bufSize : ℕ}
    (h : (device.write 0 (writePatternWithStart buf bufSize 0) bufSize s.device).1 ≠ 0) (b : Bytes) :
    ((testLargeWriteRead buf bufSize).run (testEnv host device) s).1 ≠ some (0, b) := by
  rw [testLargeWriteRead, testWriteReadLba0, udeviceWrite, Program.run_bind, Program.run_perform]
  change (Program.run _ (if (device.write 0 _ bufSize s.device).1 ≠ 0 then _ else _) _).1 ≠ _
  rw [if_pos h]
  intro heq
  exact h (congrArg Prod.fst (Option.some.inj heq))

/-- The second test passes only if there are blocks to choose from. -/
lemma randomLbas_passed {δ : Type} {dev : UserDevice} {device : Device δ} {s : TestState δ}
    {buf : Bytes} {bufSize max : ℕ}
    (h : ((testWriteReadRandomLbas dev buf bufSize max).run (testEnv host device) s).1 = some 0) :
    max < toU32 (dev.capacityBytes / dev.lbaSizeBytes : ℕ) := by
  rw [testWriteReadRandomLbas] at h
  by_contra hno
  dsimp only at h
  split at h
  · cases h
  · rw [Program.run_bind, if_pos (by omega)] at h
    cases h

/-- **`m2` cannot pass**, on any drive, with the watermark that it sets and a buffer of `MDTS` or
more, but for the one size that fills an empty log. -/
theorem m2Main_fails (hds : g.ds = ds) (hsmall : ds < 18) (hwmark : g.gcWmark = 1)
    (hlog : 3 ≤ g.logZones) (ord : ℕ → HashOrder) (host : M3.Host) {bufferSize : ℕ}
    (hlarge : mdts ≤ bufferSize) (hsize : bufferSize < 2147483648)
    (hne : bufferSize ≠ (g.logRoom - 1) * g.lba) (deinitRet : ℤ) (file : Bytes) :
    ((m2Main (userDevice g) g.logZones (g.nBlocks * g.lba) g.lba bufferSize deinitRet).run
      (testEnv host (ftlDevice g ord)) { file := file, device := (fresh g, 0) }).1 ≠ some 0 := by
  intro h
  obtain ⟨b, hfirst, hsecond, b', hthird⟩ := m2Main_passed h
  have hn := g.nBlocks_pos
  have hroomlt := g.logRoom_lt
  have hlogRoom : g.logRoom = (g.logZones - 1) * g.nBlocks := by rw [Setup.logRoom, hwmark]
  have hroom : 1 < g.logRoom := by
    have := Nat.mul_le_mul (show 2 ≤ g.logZones - 1 by omega) hn
    omega
  have hmax : toU64 ((toU32 (((g.logZones : ℤ) - 1) * (g.nBlocks * g.lba / g.lba : ℕ)) : ℤ) - 1)
      = g.logRoom - 1 := by
    rw [Nat.mul_div_cancel _ g.lba_pos, ← Nat.cast_pred g.logZones_pos, ← Nat.cast_mul, ← hlogRoom,
      toU32_of_lt (by omega), ← Nat.cast_pred (by omega), toU64_of_lt (by omega)]
  change ((testWriteReadRandomLbas _ b _ (toU64 ((toU32 (((g.logZones : ℤ) - 1)
    * (g.nBlocks * g.lba / g.lba : ℕ)) : ℤ) - 1))).run _ _).1 = _ at hsecond
  change ((testLargeWriteRead _ _).run _ ((testWriteReadRandomLbas _ b _ (toU64
    ((toU32 (((g.logZones : ℤ) - 1) * (g.nBlocks * g.lba / g.lba : ℕ)) : ℤ) - 1))).run _ _).2).1
      = _ at hthird
  rw [hmax] at hsecond hthird
  have hentries := randomLbas_passed hsecond
  have hcapacity := g.capacityBytes_lt
  have hcap : (userDevice g).lbaSizeBytes ≤ (userDevice g).capacityBytes := by
    have hpos : 0 < (userDevice g).capacityBytes / (userDevice g).lbaSizeBytes := by
      rw [toU32_natCast] at hentries
      have := Nat.mod_le ((userDevice g).capacityBytes / (userDevice g).lbaSizeBytes) 4294967296
      omega
    exact (Nat.div_pos_iff.mp hpos).2
  -- after the first two tests there is one block in the log
  have hstart : Tracks g { file := file, device := (fresh g, 0) }
      ({ file := file, device := fun _ => none } : TestState Stored) :=
    ⟨⟨rfl, rfl, rfl, rfl, rfl, keeping_fresh g 0⟩, 0, pace_fresh g⟩
  obtain ⟨t, ht, -, hcount⟩ := hstart.delivers ord hds hsmall hroom
    (testWriteReadLba0_delivers hcap (fun _ => 0) 0) rfl
  obtain ⟨t', ⟨-, n, hpace⟩, -, hcount'⟩ := ht.delivers ord hds hsmall hroom
    (testWriteReadRandomLbas_delivers
      (show (userDevice g).capacityBytes < _ from hcapacity.trans (by decide))
      (by omega) hentries b 1) hcount
  rw [hcount', show 1 + (g.logRoom - 1) = g.logRoom by omega] at hpace
  have hend := hpace.cursor_eq (by omega)
  rw [Nat.mod_self, Nat.zero_add] at hend
  refine testLargeWriteRead_failed (fun hret => ?_) b' hthird
  rcases Nat.eq_zero_or_pos (bufferSize % g.lba) with halign | halign
  · obtain ⟨k, rfl⟩ := Nat.dvd_of_mod_eq_zero halign
    rw [Nat.mul_comm] at hlarge hsize hret hne
    refine hpace.synced.large_refused (hds.trans_lt hsmall) hend hroom hlarge (by omega)
      (fun heq => hne (by rw [heq])) [_] 0 _ (some_zero_of_getD hret)
  · dsimp only [ftlDevice] at hret
    rw [run_write_unaligned (Nat.ne_of_gt halign)] at hret
    cases hret

end Layer

/-- A drive with zones of 2 MiB, and the three log zones of the defaults. -/
def defaultDrive : Setup (Block 12) where
  ds := 12
  nBlocks := 512
  nrZones := 10
  logZones := 3
  gcWmark := 1
  readAcross := false
  fill := 0
  ds_ge := byteDrive.ds_ge
  nBlocks_pos := by decide
  zoneBytes_lt := by decide
  total_lt := by decide
  wmark_pos := byteDrive.wmark_pos
  wmark_lt := Nat.one_lt_succ_succ 1
  logZones_lt := by decide

/-- With the default buffer of 1 MiB. -/
theorem m2Main_fails_default :
    ((m2Main (userDevice defaultDrive) 3 (512 * 4096) 4096 1048576 0).run
      (testEnv calmHost (ftlDevice defaultDrive fun _ => .stored))
      { file := fun _ => 0, device := (fresh defaultDrive, 0) }).1 ≠ some 0 :=
  m2Main_fails (g := defaultDrive) rfl (by decide) rfl (by decide) (fun _ => .stored) calmHost
    (by decide) (by decide) (by decide) 0 fun _ => 0

end StoSys
