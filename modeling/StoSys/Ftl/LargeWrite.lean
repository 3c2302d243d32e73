import StoSys.Ftl.Writing

/-!
# Writes of `MDTS` and more

From `MDTS` on a write goes out through `ioWithMdts`, from the start of the zone of the cursor, and
may cover several zones.  The commands are `g.per` blocks long, so the drive accepts them all
exactly when the zone is empty and no command straddles the end of a zone: the request stays inside
one zone, or `g.per` divides the zone size.
-/

namespace StoSys

open Effect HashMap Zoned CInt

variable {B : Type} {g : Setup B} {w : World g.drive}

/-! ## Across zones -/

/-- The first `p` blocks of `buf` have been laid out from the start of zone `z` on. -/
structure Spread (w : World g.drive) (z : ℕ) (buf : Buffer B) (p : ℕ) (s : World g.drive) :
    Prop where
  ftl : s.ftl = w.ftl
  zone : ∀ i, s.media.zone i = if z ≤ i then
    w.media.zone i ++ buf.slice (((i - z) * g.nBlocks : ℕ) : ℤ)
      (min g.nBlocks (p - (i - z) * g.nBlocks)) else w.media.zone i

/-- The zones a request of `k` blocks from zone `z` on covers, all of them empty. -/
def Room (w : World g.drive) (z k : ℕ) : Prop :=
  z * g.nBlocks + k ≤ g.nrZones * g.nBlocks ∧
    ∀ i, z ≤ i → i * g.nBlocks < z * g.nBlocks + k → w.media.zone i = []

lemma Spread.refl (w : World g.drive) (z : ℕ) (buf : Buffer B) : Spread w z buf 0 w := by
  refine ⟨rfl, fun i => ?_⟩
  simp [Buffer.slice]

section Spread

variable {z p k m : ℕ} {buf : Buffer B} {s : World g.drive}

/-- The zone the next block goes to. -/
lemma Spread.next (hs : Spread w z buf p s) (hroom : Room w z k) (hp : p < k) :
    z + p / g.nBlocks < g.nrZones ∧
      z * g.nBlocks + p = (z + p / g.nBlocks) * g.nBlocks + p % g.nBlocks ∧
      s.media.zone (z + p / g.nBlocks)
        = buf.slice ((p / g.nBlocks * g.nBlocks : ℕ) : ℤ) (p % g.nBlocks) := by
  have hn := g.nBlocks_pos
  have hdm := Nat.div_add_mod' p g.nBlocks
  have hmod := Nat.mod_lt p hn
  have haddr : (z + p / g.nBlocks) * g.nBlocks = z * g.nBlocks + p / g.nBlocks * g.nBlocks :=
    Nat.add_mul _ _ _
  have hnr : z + p / g.nBlocks < g.nrZones := by
    refine Nat.lt_of_mul_lt_mul_right (a := g.nBlocks) ?_
    have := hroom.1
    omega
  refine ⟨hnr, by omega, ?_⟩
  rw [hs.zone, if_pos (Nat.le_add_right _ _), hroom.2 _ (Nat.le_add_right _ _) (by omega),
    List.nil_append, Nat.add_sub_cancel_left]
  congr 1
  omega

/-- A command that ends inside the zone it starts in. -/
lemma Spread.step (hs : Spread w z buf p s) (hroom : Room w z k) (hm : 0 < m) (hk : p + m ≤ k)
    (h16 : m ≤ 65536) (hfits : p % g.nBlocks + m ≤ g.nBlocks) (off : ℤ) :
    ∃ s', (nvmeWrite (z * g.nBlocks + p) ((m - 1 : ℕ) : ℤ) ((m * g.lba : ℕ) : ℤ) off
        (buf.slice p m) : Prog B ℤ).run exec s = (0, s') ∧ Spread w z buf (p + m) s' := by
  have hn := g.nBlocks_pos
  obtain ⟨hnr, haddr, hzone⟩ := hs.next hroom (show p < k by omega)
  have hdm := Nat.div_add_mod' p g.nBlocks
  have hlen : (s.media.zone (z + p / g.nBlocks)).length = p % g.nBlocks := by
    rw [hzone, Buffer.length_slice]
  have hcmd := run_nvmeWrite (w := s) hnr hm (by rw [hlen]; exact hfits) h16 off
    (Buffer.length_slice buf p m)
  have haddr' : z * g.nBlocks + p = (z + p / g.nBlocks) * g.nBlocks
      + (s.media.zone (z + p / g.nBlocks)).length := by rw [hlen, ← haddr]
  rw [← haddr'] at hcmd
  refine ⟨_, hcmd, hs.ftl, fun i => ?_⟩
  rw [Media.setZone_zone]
  by_cases hi : i = z + p / g.nBlocks
  · -- the blocks so far and the new ones are one run
    subst hi
    have hsum : ((p / g.nBlocks * g.nBlocks : ℕ) : ℤ) + ((p % g.nBlocks : ℕ) : ℤ) = p := by
      exact_mod_cast hdm
    rw [if_pos rfl, if_pos (Nat.le_add_right _ _), hzone,
      hroom.2 _ (Nat.le_add_right _ _) (by omega), List.nil_append, Nat.add_sub_cancel_left,
      ← hsum, ← Buffer.slice_add]
    congr 1
    omega
  · rw [if_neg hi, hs.zone]
    by_cases hzi : z ≤ i
    · rw [if_pos hzi, if_pos hzi]
      congr 2
      rcases Nat.lt_or_ge (i - z) (p / g.nBlocks) with hlt | hge
      · have := Nat.mul_le_mul_right g.nBlocks (Nat.succ_le_of_lt hlt)
        rw [Nat.succ_mul] at this
        omega
      · have := Nat.mul_le_mul_right g.nBlocks (show p / g.nBlocks + 1 ≤ i - z by omega)
        rw [Nat.succ_mul] at this
        omega
    · rw [if_neg hzi, if_neg hzi]

/-- A command that straddles the end of a zone. -/
lemma Spread.refused (hs : Spread w z buf p s) (hroom : Room w z k) (hk : p < k)
    (hcross : g.nBlocks < p % g.nBlocks + m) (nlb dataLen off : ℤ) :
    (nvmeWrite (z * g.nBlocks + p) nlb dataLen off (buf.slice p m) : Prog B ℤ).run exec s
      = (commandError, s) := by
  obtain ⟨-, haddr, hzone⟩ := hs.next hroom hk
  have hmod := Nat.mod_lt p g.nBlocks_pos
  have hdiv : (z * g.nBlocks + p) / g.nBlocks = z + p / g.nBlocks := by
    rw [haddr]
    exact Media.addr_div (d := g.drive) hmod
  refine run_nvmeWrite_refused ?_ _ _ _
  rw [Media.write, dif_neg]
  rintro ⟨-, -, h⟩
  rw [Setup.drive_zoneSize, hdiv, hzone, Buffer.length_slice, Buffer.length_slice] at h
  exact absurd h (Nat.not_le.mpr hcross)

end Spread

/-- **A transfer without straddling commands succeeds.** -/
lemma run_ioLoop_spread (hds : g.ds ≤ 18) {z k : ℕ} (hroom : Room w z k)
    (hstart : z * g.nBlocks + k < 4294967296) (hcut : k ≤ g.nBlocks ∨ g.per ∣ g.nBlocks)
    (buf : Buffer B) : ∀ (fuel p : ℕ) (s : World g.drive), k ≤ fuel * g.per + p → p ≤ k →
    g.per ∣ p ∨ p = k → Spread w z buf p s →
    let r := (ioLoop g.config 0 false fuel ((k - p) * g.lba) (p * g.lba) (z * g.nBlocks + p)
      buf).run exec s
    r.1 = (0, buf) ∧ Spread w z buf k r.2
  | 0, p, s, hfuel, hp, _, hs => by
      obtain rfl : p = k := by omega
      exact ⟨rfl, hs⟩
  | fuel + 1, p, s, hfuel, hp, hper, hs => by
      rcases Nat.eq_or_lt_of_le hp with rfl | hlt
      · simp only [ioLoop, Nat.sub_self, Nat.zero_mul, if_neg (Nat.lt_irrefl 0), Program.run_pure]
        exact ⟨trivial, hs⟩
      · obtain ⟨m, hm⟩ : ∃ m, m = min g.per (k - p) := ⟨_, rfl⟩
        obtain ⟨hm0, hmk, hm16, -⟩ := command_bounds hds hm (show 0 < k - p by omega)
        have hper' := hper.resolve_right (Nat.ne_of_lt hlt)
        -- a command that starts at a multiple of its length ends inside its zone
        have hfits : p % g.nBlocks + m ≤ g.nBlocks := by
          rcases hcut with hcut | hcut
          · have := Nat.mod_le p g.nBlocks
            omega
          · have hmod := Nat.mod_lt p g.nBlocks_pos
            have hdvd : g.per ∣ g.nBlocks - p % g.nBlocks :=
              Nat.dvd_sub hcut ((Nat.dvd_mod_iff hcut).mpr hper')
            have := Nat.le_of_dvd (by omega) hdvd
            omega
        obtain ⟨s', hcmd, hs'⟩ := hs.step hroom hm0 (by omega) hm16 hfits (p * g.lba)
        have hstep := ioLoop_write_step hds hm (show 0 < k - p by omega) 0 p fuel (p * g.lba)
          (z * g.nBlocks + p) (by push_cast; ring) (by omega) buf
        have ih := run_ioLoop_spread hds hroom hstart hcut buf fuel (p + m) s'
          (by rw [Nat.succ_mul] at hfuel; omega) (by omega) (by
            rcases Nat.le_total g.per (k - p) with h | h
            · rw [Nat.min_eq_left h] at hm
              rw [hm]
              exact Or.inl (Nat.dvd_add hper' (Nat.dvd_refl _))
            · exact Or.inr (by omega)) hs'
        intro r
        have hr : r = _ := congrArg (fun q => Program.run exec q s) hstep
        rw [hr]
        simp only [Program.run_bind, hcmd, ne_eq, not_true_eq_false, if_false]
        rw [Nat.sub_sub, ← Nat.add_mul, Nat.add_assoc]
        exact ih

/-- **A transfer that reaches the end of its zone inside a command fails there.** -/
lemma run_ioLoop_straddle (hds : g.ds ≤ 18) {z k : ℕ} (hroom : Room w z k)
    (hstart : z * g.nBlocks + k < 4294967296) (hlong : g.nBlocks < k)
    (hcut : ¬ g.per ∣ g.nBlocks) (buf : Buffer B) : ∀ (fuel p : ℕ) (s : World g.drive),
    k ≤ fuel * g.per + p → p < g.nBlocks → g.per ∣ p → Spread w z buf p s →
    ((ioLoop g.config 0 false fuel ((k - p) * g.lba) (p * g.lba) (z * g.nBlocks + p)
      buf).run exec s).1.1 ≠ 0
  | 0, p, s, hfuel, hp, _, _ => by omega
  | fuel + 1, p, s, hfuel, hp, hper, hs => by
      obtain ⟨m, hm⟩ : ∃ m, m = min g.per (k - p) := ⟨_, rfl⟩
      obtain ⟨hm0, hmk, hm16, -⟩ := command_bounds hds hm (show 0 < k - p by omega)
      have hmod : p % g.nBlocks = p := Nat.mod_eq_of_lt hp
      have hstep := ioLoop_write_step hds hm (show 0 < k - p by omega) 0 p fuel (p * g.lba)
        (z * g.nBlocks + p) (by push_cast; ring) (by omega) buf
      rw [hstep, Program.run_bind]
      rcases Nat.lt_or_ge g.nBlocks (p + m) with hcross | hfits
      · rw [hs.refused hroom (show p < k by omega) (by omega)]
        exact show commandError ≠ 0 by decide
      · -- the next command starts inside the zone as well
        have hmper : m = g.per := by omega
        have hdvd : g.per ∣ p + m := by
          rw [hmper]
          exact Nat.dvd_add hper (Nat.dvd_refl _)
        have hlt : p + m < g.nBlocks := by
          refine Nat.lt_of_le_of_ne hfits ?_
          rintro heq
          exact hcut (heq ▸ hdvd)
        obtain ⟨s', hcmd, hs'⟩ := hs.step hroom hm0 (by omega) hm16 (by omega) (p * g.lba)
        have ih := run_ioLoop_straddle hds hroom hstart hlong hcut buf fuel (p + m) s'
          (by rw [Nat.succ_mul] at hfuel; omega) hlt hdvd hs'
        rw [hcmd]
        simp only [ne_eq, not_true_eq_false, if_false]
        rw [Nat.sub_sub, ← Nat.add_mul, Nat.add_assoc]
        exact ih

/-- **A transfer of `k` blocks to the start of zone `z`, with nothing written beyond `z`**: whether
it succeeds, and what it does if so. -/
theorem run_ioWithMdts_zones {z k : ℕ} (hk : 0 < k)
    (hroom : z * g.nBlocks + k ≤ g.nrZones * g.nBlocks)
    (hbeyond : ∀ i, z < i → i * g.nBlocks < z * g.nBlocks + k → w.media.zone i = [])
    (buf : Buffer B) :
    let r := (ioWithMdts g.config (z * g.nBlocks) 0 (k * g.lba) false buf).run exec w
    (r.1.1 = 0 ↔ g.ds ≤ 18 ∧ w.media.zone z = [] ∧ (k ≤ g.nBlocks ∨ g.per ∣ g.nBlocks)) ∧
      (r.1.1 = 0 → Room w z k ∧ Spread w z buf k r.2) := by
  have htotal := g.total_lt
  have herr : commandError ≠ 0 := by decide
  intro r
  rcases Nat.lt_or_ge 18 g.ds with hds | hds
  · have hr : r = _ := ioWithMdts_write_big hds hk (z * g.nBlocks) 0 buf
    rw [hr]
    exact ⟨iff_of_false herr fun h => by omega, fun h => absurd h herr⟩
  by_cases hz : w.media.zone z = []
  · have hR : Room w z k := by
      refine ⟨hroom, fun i hi hlt => ?_⟩
      rcases Nat.eq_or_lt_of_le hi with rfl | hi
      · exact hz
      · exact hbeyond i hi hlt
    by_cases hcut : k ≤ g.nBlocks ∨ g.per ∣ g.nBlocks
    · have h := run_ioLoop_spread hds hR (by omega) hcut buf (k * g.lba / mdts + 1) 0 w
        (fuel_ge hds k) (Nat.zero_le _) (Or.inl (Nat.dvd_zero _)) (Spread.refl w z buf)
      rw [Nat.sub_zero, Nat.zero_mul, Nat.add_zero] at h
      exact ⟨iff_of_true (congrArg Prod.fst h.1) ⟨hds, hz, hcut⟩, fun _ => ⟨hR, h.2⟩⟩
    · rw [not_or] at hcut
      have h := run_ioLoop_straddle hds hR (by omega) (by omega) hcut.2 buf (k * g.lba / mdts + 1) 0 w
        (fuel_ge hds k) g.nBlocks_pos (Nat.dvd_zero _) (Spread.refl w z buf)
      rw [Nat.sub_zero, Nat.zero_mul, Nat.add_zero] at h
      refine ⟨iff_of_false h fun hc => ?_, fun h0 => absurd h0 h⟩
      exact hc.2.2.elim (fun hle => hcut.1 hle) hcut.2
  · -- the first command does not start at the write pointer
    have hnone : ∀ bs, w.media.write (z * g.nBlocks) bs = none := by
      intro bs
      rw [Media.write, dif_neg]
      rintro ⟨-, h, -⟩
      have hstart := Media.start_div (d := g.drive) z
      rw [Setup.drive_zoneSize] at hstart h
      rw [hstart, Nat.mul_mod_left] at h
      exact hz (List.length_eq_zero_iff.mp h.symm)
    have hr : r.1 = (commandError, buf) := by
      simp only [r]
      rw [ioWithMdts, ioLoop, if_pos (Nat.mul_pos hk g.lba_pos)]
      simp only [Bool.false_eq_true, if_false, Program.run_bind, run_nvmeWrite_refused (hnone _)]
      rfl
    rw [hr]
    exact ⟨iff_of_false herr fun h => hz h.2.1, fun h => absurd h herr⟩

/-- Block `i` of the request is where the medium was asked to put it. -/
lemma Spread.blockAt {z k i : ℕ} {buf : Buffer B} {s : World g.drive} (hs : Spread w z buf k s)
    (hroom : Room w z k) (hi : i < k) :
    s.media.Written (z * g.nBlocks + i) ∧ s.media.blockAt (z * g.nBlocks + i) = buf i := by
  have hn := g.nBlocks_pos
  have hdm := Nat.div_add_mod' i g.nBlocks
  have hmod := Nat.mod_lt i hn
  have haddr : z * g.nBlocks + i = (z + i / g.nBlocks) * g.nBlocks + i % g.nBlocks := by
    rw [Nat.add_mul]
    omega
  have hzone : s.media.zone (z + i / g.nBlocks)
      = buf.slice ((i / g.nBlocks * g.nBlocks : ℕ) : ℤ)
        (min g.nBlocks (k - i / g.nBlocks * g.nBlocks)) := by
    rw [hs.zone, if_pos (Nat.le_add_right _ _), hroom.2 _ (Nat.le_add_right _ _) (by
      rw [Nat.add_mul]
      omega), List.nil_append, Nat.add_sub_cancel_left]
  have hlt : i % g.nBlocks < min g.nBlocks (k - i / g.nBlocks * g.nBlocks) := by omega
  have hsum : ((i / g.nBlocks * g.nBlocks : ℕ) : ℤ) + ((i % g.nBlocks : ℕ) : ℤ) = i := by
    exact_mod_cast hdm
  rw [haddr, Setup.written_addr _ hmod, Setup.blockAt_addr _ hmod, hzone, Buffer.length_slice]
  refine ⟨hlt, ?_⟩
  rw [Buffer.slice, List.getElem?_map, List.getElem?_range hlt, Option.map_some, Option.getD_some,
    hsum]

/-! ## The body of a large write -/

/-- **The body of a write of `MDTS` or more**, with nothing in the log beyond the zone of the
cursor: exactly when it succeeds, and what it leaves then.  The cursor stays where it is. -/
theorem writeBody_spread {a k z : ℕ} (hlarge : mdts ≤ k * g.lba)
    (hroom : w.ftl.logZoneEnd + k < g.logRoom) (hz : w.ftl.logZoneEnd / g.nBlocks = z)
    (hbeyond : ∀ i, z < i → i < g.logZones → w.media.zone i = []) (buf : Buffer B) :
    let r := (writeBody g.config (a * g.lba) (k * g.lba) buf).run exec w
    (r.1 = 0 ↔ g.ds ≤ 18 ∧ w.media.zone z = [] ∧ (k ≤ g.nBlocks ∨ g.per ∣ g.nBlocks)) ∧
      (r.1 = 0 → Room w z k ∧ ∃ s, Spread w z buf k s ∧
        r.2 = entered s a k w.ftl.logZoneEnd) := by
  have hlr := g.logRoom_lt
  have hle := g.logRoom_add_le
  have hL := g.start_lt (Nat.le_of_lt g.logZones_lt)
  have hLnr := Nat.mul_le_mul_right g.nBlocks (Nat.le_of_lt g.logZones_lt)
  have hstart : z * g.nBlocks ≤ w.ftl.logZoneEnd := hz ▸ Nat.div_mul_le_self _ _
  have hzones := run_ioWithMdts_zones (w := w) (z := z) (large_pos hlarge) (by omega)
    (fun i hi hlt => hbeyond i hi (by
      refine Nat.lt_of_mul_lt_mul_right (a := g.nBlocks) ?_
      omega)) buf
  have hrun := run_writeBody_large (w := w) (a := a) hlarge (by omega) hz buf
  generalize (ioWithMdts g.config (z * g.nBlocks) 0 (k * g.lba) false buf).run exec w = t
    at hrun hzones
  intro r
  change r = _ at hrun
  by_cases ht : t.1.1 = 0
  · rw [if_pos ht] at hrun
    rw [hrun]
    obtain ⟨hR, hs⟩ := hzones.2 ht
    exact ⟨iff_of_true rfl (hzones.1.mp ht), fun _ => ⟨hR, t.2, hs, rfl⟩⟩
  · rw [if_neg ht] at hrun
    rw [hrun]
    exact ⟨iff_of_false ht fun h => ht (hzones.1.mpr h), fun h => absurd h ht⟩

/-- When the cursor is at the start of its zone, the map names the blocks where they are. -/
lemma Spread.logged {a k c : ℕ} {buf : Buffer B} {s : World g.drive}
    (hs : Spread w (c / g.nBlocks) buf k s) (hroom : Room w (c / g.nBlocks) k)
    (hc : c % g.nBlocks = 0) (hck : c + k ≤ g.logRoom) (hcap : a + k ≤ g.capacity)
    (hsize : k * g.lba < 4294967296) {i : ℕ} (hi : i < k) :
    Logged (entered s a k c) (a + i) (c + i) (buf i) := by
  have hlr := g.logRoom_lt
  have hdm := Nat.div_add_mod' c g.nBlocks
  have haddr : c / g.nBlocks * g.nBlocks + i = c + i := by omega
  obtain ⟨hwritten, hblock⟩ := hs.blockAt hroom hi
  rw [haddr] at hwritten hblock
  exact logged_entered hcap hsize hi hck hwritten hblock

end StoSys
