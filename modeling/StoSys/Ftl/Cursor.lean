import StoSys.Ftl.FaultyWrite
import StoSys.Ftl.History
import StoSys.Ftl.LargeWrite

/-!
# The cursor and the drive, over whole histories

A multi-block write leaves the cursor behind the write pointer of its zone, a large one does not
move it at all, and a large one that is refused half way leaves blocks the layer does not know of.
`Tracked` is what is true all the same: the cursor is never ahead of the drive, log zones beyond
that of the cursor are only written when that one is full, and what the log map names has been
written.
-/

namespace StoSys

open Effect HashMap Zoned CInt

variable {B : Type} {g : Setup B} {w : World g.drive}

/-! ## Commands that succeed -/

/-- What has been taken is there, and so is all that was before it in its zone. -/
lemma written_of_write {m m' : Media g.drive} {slba x : ℕ} {bs : List B}
    (h : m.write slba bs = some m') (hle : slba / g.nBlocks * g.nBlocks ≤ x)
    (hlt : x < slba + bs.length) : x / g.nBlocks = slba / g.nBlocks ∧ m'.Written x := by
  obtain ⟨-, hoff, hzone⟩ := Media.write_eq_some h
  rw [Setup.drive_zoneSize] at hoff hzone
  have hnew : (m'.zone (slba / g.nBlocks)).length = slba % g.nBlocks + bs.length := by
    rw [hzone, Function.update_self, List.length_append, hoff]
  have hcap : (m'.zone (slba / g.nBlocks)).length ≤ g.nBlocks := m'.len_le _
  have hdm := Nat.div_add_mod' slba g.nBlocks
  obtain ⟨o, rfl⟩ := Nat.exists_eq_add_of_le hle
  have ho : o < g.nBlocks := by omega
  refine ⟨Media.addr_div (d := g.drive) ho, ?_⟩
  rw [Setup.written_addr _ ho]
  omega

/-- Blocks `lo` up to `hi` have been written. -/
def Covered (w : World g.drive) (lo hi : ℕ) : Prop := ∀ x, lo ≤ x → x < hi → w.media.Written x

/-- When zone `z` is covered it is full. -/
lemma Covered.full {z hi : ℕ} (h : Covered w (z * g.nBlocks) hi)
    (hz : (z + 1) * g.nBlocks ≤ hi) : (w.media.zone z).length = g.nBlocks := by
  have hn := g.nBlocks_pos
  rw [Nat.succ_mul] at hz
  have hle : (w.media.zone z).length ≤ g.nBlocks := w.media.len_le z
  have hlast := h (z * g.nBlocks + (g.nBlocks - 1)) (by omega) (by omega)
  rw [Setup.written_addr _ (by omega)] at hlast
  omega

/-- Zones beyond `z` are as in `w`, or `z` is full. -/
def BeyondFull (w : World g.drive) (z : ℕ) (s : World g.drive) : Prop :=
  ∀ i, z < i → s.media.zone i ≠ w.media.zone i → (s.media.zone z).length = g.nBlocks

section Accepted

variable {s t : World g.drive} {z p : ℕ} {bs : List B}

/-- The blocks before those of a command stay, and its own are there. -/
lemma Covered.write (h : Covered s (z * g.nBlocks) (z * g.nBlocks + p))
    (hwrite : s.media.write (z * g.nBlocks + p) bs = some t.media) :
    Covered t (z * g.nBlocks) (z * g.nBlocks + (p + bs.length)) := by
  obtain ⟨-, -, hzone⟩ := Media.write_eq_some hwrite
  rw [Setup.drive_zoneSize] at hzone
  intro x hlo hhi
  rcases Nat.lt_or_ge x (z * g.nBlocks + p) with hold | hnew
  · have hx := h x hlo hold
    change x % g.nBlocks < (t.media.zone (x / g.nBlocks)).length
    rw [hzone]
    by_cases hxz : x / g.nBlocks = (z * g.nBlocks + p) / g.nBlocks
    · rw [hxz, Function.update_self, List.length_append, ← hxz]
      exact Nat.lt_add_right _ hx
    · rw [Function.update_of_ne hxz]
      exact hx
  · refine (written_of_write hwrite ?_ ?_).2
    · exact (Nat.div_mul_le_self _ _).trans hnew
    · omega

lemma BeyondFull.write (h : BeyondFull w z s)
    (hwrite : s.media.write (z * g.nBlocks + p) bs = some t.media)
    (hcov : Covered t (z * g.nBlocks) (z * g.nBlocks + (p + bs.length))) : BeyondFull w z t := by
  obtain ⟨-, -, hzone⟩ := Media.write_eq_some hwrite
  rw [Setup.drive_zoneSize] at hzone
  intro i hi hne
  by_cases hie : i = (z * g.nBlocks + p) / g.nBlocks
  · -- the command is beyond zone `z`, which is covered
    have hstart : (z + 1) * g.nBlocks ≤ z * g.nBlocks + p :=
      (Nat.mul_le_mul_right _ (hie ▸ hi)).trans (Nat.div_mul_le_self _ _)
    exact hcov.full (by omega)
  · have hfull := h i hi (by
      rw [hzone, Function.update_of_ne hie] at hne
      exact hne)
    have hle : (t.media.zone z).length ≤ g.nBlocks := t.media.len_le z
    by_cases hze : z = (z * g.nBlocks + p) / g.nBlocks
    · rw [hzone, ← hze, Function.update_self, List.length_append] at hle ⊢
      omega
    · rw [hzone, Function.update_of_ne hze]
      exact hfull

end Accepted

/-- **A large write in order**: what has been written is contiguous from the start of zone `z`
on. -/
lemma run_ioLoop_covers (hds : g.ds ≤ 18) {z : ℕ} (buf : Buffer B) {fuel cnt p ptr : ℕ} {b : ℤ}
    {s : World g.drive} (hfuel : cnt ≤ fuel * g.per) (hend : z * g.nBlocks + p + cnt < 4294967296)
    (hb : 0 + (ptr : ℤ) = b * g.lba) (hcov : Covered s (z * g.nBlocks) (z * g.nBlocks + p))
    (hbeyond : BeyondFull w z s) :
    let r := (ioLoop g.config 0 false fuel (cnt * g.lba) ptr (z * g.nBlocks + p) buf).run exec s
    (r.1.1 = 0 → Covered r.2 (z * g.nBlocks) (z * g.nBlocks + p + cnt)) ∧ BeyondFull w z r.2 := by
  induction fuel generalizing cnt p ptr b s with
  | zero =>
      obtain rfl : cnt = 0 := by omega
      exact ⟨fun _ => hcov, hbeyond⟩
  | succ fuel ih =>
      rcases Nat.eq_zero_or_pos cnt with rfl | hcnt
      · rw [ioLoop, Nat.zero_mul, if_neg (Nat.lt_irrefl 0)]
        exact ⟨fun _ => hcov, hbeyond⟩
      · obtain ⟨m, hm⟩ : ∃ m, m = min g.per cnt := ⟨_, rfl⟩
        have hstep := ioLoop_write_step hds hm hcnt 0 b fuel ptr (z * g.nBlocks + p) hb (by omega) buf
        have hcases := run_nvmeWrite_cases (z * g.nBlocks + p) ((m - 1 : ℕ) : ℤ)
          ((m * g.lba : ℕ) : ℤ) (b * g.lba) (buf.slice b m) s
        intro r
        simp only [r, hstep, Program.run_bind, Program.run_ite]
        generalize (nvmeWrite (z * g.nBlocks + p) ((m - 1 : ℕ) : ℤ) ((m * g.lba : ℕ) : ℤ)
          (b * g.lba) (buf.slice b m) : Prog B ℤ).run exec s = t at hcases ⊢
        rcases hcases with rfl | ⟨hret, hwrite, -⟩
        · simp only [show (commandError : ℤ) ≠ 0 by decide, ne_eq, not_false_eq_true, if_true,
            Program.run_pure]
          exact ⟨fun h => absurd h (by decide), hbeyond⟩
        · simp only [hret, ne_eq, not_true_eq_false, if_false]
          have hmc : m ≤ cnt := by omega
          have hcov' := hcov.write hwrite
          have hbeyond' := hbeyond.write hwrite hcov'
          rw [Buffer.length_slice] at hcov'
          have hrest := @ih (cnt - m) (p + m) (ptr + m * g.lba) (b + m) t.2
            (by rw [Nat.succ_mul] at hfuel; omega) (by omega)
            (next_base hb m) hcov' hbeyond'
          have hend' : z * g.nBlocks + (p + m) + (cnt - m) = z * g.nBlocks + p + cnt := by omega
          rw [hend', ← Nat.add_assoc] at hrest
          exact hrest

/-- **The whole of one transfer** from the start of a zone. -/
lemma ioWithMdts_covers (hds : g.ds ≤ 18) {z k : ℕ} (hend : z * g.nBlocks + k < 4294967296)
    (buf : Buffer B) :
    let r := (ioWithMdts g.config (z * g.nBlocks) 0 (k * g.lba) false buf).run exec w
    (r.1.1 = 0 → Covered r.2 (z * g.nBlocks) (z * g.nBlocks + k)) ∧ BeyondFull w z r.2 :=
  run_ioLoop_covers hds buf (p := 0) (b := 0) (fuel_ge hds k) hend (by simp)
    (fun x hlo hhi => by omega) fun i _ hne => absurd rfl hne

/-! ## What is true throughout -/

/-- **The cursor and the drive.** -/
structure Tracked (g : Setup B) (w : World g.drive) : Prop where
  inv : Inv g w
  behind : ∀ i < g.logZones,
    min g.nBlocks (w.ftl.logZoneEnd - i * g.nBlocks) ≤ (w.media.zone i).length
  ahead : ∀ i, w.ftl.logZoneEnd / g.nBlocks < i → i < g.logZones → w.media.zone i ≠ [] →
    (w.media.zone (w.ftl.logZoneEnd / g.nBlocks)).length = g.nBlocks
  written : ∀ {q y : ℕ}, w.ftl.logZoneMapping.lookup ((q * g.lba : ℕ) : ℤ) = some (y : ℤ) →
    w.media.Written y
  still : 18 ≤ g.ds → w.ftl.logZoneEnd = 0
  unmapped : 18 < g.ds → ∀ v, w.ftl.dataZoneMapping.lookup v = none

lemma tracked_fresh (g : Setup B) : Tracked g (fresh g) where
  inv := inv_fresh g
  behind i _ := by
    change min g.nBlocks (0 - i * g.nBlocks) ≤ 0
    omega
  ahead i _ _ hne := absurd rfl hne
  written h := by simp [fresh, Ftl.fresh] at h
  still _ := rfl
  unmapped _ v := by simp [fresh, Ftl.fresh]

lemma Tracked.setFlags (h : Tracked g w) (mutex trigger : Bool) :
    Tracked g ⟨{ w.ftl with gcMutex := mutex, triggerMyGc := trigger }, w.media⟩ :=
  ⟨h.inv.setFlags rfl rfl, h.behind, h.ahead, h.written, h.still, h.unmapped⟩

/-- Where the cursor's zone is as far as the cursor says, the whole log is. -/
lemma Tracked.atCursor (h : Tracked g w)
    (hat : (w.media.zone (w.ftl.logZoneEnd / g.nBlocks)).length = w.ftl.logZoneEnd % g.nBlocks) :
    AtCursor g w := by
  intro i hi
  have hn := g.nBlocks_pos
  have hle : (w.media.zone i).length ≤ g.nBlocks := w.media.len_le i
  have hmod := Nat.mod_lt w.ftl.logZoneEnd hn
  have hdm := Nat.div_add_mod' w.ftl.logZoneEnd g.nBlocks
  have hbehind := h.behind i hi
  rcases Nat.lt_trichotomy i (w.ftl.logZoneEnd / g.nBlocks) with hlt | heq | hgt
  · have := (Nat.mul_le_mul_right g.nBlocks (Nat.succ_le_of_lt hlt)).trans
      (Nat.div_mul_le_self w.ftl.logZoneEnd g.nBlocks)
    rw [Nat.succ_mul] at this
    omega
  · rw [heq, hat]
    omega
  · have hempty : w.media.zone i = [] := by
      by_contra hne
      have := h.ahead i hgt hi hne
      omega
    have := (Nat.div_lt_iff_lt_mul hn).mp hgt
    rw [hempty, List.length_nil]
    omega

section Body

variable {a k : ℕ}

/-- Growing in order from the zone of the cursor on. -/
lemma Tracked.extends (h : Tracked g w) {s : World g.drive} (hs : Extends w s) (hI : Inv g s)
    (hbeyond : BeyondFull w (w.ftl.logZoneEnd / g.nBlocks) s) : Tracked g s := by
  refine ⟨hI, fun i hi => ?_, fun i hlt hiL hne => ?_, fun hlook => ?_, fun hds => ?_, fun hds v => ?_⟩
  · rw [hs.ftl]
    exact (h.behind i hi).trans (hs.grows i).length_le
  · rw [hs.ftl] at hlt ⊢
    by_cases heq : s.media.zone i = w.media.zone i
    · rw [heq] at hne
      exact hs.full (h.ahead i hlt hiL hne)
    · exact hbeyond i hlt heq
  · rw [hs.ftl] at hlook
    exact (hs.blockAt (h.written hlook)).1
  · rw [hs.ftl]
    exact h.still hds
  · rw [hs.ftl]
    exact h.unmapped hds v

/-- Entering blocks that have been written. -/
lemma Tracked.entered {c : ℕ} (h : Tracked g w) (hI : Inv g (StoSys.entered w a k c))
    (hc : c < 2147483648) (hcap : a + k ≤ g.capacity) (hsize : k * g.lba < 4294967296)
    (hck : c + k < 4294967296) (hcov : Covered w c (c + k)) :
    Tracked g (StoSys.entered w a k c) := by
  refine ⟨hI, h.behind, h.ahead, fun {q y} hlook => ?_, h.still, h.unmapped⟩
  have hmap := lookup_mapBlocks_user hc w.ftl.logZoneMapping hcap hsize hck q
  change (mapBlocks g.config (a * g.lba) c k w.ftl.logZoneMapping).lookup _ = _ at hlook
  rw [hlook] at hmap
  split at hmap
  · rename_i hq
    obtain rfl : y = c + (q - a) := by exact_mod_cast Option.some.inj hmap
    exact hcov _ (by omega) (by omega)
  · exact h.written hmap.symm

/-- An append: the cursor comes to lie after the first block of it. -/
lemma Tracked.append (h : Tracked g w) {z : ℕ} (hz : w.ftl.logZoneEnd / g.nBlocks = z)
    (hroom : w.ftl.logZoneEnd < g.logRoom) (hds : g.ds < 18) {bs : List B} (hbs : 0 < bs.length)
    (hcap : (w.media.zone z ++ bs).length ≤ g.drive.zoneCap) :
    Tracked g ⟨{ w.ftl with logZoneEnd := z * g.nBlocks + (w.media.zone z).length + 1 },
      w.media.setZone z (w.media.zone z ++ bs) hcap⟩ := by
  have hn := g.nBlocks_pos
  have hzend := zone_end_le hroom hz
  have hle := g.logRoom_add_le
  have hgrew := grew_append (w := w) z bs hcap
  have hcap' : (w.media.zone z).length + bs.length ≤ g.nBlocks := by
    rw [← List.length_append]
    exact hcap
  have hI := (h.inv.grow hgrew (by omega)).setEnd
    (show z * g.nBlocks + (w.media.zone z).length + 1 ≤ g.logRoom by omega)
  have hzone := fun i => Media.setZone_zone w.media z i (w.media.zone z ++ bs) hcap
  refine ⟨hI, fun i hi => ?_, fun i hlt hiL hne => ?_, fun hlook => ?_, fun h => by omega,
    fun hds => by omega⟩
  · change min g.nBlocks (z * g.nBlocks + (w.media.zone z).length + 1 - i * g.nBlocks) ≤
      ((w.media.setZone z (w.media.zone z ++ bs) hcap).zone i).length
    rw [hzone]
    have hbehind := h.behind i hi
    rcases Nat.lt_trichotomy i z with hlt | rfl | hgt
    · have hfull := (Nat.mul_le_mul_right g.nBlocks (Nat.succ_le_of_lt hlt)).trans
        (hz ▸ Nat.div_mul_le_self w.ftl.logZoneEnd g.nBlocks)
      rw [Nat.succ_mul] at hfull
      rw [if_neg (Nat.ne_of_lt hlt)]
      omega
    · rw [if_pos rfl, List.length_append]
      omega
    · have := Nat.mul_le_mul_right g.nBlocks (Nat.succ_le_of_lt hgt)
      rw [Nat.succ_mul] at this
      rw [if_neg (Nat.ne_of_gt hgt)]
      omega
  · -- a zone beyond would mean that the zone of the cursor was full
    have hzi : z < i := by
      refine Nat.lt_of_le_of_lt ?_ hlt
      rw [Nat.le_div_iff_mul_le hn]
      change z * g.nBlocks ≤ z * g.nBlocks + (w.media.zone z).length + 1
      omega
    change (w.media.setZone z (w.media.zone z ++ bs) hcap).zone i ≠ [] at hne
    rw [hzone, if_neg (Nat.ne_of_gt hzi)] at hne
    have hfull := h.ahead i (hz ▸ hzi) hiL hne
    rw [hz] at hfull
    omega
  · exact (hgrew.blockAt (h.written hlook)).1

/-- An append in the body of a write, or none. -/
lemma Tracked.writeBody_small (h : Tracked g w) (hcap : a + k ≤ g.capacity)
    (hsmall : k * g.lba < mdts) (hpass : w.ftl.logZoneEnd + k < g.logRoom ∨ g.nBlocks < k)
    (buf : Buffer B) :
    Tracked g ((StoSys.writeBody g.config (a * g.lba) (k * g.lba) buf).run exec w).2 := by
  have hmdts : mdts = 262144 := rfl
  have hsize : k * g.lba < 4294967296 := by omega
  have hI := (h.inv.writeBody (a := a) hcap hsize (hpass.imp_right fun hn => ⟨hsmall, hn⟩) buf).1
  have hlr := g.logRoom_lt
  have hend := h.inv.end_le
  have hc : w.ftl.logZoneEnd < 2147483648 := by omega
  have hle := g.logRoom_add_le
  have hdm := Nat.div_add_mod' w.ftl.logZoneEnd g.nBlocks
  obtain ⟨z, hz⟩ : ∃ z, w.ftl.logZoneEnd / g.nBlocks = z := ⟨_, rfl⟩
  have hzL : z < g.logZones := hz ▸ g.cursor_zone_lt hend
  have hznr := hzL.trans g.logZones_lt
  rw [hz] at hdm
  have hbehind := h.behind z hzL
  by_cases hfits : 0 < k ∧ (w.media.zone z).length + k ≤ g.nBlocks
  · have hlen := Buffer.length_slice buf 0 k
    have hfits' : (w.media.zone z).length + (buf.slice 0 k).length ≤ g.nBlocks := by omega
    have hcap' : (w.media.zone z ++ buf.slice 0 k).length ≤ g.drive.zoneCap := by
      rw [List.length_append]
      exact hfits'
    have hds := ds_lt_of_small hfits.1 hsmall
    have happend := h.append hz (by omega) hds (by omega) hcap'
    rw [run_writeBody_append hfits.1 hsmall hc hz hznr buf hfits'] at hI ⊢
    refine happend.entered hI hc hcap hsize (by omega) fun x hlo hhi => ?_
    obtain ⟨o, rfl⟩ := Nat.exists_eq_add_of_le (show z * g.nBlocks ≤ x by omega)
    rw [Setup.written_addr _ (by omega)]
    change o < ((w.media.setZone z (w.media.zone z ++ buf.slice 0 k) hcap').zone z).length
    rw [Media.setZone_zone, if_pos rfl, List.length_append]
    omega
  · rw [run_writeBody_append_refused hsmall hc hz (by omega)]
    exact h

/-- A transfer that the drive takes starts at the cursor. -/
lemma Tracked.start_of_write (h : Tracked g w) {z : ℕ} (hz : w.ftl.logZoneEnd / g.nBlocks = z)
    (hk : 0 < k) (buf : Buffer B)
    (hret : ((ioWithMdts g.config (z * g.nBlocks) 0 (k * g.lba) false buf).run exec w).1.1 = 0) :
    z * g.nBlocks = w.ftl.logZoneEnd := by
  have hbehind := h.behind z (hz ▸ g.cursor_zone_lt h.inv.end_le)
  have hdm := Nat.div_add_mod' w.ftl.logZoneEnd g.nBlocks
  have hn := g.nBlocks_pos
  rw [hz] at hdm
  by_contra hne
  have hzone : w.media.zone z ≠ [] := by
    intro hempty
    rw [hempty, List.length_nil] at hbehind
    omega
  rw [ioWithMdts_write_refused (Nat.mul_pos hk g.lba_pos) (write_start_none hzone)] at hret
  exact absurd hret (show ¬ commandError = 0 by decide)

/-- A write from the start of the zone of the cursor on, in the body of a write. -/
lemma Tracked.writeBody_large (h : Tracked g w) (hcap : a + k ≤ g.capacity)
    (hsize : k * g.lba < 4294967296) (hlarge : mdts ≤ k * g.lba)
    (hroom : w.ftl.logZoneEnd + k < g.logRoom) (buf : Buffer B) :
    Tracked g ((StoSys.writeBody g.config (a * g.lba) (k * g.lba) buf).run exec w).2 := by
  have hI := (h.inv.writeBody (a := a) hcap hsize (Or.inl hroom) buf).1
  have hlr := g.logRoom_lt
  have hle := g.logRoom_add_le
  have hc : w.ftl.logZoneEnd < 2147483648 := by omega
  have hdm := Nat.div_add_mod' w.ftl.logZoneEnd g.nBlocks
  have hk := large_pos hlarge
  obtain ⟨z, hz⟩ : ∃ z, w.ftl.logZoneEnd / g.nBlocks = z := ⟨_, rfl⟩
  rw [hz] at hdm
  have hrun := run_writeBody_large (w := w) (a := a) hlarge hc hz buf
  rcases Nat.lt_or_ge 18 g.ds with hds | hds
  · rw [ioWithMdts_write_big hds hk] at hrun
    rw [hrun, if_neg (show ¬ commandError = 0 by decide)]
    exact h
  · obtain ⟨hcov, hbeyond⟩ := ioWithMdts_covers (w := w) (z := z) (k := k) hds (by omega) buf
    have hgrew := ioWithMdts_write_grew (w := w) hds (show z * g.nBlocks + k < _ by omega) buf
    have hstart := h.start_of_write hz hk buf
    dsimp only at hrun
    generalize (ioWithMdts g.config (z * g.nBlocks) 0 (k * g.lba) false buf).run exec w = r
      at hrun hcov hbeyond hgrew hstart
    have hgrown := h.extends hgrew.extends (h.inv.grow hgrew (by omega)) (by rw [hz]; exact hbeyond)
    rw [hrun] at hI ⊢
    split at hI
    · rename_i hret
      rw [if_pos hret]
      refine hgrown.entered hI hc hcap hsize (by omega) fun x hlo hhi => ?_
      have := hstart hret
      exact hcov hret x (by omega) (by omega)
    · rename_i hret
      rw [if_neg hret]
      exact hgrown

/-- **The body of a write.** -/
lemma Tracked.writeBody (h : Tracked g w) (hcap : a + k ≤ g.capacity)
    (hsize : k * g.lba < 4294967296)
    (hpass : w.ftl.logZoneEnd + k < g.logRoom ∨ k * g.lba < mdts ∧ g.nBlocks < k)
    (buf : Buffer B) :
    Tracked g ((StoSys.writeBody g.config (a * g.lba) (k * g.lba) buf).run exec w).2 := by
  rcases Nat.lt_or_ge (k * g.lba) mdts with hsmall | hlarge
  · exact h.writeBody_small hcap hsmall (hpass.imp_right And.right) buf
  · exact h.writeBody_large hcap hsize hlarge (hpass.resolve_right fun h => by omega) buf

end Body

section Runs

variable [Zero B] {a k : ℕ}

lemma Tracked.pass (h : Tracked g w) (ord : HashOrder) :
    Tracked g ((triggerGc g.config ord : Prog B Unit).run exec w).2 := by
  obtain ⟨hcol, hI, hclear, -⟩ := h.inv.pass ord
  refine ⟨hI, fun i hi => ?_, fun i _ hi hne => ?_, fun hlook => ?_, fun _ => hclear.ends,
    fun hds v => ?_⟩
  · rw [hclear.ends]
    omega
  · exact absurd (hclear.zone i hi) hne
  · rw [hclear.log, AList.lookup_empty] at hlook
    cases hlook
  · have hnil : passSets g ord w.ftl = [] := passSets_nil (h.inv.big hds)
    rw [(hcol.others v (by rw [hnil]; exact List.not_mem_nil)).lookup]
    exact h.unmapped hds v

lemma Tracked.collect (h : Tracked g w) (ord : HashOrder) : Tracked g (StoSys.collect ord w) :=
  (h.setFlags w.ftl.gcMutex true).pass ord

/-- A write of any size inside the user's address space, unless it is of `MDTS` or more and so large
that the watermark test wraps. -/
theorem Tracked.write (h : Tracked g w) (hcap : a + k ≤ g.capacity)
    (hsize : k * g.lba < 4294967296)
    (hwrap : k * g.lba < mdts ∨ w.ftl.logZoneEnd + k < (g.logZones + 1) * g.nBlocks)
    (passes : List HashOrder) (buf : Buffer B) :
    Tracked g ((znsUdeviceWrite g.config passes (a * g.lba) (k * g.lba) buf).run exec w).2 := by
  have hn := g.nBlocks_pos
  have hle := g.logRoom_add_le
  have hlr := g.logRoom_lt
  have hk := blocks_lt hsize
  have hL : (g.logZones + 1) * g.nBlocks = g.logZones * g.nBlocks + g.nBlocks := Nat.succ_mul _ _
  obtain ⟨⟨hT, hend⟩, hleft⟩ := watermarkLoop_rule
    (P := fun s => Tracked g s ∧ s.ftl.logZoneEnd ≤ w.ftl.logZoneEnd) (k := k)
    (fun ord s hs _ => by
      obtain ⟨-, -, hclear, -⟩ := hs.1.inv.collect ord
      exact ⟨hs.1.collect ord, hclear.ends ▸ Nat.zero_le _⟩)
    passes (locked w) ⟨h.setFlags true w.ftl.triggerMyGc, Nat.le_refl _⟩
  refine run_write_rule (Q := fun r => Tracked g r.2) rfl h ⟨hT, fun hl => ?_⟩
  have hle' := hT.inv.end_le
  have hpass := (watermark_lt_iff hT.inv.start (by omega)).mp (hleft hl)
  exact hT.writeBody hcap hsize (by omega) buf

/-- Such a write. -/
def Contained (g : Setup B) (w : World g.drive) (address k : ℕ) : Prop :=
  k * g.lba < 4294967296 ∧ (∃ a, address = a * g.lba ∧ a + k ≤ g.capacity) ∧
    (k * g.lba < mdts ∨ w.ftl.logZoneEnd + k < (g.logZones + 1) * g.nBlocks)

/-- **Histories keep track.** -/
theorem History.tracked {c : Config} (h : History g (Contained g) c w) : Tracked g w := by
  refine h.rule (tracked_fresh g) ?_ fun hw ord => hw.pass ord
  rintro w address k hw ⟨hsize, ⟨a, rfl, hcap⟩, hwrap⟩ passes buf
  exact hw.write hcap hsize hwrap passes buf

end Runs

end StoSys
