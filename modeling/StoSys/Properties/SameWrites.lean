import StoSys.Ftl.FileDevice
import StoSys.Ftl.History
import StoSys.Lib.Transitions
import StoSys.Properties.ReadYourWrites

/-!
# Writes that the file-backed device would reject

The two implementations of `zns_udevice_write` share an interface and not their checks.  That of the
file tests address, size and range.  That of the drive tests whether the size is a multiple of the
block size; a request that is not `Acceptable` for another reason takes the mutex, may wait for
passes, and is stored if the drive lets it (`CursorIn.rejected_iff`).  What is entered in the log
map then is an address that no block has, and the pass that finds it there merges a virtual zone
beyond the data zones.

As long as all such requests happen to be turned away, the log map only holds blocks of the user's
range (`Sound`).
-/

namespace StoSys

open Effect HashMap Zoned CInt Transitions

variable {B : Type} {g : Setup B} {w : World g.drive} {address size k : ℕ}

/-! ## The first command -/

/-- **The drive refuses the first command** of a request of `k` blocks: it appends nothing, or more
than the zone of the cursor has room for; or it writes to the start of a zone that is not empty,
more than a zone holds, or a fraction of a block. -/
def FirstRefused (g : Setup B) (w : World g.drive) (k : ℕ) : Prop :=
  let written := (w.media.zone (w.ftl.logZoneEnd / g.nBlocks)).length
  if k * g.lba < mdts then k = 0 ∨ g.nBlocks < written + k
  else 18 < g.ds ∨ 0 < written ∨ g.nBlocks < min g.per k

instance (k : ℕ) : Decidable (FirstRefused g w k) :=
  inferInstanceAs (Decidable (if k * g.lba < mdts then _ ∨ _ else _ ∨ _ ∨ _))

/-- A large request fails and leaves the medium as it is exactly when its first command is
refused. -/
lemma ioWithMdts_unchanged_iff {z : ℕ} (hk : 0 < k) (hz : z < g.nrZones)
    (hend : z * g.nBlocks + k < 4294967296) (buf : Buffer B) :
    let r := (ioWithMdts g.config (z * g.nBlocks) 0 (k * g.lba) false buf).run exec w
    (r.1.1 ≠ 0 ∧ r.2.media = w.media) ↔
      18 < g.ds ∨ 0 < (w.media.zone z).length ∨ g.nBlocks < min g.per k := by
  have herr : commandError ≠ 0 := by decide
  rcases Nat.lt_or_ge 18 g.ds with hds | hds
  · rw [ioWithMdts_write_big hds hk]
    exact iff_of_true ⟨herr, rfl⟩ (Or.inl hds)
  rcases Nat.eq_zero_or_pos (w.media.zone z).length with hempty | hne
  swap
  · rw [ioWithMdts_write_refused (Nat.mul_pos hk g.lba_pos)
      (write_start_none (List.length_pos_iff.mp hne))]
    exact iff_of_true ⟨herr, rfl⟩ (Or.inr (Or.inl hne))
  obtain ⟨m, hm⟩ : ∃ m, m = min g.per k := ⟨_, rfl⟩
  obtain ⟨hm0, hmk, hm16, -⟩ := command_bounds hds hm hk
  have hslice := Buffer.length_slice buf 0 m
  have hstep := ioLoop_write_step hds hm hk 0 0 (k * g.lba / mdts) 0 (z * g.nBlocks) (by simp)
    (by omega) buf
  rw [← hm]
  rcases Nat.lt_or_ge g.nBlocks m with hlong | hfits
  · -- the command is longer than a zone
    have hnone : w.media.write (z * g.nBlocks) (buf.slice 0 m) = none := by
      have hdiv : z * g.nBlocks / g.drive.zoneSize = z := Media.start_div (d := g.drive) z
      rw [Media.write, dif_neg]
      rintro ⟨-, -, h⟩
      rw [hdiv, hslice, Setup.drive_zoneCap] at h
      omega
    intro r
    have hr : r = ((commandError, buf), w) := by
      simp only [r, ioWithMdts, hstep, Program.run_bind, run_nvmeWrite_refused hnone, ne_eq, herr,
        not_false_eq_true, if_true, Program.run_pure]
    rw [hr]
    exact iff_of_true ⟨herr, rfl⟩ (Or.inr (Or.inr hlong))
  · -- it is stored, and whatever follows only adds to the zone
    have hcmd := run_nvmeWrite (w := w) hz hm0 (by omega) hm16 (0 * g.lba) hslice
    intro r
    generalize hw₁ : World.mk w.ftl (w.media.setZone z _ _) = w₁ at hcmd
    rw [hempty, Nat.add_zero] at hcmd
    have hlen₁ : (w₁.media.zone z).length = m := by
      rw [← hw₁, Media.setZone_zone_self, List.length_append, hempty, hslice, Nat.zero_add]
    have hgrew := (ioLoop_write_grew hds 0 (k * g.lba / mdts) (k - m) (0 + m * g.lba)
      (z * g.nBlocks + m) m buf w₁ (by omega) (by simp)).last
    have hr : r = (ioLoop g.config 0 false (k * g.lba / mdts) ((k - m) * g.lba) (0 + m * g.lba)
        (z * g.nBlocks + m) buf).run exec w₁ := by
      simp only [r, ioWithMdts, hstep, Program.run_bind, hcmd, ne_eq, not_true_eq_false, if_false]
    rw [← hr] at hgrew
    refine iff_of_false (fun h => ?_) fun h => by omega
    have hle := (hgrew.grows z).length_le
    rw [h.2] at hle
    omega

/-! ## The body of a write -/

/-- A body that fails has not touched the memory; one that succeeds has entered its blocks. -/
lemma writeBody_log (c : Config) (address size : ℕ) (buf : Buffer B) (w : World g.drive) :
    let r := (writeBody c address size buf).run exec w
    r.1 ≠ 0 ∧ r.2.ftl = w.ftl ∨
      r.1 = 0 ∧ r.2.ftl.logZoneMapping = mapBlocks c address (toI32 w.ftl.logZoneEnd)
        (size / c.lbaSizeBytes) w.ftl.logZoneMapping := by
  have hfinish : ∀ f : UMap ℤ → UMap ℤ, Program.Triple exec
      (fun s : World g.drive => s.ftl.logZoneMapping = w.ftl.logZoneMapping) (do
        modifyFtl fun m => { m with logZoneMapping := f m.logZoneMapping }
        modifyFtl fun m => { m with gcMutex := false }
        pure 0 : Prog B ℤ)
      fun r s => r ≠ 0 ∧ s.ftl = w.ftl ∨
        r = 0 ∧ s.ftl.logZoneMapping = f w.ftl.logZoneMapping := by
    intro f s hs
    refine Or.inr ⟨rfl, ?_⟩
    simp only [Program.run_bind, run_modifyFtl, Program.run_pure, hs]
  suffices h : Program.Triple exec (fun s : World g.drive => s.ftl = w.ftl)
      (writeBody c address size buf) fun r s => r ≠ 0 ∧ s.ftl = w.ftl ∨
        r = 0 ∧ s.ftl.logZoneMapping = mapBlocks c address (toI32 w.ftl.logZoneEnd)
          (size / c.lbaSizeBytes) w.ftl.logZoneMapping from h w rfl
  refine .bind (R := fun m s => m = w.ftl ∧ s.ftl = w.ftl) (fun s hs => ⟨hs, hs⟩) fun m => ?_
  by_cases hm : m = w.ftl
  swap
  · exact fun s hs => absurd hs.1 hm
  subst hm
  refine .ite (fun _ => ?_) fun _ => ?_
  · refine .bind (R := fun _ s => s.ftl = w.ftl) (fun s hs => ?_) fun r => ?_
    · exact (Keeps.perform faithful_exec (P := (· = w.ftl)) rfl) s hs.2
    · refine .ite (fun hr => .pure fun s hs => Or.inl ⟨hr, hs⟩) fun _ => ?_
      exact .bind (fun s hs => congrArg Ftl.logZoneMapping hs) fun _ => hfinish _
  · refine .bind (R := fun _ s => s.ftl = w.ftl) (fun s hs => ?_) fun r => ?_
    · exact Keeps.ioLoop faithful_exec (P := (· = w.ftl)) c 0 false _ _ _ _ _ s hs.2
    · refine .ite (fun hr => .pure fun s hs => Or.inl ⟨hr, hs⟩) fun _ s hs => ?_
      exact hfinish _ s (congrArg Ftl.logZoneMapping hs)

/-- **A body leaves everything as it is** when the first command is refused, and only then. -/
lemma writeBody_unchanged_iff (hend : w.ftl.logZoneEnd ≤ g.logRoom)
    (hsize : k * g.lba < 4294967296) (address : ℕ) (buf : Buffer B) :
    let r := (writeBody g.config address (k * g.lba) buf).run exec w
    (r.1 ≠ 0 ∧ r.2.media = w.media) ↔ FirstRefused g w k := by
  have hlr := g.logRoom_lt
  have hle := g.logRoom_add_le
  have hn := g.nBlocks_pos
  have hc : w.ftl.logZoneEnd < 2147483648 := by omega
  have hk := blocks_lt hsize
  obtain ⟨z, hz⟩ : ∃ z, w.ftl.logZoneEnd / g.nBlocks = z := ⟨_, rfl⟩
  have hstart : z * g.nBlocks ≤ w.ftl.logZoneEnd := hz ▸ Nat.div_mul_le_self _ _
  have hznr : z < g.nrZones := hz ▸ Nat.lt_trans (g.cursor_zone_lt hend) g.logZones_lt
  -- the address does not matter
  obtain ⟨hret, hmedia, -⟩ := writeBody_address g.config address (0 * g.lba) (k * g.lba) buf w
  intro r
  rw [hret, hmedia, FirstRefused, hz]
  split
  · rename_i hsmall
    by_cases hroom : k = 0 ∨ g.nBlocks < (w.media.zone z).length + k
    · rw [run_writeBody_append_refused hsmall hc hz hroom]
      exact iff_of_true ⟨show commandError ≠ 0 by decide, rfl⟩ hroom
    · rw [run_writeBody_append (by omega) hsmall hc hz hznr buf (by
        rw [Buffer.length_slice]
        omega)]
      exact iff_of_false (fun h => h.1 rfl) hroom
  · rename_i hlarge
    have hlarge := Nat.not_lt.mp hlarge
    have hio := ioWithMdts_unchanged_iff (w := w) (large_pos hlarge) hznr (by omega) buf
    dsimp only at hio
    rw [← hio, run_writeBody_large hlarge hc hz buf]
    split
    · rename_i hzero
      exact iff_of_false (fun h => h.1 rfl) fun h => h.1 hzero
    · exact Iff.rfl

/-! ## The whole call -/

/-- The part of the log the cursor may be in. -/
structure CursorIn (g : Setup B) (w : World g.drive) : Prop where
  start : w.ftl.logZoneStart = 0
  end_le : w.ftl.logZoneEnd ≤ g.logRoom

variable [Zero B]

/-- A call that has waited finds the cursor at zero, and has not found it there before. -/
lemma cursor_after_waiting (hstart : w.ftl.logZoneStart = 0)
    (hfull : freeZoneNumber g.config w.ftl (toI32 k) ≤ g.gcWmark) (passes : List HashOrder) :
    let l := (watermarkLoop g.config k passes : Prog B Bool).run exec (locked w)
    l.1 = true → l.2.ftl.logZoneEnd = 0 ∧ w.ftl.logZoneEnd ≠ 0 := by
  intro l hl
  cases passes with
  | nil =>
      have hrun : l = (false, locked w) := run_watermarkLoop_nil (w := locked w) hfull
      rw [hrun] at hl
      cases hl
  | cons ord rest =>
      have hrun : l = _ := run_watermarkLoop_pass (w := locked w) hfull ord rest
      obtain ⟨hstart₁, hend₁, -⟩ := triggerGc_clears (c := g.config) (w := asked (locked w)) hstart ord
      obtain ⟨⟨hstart', hend'⟩, hleft⟩ := watermarkLoop_rule (k := k)
        (P := fun s : World g.drive => s.ftl.logZoneStart = 0 ∧ s.ftl.logZoneEnd = 0)
        (fun ord s hs _ => by
          obtain ⟨h₁, h₂, -⟩ := triggerGc_clears (c := g.config) (w := asked s) hs.1 ord
          exact ⟨h₁, h₂⟩) rest (collect ord (locked w)) ⟨hstart₁, hend₁⟩
      rw [← hrun] at hstart' hend' hleft
      refine ⟨hend', fun hzero => ?_⟩
      have hsame : freeZoneNumber g.config l.2.ftl (toI32 k)
          = freeZoneNumber g.config w.ftl (toI32 k) := by
        rw [freeZoneNumber, freeZoneNumber, hstart', hend', hstart, hzero]
      have := hleft hl
      omega

/-- The call returns an error, and leaves the log map, the cursor and the device as they are. -/
def Rejected (g : Setup B) (w : World g.drive) (passes : List HashOrder) (address size : ℕ)
    (buf : Buffer B) : Prop :=
  let r := (znsUdeviceWrite g.config passes address size buf).run exec w
  (∃ e, r.1 = some e ∧ e ≠ 0) ∧ r.2.ftl.logZoneMapping = w.ftl.logZoneMapping ∧
    r.2.ftl.logZoneEnd = w.ftl.logZoneEnd ∧ r.2.media = w.media

/-- **A request is turned away** for its size, or by the drive: the mutex is free, the watermark
lets it through at once, and its first command is refused. -/
def TurnedAway (g : Setup B) (w : World g.drive) (size : ℕ) : Prop :=
  size % g.lba ≠ 0 ∨ w.ftl.gcMutex = false ∧
    g.gcWmark < freeZoneNumber g.config w.ftl (toI32 (size / g.lba : ℕ)) ∧
    FirstRefused g w (size / g.lba)

/-- **When a write is rejected.**  The address has no part in it. -/
theorem CursorIn.rejected_iff (h : CursorIn g w) (hsize : size < 4294967296)
    (passes : List HashOrder) (address : ℕ) (buf : Buffer B) :
    Rejected g w passes address size buf ↔ TurnedAway g w size := by
  by_cases halign : size % g.lba = 0
  swap
  · rw [Rejected, znsUdeviceWrite, Setup.config_lbaSizeBytes, if_pos halign]
    exact iff_of_true ⟨⟨-1, rfl, by decide⟩, rfl, rfl, rfl⟩ (Or.inl halign)
  obtain ⟨k, rfl⟩ := Nat.dvd_of_mod_eq_zero halign
  rw [Nat.mul_comm g.lba k] at hsize halign ⊢
  rw [TurnedAway, Nat.mul_div_cancel _ g.lba_pos, Rejected]
  cases hm : w.ftl.gcMutex with
  | true =>
      rw [run_write_blocked passes hm]
      refine iff_of_false ?_ ?_
      · rintro ⟨⟨e, he, -⟩, -⟩
        cases he
      · rintro (hsz | ⟨hfree, -⟩)
        · exact hsz halign
        · cases hfree
  | false =>
      have hrun := run_write (a := address) (k := k) passes hm buf
      dsimp only at hrun
      by_cases hpass : g.gcWmark < freeZoneNumber g.config w.ftl (toI32 k)
      · have hleft := run_watermarkLoop_left (w := locked w) hpass passes
        have hbody := writeBody_unchanged_iff (w := locked w) h.end_le hsize address buf
        have hlog := writeBody_log g.config address (k * g.lba) buf (locked w)
        rw [hleft, if_pos rfl] at hrun
        rw [hrun]
        dsimp only at hbody hlog ⊢
        constructor
        · rintro ⟨⟨e, he, hne⟩, -, -, hmedia⟩
          cases he
          exact Or.inr ⟨rfl, hpass, hbody.mp ⟨hne, hmedia⟩⟩
        · rintro (hsz | ⟨-, -, hrefused⟩)
          · exact absurd halign hsz
          · obtain ⟨hne, hmedia⟩ := hbody.mpr hrefused
            obtain ⟨-, hftl⟩ := hlog.resolve_right fun h => hne h.1
            refine ⟨⟨_, rfl, hne⟩, ?_, ?_, hmedia⟩
            · rw [hftl]
              rfl
            · rw [hftl]
              rfl
      · -- the call waits, and a pass moves the cursor
        have hwaited := cursor_after_waiting h.start (Nat.not_lt.mp hpass) passes
        rw [hrun]
        dsimp only at hwaited ⊢
        refine iff_of_false ?_ ?_
        · split
          · rename_i hl
            obtain ⟨hzero, hne⟩ := hwaited hl
            rintro ⟨⟨e, he, hret⟩, -, hend, -⟩
            cases he
            obtain ⟨-, hftl⟩ := (writeBody_log g.config address (k * g.lba) buf _).resolve_right
              fun h => hret h.1
            rw [hftl, hzero] at hend
            exact hne hend.symm
          · rintro ⟨⟨e, he, -⟩, -⟩
            cases he
        · rintro (hsz | ⟨-, hthrough, -⟩)
          · exact hsz halign
          · exact hpass hthrough

/-! ## Where the cursor can be -/

omit [Zero B] in
lemma CursorIn.writeBody (h : CursorIn g w) (hsize : k * g.lba < 4294967296)
    (hpass : g.gcWmark < freeZoneNumber g.config w.ftl (toI32 k)) (address : ℕ) (buf : Buffer B) :
    CursorIn g ((StoSys.writeBody g.config address (k * g.lba) buf).run exec w).2 := by
  have hlr := g.logRoom_lt
  have hle := g.logRoom_add_le
  have hend := h.end_le
  have hn := g.nBlocks_pos
  have hc : w.ftl.logZoneEnd < 2147483648 := by omega
  have hk := blocks_lt hsize
  rw [watermark_lt_iff h.start (by omega), Nat.succ_mul] at hpass
  obtain ⟨z, hz⟩ : ∃ z, w.ftl.logZoneEnd / g.nBlocks = z := ⟨_, rfl⟩
  have hstart : z * g.nBlocks ≤ w.ftl.logZoneEnd := hz ▸ Nat.div_mul_le_self _ _
  have hznr : z < g.nrZones := hz ▸ Nat.lt_trans (g.cursor_zone_lt hend) g.logZones_lt
  obtain ⟨-, -, hftl⟩ := writeBody_address g.config address (0 * g.lba) (k * g.lba) buf w
  suffices hbody : CursorIn g
      ((StoSys.writeBody g.config (0 * g.lba) (k * g.lba) buf).run exec w).2 by
    constructor
    · rw [hftl]
      exact hbody.start
    · rw [hftl]
      exact hbody.end_le
  rcases Nat.lt_or_ge (k * g.lba) mdts with hsmall | hlarge
  · by_cases hroom : k = 0 ∨ g.nBlocks < (w.media.zone z).length + k
    · rw [run_writeBody_append_refused hsmall hc hz hroom]
      exact h
    · -- a request that wraps does not fit the zone
      have hzend := zone_end_le (show w.ftl.logZoneEnd < g.logRoom by omega) hz
      rw [run_writeBody_append (by omega) hsmall hc hz hznr buf (by
        rw [Buffer.length_slice]
        omega)]
      refine ⟨h.start, ?_⟩
      change z * g.nBlocks + _ + 1 ≤ _
      omega
  · obtain ⟨ret, t, hgrew, -, hrun⟩ := writeBody_large (a := 0) hlarge hc hz (by omega) buf
    have ht : CursorIn g t := ⟨by rw [hgrew.ftl]; exact h.start, by rw [hgrew.ftl]; exact hend⟩
    rw [hrun]
    split
    · exact ⟨ht.start, ht.end_le⟩
    · exact ht

lemma CursorIn.triggerGc (h : CursorIn g w) (ord : HashOrder) :
    CursorIn g ((StoSys.triggerGc g.config ord : Prog B Unit).run exec w).2 := by
  obtain ⟨hstart, hend, -⟩ := triggerGc_clears h.start ord
  exact ⟨hstart, hend.trans_le (Nat.zero_le _)⟩

/-! ## What the log map holds -/

/-- The argument of `zone_merge` in a pass. -/
def zoneSetsOf (ord : HashOrder) (w : World g.drive) : UMap (UMap ℤ) :=
  ((groupLog g.config ((ord.log.order w.ftl.logZoneMapping).map Sigma.fst) ∅ : Prog B _).run exec
    w).1

/-- **The log map is sound**: its keys are the blocks of the user's range, and what a pass hands to
`zone_merge` are sets of data zones. -/
structure Sound (g : Setup B) (w : World g.drive) : Prop where
  key : ∀ {x}, x ∈ w.ftl.logZoneMapping → ∃ q < g.capacity, x = ((q * g.lba : ℕ) : ℤ)
  zone : ∀ {ord v}, v ∈ zoneSetsOf ord w → ∃ u : ℕ, v = u ∧ g.logZones ≤ u ∧ u < g.nrZones

omit [Zero B] in
/-- The zones follow from the keys. -/
lemma Sound.of_keys
    (hkey : ∀ {x}, x ∈ w.ftl.logZoneMapping → ∃ q < g.capacity, x = ((q * g.lba : ℕ) : ℤ)) :
    Sound g w := by
  refine ⟨hkey, fun {ord v} hv => ?_⟩
  have hnd : (logKeys ord w.ftl).Nodup := ord.log.nodup_keys _
  have hrun := run_groupLog g.config (logKeys ord w.ftl) w ∅ hnd
  change v ∈ ((groupLog g.config (logKeys ord w.ftl) ∅ : Prog B _).run exec w).1 at hv
  rw [hrun] at hv
  rcases (mem_groupKeys _ _ _ _).mp hv with hempty | ⟨x, hx, rfl⟩
  · exact absurd hempty (AList.notMem_empty v)
  · obtain ⟨q, hq, rfl⟩ := hkey (mem_logKeys.mp hx)
    exact ⟨g.vzone q, g.virtualZone_addr q, g.vzone_ge q, g.vzone_lt hq⟩

omit [Zero B] in
/-- An acceptable request enters blocks of the user's range. -/
lemma Sound.writeBody (h : Sound g w) (hend : w.ftl.logZoneEnd ≤ g.logRoom) {a : ℕ}
    (hcap : a + k ≤ g.capacity) (hsize : k * g.lba < 4294967296) (buf : Buffer B) :
    Sound g ((StoSys.writeBody g.config (a * g.lba) (k * g.lba) buf).run exec w).2 := by
  have hlr := g.logRoom_lt
  have hk := blocks_lt hsize
  have hc : w.ftl.logZoneEnd < 2147483648 := by omega
  refine .of_keys fun {x} hx => ?_
  rcases writeBody_log g.config (a * g.lba) (k * g.lba) buf w with ⟨-, hftl⟩ | ⟨-, hlog⟩
  · rw [hftl] at hx
    exact h.key hx
  · rw [toI32_of_lt hc, Setup.config_lbaSizeBytes, Nat.mul_div_cancel _ g.lba_pos] at hlog
    rw [hlog] at hx
    obtain ⟨y, hy⟩ := lookup_of_mem hx
    rw [lookup_mapBlocks hc _ x k hcap hsize (by omega)] at hy
    split at hy
    · rename_i hnew
      obtain ⟨i, hi, rfl⟩ := hnew
      exact ⟨a + i, by omega, rfl⟩
    · exact h.key (mem_of_lookup hy)

/-- The cursor and the log map after any number of passes of a call. -/
lemma watermarkLoop_sound (h : CursorIn g w) (hs : Sound g w) (k : ℕ) (passes : List HashOrder) :
    let l := (watermarkLoop g.config k passes : Prog B Bool).run exec (locked w)
    (CursorIn g l.2 ∧ Sound g l.2) ∧
      (l.1 = true → g.gcWmark < freeZoneNumber g.config l.2.ftl (toI32 k)) := by
  refine watermarkLoop_rule (P := fun s => CursorIn g s ∧ Sound g s) (fun ord s hsound _ => ?_)
    passes (locked w) ⟨⟨h.start, h.end_le⟩, .of_keys hs.key⟩
  have hasked : CursorIn g (asked s) := ⟨hsound.1.start, hsound.1.end_le⟩
  obtain ⟨-, -, hlog⟩ := triggerGc_clears hasked.start ord
  refine ⟨hasked.triggerGc ord, .of_keys fun {x} hx => ?_⟩
  change x ∈ ((triggerGc g.config ord : Prog B Unit).run exec (asked s)).2.ftl.logZoneMapping at hx
  rw [hlog] at hx
  exact absurd hx (AList.notMem_empty x)

/-- The cursor stays in the log, whatever the request. -/
lemma CursorIn.write (h : CursorIn g w) (hsize : size < 4294967296) (passes : List HashOrder)
    (address : ℕ) (buf : Buffer B) :
    CursorIn g ((znsUdeviceWrite g.config passes address size buf).run exec w).2 := by
  by_cases halign : size % g.lba = 0
  swap
  · rw [znsUdeviceWrite, Setup.config_lbaSizeBytes, if_pos halign]
    exact h
  obtain ⟨k, rfl⟩ := Nat.dvd_of_mod_eq_zero halign
  rw [Nat.mul_comm g.lba k] at hsize ⊢
  obtain ⟨hl, hleft⟩ := watermarkLoop_rule (k := k) (P := CursorIn g)
    (fun ord s hs _ => CursorIn.triggerGc (w := asked s) ⟨hs.start, hs.end_le⟩ ord) passes
    (locked w) ⟨h.start, h.end_le⟩
  exact run_write_rule (Q := fun r => CursorIn g r.2) rfl h
    ⟨hl, fun hgo => hl.writeBody hsize (hleft hgo) address buf⟩

/-- The log map stays sound when the request is acceptable. -/
lemma Sound.write (hs : Sound g w) (h : CursorIn g w) (hsize : size < 4294967296)
    (hok : Acceptable g.config address size) (passes : List HashOrder) (buf : Buffer B) :
    Sound g ((znsUdeviceWrite g.config passes address size buf).run exec w).2 := by
  obtain ⟨⟨a, rfl⟩, ⟨k, rfl⟩, hcap⟩ := hok
  change g.lba * a + g.lba * k ≤ g.capacity * g.lba at hcap
  change g.lba * k < _ at hsize
  change Sound g ((znsUdeviceWrite g.config passes (g.lba * a) (g.lba * k) buf).run exec w).2
  rw [Nat.mul_comm g.lba a, Nat.mul_comm g.lba k] at hcap ⊢
  rw [Nat.mul_comm g.lba k] at hsize
  rw [← Nat.add_mul] at hcap
  have hcap := Nat.le_of_mul_le_mul_right hcap g.lba_pos
  obtain ⟨⟨hcur, hl⟩, -⟩ := watermarkLoop_sound h hs k passes
  exact run_write_rule (Q := fun r => Sound g r.2) rfl hs
    ⟨hl, fun _ => hl.writeBody hcur.end_le hcap hsize buf⟩

/-! ## Runs -/

/-- A fresh process opens the device, with or without a reset. -/
def Opens (g : Setup B) (w : World g.drive) : Prop :=
  ∃ forceReset : Bool, JustOpened (g.params forceReset) w

/-- A write that the file would reject is turned away. -/
def Screened (g : Setup B) (w : World g.drive) : DeviceCall B → Prop
  | .write _ address size _ => ¬ Acceptable g.config address size → TurnedAway g w size
  | _ => True

variable {tr : List (World g.drive × DeviceCall B)}

omit [Zero B] in
lemma Opens.eq (h : Opens g w) : ∃ (forceReset : Bool) (m : Media g.drive),
    w = ⟨started (g.params forceReset) Ftl.fresh m, m⟩ := by
  obtain ⟨forceReset, hopened⟩ := h
  exact ⟨forceReset, hopened.eq⟩

lemma cursorIn_of_run (h : Run (Opens g) (Called g.config) tr w) : CursorIn g w := by
  refine h.invariant (fun s hs => ?_) fun {call s s'} hs hcall => ?_
  · obtain ⟨forceReset, m, rfl⟩ := hs.eq
    exact ⟨rfl, Nat.zero_le _⟩
  · exact hcall.keeps (fun _ hsize passes buf => hs.write hsize passes _ buf) hs.triggerGc hs

lemma sound_of_run (h : Run (Opens g) (Called g.config) tr w)
    (hscreened : ∀ x ∈ tr, Screened g x.1 x.2) : Sound g w := by
  refine h.guarded cursorIn_of_run (fun s hs => ?_) (fun {call s s'} hcur hs hok hcall => ?_)
    hscreened
  · obtain ⟨forceReset, m, rfl⟩ := hs.eq
    exact .of_keys fun {x} hx => absurd hx (AList.notMem_empty x)
  · obtain ⟨hrange, rfl⟩ := hcall
    cases call with
    | write passes address size buf =>
        rw [DeviceCall.code, Program.run_map]
        by_cases hacc : Acceptable g.config address size
        · exact hs.write hcur hrange.2 hacc passes buf
        · -- nothing has been entered
          obtain ⟨-, hlog, -⟩ := (hcur.rejected_iff hrange.2 passes address buf).mpr (hok hacc)
          refine .of_keys fun {x} hx => hs.key ?_
          rw [← hlog]
          exact hx
    | read address size buf =>
        rw [DeviceCall.code, Program.run_map, run_read_snd]
        exact hs
    | collect ord =>
        obtain ⟨-, -, hlog⟩ := triggerGc_clears (c := g.config) hcur.start ord
        refine .of_keys fun {x} hx => ?_
        change x ∈ ((triggerGc g.config ord : Prog B Unit).run exec s).2.ftl.logZoneMapping at hx
        rw [hlog] at hx
        exact absurd hx (AList.notMem_empty x)

/-- **Writes that the file would reject.**  In every reachable state and for every 64-bit address
and 32-bit size: the file accepts exactly the acceptable requests, and one that it does not accept
is rejected by the drive exactly when it is turned away.  In a run in which all of these have been
turned away the log map is sound, between calls and whenever a call waits for a pass. -/
theorem unacceptable_rejected_iff {g : Setup B} {tr : List (World g.drive × DeviceCall B)}
    {w : World g.drive} (h : Run (Opens g) (Called g.config) tr w) :
    (∀ {address size : ℕ}, address < 18446744073709551616 → size < 4294967296 →
      ∀ (file : File B) (buf : Buffer B),
        ((fileUdeviceWrite g.config file address size buf).1 ≠ 0 ↔
          ¬ Acceptable g.config address size) ∧
        ∀ passes, (fileUdeviceWrite g.config file address size buf).1 ≠ 0 →
          (Rejected g w passes address size buf ↔ TurnedAway g w size)) ∧
    ((∀ x ∈ tr, Screened g x.1 x.2) → Sound g w ∧ ∀ (k : ℕ) (passes : List HashOrder),
      Sound g ((watermarkLoop g.config k passes : Prog B Bool).run exec (locked w)).2) := by
  have hcur := cursorIn_of_run h
  refine ⟨fun {address size} haddress hsize file buf => ⟨?_, fun passes _ => ?_⟩, fun hok => ?_⟩
  · rw [ne_eq, fileUdeviceWrite_eq_zero_iff g.capacityBytes_lt file haddress hsize buf]
  · exact hcur.rejected_iff hsize passes address buf
  · have hsound := sound_of_run h hok
    exact ⟨hsound, fun k passes => (watermarkLoop_sound hcur hsound k passes).1.2⟩

/-- After one write, a request at address `1` is rejected when it has no blocks, and not when it has
one. -/
theorem unacceptable_rejected_iff_small :
    let w := ((znsUdeviceWrite smallDrive.config [] (4 * 4096) 4096 fun _ => 7).run exec
      (fresh smallDrive)).2
    Rejected smallDrive w [] 1 0 (fun _ => 9) ∧ ¬ Rejected smallDrive w [] 1 4096 (fun _ => 9) ∧
      Sound smallDrive w := by
  intro w
  have hopened : Opens smallDrive (fresh smallDrive) := ⟨true, Media.empty _, run_init_fresh _⟩
  have hrun : Run (Opens smallDrive) (Called smallDrive.config)
      [(fresh smallDrive, .write [] (4 * 4096) 4096 fun _ => 7)] w :=
    (Run.start hopened).step ⟨⟨by decide, by decide⟩, rfl⟩
  obtain ⟨hiff, hsound⟩ := unacceptable_rejected_iff hrun
  let file : File UInt8 := fun _ => 0
  have hnone : (fileUdeviceWrite smallDrive.config file 1 0 fun _ => 9).1 ≠ 0 := by decide
  have hone : (fileUdeviceWrite smallDrive.config file 1 4096 fun _ => 9).1 ≠ 0 := by decide
  refine ⟨?_, ?_, ?_⟩
  · refine ((hiff (by decide) (by decide) file _).2 [] hnone).mpr (Or.inr ⟨?_, ?_, ?_⟩)
    · decide +kernel
    · decide +kernel
    · decide +kernel
  · rw [(hiff (by decide) (by decide) file _).2 [] hone]
    rintro (hsize | ⟨-, -, hrefused⟩)
    · exact hsize rfl
    · exact absurd hrefused (by decide +kernel)
  · refine (hsound fun x hx => ?_).1
    obtain rfl := List.mem_singleton.mp hx
    exact fun hbad => absurd (show Acceptable smallDrive.config (4 * 4096) 4096 by decide) hbad

/-- **The failing write**: one block at the first address past the capacity.  The file returns
`-EINVAL`; the drive stores the block and enters it, and the next pass merges virtual zone `5` of a
drive whose zones are numbered from `0` to `4`. -/
theorem block_past_capacity_stored :
    let file : File UInt8 := fun _ => 0
    let r := (znsUdeviceWrite smallDrive.config [] (9 * 4096) 4096 fun _ => 7).run exec
      (fresh smallDrive)
    ((fileUdeviceWrite smallDrive.config file (9 * 4096) 4096 fun _ => 7).1 = -22 ∧
      r.1 = some 0 ∧ r.2.ftl.logZoneMapping.lookup (9 * 4096) = some 0 ∧
      5 ∈ zoneSetsOf HashOrder.stored r.2) ∧
    Run (Opens smallDrive) (Called smallDrive.config)
      [(fresh smallDrive, .write [] (9 * 4096) 4096 fun _ => 7)] r.2 ∧
    ¬ Rejected smallDrive (fresh smallDrive) [] (9 * 4096) 4096 (fun _ => 7) ∧
    ¬ Sound smallDrive r.2 := by
  intro file r
  have hopened : Opens smallDrive (fresh smallDrive) := ⟨true, Media.empty _, run_init_fresh _⟩
  have hret : r.1 = some 0 := by decide +kernel
  have hzone : 5 ∈ zoneSetsOf HashOrder.stored r.2 := by decide +kernel
  have hrun : Run (Opens smallDrive) (Called smallDrive.config)
      [(fresh smallDrive, .write [] (9 * 4096) 4096 fun _ => 7)] r.2 :=
    (Run.start hopened).step ⟨⟨by decide, by decide⟩, rfl⟩
  refine ⟨⟨by decide, hret, by decide +kernel, hzone⟩, hrun, ?_, fun hs => ?_⟩
  · rintro ⟨⟨e, he, hne⟩, -⟩
    exact hne (Option.some.inj (he.symm.trans hret))
  · obtain ⟨u, hu, -, hlt⟩ := hs.zone hzone
    change u < 5 at hlt
    omega

end StoSys
