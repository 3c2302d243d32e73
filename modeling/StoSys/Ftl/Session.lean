import StoSys.Ftl.LargeWrite

/-!
# Sessions of one-block writes

A session starts a fresh process on some medium, opens the device with a reset, and writes single
blocks.  In such a session the cursor is where the next block goes: log zone `i` holds
`logZoneEnd - i * n` blocks, at most `n` of them (`Synced`).  That is the fact the larger write
paths break, and the fact that makes a one-block write readable.
-/

namespace StoSys

open Effect HashMap Zoned CInt

variable {B : Type} {g : Setup B} {w : World g.drive}

/-! ## Opening the device -/

/-- The memory after `init_ss_zns_device`: the cursor at zero, the zone states those of the drive,
the two maps as they were. -/
def opened (w : World g.drive) (m : Media g.drive) : Ftl :=
  { w.ftl with
    logZoneStart := 0
    logZoneEnd := 0
    zoneStates := fun i => if g.logZones ≤ i ∧ i < g.nrZones then m.zoneState i else 0
    gcMutex := false
    triggerMyGc := false
    gcThreadStop := false }

lemma mkConfig_eq (forceReset : Bool) (m : Media g.drive) :
    mkConfig (g.params forceReset) g.ds (zoneReport m) = g.config := by
  have hn := g.nrZones_lt
  have hL := g.logZones_lt
  have hwm := g.wmark_lt
  have hzone := g.zone_lba_lt
  have hlba : toU32 ((2 ^ g.ds : ℕ) : ℤ) = g.lba := toU32_of_lt g.lba_lt
  have hcap : toU64 (((g.nrZones : ℤ) - (g.logZones : ℤ)) * ((g.nBlocks * g.lba : ℕ) : ℤ))
      = g.capacity * g.lba := by
    have hsub : ((g.nrZones : ℤ) - (g.logZones : ℤ)) * ((g.nBlocks * g.lba : ℕ) : ℤ)
        = ((g.capacity * g.lba : ℕ) : ℤ) := by
      rw [Setup.capacity, Nat.mul_assoc, ← Nat.cast_sub (Nat.le_of_lt hL), ← Nat.cast_mul]
    have hlt : g.capacity * g.lba < 18446744073709551616 := by
      rw [Setup.capacity, Nat.mul_assoc]
      calc (g.nrZones - g.logZones) * (g.nBlocks * g.lba)
          ≤ 2147483648 * (g.nBlocks * g.lba) := Nat.mul_le_mul_right _ (by omega)
        _ < 18446744073709551616 := by omega
    rw [hsub, toU64_of_lt hlt]
  have hzcap : toU32 ((g.nBlocks * g.lba : ℕ) : ℤ) = g.nBlocks * g.lba := toU32_of_lt hzone
  simp only [mkConfig, hlba, zoneReport, Setup.params, Setup.drive_zoneCap, hzcap, hcap,
    Setup.drive_nrZones]
  rw [toU32_of_lt (x := g.nrZones) (by omega), toU32_of_lt (x := g.gcWmark) (by omega),
    toU32_of_lt (x := g.nBlocks) (by have := g.nBlocks_lt; omega)]
  rfl

lemma started_eq (forceReset : Bool) (m : Media g.drive) :
    started (g.params forceReset) w.ftl m = opened w m := by
  have hL : toU64 (g.params forceReset).logZones = g.logZones :=
    toU64_of_lt (by have := g.nrZones_lt; have := g.logZones_lt; omega)
  have hstates : reportedStates (g.params forceReset) g.drive.nrZones (zoneReport m)
      = fun i => if g.logZones ≤ i ∧ i < g.nrZones then m.zoneState i else 0 := by
    funext i
    simp only [reportedStates, hL, zoneReport, Nat.mul_div_cancel _ (show 0 < 16 by decide),
      Setup.drive_nrZones]
  rw [started, opened, hstates]

/-- **`init_ss_zns_device`** on a working drive. -/
theorem run_init (forceReset : Bool) :
    let m := if forceReset then Media.empty g.drive else w.media
    (initSsZnsDevice (g.params forceReset) : Prog B _).run exec w
      = ((0, some g.config), ⟨opened w m, m⟩) := by
  intro m
  have hconfig : configOf g.drive (g.params forceReset) = g.config := mkConfig_eq forceReset _
  have hrun := run_initSsZnsDevice (g.params forceReset) w
  dsimp only at hrun
  rw [hconfig, started_eq] at hrun
  exact hrun

/-- The memory and medium of a fresh process that has opened the device with a reset. -/
def fresh (g : Setup B) : World g.drive :=
  ⟨{ Ftl.fresh with
    zoneStates := fun i => if g.logZones ≤ i ∧ i < g.nrZones then emptyZone else 0 },
    Media.empty g.drive⟩

lemma run_init_fresh (m : Media g.drive) :
    (initSsZnsDevice (g.params true) : Prog B _).run exec ⟨Ftl.fresh, m⟩
      = ((0, some g.config), fresh g) :=
  run_init true

lemma inv_fresh (g : Setup B) : Inv g (fresh g) := by
  have hmap : ∀ v, (fresh g).ftl.dataZoneMapping.lookup v = none := fun v => by
    simp [fresh, Ftl.fresh]
  have hlog : ∀ k, (fresh g).ftl.logZoneMapping.lookup k = none := fun k => by
    simp [fresh, Ftl.fresh]
  refine ⟨rfl, Nat.zero_le _, fun {k x} hx => ?_, ⟨?_, ?_, ?_, fun _ _ _ => rfl⟩, ?_, fun _ => rfl⟩
  · rw [hlog] at hx
    cases hx
  · intro v z hv
    rw [hmap] at hv
    cases hv
  · intro v z hv
    rw [hmap] at hv
    cases hv
  · intro v v' z hv
    rw [hmap] at hv
    cases hv
  · intro e hle hlt
    exact Or.inl (if_pos ⟨hle, hlt⟩)

/-! ## The cursor of a session -/

/-- Log zone `i` holds the blocks before the cursor that fall into it, and no others. -/
def AtCursor (g : Setup B) (w : World g.drive) : Prop :=
  ∀ i < g.logZones,
    (w.media.zone i).length = min g.nBlocks (w.ftl.logZoneEnd - i * g.nBlocks)

lemma atCursor_fresh (g : Setup B) : AtCursor g (fresh g) := by
  intro i _
  simp [fresh, Ftl.fresh]

lemma Cleared.atCursor (h : Cleared g w) : AtCursor g w := by
  intro i hi
  rw [h.zone i hi, h.ends]
  simp

section Write

variable {q : ℕ}

lemma Buffer.getElem?_slice (buf : Buffer B) {k i : ℕ} (hi : i < k) :
    (buf.slice 0 k)[i]? = some (buf i) := by
  simp [Buffer.slice, hi]

/-- **The body of an append at the cursor.**  The blocks go where the map says; the cursor moves by
one, however many they are. -/
theorem writeBody_atCursor {k : ℕ} (hk : 0 < k) (hsmall : k * g.lba < mdts)
    (hcap : q + k ≤ g.capacity) (hroom : w.ftl.logZoneEnd + k < g.logRoom)
    (hat : (w.media.zone (w.ftl.logZoneEnd / g.nBlocks)).length = w.ftl.logZoneEnd % g.nBlocks)
    (hfits : w.ftl.logZoneEnd % g.nBlocks + k ≤ g.nBlocks) (buf : Buffer B) :
    let r := (writeBody g.config (q * g.lba) (k * g.lba) buf).run exec w
    r.1 = 0 ∧ r.2.ftl.gcMutex = false ∧ r.2.ftl.logZoneEnd = w.ftl.logZoneEnd + 1 ∧
      (∀ i < k, Logged r.2 (q + i) (w.ftl.logZoneEnd + i) (buf i)) ∧
      ∀ i, r.2.media.zone i = if i = w.ftl.logZoneEnd / g.nBlocks then
        w.media.zone i ++ buf.slice 0 k else w.media.zone i := by
  have hn := g.nBlocks_pos
  have hlr := g.logRoom_lt
  have hle := g.logRoom_add_le
  have hmdts : mdts = 262144 := rfl
  obtain ⟨z, hz⟩ : ∃ z, w.ftl.logZoneEnd / g.nBlocks = z := ⟨_, rfl⟩
  have hmod := Nat.mod_lt w.ftl.logZoneEnd hn
  have hdm := Nat.div_add_mod' w.ftl.logZoneEnd g.nBlocks
  rw [hz] at hat hdm ⊢
  have hzL : z < g.logZones := by
    rw [← hz]
    exact (Nat.div_lt_iff_lt_mul hn).mpr (by omega)
  have hslice := Buffer.length_slice buf 0 k
  have hfits' : (w.media.zone z).length + (buf.slice 0 k).length ≤ g.nBlocks := by omega
  have hrun := run_writeBody_append (w := w) (a := q) hk hsmall (by omega) hz
    (by have := g.logZones_lt; omega) buf hfits'
  intro r
  change r = _ at hrun
  have hzone : ∀ i, r.2.media.zone i = if i = z then w.media.zone i ++ buf.slice 0 k
      else w.media.zone i := by
    intro i
    rw [hrun]
    refine (Media.setZone_zone w.media z i (w.media.zone z ++ buf.slice 0 k)
      (by rw [List.length_append]; exact hfits')).trans ?_
    by_cases hi : i = z
    · rw [if_pos hi, if_pos hi, hi]
    · rw [if_neg hi, if_neg hi]
  have hend : r.2.ftl.logZoneEnd = w.ftl.logZoneEnd + 1 := by
    rw [hrun]
    change z * g.nBlocks + (w.media.zone z).length + 1 = _
    omega
  have hself : r.2.media.zone z = w.media.zone z ++ buf.slice 0 k := (hzone z).trans (if_pos rfl)
  refine ⟨by rw [hrun], by rw [hrun]; rfl, hend, fun i hi => ?_, hzone⟩
  -- block `i` of the request lands at offset `c % n + i` of the zone
  have haddr : w.ftl.logZoneEnd + i = z * g.nBlocks + (w.ftl.logZoneEnd % g.nBlocks + i) := by omega
  have hwritten : r.2.media.Written (w.ftl.logZoneEnd + i) := by
    rw [haddr, Setup.written_addr _ (by omega), hself, List.length_append]
    omega
  have hblock : r.2.media.blockAt (w.ftl.logZoneEnd + i) = buf i := by
    rw [haddr, Setup.blockAt_addr _ (by omega), hself, List.getElem?_append_right (by omega), hat,
      Nat.add_sub_cancel_left, Buffer.getElem?_slice buf hi, Option.getD_some]
  rw [hrun] at hwritten hblock ⊢
  exact logged_entered hcap (by omega) hi (by omega) hwritten hblock

end Write

/-- The state between two calls of a session. -/
structure Synced (g : Setup B) (w : World g.drive) : Prop where
  inv : Inv g w
  mutex : w.ftl.gcMutex = false
  cursor : AtCursor g w

lemma synced_fresh (g : Setup B) : Synced g (fresh g) :=
  ⟨inv_fresh g, rfl, atCursor_fresh g⟩

/-- The zone of the cursor, read off `AtCursor`. -/
lemma AtCursor.zone (h : AtCursor g w) (hroom : w.ftl.logZoneEnd < g.logRoom) :
    (w.media.zone (w.ftl.logZoneEnd / g.nBlocks)).length = w.ftl.logZoneEnd % g.nBlocks := by
  have hn := g.nBlocks_pos
  have hle := g.logRoom_add_le
  have hmod := Nat.mod_lt w.ftl.logZoneEnd hn
  have hdm := Nat.div_add_mod' w.ftl.logZoneEnd g.nBlocks
  have hz : w.ftl.logZoneEnd / g.nBlocks < g.logZones :=
    (Nat.div_lt_iff_lt_mul hn).mpr (by omega)
  rw [h _ hz]
  omega

/-- One block further. -/
lemma AtCursor.step {s : World g.drive} {buf : Buffer B} (h : AtCursor g w)
    (hend : s.ftl.logZoneEnd = w.ftl.logZoneEnd + 1)
    (hzone : ∀ i, s.media.zone i = if i = w.ftl.logZoneEnd / g.nBlocks then
      w.media.zone i ++ buf.slice 0 1 else w.media.zone i) : AtCursor g s := by
  intro i hi
  have hn := g.nBlocks_pos
  have hmod := Nat.mod_lt w.ftl.logZoneEnd hn
  have hdm := Nat.div_add_mod' w.ftl.logZoneEnd g.nBlocks
  generalize w.ftl.logZoneEnd / g.nBlocks = z at hzone hdm
  rw [hend, hzone]
  have hi' := h i hi
  rcases Nat.lt_trichotomy i z with hlt | rfl | hgt
  · rw [if_neg (Nat.ne_of_lt hlt)]
    have := Nat.mul_le_mul_right g.nBlocks (Nat.succ_le_of_lt hlt)
    rw [Nat.succ_mul] at this
    omega
  · rw [if_pos rfl, List.length_append, Buffer.length_slice]
    omega
  · rw [if_neg (Nat.ne_of_gt hgt)]
    have := Nat.mul_le_mul_right g.nBlocks (Nat.succ_le_of_lt hgt)
    rw [Nat.succ_mul] at this
    omega

/-- One block goes the way of the append. -/
lemma one_small (hds : g.ds < 18) : 1 * g.lba < mdts := by
  rw [Nat.one_mul]
  exact Nat.pow_lt_pow_right (show 1 < 2 by decide) hds

section OneBlock

variable [Zero B] {q : ℕ} (passes : List HashOrder)

/-- The watermark loop before a one-block write: nothing, or one pass, or no end. -/
lemma Inv.loop_one (h : Inv g w) :
    let l := (watermarkLoop g.config 1 passes : Prog B Bool).run exec (locked w)
    l.1 = false ∨ l.1 = true ∧ Inv g l.2 ∧ l.2.ftl.logZoneEnd + 1 < g.logRoom ∧
      (w.ftl.logZoneEnd + 1 < g.logRoom ∧ l.2 = locked w ∨
        g.logRoom ≤ w.ftl.logZoneEnd + 1 ∧ ∃ ord rest, passes = ord :: rest ∧
          l.2 = StoSys.collect ord (locked w)) := by
  have hI : Inv g (locked w) := h.setFlags rfl rfl
  have hwrap := hI.no_wrap
  intro l
  rcases Nat.lt_or_ge (w.ftl.logZoneEnd + 1) g.logRoom with hroom | hfull
  · have hl : l = _ := hI.watermarkLoop_room hwrap hroom passes
    rw [hl]
    exact Or.inr ⟨rfl, hI, hroom, Or.inl ⟨hroom, rfl⟩⟩
  · by_cases hstuck : passes = [] ∨ g.logRoom ≤ 1
    · exact Or.inl (hI.watermarkLoop_stuck hwrap hfull hstuck)
    · rw [not_or, Nat.not_le] at hstuck
      obtain ⟨ord, rest, hpasses⟩ := List.exists_cons_of_ne_nil hstuck.1
      have hl : l = (true, StoSys.collect ord (locked w)) := by
        simp only [l, hpasses]
        exact hI.watermarkLoop_pass hwrap hfull hstuck.2 ord rest
      obtain ⟨-, hI', hclear, -⟩ := hI.collect ord
      rw [hl]
      refine Or.inr ⟨rfl, hI', ?_, Or.inr ⟨hfull, ord, rest, hpasses, rfl⟩⟩
      rw [hclear.ends]
      exact hstuck.2

/-- In a session the cursor is in its place afterwards. -/
lemma Synced.loop (h : Synced g w) :
    let l := (watermarkLoop g.config 1 passes : Prog B Bool).run exec (locked w)
    l.1 = false ∨ l.1 = true ∧ Inv g l.2 ∧ AtCursor g l.2 ∧ l.2.ftl.logZoneEnd + 1 < g.logRoom ∧
      (w.ftl.logZoneEnd + 1 < g.logRoom ∧ l.2 = locked w ∨
        g.logRoom ≤ w.ftl.logZoneEnd + 1 ∧ ∃ ord rest, passes = ord :: rest ∧
          l.2 = collect ord (locked w)) := by
  have hI : Inv g (locked w) := h.inv.setFlags rfl rfl
  intro l
  rcases h.inv.loop_one passes with hl | ⟨hl, hI', hroom, hcase⟩
  · exact Or.inl hl
  · refine Or.inr ⟨hl, hI', ?_, hroom, hcase⟩
    rcases hcase with ⟨-, heq⟩ | ⟨-, ord, rest, -, heq⟩
    · rw [heq]
      exact h.cursor
    · rw [heq]
      obtain ⟨-, -, hclear, -⟩ := hI.collect ord
      exact hclear.atCursor

/-- **A one-block write of a session**: it succeeds if it returns at all, and the block can be
read back. -/
theorem Synced.write (hds : g.ds < 18) (h : Synced g w) (hq : q < g.capacity) (buf : Buffer B) :
    let r := (znsUdeviceWrite g.config passes (q * g.lba) g.lba buf).run exec w
    r.1 = none ∨ r.1 = some 0 ∧ Synced g r.2 ∧ Holds r.2 q (buf 0) := by
  have hrun := run_write (a := q * g.lba) (k := 1) passes h.mutex buf
  have hkeep := write_keeps (a := q) (k := 1) h.inv (by omega)
    (by rw [Nat.one_mul]; exact g.lba_lt) (Or.inl (one_small hds)) passes buf
  rw [Nat.one_mul] at hrun hkeep
  intro r
  change r = _ at hrun
  rcases h.loop passes with hl | ⟨hl, hI, hat, hroom, -⟩
  · rw [if_neg (by rw [hl]; exact Bool.false_ne_true)] at hrun
    exact Or.inl (by rw [hrun])
  · rw [if_pos hl] at hrun
    obtain ⟨hret, hmutex, hend, hq', hzone⟩ := writeBody_atCursor Nat.one_pos (one_small hds)
      (show q + 1 ≤ g.capacity by omega) hroom (hat.zone (by omega))
      (Nat.mod_lt _ g.nBlocks_pos) buf
    rw [Nat.one_mul] at hret hmutex hend hq' hzone
    have hI' : Inv g r.2 := hkeep.1
    rw [hrun] at hI' ⊢
    exact Or.inr ⟨congrArg some hret, ⟨hI', hmutex, hat.step hend hzone⟩,
      Or.inl ⟨_, hq' 0 Nat.one_pos⟩⟩

/-- It does return, when the log has room for two blocks and one pass is granted. -/
lemma Synced.write_returns (hds : g.ds < 18) (h : Synced g w) (hq : q < g.capacity)
    (buf : Buffer B) (hroom : 1 < g.logRoom)
    (hpasses : passes ≠ [] ∨ w.ftl.logZoneEnd + 1 < g.logRoom) :
    ((znsUdeviceWrite g.config passes (q * g.lba) g.lba buf).run exec w).1 = some 0 := by
  have hI : Inv g (locked w) := h.inv.setFlags rfl rfl
  have hwrap := hI.no_wrap
  have hleft : ((watermarkLoop g.config 1 passes : Prog B Bool).run exec (locked w)).1 = true := by
    rcases Nat.lt_or_ge (w.ftl.logZoneEnd + 1) g.logRoom with hlt | hfull
    · exact congrArg Prod.fst (hI.watermarkLoop_room hwrap hlt passes)
    · obtain ⟨ord, rest, rfl⟩ := List.exists_cons_of_ne_nil (hpasses.resolve_right (by omega))
      exact congrArg Prod.fst (hI.watermarkLoop_pass hwrap hfull hroom ord rest)
  have hrun := run_write (a := q * g.lba) (k := 1) passes h.mutex buf
  simp only [Nat.one_mul, hleft, if_true] at hrun
  rcases h.write passes hds hq buf with hnone | ⟨hsome, -⟩
  · rw [hrun] at hnone
    cases hnone
  · exact hsome

end OneBlock

/-! ## Blocks of `MDTS` and more -/

/-- Where a session with such blocks stays: the cursor never moves, and at most the first log zone
is written. -/
structure AtStart (g : Setup B) (w : World g.drive) : Prop where
  inv : Inv g w
  ends : w.ftl.logZoneEnd = 0
  beyond : ∀ i, 0 < i → i < g.logZones → w.media.zone i = []

lemma one_large (hds : 18 ≤ g.ds) : mdts ≤ 1 * g.lba := by
  rw [Nat.one_mul]
  exact Nat.pow_le_pow_right (show 0 < 2 by decide) hds

section AtStart

variable [Zero B] {q : ℕ}

lemma AtStart.pass (h : AtStart g w) (ord : HashOrder) :
    AtStart g ((triggerGc g.config ord : Prog B Unit).run exec w).2 := by
  obtain ⟨-, hI, hclear, -⟩ := h.inv.pass ord
  exact ⟨hI, hclear.ends, fun i _ hi => hclear.zone i hi⟩

omit [Zero B] in
/-- The body of a one-block write of such a session. -/
lemma AtStart.writeBody (hds : 18 ≤ g.ds) (h : AtStart g w) (hroom : w.ftl.logZoneEnd + 1 < g.logRoom)
    (hq : q < g.capacity) (buf : Buffer B) :
    let r := (StoSys.writeBody g.config (q * g.lba) g.lba buf).run exec w
    AtStart g r.2 ∧ (r.1 = 0 → g.ds ≤ 18 ∧ Holds r.2 q (buf 0)) := by
  have hlr := g.logRoom_lt
  have hends := h.ends
  have hz : w.ftl.logZoneEnd / g.nBlocks = 0 := by rw [hends, Nat.zero_div]
  obtain ⟨hI, -⟩ := h.inv.writeBody (a := q) (k := 1) (by omega)
    (by rw [Nat.one_mul]; exact g.lba_lt) (Or.inl hroom) buf
  obtain ⟨hiff, hspread⟩ := writeBody_spread (a := q) (one_large hds) hroom hz h.beyond buf
  obtain ⟨ret, t, hgrew, -, hbody⟩ := writeBody_large (a := q) (one_large hds)
    (show w.ftl.logZoneEnd < 2147483648 by omega) hz (by omega) buf
  rw [Nat.one_mul] at hI hiff hspread hbody
  intro r
  change Inv g r.2 at hI
  have hfin : r.2.ftl.logZoneEnd = t.ftl.logZoneEnd ∧ r.2.media = t.media := by
    change r = _ at hbody
    rw [hbody]
    split <;> exact ⟨rfl, rfl⟩
  refine ⟨⟨hI, ?_, fun i hi hiL => ?_⟩, fun hret => ?_⟩
  · rw [hfin.1, hgrew.ftl, hends]
  · rw [hfin.2, ← h.beyond i hi hiL]
    by_contra hne
    have hlt := (hgrew.within i hne).2
    have := Nat.mul_le_mul_right g.nBlocks (Nat.succ_le_of_lt hi)
    have := g.nBlocks_pos
    omega
  · obtain ⟨hR, s, hs, hs'⟩ := hspread hret
    have hlog := Spread.logged (a := q) (c := 0) (s := s)
      (show Spread w (0 / g.nBlocks) buf 1 s by
      rw [Nat.zero_div]
      exact hs) (by
      rw [Nat.zero_div]
      exact hR) (Nat.zero_mod _) (by omega) (show q + 1 ≤ g.capacity by omega)
      (by rw [Nat.one_mul]; exact g.lba_lt) Nat.one_pos
    rw [hends] at hs'
    refine ⟨(hiff.mp hret).1, ?_⟩
    change Holds ((StoSys.writeBody g.config (q * g.lba) g.lba buf).run exec w).2 q (buf 0)
    rw [hs']
    exact Or.inl ⟨_, hlog⟩

/-- A one-block write of such a session. -/
lemma AtStart.write (hds : 18 ≤ g.ds) (h : AtStart g w) (hq : q < g.capacity)
    (passes : List HashOrder) (buf : Buffer B) :
    let r := (znsUdeviceWrite g.config passes (q * g.lba) g.lba buf).run exec w
    AtStart g r.2 ∧ (r.1 = some 0 → g.ds ≤ 18 ∧ Holds r.2 q (buf 0)) := by
  have hlr := g.logRoom_lt
  have hlock : AtStart g (locked w) := ⟨h.inv.setFlags rfl rfl, h.ends, h.beyond⟩
  obtain ⟨hat, hleft⟩ := watermarkLoop_rule (P := AtStart g) (k := 1)
    (fun ord s hs _ => AtStart.pass (w := asked s)
      ⟨hs.inv.setFlags rfl rfl, hs.ends, hs.beyond⟩ ord) passes (locked w) hlock
  refine run_write_rule (k := 1) (Q := fun r => AtStart g r.2 ∧
    (r.1 = some 0 → g.ds ≤ 18 ∧ Holds r.2 q (buf 0))) (Nat.one_mul _).symm
    ⟨h, fun h0 => by cases h0⟩ ⟨⟨hat, fun h0 => by cases h0⟩, fun hl => ?_⟩
  generalize (watermarkLoop g.config 1 passes : Prog B Bool).run exec (locked w) = l
    at hat hleft hl ⊢
  have hroom := (hat.inv.watermark_iff hat.inv.no_wrap).mp (hleft hl)
  obtain ⟨hat', hholds⟩ := hat.writeBody hds hroom hq buf
  exact ⟨hat', fun h0 => hholds (Option.some.inj h0)⟩

end AtStart

/-! ## Sessions -/

/-- What the user has written: the last data of every block. -/
abbrev Store (B : Type) : Type := ℕ → Option B

/-- **A session**: a fresh process opens the device with a reset, one-block writes return, and the
thread may collect at any time between them.  A write that fails leaves the store as it was.  `ok`
says which passes may be made in a state; a write makes one when it finds too few zones free. -/
inductive Session [Zero B] (g : Setup B)
    (ok : World g.drive → Store B → HashOrder → Prop) :
    Config → World g.drive → Store B → Prop
  | init {c : Config} {w : World g.drive} (m : Media g.drive)
      (h : (initSsZnsDevice (g.params true) : Prog B _).run exec ⟨Ftl.fresh, m⟩
        = ((0, some c), w)) : Session g ok c w fun _ => none
  | write {c : Config} {w w' : World g.drive} {s : Store B} {q : ℕ} {r : ℤ}
      (hs : Session g ok c w s) (passes : List HashOrder) (buf : Buffer B) (hq : q < g.capacity)
      (hok : freeZoneNumber c w.ftl (toI32 1) ≤ c.gcWatermark →
        ∀ ord, passes.head? = some ord → ok w s ord)
      (h : (znsUdeviceWrite c passes (q * g.lba) g.lba buf).run exec w = (some r, w')) :
      Session g ok c w' (if r = 0 then Function.update s q (some (buf 0)) else s)
  | collect {c : Config} {w : World g.drive} {s : Store B} (hs : Session g ok c w s)
      (ord : HashOrder) (hok : ok w s ord) :
      Session g ok c ((triggerGc c ord : Prog B Unit).run exec w).2 s

section Session

variable [Zero B] {ok : World g.drive → Store B → HashOrder → Prop} {c : Config} {s : Store B}

lemma Session.config_eq (h : Session g ok c w s) : c = g.config := by
  induction h with
  | init m h =>
      rw [run_init_fresh] at h
      cases h
      rfl
  | write _ _ _ _ _ _ ih => exact ih
  | collect _ _ _ ih => exact ih

lemma session_fresh (g : Setup B) (ok : World g.drive → Store B → HashOrder → Prop) :
    Session g ok g.config (fresh g) fun _ => none :=
  .init (Media.empty _) (run_init_fresh _)

omit [Zero B] in
/-- What is true of a block just written, and of the others as before, is true of the whole
store. -/
lemma store_updated {Q : ℕ → B → Prop} {q : ℕ} {done : Prop} [Decidable done] {b₀ : B}
    (hnew : done → Q q b₀) (hkeep : ∀ {q' b}, s q' = some b → (done → q' ≠ q) → Q q' b) {q' : ℕ}
    {b : B} (hb : (if done then Function.update s q (some b₀) else s) q' = some b) : Q q' b := by
  by_cases hr : done
  · rw [if_pos hr] at hb
    by_cases hq' : q' = q
    · rw [hq', Function.update_self] at hb
      rw [hq', ← Option.some.inj hb]
      exact hnew hr
    · rw [Function.update_of_ne hq'] at hb
      exact hkeep hb fun _ => hq'
  · rw [if_neg hr] at hb
    exact hkeep hb fun h0 => absurd h0 hr

/-- **Rule for sessions.**  `P` holds of a fresh device and is kept by passes and writes; `Q`
relates the state to each block of the store. -/
lemma Session.rule {P : World g.drive → Prop} {Q : World g.drive → ℕ → B → Prop}
    (hfresh : P (fresh g))
    (hwrite : ∀ {w q r w'} (passes : List HashOrder) (buf : Buffer B), P w → q < g.capacity →
      (znsUdeviceWrite g.config passes (q * g.lba) g.lba buf).run exec w = (some r, w') →
      P w' ∧ (r = 0 → Q w' q (buf 0)) ∧ ∀ {q' b}, Q w q' b → (r = 0 → q' ≠ q) → Q w' q' b)
    (hcollect : ∀ {w} (ord : HashOrder), P w →
      P ((triggerGc g.config ord : Prog B Unit).run exec w).2 ∧
        ∀ {q b}, Q w q b → Q ((triggerGc g.config ord : Prog B Unit).run exec w).2 q b)
    (h : Session g ok c w s) : P w ∧ ∀ {q b}, s q = some b → q < g.capacity ∧ Q w q b := by
  obtain rfl := h.config_eq
  generalize hc : g.config = c at h
  induction h with
  | init m h =>
      rw [run_init_fresh] at h
      cases h
      exact ⟨hfresh, fun h => by cases h⟩
  | @write w w' s q r hs passes buf hq hok h ih =>
      subst hc
      obtain ⟨hP, hQ⟩ := ih
      obtain ⟨hP', hnew, hkeep⟩ := hwrite passes buf hP hq h
      exact ⟨hP', store_updated (Q := fun q b => q < g.capacity ∧ Q w' q b)
        (fun hr => ⟨hq, hnew hr⟩) fun hb hne => ⟨(hQ hb).1, hkeep (hQ hb).2 hne⟩⟩
  | @collect w s hs ord hok ih =>
      subst hc
      obtain ⟨hP, hQ⟩ := ih
      obtain ⟨hP', hkeep⟩ := hcollect ord hP
      exact ⟨hP', fun hb => ⟨(hQ hb).1, hkeep (hQ hb).2⟩⟩

/-- One-block writes that return, in any invariant state. -/
lemma Inv.write_one {q : ℕ} {r : ℤ} {w' : World g.drive} (h : Inv g w) (hq : q < g.capacity)
    {passes : List HashOrder} {buf : Buffer B}
    (hw : (znsUdeviceWrite g.config passes (q * g.lba) g.lba buf).run exec w = (some r, w')) :
    Inv g w' ∧ ∀ {q' b}, Holds w q' b → (r = 0 → q' ≠ q) → Holds w' q' b := by
  have hkeep := write_keeps (a := q) (k := 1) h (by omega)
    (by rw [Nat.one_mul]; exact g.lba_lt) (Or.inr h.no_wrap) passes buf
  rw [Nat.one_mul, hw] at hkeep
  refine ⟨hkeep.1, fun hq' hne => hkeep.2 hq' fun h0 => ?_⟩
  have := hne (Option.some.inj h0)
  omega

/-- **Session invariant**, for blocks smaller than `MDTS`. -/
theorem Session.synced (hds : g.ds < 18) (h : Session g ok c w s) :
    Synced g w ∧ ∀ {q b}, s q = some b → q < g.capacity ∧ Holds w q b := by
  refine h.rule (synced_fresh g) ?_ ?_
  · intro w q r w' passes buf hsync hq hw
    have hwrite := hsync.write passes hds hq buf
    rw [hw] at hwrite
    rcases hwrite with hnone | ⟨-, hsync', hnew⟩
    · cases hnone
    · exact ⟨hsync', fun _ => hnew, (hsync.inv.write_one hq hw).2⟩
  · intro w ord hsync
    obtain ⟨-, hI, hclear, hmutex, hkeep⟩ := hsync.inv.pass ord
    exact ⟨⟨hI, hmutex.trans hsync.mutex, hclear.atCursor⟩, hkeep⟩

/-- **Session invariant**, for larger blocks. -/
theorem Session.atStart (hds : 18 ≤ g.ds) (h : Session g ok c w s) :
    AtStart g w ∧ ∀ {q b}, s q = some b → q < g.capacity ∧ g.ds ≤ 18 ∧ Holds w q b := by
  refine h.rule (Q := fun w q b => g.ds ≤ 18 ∧ Holds w q b) ?_ ?_ ?_
  · exact ⟨inv_fresh g, rfl, fun _ _ _ => rfl⟩
  · intro w q r w' passes buf hat hq hw
    have hwrite := hat.write hds hq passes buf
    rw [hw] at hwrite
    exact ⟨hwrite.1, fun hr => hwrite.2 (congrArg some hr),
      fun hq' hne => ⟨hq'.1, (hat.inv.write_one hq hw).2 hq'.2 hne⟩⟩
  · intro w ord hat
    exact ⟨hat.pass ord, fun hq => ⟨hq.1, (hat.inv.pass ord).2.2.2.2 hq.2⟩⟩

/-- **A state in which all that has been written can be read.**  Blocks larger than `MDTS` cannot be
written. -/
structure Consistent (g : Setup B) (w : World g.drive) (s : Store B) : Prop where
  inv : Inv g w
  block : ∀ {q b}, s q = some b → q < g.capacity ∧ g.ds ≤ 18
  holds : ∀ {q b}, s q = some b → Holds w q b

/-- All states of sessions are consistent. -/
theorem Session.consistent (h : Session g ok c w s) : Consistent g w s := by
  rcases Nat.lt_or_ge g.ds 18 with hds | hds
  · obtain ⟨hsync, hholds⟩ := h.synced hds
    exact ⟨hsync.inv, fun hb => ⟨(hholds hb).1, by omega⟩, fun hb => (hholds hb).2⟩
  · obtain ⟨hat, hholds⟩ := h.atStart hds
    exact ⟨hat.inv, fun hb => ⟨(hholds hb).1, (hholds hb).2.1⟩, fun hb => (hholds hb).2.2⟩

end Session

/-- A list of one-block writes, each granted one pass; `none` when one of them does not succeed. -/
def replay [Zero B] (g : Setup B) (ord : HashOrder) :
    List (ℕ × B) → World g.drive → Option (World g.drive)
  | [], w => some w
  | (q, b) :: l, w =>
      let r := (znsUdeviceWrite g.config [ord] (q * g.lba) g.lba fun _ => b).run exec w
      if r.1 = some 0 then replay g ord l r.2 else none

/-- What such a list leaves in the store. -/
def replayed (l : List (ℕ × B)) (s : Store B) : Store B :=
  l.foldl (fun s x => Function.update s x.1 (some x.2)) s

lemma Session.replay [Zero B] {ok : World g.drive → Store B → HashOrder → Prop} {c : Config}
    {ord : HashOrder} : ∀ {l : List (ℕ × B)} {w w' : World g.drive} {s : Store B},
    Session g ok c w s → (∀ w s, ok w s ord) → (∀ x ∈ l, x.1 < g.capacity) →
    StoSys.replay g ord l w = some w' → Session g ok c w' (replayed l s)
  | [], w, w', s, h, _, _, hl => by
      obtain rfl := Option.some.inj hl
      exact h
  | (q, b) :: l, w, w', s, h, hok, hcap, hl => by
      rw [StoSys.replay] at hl
      split at hl
      · rename_i hret
        rw [← h.config_eq] at hret hl
        have hnext := h.write [ord] (fun _ => b) (hcap _ (List.mem_cons_self ..))
          (fun _ ord' hord => Option.some.inj hord ▸ hok w s) (Prod.ext hret rfl)
        rw [if_pos rfl] at hnext
        rw [h.config_eq] at hl hnext ⊢
        exact hnext.replay hok (fun x hx => hcap x (List.mem_cons_of_mem _ hx)) hl
      · cases hl

/-! ## Where a session stands -/

/-- Nothing is written beyond the zone of the cursor; and when that zone is empty, the cursor is at
its start. -/
structure Settled (g : Setup B) (w : World g.drive) : Prop where
  inv : Inv g w
  ahead : ∀ i, w.ftl.logZoneEnd / g.nBlocks < i → i < g.logZones → w.media.zone i = []
  cursor : w.ftl.logZoneEnd < g.logRoom → w.media.zone (w.ftl.logZoneEnd / g.nBlocks) = [] →
    w.ftl.logZoneEnd % g.nBlocks = 0

lemma AtCursor.settled (h : AtCursor g w) (hI : Inv g w) : Settled g w := by
  refine ⟨hI, fun i hi hiL => ?_, fun hroom hempty => ?_⟩
  · have hlt := (Nat.div_lt_iff_lt_mul g.nBlocks_pos).mp hi
    have hlen := h i hiL
    refine List.length_eq_zero_iff.mp ?_
    omega
  · rw [← h.zone hroom, hempty, List.length_nil]

lemma AtStart.settled (h : AtStart g w) : Settled g w := by
  refine ⟨h.inv, fun i hi hiL => h.beyond i (Nat.zero_lt_of_lt hi) hiL, fun _ _ => ?_⟩
  rw [h.ends, Nat.zero_mod]

lemma Session.settled [Zero B] {ok : World g.drive → Store B → HashOrder → Prop} {c : Config}
    {s : Store B} (h : Session g ok c w s) : Settled g w := by
  rcases Nat.lt_or_ge g.ds 18 with hds | hds
  · obtain ⟨hsync, -⟩ := h.synced hds
    exact hsync.cursor.settled hsync.inv
  · exact (h.atStart hds).1.settled

end StoSys
