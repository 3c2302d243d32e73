import StoSys.Ftl.Cursor

/-!
# Histories and what they have written

A `Recorded` history has writes of any number of blocks, and is kept together with the last data of
every block.  A write of several blocks leaves the cursor behind the write pointer, and the blocks
that are written next land elsewhere than the log map says.  Where every write `Lands`, the maps
lead to the last data of every block (`Recorded.holds`).
-/

namespace StoSys

open Effect HashMap Zoned CInt

variable {B : Type} {g : Setup B} {w : World g.drive} {a k : ℕ}

/-! ## How the watermark loop is left -/

/-- The call has to wait for a pass. -/
def Waits (g : Setup B) (w : World g.drive) (k : ℕ) : Prop :=
  freeZoneNumber g.config w.ftl (toI32 k) ≤ g.gcWmark

instance (k : ℕ) : Decidable (Waits g w k) := inferInstanceAs (Decidable (_ ≤ _))

/-- The loop is left at once, or after one pass. -/
lemma Tracked.loop [Zero B] (h : Tracked g w) {passes : List HashOrder}
    (hl : ((watermarkLoop g.config k passes : Prog B Bool).run exec (locked w)).1 = true) :
    ¬ Waits g w k ∧ ((watermarkLoop g.config k passes : Prog B Bool).run exec (locked w)).2
        = locked w ∨
      Waits g w k ∧ ∃ ord rest, passes = ord :: rest ∧
        ((watermarkLoop g.config k passes : Prog B Bool).run exec (locked w)).2
          = StoSys.collect ord (locked w) := by
  have hI : Inv g (locked w) := h.inv.setFlags rfl rfl
  by_cases hw : Waits g w k
  · right
    cases passes with
    | nil =>
        rw [run_watermarkLoop_nil (w := locked w) hw] at hl
        cases hl
    | cons ord rest =>
        refine ⟨hw, ord, rest, rfl, ?_⟩
        rw [run_watermarkLoop_pass (w := locked w) hw] at hl ⊢
        obtain ⟨-, hIc, hclear, -⟩ := hI.collect ord
        -- the first pass has made all the room there is
        obtain ⟨⟨hIl, hend⟩, hleft⟩ := watermarkLoop_rule
          (P := fun s : World g.drive => Inv g s ∧ s.ftl.logZoneEnd = 0) (k := k)
          (fun ord s hs _ => by
            obtain ⟨-, hI', hclear', -⟩ := hs.1.collect ord
            exact ⟨hI', hclear'.ends⟩) rest _ ⟨hIc, hclear.ends⟩
        have hfree := hleft hl
        have hsame : freeZoneNumber g.config
            ((watermarkLoop g.config k rest : Prog B Bool).run exec
              (StoSys.collect ord (locked w))).2.ftl (toI32 k)
              = freeZoneNumber g.config (StoSys.collect ord (locked w)).ftl (toI32 k) := by
          rw [freeZoneNumber, freeZoneNumber, hend, hclear.ends, hIl.start, hIc.start]
        rw [hsame] at hfree
        rw [run_watermarkLoop_left hfree]
  · left
    exact ⟨hw, by rw [run_watermarkLoop_left (w := locked w) (Nat.lt_of_not_le hw)]⟩

/-! ## Where a write lands -/

/-- **The blocks of a write go where the map says**: the call waits for a pass, which puts cursor and
drive at the start of the log; or it has `MDTS` or more, and starts at the start of a zone; or the
drive is where the cursor is; or it has no room for the request, and refuses it. -/
def Lands (g : Setup B) (w : World g.drive) (k : ℕ) : Prop :=
  Waits g w k ∨ mdts ≤ k * g.lba ∨
    (w.media.zone (w.ftl.logZoneEnd / g.nBlocks)).length = w.ftl.logZoneEnd % g.nBlocks ∨
    g.nBlocks < (w.media.zone (w.ftl.logZoneEnd / g.nBlocks)).length + k

instance (k : ℕ) : Decidable (Lands g w k) := inferInstanceAs (Decidable (_ ∨ _ ∨ _ ∨ _))

/-- An append that succeeds. -/
lemma Tracked.writeBody_small_logged (h : Tracked g w) (hcap : a + k ≤ g.capacity)
    (hsmall : k * g.lba < mdts) (hpass : w.ftl.logZoneEnd + k < g.logRoom ∨ g.nBlocks < k)
    (hlands : (w.media.zone (w.ftl.logZoneEnd / g.nBlocks)).length = w.ftl.logZoneEnd % g.nBlocks ∨
      g.nBlocks < (w.media.zone (w.ftl.logZoneEnd / g.nBlocks)).length + k) (buf : Buffer B) :
    let r := (StoSys.writeBody g.config (a * g.lba) (k * g.lba) buf).run exec w
    r.1 = 0 → g.ds ≤ 18 ∧ ∀ i < k, Logged r.2 (a + i) (w.ftl.logZoneEnd + i) (buf i) := by
  have hlr := g.logRoom_lt
  have hend := h.inv.end_le
  by_cases hfits : 0 < k ∧
      (w.media.zone (w.ftl.logZoneEnd / g.nBlocks)).length + k ≤ g.nBlocks
  · have hat := hlands.resolve_right (Nat.not_lt.mpr hfits.2)
    obtain ⟨-, -, -, hlog, -⟩ := writeBody_atCursor hfits.1 hsmall hcap
      (hpass.resolve_right (by omega)) hat (by omega) buf
    have hds := ds_lt_of_small hfits.1 hsmall
    exact fun _ => ⟨Nat.le_of_lt hds, hlog⟩
  · rw [run_writeBody_append_refused hsmall (show w.ftl.logZoneEnd < 2147483648 by omega) rfl
      (by omega)]
    exact fun h0 => absurd h0 (show ¬ commandError = 0 by decide)

/-- A write of `MDTS` or more that succeeds. -/
lemma Tracked.writeBody_large_logged (h : Tracked g w) (hcap : a + k ≤ g.capacity)
    (hsize : k * g.lba < 4294967296) (hlarge : mdts ≤ k * g.lba)
    (hroom : w.ftl.logZoneEnd + k < g.logRoom) (buf : Buffer B) :
    let r := (StoSys.writeBody g.config (a * g.lba) (k * g.lba) buf).run exec w
    r.1 = 0 → g.ds ≤ 18 ∧ ∀ i < k, Logged r.2 (a + i) (w.ftl.logZoneEnd + i) (buf i) := by
  have hlr := g.logRoom_lt
  have hk := large_pos hlarge
  have hrun := run_writeBody_large (w := w) (a := a) hlarge
    (show w.ftl.logZoneEnd < 2147483648 by omega) rfl buf
  intro r hr
  -- the zone of the cursor is empty, or the first command would have been refused
  have hempty : w.media.zone (w.ftl.logZoneEnd / g.nBlocks) = [] := by
    by_contra hne
    rw [ioWithMdts_write_refused (Nat.mul_pos hk g.lba_pos) (write_start_none hne)] at hrun
    have hret : r.1 = commandError := by
      simp only [r, hrun]
      rfl
    rw [hret] at hr
    exact absurd hr (by decide)
  have hbeyond : ∀ i, w.ftl.logZoneEnd / g.nBlocks < i → i < g.logZones → w.media.zone i = [] := by
    intro i hi hiL
    by_contra hne
    have hfull := h.ahead i hi hiL hne
    rw [hempty, List.length_nil] at hfull
    exact absurd hfull (Nat.ne_of_lt g.nBlocks_pos)
  have hmod : w.ftl.logZoneEnd % g.nBlocks = 0 := by
    have hbehind := h.behind _ (g.cursor_zone_lt (Nat.le_of_lt (Nat.lt_of_le_of_lt
      (Nat.le_add_right _ k) hroom)))
    have hdm := Nat.div_add_mod' w.ftl.logZoneEnd g.nBlocks
    have hn := g.nBlocks_pos
    rw [hempty, List.length_nil] at hbehind
    omega
  obtain ⟨hiff, hspread⟩ := writeBody_spread (a := a) hlarge hroom rfl hbeyond buf
  obtain ⟨hR, s, hs, hs'⟩ := hspread hr
  refine ⟨(hiff.mp hr).1, fun i hi => ?_⟩
  change r.2 = _ at hs'
  rw [hs']
  exact hs.logged hR hmod (Nat.le_of_lt hroom) hcap hsize hi

section Runs

variable [Zero B]

/-- **A write that lands** can be found where the maps lead. -/
theorem Tracked.write_holds (h : Tracked g w) (hok : Contained g w (a * g.lba) k)
    (hlands : Lands g w k) (passes : List HashOrder) (buf : Buffer B) :
    let r := (znsUdeviceWrite g.config passes (a * g.lba) (k * g.lba) buf).run exec w
    r.1 = some 0 → g.ds ≤ 18 ∧ ∀ i < k, Holds r.2 (a + i) (buf i) := by
  obtain ⟨hsize, ⟨a', ha, hcap⟩, hwrap⟩ := hok
  obtain rfl := Nat.eq_of_mul_eq_mul_right g.lba_pos ha
  have hlr := g.logRoom_lt
  have hle := g.logRoom_add_le
  have hn := g.nBlocks_pos
  have hk := blocks_lt hsize
  have hL : (g.logZones + 1) * g.nBlocks = g.logZones * g.nBlocks + g.nBlocks := Nat.succ_mul _ _
  refine run_write_rule (Q := fun r => r.1 = some 0 → g.ds ≤ 18 ∧ ∀ i < k, Holds r.2 (a + i) (buf i))
    rfl (fun h0 => by cases h0) ⟨fun h0 => (by cases h0), fun hl => ?_⟩
  have hcase := h.loop hl
  obtain ⟨-, hleft⟩ := watermarkLoop_rule (P := Tracked g) (k := k)
    (fun ord s hs _ => hs.collect ord) passes (locked w) (h.setFlags true w.ftl.triggerMyGc)
  have hfree := hleft hl
  generalize ((watermarkLoop g.config k passes : Prog B Bool).run exec (locked w)).2 = l
    at hcase hfree ⊢
  -- the state in which the body runs
  obtain ⟨hT, hend, hat⟩ : Tracked g l ∧ l.ftl.logZoneEnd ≤ w.ftl.logZoneEnd ∧
      (mdts ≤ k * g.lba ∨
        (l.media.zone (l.ftl.logZoneEnd / g.nBlocks)).length = l.ftl.logZoneEnd % g.nBlocks ∨
        g.nBlocks < (l.media.zone (l.ftl.logZoneEnd / g.nBlocks)).length + k) := by
    rcases hcase with ⟨hno, rfl⟩ | ⟨-, ord, -, -, rfl⟩
    · exact ⟨h.setFlags true w.ftl.triggerMyGc, Nat.le_refl _, hlands.resolve_left hno⟩
    · have hs := (h.setFlags true w.ftl.triggerMyGc).collect ord
      obtain ⟨-, -, hclear, -⟩ := (h.setFlags true w.ftl.triggerMyGc).inv.collect ord
      have hends : (StoSys.collect ord (locked w)).ftl.logZoneEnd = 0 := hclear.ends
      refine ⟨hs, hends ▸ Nat.zero_le _, Or.inr (Or.inl ?_)⟩
      rw [hends, Nat.zero_div, Nat.zero_mod]
      exact List.length_eq_zero_iff.mpr (hclear.zone 0 g.logZones_pos)
  have hend' := hT.inv.end_le
  have hpass := (watermark_lt_iff hT.inv.start (by omega)).mp hfree
  intro r hr
  have hr' := Option.some.inj hr
  rcases Nat.lt_or_ge (k * g.lba) mdts with hsmall | hlarge
  · obtain ⟨hds, hlog⟩ := hT.writeBody_small_logged hcap hsmall (by omega)
      (hat.resolve_left (Nat.not_le.mpr hsmall)) buf hr'
    exact ⟨hds, fun i hi => Or.inl ⟨_, hlog i hi⟩⟩
  · obtain ⟨hds, hlog⟩ := hT.writeBody_large_logged hcap hsize hlarge (by omega) buf hr'
    exact ⟨hds, fun i hi => Or.inl ⟨_, hlog i hi⟩⟩

/-! ## Recorded histories -/

/-- `k` blocks from block `a` on have been written. -/
def Store.put (s : Store B) (a k : ℕ) (buf : Buffer B) : Store B :=
  fun q => if a ≤ q ∧ q < a + k then some (buf (q - a : ℕ)) else s q

/-- **A history and what it has written**: the last data of every block.  A call that fails, or does
not return, has written nothing. -/
inductive Recorded (g : Setup B) (ok : World g.drive → ℕ → ℕ → Prop) :
    Config → World g.drive → Store B → Prop
  | init {c : Config} {w : World g.drive} (m : Media g.drive)
      (h : (initSsZnsDevice (g.params true) : Prog B _).run exec ⟨Ftl.fresh, m⟩
        = ((0, some c), w)) : Recorded g ok c w fun _ => none
  | write {c : Config} {w w' : World g.drive} {s : Store B} {address k : ℕ} {r : Option ℤ}
      (hs : Recorded g ok c w s) (passes : List HashOrder) (buf : Buffer B) (hok : ok w address k)
      (h : (znsUdeviceWrite c passes address (k * g.lba) buf).run exec w = (r, w')) :
      Recorded g ok c w' (if r = some 0 then s.put (address / g.lba) k buf else s)
  | read {c : Config} {w : World g.drive} {s : Store B} (hs : Recorded g ok c w s)
      (address size : ℕ) (buf : Buffer B) :
      Recorded g ok c ((znsUdeviceRead c address size buf).run exec w).2 s
  | collect {c : Config} {w : World g.drive} {s : Store B} (hs : Recorded g ok c w s)
      (ord : HashOrder) : Recorded g ok c ((triggerGc c ord : Prog B Unit).run exec w).2 s

/-- Inside the user's address space, not wrapping, and landing where the map says. -/
def Landing (g : Setup B) (w : World g.drive) (address k : ℕ) : Prop :=
  Contained g w address k ∧ Lands g w k

namespace Recorded

variable {ok : World g.drive → ℕ → ℕ → Prop} {c : Config} {s : Store B}

lemma fresh (g : Setup B) (ok : World g.drive → ℕ → ℕ → Prop) :
    Recorded g ok g.config (StoSys.fresh g) fun _ => none :=
  .init (Media.empty _) (run_init_fresh _)

lemma config_eq (h : Recorded g ok c w s) : c = g.config := by
  induction h with
  | init m h =>
      rw [run_init_fresh] at h
      cases h
      rfl
  | write _ _ _ _ _ ih => exact ih
  | read _ _ _ _ ih => exact ih
  | collect _ _ ih => exact ih

/-- **Nothing is lost** in a history whose writes land. -/
theorem consistent (h : Recorded g (Landing g) c w s) : Tracked g w ∧ Consistent g w s := by
  obtain rfl := h.config_eq
  generalize hc : g.config = c at h
  induction h with
  | init m h =>
      rw [run_init_fresh] at h
      cases h
      exact ⟨tracked_fresh g, inv_fresh g, fun hb => (by cases hb), fun hb => (by cases hb)⟩
  | @write w w' s address k r hs passes buf hok h ih =>
      subst hc
      obtain ⟨hT, hcons⟩ := ih
      obtain ⟨hcont, hlands⟩ := hok
      have ⟨hsize, ⟨a, ha, hcap⟩, hwrap⟩ := hcont
      subst ha
      have hwrite := hT.write_holds hcont hlands passes buf
      have hT' := hT.write hcap hsize hwrap passes buf
      obtain ⟨-, hkeep⟩ := write_keeps (a := a) hT.inv hcap hsize hwrap passes buf
      rw [h] at hwrite hT' hkeep
      have hall : ∀ {q b}, (if r = some 0 then s.put (a * g.lba / g.lba) k buf else s) q = some b →
          (q < g.capacity ∧ g.ds ≤ 18) ∧ Holds w' q b := by
        intro q b hb
        rw [Nat.mul_div_cancel _ g.lba_pos] at hb
        split at hb
        · rename_i hr
          obtain ⟨hds, hnew⟩ := hwrite hr
          by_cases hq : a ≤ q ∧ q < a + k
          · rw [Store.put, if_pos hq] at hb
            obtain ⟨i, rfl⟩ := Nat.exists_eq_add_of_le hq.1
            have hi := hnew i (by omega)
            rw [Nat.add_sub_cancel_left] at hb
            rw [Option.some.inj hb] at hi
            exact ⟨⟨by omega, hds⟩, hi⟩
          · rw [Store.put, if_neg hq] at hb
            exact ⟨hcons.block hb, hkeep (hcons.holds hb) fun _ => by omega⟩
        · rename_i hr
          exact ⟨hcons.block hb, hkeep (hcons.holds hb) fun h0 => absurd h0 hr⟩
      exact ⟨hT', hT'.inv, fun hb => (hall hb).1, fun hb => (hall hb).2⟩
  | read _ address size buf ih =>
      rw [run_read_snd]
      exact ih
  | collect _ ord ih =>
      subst hc
      obtain ⟨hT, hcons⟩ := ih
      obtain ⟨-, hI, -, -, hkeep⟩ := hcons.inv.pass ord
      exact ⟨hT.pass ord, hI, hcons.block, fun hb => hkeep (hcons.holds hb)⟩

end Recorded

end Runs

end StoSys
