import StoSys.Properties.Watermark

/-!
# Writes of `MDTS` and more

The path for such a write starts at the first block of the zone of the cursor, whatever the cursor's
offset in that zone, and cuts the request into commands of `MDTS` bytes.  The drive accepts the
commands when the zone is empty and none of them straddles two zones; then the map names the blocks
where they are, and they stay readable whatever is written to other blocks.  In all other cases the
write fails, with the mutex held.
-/

namespace StoSys

open Effect HashMap Zoned CInt

variable {B : Type} [Zero B] {g : Setup B} {w : World g.drive}

/-- What may happen without block `x` being overwritten: one-block writes to other blocks, of any
outcome, and collections. -/
inductive Further (g : Setup B) (x : ℕ) (w : World g.drive) : World g.drive → Prop
  | refl : Further g x w w
  | write {w₁ : World g.drive} {q : ℕ} (h : Further g x w w₁) (passes : List HashOrder)
      (buf : Buffer B) (hq : q < g.capacity) (hne : q ≠ x) :
      Further g x w ((znsUdeviceWrite g.config passes (q * g.lba) g.lba buf).run exec w₁).2
  | collect {w₁ : World g.drive} (h : Further g x w w₁) (ord : HashOrder) :
      Further g x w ((triggerGc g.config ord : Prog B Unit).run exec w₁).2

lemma Further.holds {x : ℕ} {b : B} {w' : World g.drive} (h : Further g x w w') (hI : Inv g w)
    (hx : Holds w x b) : Inv g w' ∧ Holds w' x b := by
  induction h with
  | refl => exact ⟨hI, hx⟩
  | @write w₁ q h passes buf hq hne ih =>
      have hkeep := write_keeps (a := q) (k := 1) ih.1 (by omega)
        (by rw [Nat.one_mul]; exact g.lba_lt) (Or.inr ih.1.no_wrap) passes buf
      rw [Nat.one_mul] at hkeep
      exact ⟨hkeep.1, hkeep.2 ih.2 fun _ => by omega⟩
  | collect h ord ih =>
      obtain ⟨-, hI', -, -, hkeep⟩ := ih.1.pass ord
      exact ⟨hI', hkeep ih.2⟩

/-- Block `x` reads as `b`, and goes on doing so until it is overwritten. -/
def ReadsFromNowOn (g : Setup B) (w : World g.drive) (x : ℕ) (b : B) : Prop :=
  ∀ (w' : World g.drive) (buf : Buffer B), Further g x w w' →
    (znsUdeviceRead g.config (x * g.lba) g.lba buf).run exec w' = ((0, buf.store 0 [b]), w')

lemma Holds.readsFromNowOn {x : ℕ} {b : B} (h : Holds w x b) (hds : g.ds ≤ 18) (hI : Inv g w)
    (hx : x < g.capacity) : ReadsFromNowOn g w x b := by
  intro w' buf hfurther
  obtain ⟨hI', h'⟩ := hfurther.holds hI h
  exact h'.run_read hds hI'.log hI'.zones hx buf

/-- **The large write path does what the small one does**: the write succeeds, its blocks read as
the data given, all other blocks as before, and so they stay.  `s` is what has been written
before. -/
def LargeWriteWorks (g : Setup B) (w : World g.drive) (s : Store B) (a k : ℕ) : Prop :=
  ∀ (passes : List HashOrder) (buf : Buffer B), passes ≠ [] →
    ∃ w', (znsUdeviceWrite g.config passes (a * g.lba) (k * g.lba) buf).run exec w = (some 0, w') ∧
      (∀ i < k, ReadsFromNowOn g w' (a + i) (buf i)) ∧
      ∀ {q b}, s q = some b → q < a ∨ a + k ≤ q → ReadsFromNowOn g w' q b

/-- Where the watermark loop leaves the device, for a request an empty log has room for. -/
lemma Settled.loop {k : ℕ} (h : Settled g w) (hfits : k < g.logRoom) (hunwrapped : Unwrapped g w k)
    (ord : HashOrder) (passes : List HashOrder) :
    ∃ l, (watermarkLoop g.config k (ord :: passes) : Prog B Bool).run exec (locked w) = (true, l) ∧
      Settled g l ∧ l.ftl.logZoneEnd + k < g.logRoom ∧
      (∀ {q b}, Holds w q b → Holds l q b) ∧
      (l.media.zone (l.ftl.logZoneEnd / g.nBlocks) = [] ↔
        (w.ftl.logZoneEnd + k < g.logRoom → w.media.zone (w.ftl.logZoneEnd / g.nBlocks) = [])) := by
  have hI : Inv g (locked w) := h.inv.setFlags rfl rfl
  rcases Nat.lt_or_ge (w.ftl.logZoneEnd + k) g.logRoom with hroom | hfull
  · refine ⟨_, hI.watermarkLoop_room hunwrapped hroom _, ⟨hI, h.ahead, h.cursor⟩, hroom, id, ?_⟩
    exact ⟨fun hempty _ => hempty, fun hempty => hempty hroom⟩
  · obtain ⟨-, hI', hclear, -, hkeep⟩ := hI.collect ord
    have hroom : (collect ord (locked w)).ftl.logZoneEnd + k < g.logRoom := by
      rw [hclear.ends]
      omega
    refine ⟨_, hI.watermarkLoop_pass hunwrapped hfull hfits ord passes, hclear.atCursor.settled hI',
      hroom, hkeep, iff_of_true ?_ fun hlt => by omega⟩
    rw [hclear.ends, Nat.zero_div]
    exact hclear.zone 0 g.logZones_pos

/-- **Exactly when the large write path works**, in the states one-block writes lead to.  (The mutex
is only ever held when blocks are as large as `MDTS`.) -/
theorem largeWriteWorks_iff (g : Setup B) {c : Config} {w : World g.drive} {s : Store B}
    (h : Session g (fun _ _ _ => True) c w s) {a k : ℕ} (hcap : a + k ≤ g.capacity)
    (hlarge : mdts ≤ k * g.lba) (hsize : k * g.lba < 4294967296) (hfits : k < g.logRoom)
    (hunwrapped : Unwrapped g w k) :
    LargeWriteWorks g w s a k ↔
      (g.ds ≤ 18 ∧ w.ftl.gcMutex = false) ∧ (k ≤ g.nBlocks ∨ g.per ∣ g.nBlocks) ∧
        (w.ftl.logZoneEnd + k < g.logRoom → w.media.zone (w.ftl.logZoneEnd / g.nBlocks) = []) := by
  have hsettled := h.settled
  have hcons := h.consistent
  have hloop := fun ord passes => hsettled.loop hfits hunwrapped ord passes
  constructor
  · intro hworks
    obtain ⟨w', hw', -⟩ := hworks [HashOrder.stored] (fun _ => 0) (List.cons_ne_nil _ _)
    have hm : w.ftl.gcMutex = false := by
      by_contra hm
      rw [run_write_blocked _ (Bool.of_not_eq_false hm)] at hw'
      cases hw'
    obtain ⟨l, hl, hsl, hroom, -, hempty⟩ := hloop HashOrder.stored []
    have hrun := run_write (a := a * g.lba) (k := k) [HashOrder.stored] hm fun _ => 0
    simp only [hl, if_true] at hrun
    obtain ⟨hiff, -⟩ := writeBody_spread (a := a) hlarge hroom rfl hsl.ahead fun _ => 0
    obtain ⟨hds, hz, hcut⟩ := hiff.mp (Option.some.inj (congrArg Prod.fst (hrun.symm.trans hw')))
    exact ⟨⟨hds, hm⟩, hcut, hempty.mp hz⟩
  · rintro ⟨⟨hds, hm⟩, hcut, hz⟩ passes buf hpasses
    obtain ⟨ord, rest, rfl⟩ := List.exists_cons_of_ne_nil hpasses
    obtain ⟨l, hl, hsl, hroom, hkeep, hempty⟩ := hloop ord rest
    have hrun := run_write (a := a * g.lba) (k := k) (ord :: rest) hm buf
    simp only [hl, if_true] at hrun
    obtain ⟨hiff, hspread⟩ := writeBody_spread (a := a) hlarge hroom rfl hsl.ahead buf
    have hret := hiff.mpr ⟨hds, hempty.mpr hz, hcut⟩
    obtain ⟨hR, t, ht, ht'⟩ := hspread hret
    obtain ⟨hI', hkeep'⟩ := hsl.inv.writeBody hcap hsize (Or.inl hroom) buf
    rw [hret] at hrun
    refine ⟨_, hrun, fun i hi => ?_, fun {q b} hb hout => ?_⟩
    · -- the blocks of the request
      have hlog := ht.logged hR (hsl.cursor (by omega) (hempty.mpr hz)) (by omega) hcap hsize hi
      rw [← ht'] at hlog
      exact Holds.readsFromNowOn (Or.inl ⟨_, hlog⟩) hds hI' (by omega)
    · exact Holds.readsFromNowOn (hkeep' (hkeep (hcons.holds hb)) fun _ => hout) hds hI'
        (hcons.block hb).1

/-- On a fresh device a write of eight blocks, two zones, works. -/
theorem largeWriteWorks_fresh :
    LargeWriteWorks wideDrive (fresh wideDrive) (fun _ => none) 3 8 :=
  (largeWriteWorks_iff wideDrive (session_fresh wideDrive fun _ _ _ => True) (by decide) (by decide)
    (by decide) (by decide) (show 0 + 8 < (4 + 1) * 4 by decide)).mpr
    ⟨⟨by decide, rfl⟩, Or.inr (by decide), fun _ => rfl⟩

/-- **The failing run**: after one block has been written, a write of four blocks is refused,
although the log has room for eleven. -/
theorem four_blocks_after_one :
    let w := ((znsUdeviceWrite wideDrive.config [] (0 * 65536) (1 * 65536) fun _ => 7).run exec
      (fresh wideDrive)).2
    w.ftl.logZoneEnd = 1 ∧
      ((znsUdeviceWrite wideDrive.config [HashOrder.stored] (4 * 65536) (4 * 65536)
        fun _ => 9).run exec w).1 = some commandError ∧
      ¬ LargeWriteWorks wideDrive w (Function.update (fun _ => none) 0 (some 7)) 4 4 := by
  intro w
  have hfail : ((znsUdeviceWrite wideDrive.config [HashOrder.stored] (4 * 65536) (4 * 65536)
      fun _ => 9).run exec w).1 = some commandError := by decide +kernel
  refine ⟨by decide +kernel, hfail, fun hworks => ?_⟩
  obtain ⟨w', hw', -⟩ := hworks [HashOrder.stored] (fun _ => 9) (List.cons_ne_nil _ _)
  have h0 : some commandError = some 0 := hfail.symm.trans (congrArg Prod.fst hw')
  exact absurd h0 (by decide)

end StoSys
