import StoSys.Properties.ReadYourWrites

/-!
# Writes of several blocks below `MDTS`

After an append of `k` blocks the code sets `log_zone_end = lba_result + 1`, one past the *first*
block of the append, while the drive is `k` blocks further on.  The next one-block write is then
entered in the map under the address of the append's second block, or is refused because the zone is
full.  So a write of `k` blocks stands for `k` one-block writes only when `k = 1`.

The two runs that are compared meet the same iteration orders: every pass of either run uses the
same `HashOrder`, and is granted as often as it is asked for.
-/

namespace StoSys

open Effect HashMap Zoned CInt

variable {B : Type} [Zero B] {g : Setup B} {w : World g.drive} {ord : HashOrder}

/-- A write of `k` blocks from block `a` on returns `r`, after at most `n` passes. -/
def WriteReturns (g : Setup B) (ord : HashOrder) (w : World g.drive) (a k : ℕ) (buf : Buffer B)
    (r : ℤ) (w' : World g.drive) : Prop :=
  ∃ n, (znsUdeviceWrite g.config (List.replicate n ord) (a * g.lba) (k * g.lba) buf).run exec w
    = (some r, w')

/-- A run of one-block writes, each of which returns a code that satisfies `P`. -/
inductive OneBlockWrites (g : Setup B) (ord : HashOrder) (P : ℤ → Prop) :
    World g.drive → List (ℕ × Buffer B) → World g.drive → Prop
  | nil {w : World g.drive} : OneBlockWrites g ord P w [] w
  | cons {w w₁ w' : World g.drive} {q : ℕ} {buf : Buffer B} {r : ℤ} {l : List (ℕ × Buffer B)}
      (hq : q < g.capacity) (h : WriteReturns g ord w q 1 buf r w₁) (hr : P r)
      (rest : OneBlockWrites g ord P w₁ l w') : OneBlockWrites g ord P w ((q, buf) :: l) w'

/-- The `k` one-block writes that a write of `k` blocks stands for. -/
def pieces (a k : ℕ) (buf : Buffer B) : List (ℕ × Buffer B) :=
  (List.range k).map fun i => (a + i, fun j => buf (i + j))

/-- **A write of `k` blocks stands for `k` one-block writes**: it succeeds when they all do (and
changes nothing when there are none), and no continuation of one-block writes can tell the two runs
apart by reading a block. -/
def StandsForPieces (g : Setup B) (w : World g.drive) (a k : ℕ) : Prop :=
  ∀ (ord : HashOrder) (buf : Buffer B) (w₁ : World g.drive),
    OneBlockWrites g ord (· = 0) w (pieces a k buf) w₁ →
    (∃ w₂, WriteReturns g ord w a k buf 0 w₂) ∧
    ∀ r w₂, WriteReturns g ord w a k buf r w₂ → r = 0 ∧ (k = 0 → w₂ = w) ∧
      ∀ (l : List (ℕ × Buffer B)) (w₁' w₂' : World g.drive),
        OneBlockWrites g ord (fun _ => True) w₁ l w₁' →
        OneBlockWrites g ord (fun _ => True) w₂ l w₂' →
        ∀ (q : ℕ) (buf' : Buffer B), q < g.capacity →
          ((znsUdeviceRead g.config (q * g.lba) g.lba buf').run exec w₁').1
            = ((znsUdeviceRead g.config (q * g.lba) g.lba buf').run exec w₂').1

/-! ## One block -/

/-- More passes than needed change nothing. -/
lemma watermarkLoop_replicate (k : ℕ) : ∀ (n m : ℕ) (w : World g.drive),
    ((watermarkLoop g.config k (List.replicate n ord) : Prog B Bool).run exec w).1 = true →
    (watermarkLoop g.config k (List.replicate (n + m) ord) : Prog B Bool).run exec w
      = (watermarkLoop g.config k (List.replicate n ord) : Prog B Bool).run exec w := by
  intro n
  induction n with
  | zero =>
      intro m w h
      rcases Nat.lt_or_ge g.gcWmark (freeZoneNumber g.config w.ftl (toI32 k)) with hf | hf
      · rw [run_watermarkLoop_left hf, run_watermarkLoop_left hf]
      · rw [List.replicate_zero, run_watermarkLoop_nil hf] at h
        cases h
  | succ n ih =>
      intro m w h
      rcases Nat.lt_or_ge g.gcWmark (freeZoneNumber g.config w.ftl (toI32 k)) with hf | hf
      · rw [run_watermarkLoop_left hf, run_watermarkLoop_left hf]
      · rw [Nat.succ_add, List.replicate_succ, List.replicate_succ, run_watermarkLoop_pass hf,
          run_watermarkLoop_pass hf]
        rw [List.replicate_succ, run_watermarkLoop_pass hf] at h
        exact ih m _ h

/-- A write returns one result. -/
lemma WriteReturns.unique {a k : ℕ} {buf : Buffer B} {r r' : ℤ} {w₁ w₂ : World g.drive}
    (h₁ : WriteReturns g ord w a k buf r w₁) (h₂ : WriteReturns g ord w a k buf r' w₂) :
    r = r' ∧ w₁ = w₂ := by
  have key : ∀ {n m : ℕ} {r r' : ℤ} {w₁ w₂ : World g.drive},
      (znsUdeviceWrite g.config (List.replicate n ord) (a * g.lba) (k * g.lba) buf).run exec w
        = (some r, w₁) →
      (znsUdeviceWrite g.config (List.replicate (n + m) ord) (a * g.lba) (k * g.lba) buf).run exec w
        = (some r', w₂) → r = r' ∧ w₁ = w₂ := by
    intro n m r r' w₁ w₂ hn hm
    obtain ⟨-, hleft, hbody⟩ := write_left rfl hn
    obtain ⟨-, -, hbody'⟩ := write_left rfl hm
    rw [watermarkLoop_replicate k n m _ hleft, hbody] at hbody'
    exact Prod.ext_iff.mp hbody'
  obtain ⟨n, hn⟩ := h₁
  obtain ⟨m, hm⟩ := h₂
  rcases Nat.le_total n m with hle | hle
  · obtain ⟨d, rfl⟩ := Nat.exists_eq_add_of_le hle
    exact key hn hm
  · obtain ⟨d, rfl⟩ := Nat.exists_eq_add_of_le hle
    obtain ⟨hr, hw⟩ := key hm hn
    exact ⟨hr.symm, hw.symm⟩

/-- So does a run of writes. -/
lemma OneBlockWrites.unique {P P' : ℤ → Prop} {l : List (ℕ × Buffer B)} {w₁ w₂ : World g.drive}
    (h₁ : OneBlockWrites g ord P w l w₁) (h₂ : OneBlockWrites g ord P' w l w₂) : w₁ = w₂ := by
  induction h₁ with
  | nil => cases h₂; rfl
  | cons hq h hr rest ih =>
      cases h₂ with
      | cons hq' h' hr' rest' =>
          obtain ⟨-, rfl⟩ := h.unique h'
          exact ih rest'

/-- One block is one block, in whatever state. -/
lemma standsForPieces_one (g : Setup B) (w : World g.drive) (a : ℕ) : StandsForPieces g w a 1 := by
  intro ord buf w₁ h
  have hpieces : pieces a 1 buf = [(a, buf)] := by simp [pieces]
  rw [hpieces] at h
  cases h with
  | cons hq h hr rest =>
      cases rest with
      | nil =>
          obtain rfl := hr
          refine ⟨⟨_, h⟩, fun r w₂ h₂ => ?_⟩
          obtain ⟨rfl, rfl⟩ := h.unique h₂
          refine ⟨rfl, fun h0 => absurd h0 Nat.one_ne_zero, fun l w₁' w₂' hl₁ hl₂ q buf' _ => ?_⟩
          rw [hl₁.unique hl₂]

/-! ## Any other number of blocks -/

/-- From a state of a session the pieces can be written, and each can be read back. -/
lemma exists_oneBlockWrites (hds : g.ds < 18) (hroom : 1 < g.logRoom) (ord : HashOrder) :
    ∀ (l : List (ℕ × Buffer B)) (w : World g.drive), Synced g w → (∀ x ∈ l, x.1 < g.capacity) →
      ∃ w₁, OneBlockWrites g ord (· = 0) w l w₁ ∧ Synced g w₁
  | [], w, h, _ => ⟨w, .nil, h⟩
  | (q, buf) :: l, w, h, hl => by
      have hq := hl _ (List.mem_cons_self ..)
      have hret := h.write_returns [ord] hds hq buf hroom (Or.inl (List.cons_ne_nil _ _))
      have hwrite := h.write [ord] hds hq buf
      generalize hw : (znsUdeviceWrite g.config [ord] (q * g.lba) g.lba buf).run exec w = r
        at hret hwrite
      rcases hwrite with hnone | ⟨-, hsync, -⟩
      · rw [hret] at hnone
        cases hnone
      · obtain ⟨w₁, hrest, hsync₁⟩ := exists_oneBlockWrites hds hroom ord l r.2 hsync
          fun x hx => hl x (List.mem_cons_of_mem _ hx)
        refine ⟨w₁, .cons hq ⟨1, ?_⟩ rfl hrest, hsync₁⟩
        rw [Nat.one_mul]
        exact hw.trans (Prod.ext hret rfl)

/-- Where the watermark loop leaves a session, for a request of any size. -/
lemma Synced.left {a k : ℕ} {buf : Buffer B} {r : ℤ} {w' : World g.drive} (h : Synced g w)
    (hk : k < 1073741824) (hw : WriteReturns g ord w a k buf r w') :
    ∃ s, Inv g s ∧ AtCursor g s ∧
      (s.ftl.logZoneEnd + k < g.logRoom ∨
        (g.logZones + 1) * g.nBlocks ≤ s.ftl.logZoneEnd + k) ∧
      (writeBody g.config (a * g.lba) (k * g.lba) buf).run exec s = (r, w') := by
  obtain ⟨n, hw⟩ := hw
  obtain ⟨-, hl, hbody⟩ := write_left rfl hw
  obtain ⟨⟨hI, hat⟩, hleft⟩ := watermarkLoop_rule (P := fun s => Inv g s ∧ AtCursor g s) (k := k)
    (fun ord s hs _ => by
      obtain ⟨-, hI, hclear, -⟩ := hs.1.collect ord
      exact ⟨hI, hclear.atCursor⟩)
    (List.replicate n ord) (locked w) ⟨h.inv.setFlags rfl rfl, h.cursor⟩
  have hend := hI.end_le
  have hlr := g.logRoom_lt
  exact ⟨_, hI, hat, (watermark_lt_iff hI.start (by omega)).mp (hleft hl), hbody⟩

/-- A write of no blocks is refused: the append it issues is for `65536`. -/
lemma not_standsForPieces_zero (h : Inv g w) (a : ℕ) : ¬ StandsForPieces g w a 0 := by
  intro hstands
  let hord := HashOrder.stored
  obtain ⟨⟨w₂, n, hw⟩, -⟩ := hstands hord (fun _ => 0) w .nil
  obtain ⟨-, -, hbody⟩ := write_left rfl hw
  obtain ⟨hI, -⟩ := watermarkLoop_rule (P := Inv g) (k := 0)
    (fun ord s hs _ => (hs.collect ord).2.1) (List.replicate n hord) (locked w)
    (h.setFlags rfl rfl)
  have hend := hI.end_le
  have hlr := g.logRoom_lt
  have hmdts : mdts = 262144 := rfl
  rw [run_writeBody_append_refused (by omega) (by omega) rfl (Or.inl rfl)] at hbody
  cases hbody

/-- The state a write of `k` blocks leaves when it succeeds: the cursor is one block on, the zone of
the cursor `k` blocks. -/
structure Appended (w : World g.drive) (a k c : ℕ) (buf : Buffer B) : Prop where
  inv : Inv g w
  mutex : w.ftl.gcMutex = false
  ends : w.ftl.logZoneEnd = c + 1
  fits : c % g.nBlocks + k ≤ g.nBlocks
  room : c + k < g.logRoom
  zone : (w.media.zone (c / g.nBlocks)).length = c % g.nBlocks + k
  logged : ∀ i < k, Logged w (a + i) (c + i) (buf i)

lemma Synced.append {a k : ℕ} {buf : Buffer B} {w₂ : World g.drive} (h : Synced g w) (hk : 0 < k)
    (hsmall : k * g.lba < mdts) (hcap : a + k ≤ g.capacity)
    (hw : WriteReturns g ord w a k buf 0 w₂) : ∃ c, Appended w₂ a k c buf := by
  have hmdts : mdts = 262144 := rfl
  obtain ⟨s, hI, hat, hpass, hbody⟩ := h.left (blocks_lt (g := g) (by omega)) hw
  have hend := hI.end_le
  have hlr := g.logRoom_lt
  have hn := g.nBlocks_pos
  have hle := g.logRoom_add_le
  have hmod := Nat.mod_lt s.ftl.logZoneEnd hn
  have hL : (g.logZones + 1) * g.nBlocks = g.logZones * g.nBlocks + g.nBlocks := Nat.succ_mul _ _
  -- what the drive accepts fits into one zone, so the request has not wrapped
  have hfits : (s.media.zone (s.ftl.logZoneEnd / g.nBlocks)).length + k ≤ g.nBlocks := by
    by_contra hno
    rw [run_writeBody_append_refused hsmall (by omega) rfl (Or.inr (by omega))] at hbody
    cases hbody
  have hroom : s.ftl.logZoneEnd + k < g.logRoom := by omega
  have hzone := hat.zone (show s.ftl.logZoneEnd < g.logRoom by omega)
  obtain ⟨-, hmutex, hends, hlogged, hzones⟩ := writeBody_atCursor hk hsmall hcap hroom hzone
    (by omega) buf
  have hkeep := (hI.writeBody hcap (by omega) (Or.inl hroom) buf).1
  rw [hbody] at hmutex hends hlogged hzones hkeep
  refine ⟨s.ftl.logZoneEnd, hkeep, hmutex, hends, by omega, hroom, ?_, hlogged⟩
  rw [hzones, if_pos rfl, List.length_append, Buffer.length_slice, hzone]

/-- **The next one-block write goes wrong**: whatever is written to block `a`, a read of `a`
returns the first or the second block of the append. -/
lemma Appended.next {a k c : ℕ} {buf : Buffer B} (h : Appended w a k c buf) (hk : 2 ≤ k)
    (hds : g.ds < 18) (hcap : a + k ≤ g.capacity) (ord : HashOrder) (buf' : Buffer B) :
    ∃ r w', WriteReturns g ord w a 1 buf' r w' ∧ Inv g w' ∧
      (Holds w' a (buf 0) ∨ Holds w' a (buf 1)) := by
  have hn := g.nBlocks_pos
  have hend := h.ends
  have hfits := h.fits
  have hroom := h.room
  have hlr := g.logRoom_lt
  have hle := g.logRoom_add_le
  have hwrap := h.inv.no_wrap
  have hI : Inv g (locked w) := h.inv.setFlags rfl rfl
  have hloop := hI.watermarkLoop_room (k := 1) hwrap
    (show w.ftl.logZoneEnd + 1 < g.logRoom by omega) (List.replicate 0 ord)
  have hrun := run_write (a := a * g.lba) (k := 1) (List.replicate 0 ord) h.mutex buf'
  simp only [hloop, if_true] at hrun
  have hkeep := (write_keeps (a := a) (k := 1) h.inv (by omega)
    (by rw [Nat.one_mul]; exact g.lba_lt) (Or.inl (one_small hds)) (List.replicate 0 ord) buf').1
  rw [hrun] at hkeep
  refine ⟨_, _, ⟨0, hrun⟩, hkeep, ?_⟩
  -- the cursor is still in the zone of the append
  obtain ⟨z, hz⟩ : ∃ z, c / g.nBlocks = z := ⟨_, rfl⟩
  have hdm := Nat.div_add_mod' c g.nBlocks
  have hzone := h.zone
  rw [hz] at hzone hdm
  have hzcur : (locked w).ftl.logZoneEnd / g.nBlocks = z := by
    have hdiv : (z * g.nBlocks + (c % g.nBlocks + 1)) / g.nBlocks = z :=
      Media.addr_div (d := g.drive) (show c % g.nBlocks + 1 < g.nBlocks by omega)
    change w.ftl.logZoneEnd / g.nBlocks = z
    rw [hend, ← hdiv]
    congr 1
    omega
  have hzL : z < g.logZones := by
    rw [← hz]
    exact (Nat.div_lt_iff_lt_mul hn).mpr (by omega)
  have hsmall := one_small hds
  have hcur : (locked w).ftl.logZoneEnd < 2147483648 := by
    change w.ftl.logZoneEnd < _
    omega
  rcases Nat.lt_or_ge (c % g.nBlocks + k) g.nBlocks with hopen | hfull
  · -- the zone is open: the block lands behind the append, the map names its second block
    have hfit : ((locked w).media.zone z).length + (buf'.slice 0 1).length ≤ g.nBlocks := by
      change (w.media.zone z).length + _ ≤ _
      rw [Buffer.length_slice, hzone]
      omega
    rw [run_writeBody_append Nat.one_pos hsmall hcur hzcur (by have := g.logZones_lt; omega) buf' hfit]
    obtain ⟨-, hwritten, hblock⟩ := h.logged 1 (by omega)
    obtain ⟨hwritten', hblock'⟩ := (grew_append (w := locked w) z (buf'.slice 0 1)
      (by rw [List.length_append]; exact hfit)).blockAt hwritten
    refine Or.inr (Or.inl ⟨c + 1, ?_⟩)
    have hlog := logged_entered (w := ⟨{ (locked w).ftl with logZoneEnd := _ }, _⟩) (q := a) (k := 1)
      (i := 0) (c := c + 1) (by omega) (by rw [Nat.one_mul]; exact g.lba_lt) Nat.one_pos (by omega)
      hwritten' (hblock'.trans hblock)
    change Logged (entered _ a 1 w.ftl.logZoneEnd) a (c + 1) _
    rw [hend]
    exact hlog
  · -- the zone is full: the block is refused
    rw [run_writeBody_append_refused hsmall hcur hzcur (Or.inr (by
      change _ < (w.media.zone z).length + 1
      omega))]
    exact Or.inl (Or.inl ⟨c, h.logged 0 (by omega)⟩)

/-- Two or more blocks: the block written next tells the runs apart. -/
lemma not_standsForPieces_two [Nontrivial B] {a k : ℕ} (hds : g.ds < 18) (hroom : 1 < g.logRoom)
    (hsync : Synced g w) (hk : 2 ≤ k) (hsmall : k * g.lba < mdts) (hcap : a + k ≤ g.capacity) :
    ¬ StandsForPieces g w a k := by
  intro hstands
  let ord := HashOrder.stored
  obtain ⟨b₀, b₁, hb⟩ := exists_pair_ne B
  have hpieces : ∀ x ∈ pieces a k (fun _ => b₀), x.1 < g.capacity := by
    intro x hx
    obtain ⟨i, hi, rfl⟩ := List.mem_map.mp hx
    have := List.mem_range.mp hi
    change a + i < _
    omega
  obtain ⟨w₁, hw₁, hsync₁⟩ := exists_oneBlockWrites hds hroom ord _ w hsync hpieces
  obtain ⟨⟨w₂, hw₂⟩, hsame⟩ := hstands ord _ w₁ hw₁
  obtain ⟨-, -, hreads⟩ := hsame 0 w₂ hw₂
  -- write `b₁` to block `a` in both runs
  obtain ⟨c, happended⟩ := hsync.append (by omega) hsmall hcap hw₂
  obtain ⟨r, w₂', hw₂', hI₂, hbad⟩ := happended.next hk hds hcap ord fun _ => b₁
  have hread₂ := (or_self_iff.mp hbad).run_read (by omega) hI₂.log hI₂.zones (by omega) fun _ => b₀
  have hret := hsync₁.write_returns [ord] hds (show a < g.capacity by omega) (fun _ => b₁) hroom
    (Or.inl (List.cons_ne_nil _ _))
  have hgood := hsync₁.write [ord] hds (show a < g.capacity by omega) fun _ => b₁
  generalize hr₁ : (znsUdeviceWrite g.config [ord] (a * g.lba) g.lba fun _ => b₁).run exec w₁ = r₁
    at hret hgood
  rcases hgood with hnone | ⟨-, hsync₁', hholds⟩
  · rw [hret] at hnone
    cases hnone
  have hread₁ := hholds.run_read (by omega) hsync₁'.inv.log hsync₁'.inv.zones (by omega) fun _ => b₀
  have hl₁ : OneBlockWrites g ord (fun _ => True) w₁ [(a, fun _ => b₁)] r₁.2 := by
    refine .cons (r := 0) (by omega) ⟨1, ?_⟩ trivial .nil
    rw [Nat.one_mul]
    exact hr₁.trans (Prod.ext hret rfl)
  have hl₂ : OneBlockWrites g ord (fun _ => True) w₂ [(a, fun _ => b₁)] w₂' :=
    .cons (by omega) hw₂' trivial .nil
  have heq := hreads _ _ _ hl₁ hl₂ a (fun _ => b₀) (by omega)
  rw [hread₁, hread₂] at heq
  have h0 := congrFun (congrArg Prod.snd heq) 0
  dsimp only at h0
  rw [Buffer.store_single, Buffer.store_single, if_pos rfl, if_pos rfl] at h0
  exact hb h0.symm

/-! ## Exactly when -/

/-- **Where a write of `k` blocks below `MDTS` stands for `k` one-block writes.**  In every state,
when `k = 1`; and in the states one-block writes lead to, only then, unless the log has room for a
single block and one-block writes never return. -/
theorem standsForPieces_iff [Nontrivial B] (g : Setup B) :
    (∀ (w : World g.drive) (a : ℕ), StandsForPieces g w a 1) ∧
    ∀ {c : Config} {w : World g.drive} {s : Store B}, Session g (fun _ _ _ => True) c w s →
      ∀ {a k : ℕ}, k * g.lba < mdts → a + k ≤ g.capacity →
        (StandsForPieces g w a k ↔ k = 1 ∨ 0 < k ∧ g.logRoom ≤ 1) := by
  refine ⟨standsForPieces_one g, fun {c w s} hsession {a k} hsmall hcap => ?_⟩
  rcases Nat.eq_zero_or_pos k with rfl | hk
  · refine iff_of_false (not_standsForPieces_zero hsession.consistent.inv a) ?_
    omega
  have hds := ds_lt_of_small hk hsmall
  have hsync := (hsession.synced hds).1
  rcases Nat.lt_or_ge 1 g.logRoom with hroom | hroom
  · rcases Nat.lt_or_ge 1 k with hk2 | hk1
    · refine iff_of_false (fun hstands => ?_) (by omega)
      exact not_standsForPieces_two hds hroom hsync hk2 hsmall hcap hstands
    · obtain rfl : k = 1 := by omega
      exact iff_of_true (standsForPieces_one g w a) (Or.inl rfl)
  · -- one-block writes never return
    refine iff_of_true (fun ord buf w₁ h => ?_) (Or.inr ⟨hk, hroom⟩)
    obtain ⟨k, rfl⟩ := Nat.exists_eq_succ_of_ne_zero (Nat.ne_of_gt hk)
    rw [pieces, List.range_succ_eq_map, List.map_cons] at h
    cases h with
    | cons hq hw hr rest =>
        obtain ⟨n, hw⟩ := hw
        obtain ⟨-, hl, -⟩ := write_left rfl hw
        rcases hsync.loop (List.replicate n ord) with hno | ⟨-, -, -, hlt, -⟩
        · rw [hno] at hl
          cases hl
        · omega

/-- On a fresh device one block is one block, and two blocks are not two. -/
theorem standsForPieces_iff_fresh :
    StandsForPieces smallDrive (fresh smallDrive) 0 1 ∧
      ¬ StandsForPieces smallDrive (fresh smallDrive) 0 2 := by
  have h := standsForPieces_iff smallDrive
  have hfresh := session_fresh smallDrive fun _ _ _ => True
  refine ⟨h.1 _ _, fun hstands => ?_⟩
  have hor := (h.2 hfresh (show 2 * smallDrive.lba < mdts by decide)
    (show 0 + 2 ≤ smallDrive.capacity by decide)).mp hstands
  exact absurd hor (by decide)

/-- **The failing run**: blocks `0` and `1` are written in one request, with bytes `1` and `2`; then
block `5` with byte `9`.  Both requests succeed, and block `5` reads as byte `2`. -/
theorem two_blocks_then_one :
    let r₁ := (znsUdeviceWrite smallDrive.config [] (0 * 4096) (2 * 4096)
      fun j => if j = 0 then 1 else 2).run exec (fresh smallDrive)
    let r₂ := (znsUdeviceWrite smallDrive.config [] (5 * 4096) (1 * 4096) fun _ => 9).run exec r₁.2
    let r₃ := (znsUdeviceRead smallDrive.config (5 * 4096) 4096 fun _ => 0).run exec r₂.2
    (r₁.1 = some 0 ∧ r₂.1 = some 0 ∧ r₃.1.1 = 0 ∧ r₃.1.2 0 = 2) ∧
      ¬ StandsForPieces smallDrive (fresh smallDrive) 0 2 := by
  refine ⟨by decide +kernel, ?_⟩
  exact not_standsForPieces_two (by decide) (by decide) (synced_fresh _) (by decide) (by decide)
    (by decide)

end StoSys
