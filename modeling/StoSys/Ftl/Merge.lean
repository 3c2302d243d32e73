import StoSys.Ftl.Zones

/-!
# Merging one virtual zone

One iteration of the loop of `zone_merge` reads the old data zone of `v` into the buffer, lays the
log blocks of `v` over it, and puts the buffer into a zone.  There are two ways to do the last step:

* **relocation**, when some data zone is marked empty: the buffer goes to that zone, the map is
  switched to it, and the old zone is reset;
* **in place**, when none is: the old zone is reset and then filled again.

`Relocated` and `Rewritten` say what each way does to zone marks, map and medium; `During` says what
another thread can see of `v`, and of everything else, while it happens.
-/

namespace StoSys

open Effect HashMap Zoned CInt

variable {B : Type}

/-! ## The buffer -/

lemma Buffer.take_slice (buf : Buffer B) (i : ℤ) {k cnt : ℕ} (h : k ≤ cnt) :
    (buf.slice i cnt).take k = buf.slice i k := by
  obtain ⟨r, rfl⟩ := Nat.exists_eq_add_of_le h
  rw [Buffer.slice_add]
  exact List.take_left' (Buffer.length_slice buf i k)

lemma Buffer.store_single (buf : Buffer B) (i j : ℤ) (b : B) :
    buf.store i [b] j = if j = i then b else buf j := by
  unfold Buffer.store
  by_cases h : i ≤ j
  · obtain ⟨k, rfl⟩ := Int.le.dest h
    rw [if_pos h, add_sub_cancel_left, Int.toNat_natCast]
    cases k with
    | zero => simp
    | succ k => rw [if_neg (by push_cast; omega)]; rfl
  · rw [if_neg h, if_neg (by omega)]

lemma Buffer.store_blocks {d : Drive B} (buf : Buffer B) (m : Media d) (s cnt : ℕ) (j : ℤ) :
    buf.store 0 (m.blocks s cnt) j
      = if 0 ≤ j ∧ j < cnt then m.blockAt (s + j.toNat) else buf j := by
  unfold Buffer.store
  rw [Int.sub_zero, Media.getElem?_blocks]
  by_cases h : 0 ≤ j
  · by_cases hlt : j < cnt
    · rw [if_pos h, if_pos (by omega), if_pos ⟨h, hlt⟩, Option.getD_some]
    · rw [if_pos h, if_neg (by omega), if_neg (by omega), Option.getD_none]
  · rw [if_neg h, if_neg (by omega)]

section

variable {g : Setup B}

/-- The log blocks of one zone: offsets inside the zone, addresses below the last log zone. -/
def SetOk (g : Setup B) (set : UMap ℤ) : Prop :=
  ∀ {o x}, set.lookup o = some x → ∃ o' y : ℕ, o = o' ∧ o' < g.nBlocks ∧ x = y ∧
    y < (g.logZones - 1) * g.nBlocks

lemma below_lastLog {y : ℕ} (hy : y < (g.logZones - 1) * g.nBlocks) :
    y / g.nBlocks < g.logZones - 1 ∧ y < g.nrZones * g.nBlocks := by
  have h := g.logZones_lt
  refine ⟨(Nat.div_lt_iff_lt_mul g.nBlocks_pos).mpr hy, Nat.lt_of_lt_of_le hy ?_⟩
  exact Nat.mul_le_mul_right _ (by omega)

/-- What the buffer holds once the data zone of `v` has been read. -/
def oldBuf (w : World g.drive) (v : ℤ) (buf : Buffer B) : Buffer B := fun j =>
  if 0 ≤ j ∧ j < g.nBlocks then (dataAt w v j.toNat).getD (buf j) else buf j

/-- **What the buffer holds when `v` is written**: its log blocks, under them its data zone if it
has one, and under that whatever the buffer held before. -/
def merged (w : World g.drive) (v : ℤ) (set : UMap ℤ) (buf : Buffer B) : Buffer B := fun j =>
  match set.lookup j with
  | some x => w.media.blockAt x.toNat
  | none => oldBuf w v buf j

/-- The reads of `readLogBlocks`, in order. -/
def overlay (m : Media g.drive) (blocks : List (Sigma fun _ : ℤ => ℤ)) (buf : Buffer B) :
    Buffer B :=
  blocks.foldl (fun buf e => buf.store e.1 [m.blockAt e.2.toNat]) buf

/-- The order of the reads does not matter: offsets are distinct. -/
lemma overlay_eq (m : Media g.drive) : ∀ (blocks : List (Sigma fun _ : ℤ => ℤ)) (buf : Buffer B),
    blocks.NodupKeys → ∀ j, overlay m blocks buf j
      = match blocks.dlookup j with
        | some x => m.blockAt x.toNat
        | none => buf j
  | [], buf, _, j => rfl
  | ⟨o, x⟩ :: rest, buf, hnd, j => by
      rw [List.nodupKeys_cons] at hnd
      rw [overlay, List.foldl_cons]
      have ih := overlay_eq m rest (buf.store o [m.blockAt x.toNat]) hnd.2 j
      rw [overlay] at ih
      rw [ih]
      by_cases hj : j = o
      · subst hj
        have hnone : rest.dlookup j = none := List.dlookup_eq_none.mpr hnd.1
        rw [hnone, List.dlookup_cons_eq]
        exact (Buffer.store_single buf j j _).trans (if_pos rfl)
      · rw [List.dlookup_cons_ne _ _ hj]
        cases rest.dlookup j with
        | some y => rfl
        | none => exact (Buffer.store_single buf o j _).trans (if_neg hj)

lemma overlay_order (t : Traversal ℤ) (w : World g.drive) (v : ℤ) (set : UMap ℤ) (buf : Buffer B) :
    overlay w.media (t.order set) (oldBuf w v buf) = merged w v set buf := by
  funext j
  rw [overlay_eq w.media _ _ (t.nodupKeys set), merged,
    List.perm_dlookup j (t.nodupKeys set) (t.perm set)]
  rfl

variable {w : World g.drive} {I : World g.drive → Prop}

/-- Reading the log blocks. -/
lemma run_readLogBlocks : ∀ (blocks : List (Sigma fun _ : ℤ => ℤ)) (buf : Buffer B),
    (∀ e ∈ blocks, ∃ x : ℕ, e.2 = x ∧ x < g.nrZones * g.nBlocks) →
    (readLogBlocks g.config blocks buf).run exec w = ((0, overlay w.media blocks buf), w)
  | [], buf, _ => rfl
  | ⟨o, v⟩ :: rest, buf, hok => by
      obtain ⟨x, hv, hx⟩ := hok ⟨o, v⟩ (List.mem_cons_self ..)
      dsimp only at hv
      subst hv
      have hx64 : toU64 (x : ℤ) = x := toU64_of_lt (by have := g.total_lt; omega)
      have ih := run_readLogBlocks rest (buf.store o [w.media.blockAt x])
        fun e he => hok e (List.mem_cons_of_mem _ he)
      rw [readLogBlocks]
      simp only [hx64, Setup.config_lbaSizeBytes, Program.run_bind, run_nvmeRead_one hx, ne_eq,
        not_true_eq_false, if_false]
      exact ih

lemma always_readLogBlocks (c : Config) : ∀ (blocks : List (Sigma fun _ : ℤ => ℤ)) (buf : Buffer B),
    I w → Program.Always exec I (readLogBlocks c blocks buf) w
  | [], _, hI => Program.always_pure.mpr hI
  | ⟨o, v⟩ :: rest, buf, hI => by
      rw [readLogBlocks, Program.always_bind, always_nvmeRead, run_nvmeRead_snd]
      refine ⟨hI, Program.Always.ite (Program.always_pure.mpr hI) ?_⟩
      exact always_readLogBlocks c rest _ hI

/-! ## The old data zone -/

/-- `w` after the data zone of `v`, if there is one, has been marked empty. -/
def markOld (w : World g.drive) (v : ℤ) : World g.drive :=
  match w.ftl.dataZoneMapping.lookup v with
  | none => w
  | some zone => { w with ftl := w.ftl.setZoneState (zone.tdiv g.nBlocks) emptyZone }

lemma run_readOldZone_some (hds : g.ds ≤ 18) {v : ℤ} {e : ℕ}
    (hv : w.ftl.dataZoneMapping.lookup v = some ((e * g.nBlocks : ℕ) : ℤ)) (he : e < g.nrZones)
    (buf : Buffer B) :
    (readOldZone g.config v buf).run exec w
      = ((0, ((e * g.nBlocks : ℕ) : ℤ), oldBuf w v buf), markOld w v) := by
  have h64 := g.toU64_start he
  have hread := run_ioWithMdts_read (w := w) hds he (o := 0) (k := g.nBlocks) (by omega) 0 buf
  rw [Nat.add_zero, Int.zero_mul] at hread
  have hbuf : buf.store 0 (w.media.blocks (e * g.nBlocks) g.nBlocks) = oldBuf w v buf := by
    funext j
    rw [Buffer.store_blocks, oldBuf]
    simp only [dataAt, hv, Option.map_some, Option.getD_some, Int.toNat_natCast]
  rw [readOldZone, Program.run_bind, run_getFtl]
  simp only [hv, h64, Setup.config_nBlocksPerZone, Setup.config_lbaSizeBytes, Program.run_bind,
    hread, ne_eq, not_true_eq_false, if_false, run_modifyFtl, Program.run_pure, hbuf, markOld]

lemma run_readOldZone (hds : g.ds ≤ 18) (hz : ZoneInv g w) (v : ℤ) (buf : Buffer B) :
    (readOldZone g.config v buf).run exec w
      = ((0, (w.ftl.dataZoneMapping.lookup v).getD (-1), oldBuf w v buf), markOld w v) := by
  cases hv : w.ftl.dataZoneMapping.lookup v with
  | none =>
      have hbuf : oldBuf w v buf = buf := by
        funext j
        simp [oldBuf, dataAt, hv]
      rw [readOldZone, Program.run_bind, run_getFtl]
      simp only [hv, markOld, hbuf, Program.run_pure, Option.getD_none]
  | some zone =>
      obtain ⟨e, rfl, -, he, -⟩ := hz.val hv
      exact run_readOldZone_some hds hv he buf

lemma always_readOldZone (v : ℤ) (buf : Buffer B) (hI : I w) (hI' : I (markOld w v)) :
    Program.Always exec I (readOldZone g.config v buf) w := by
  rw [readOldZone, Program.always_bind, always_getFtl, run_getFtl]
  refine ⟨hI, ?_⟩
  rw [markOld] at hI'
  cases hv : w.ftl.dataZoneMapping.lookup v with
  | none => exact Program.always_pure.mpr hI
  | some zone =>
      rw [hv] at hI'
      have hread : ∀ r : ℤ × Buffer B, Program.Always exec I
          (if r.1 ≠ 0 then pure (r.1, -1, r.2)
          else do
            modifyFtl fun m => m.setZoneState (zone.tdiv g.config.nBlocksPerZone) emptyZone
            pure (0, zone, r.2) : Prog B (ℤ × ℤ × Buffer B)) w := by
        intro r
        refine Program.Always.ite (Program.always_pure.mpr hI) ?_
        simp only [Program.always_bind, always_modifyFtl, run_modifyFtl, Program.always_pure]
        exact ⟨⟨hI, hI'⟩, hI'⟩
      refine Program.always_bind.mpr ⟨(always_ioLoop_read _ _ _ _ _ _ _).mpr hI, ?_⟩
      rw [ioWithMdts, run_ioLoop_read_snd]
      exact hread _

/-! ## The two ways out -/

/-- `w'` is `w` after `v` has been relocated to zone `e` with contents `bs`. -/
structure Relocated (v : ℤ) (e : ℕ) (bs : List B) (w w' : World g.drive) : Prop where
  ftl : w'.ftl = { w.ftl with
    dataZoneMapping := w.ftl.dataZoneMapping.insert v ((e * g.nBlocks : ℕ) : ℤ)
    zoneStates := w'.ftl.zoneStates }
  states : ∀ i, w'.ftl.zoneStates i = if i = e then fullZone else
    if w.ftl.dataZoneMapping.lookup v = some ((i * g.nBlocks : ℕ) : ℤ) then emptyZone
    else w.ftl.zoneStates i
  zone : ∀ i, w'.media.zone i = if i = e then bs else
    if w.ftl.dataZoneMapping.lookup v = some ((i * g.nBlocks : ℕ) : ℤ) then []
    else w.media.zone i

/-- `w'` is `w` after the data zone `p` of `v` has been rewritten with contents `bs`, and the last
log zone reset. -/
structure Rewritten (v : ℤ) (p : ℕ) (bs : List B) (w w' : World g.drive) : Prop where
  old : w.ftl.dataZoneMapping.lookup v = some ((p * g.nBlocks : ℕ) : ℤ)
  ftl : w'.ftl = w.ftl
  zone : ∀ i, w'.media.zone i = if i = p then bs else
    if i = g.logZones - 1 then [] else w.media.zone i

/-! ## What stays as it was -/

/-- Only data zones, their marks and the data map may differ. -/
structure LogKept (w s : World g.drive) : Prop where
  ftl : s.ftl = { w.ftl with
    dataZoneMapping := s.ftl.dataZoneMapping
    zoneStates := s.ftl.zoneStates }
  zone : ∀ i < g.logZones - 1, s.media.zone i = w.media.zone i

/-- Virtual zone `u` is where it was, with the contents it had. -/
structure Kept (u : ℤ) (w s : World g.drive) : Prop where
  lookup : s.ftl.dataZoneMapping.lookup u = w.ftl.dataZoneMapping.lookup u
  zone : ∀ {e : ℕ}, w.ftl.dataZoneMapping.lookup u = some ((e * g.nBlocks : ℕ) : ℤ) →
    s.media.zone e = w.media.zone e

/-- Virtual zone `u` has a data zone with contents `bs`. -/
def Moved (u : ℤ) (bs : List B) (s : World g.drive) : Prop :=
  ∃ e : ℕ, g.logZones ≤ e ∧ e < g.nrZones ∧
    s.ftl.dataZoneMapping.lookup u = some ((e * g.nBlocks : ℕ) : ℤ) ∧ s.media.zone e = bs

/-- The data zone of `u` has been reset and filled again with the first `k` blocks of `bs`. -/
def Refilled (u : ℤ) (bs : List B) (k : ℕ) (w s : World g.drive) : Prop :=
  ∃ e : ℕ, g.logZones ≤ e ∧ e < g.nrZones ∧
    w.ftl.dataZoneMapping.lookup u = some ((e * g.nBlocks : ℕ) : ℤ) ∧
    s.ftl.dataZoneMapping.lookup u = some ((e * g.nBlocks : ℕ) : ℤ) ∧ s.media.zone e = bs.take k

/-- **What is seen while `v` is merged from `w`.**  `v` is where it was, or already where it is
going; or, when no data zone is free, somewhere on the way. -/
structure During (v : ℤ) (bs : List B) (w s : World g.drive) : Prop where
  log : LogKept w s
  others : ∀ u ≠ v, Kept u w s
  self : Kept v w s ∨ Moved v bs s ∨ freeZones g w.ftl = ∅ ∧ ∃ k, Refilled v bs k w s

lemma LogKept.refl (w : World g.drive) : LogKept w w := ⟨rfl, fun _ _ => rfl⟩

lemma Kept.refl (u : ℤ) (w : World g.drive) : Kept u w w := ⟨rfl, fun _ => rfl⟩

lemma During.refl (v : ℤ) (bs : List B) (w : World g.drive) : During v bs w w :=
  ⟨LogKept.refl w, fun u _ => Kept.refl u w, Or.inl (Kept.refl v w)⟩

namespace ZoneInv

/-- A zone in use is a data zone and not free. -/
lemma used (hz : ZoneInv g w) {u : ℤ} {e : ℕ}
    (hu : w.ftl.dataZoneMapping.lookup u = some ((e * g.nBlocks : ℕ) : ℤ)) :
    g.logZones ≤ e ∧ e < g.nrZones ∧ w.ftl.zoneStates e = fullZone ∧
      (w.media.zone e).length = g.nBlocks := by
  obtain ⟨e', he', h⟩ := hz.val hu
  rw [start_inj he']
  exact h

lemma used_not_free (hz : ZoneInv g w) {u : ℤ} {e : ℕ}
    (hu : w.ftl.dataZoneMapping.lookup u = some ((e * g.nBlocks : ℕ) : ℤ)) :
    e ∉ freeZones g w.ftl := by
  intro he
  have hempty := (mem_freeZones.mp he).2
  rw [(hz.used hu).2.2.1] at hempty
  exact absurd hempty (by decide)

/-- As long as only free zones, the last log zone and the zone of `v` are touched, the log and all
other virtual zones are as they were. -/
lemma frame (hz : ZoneInv g w) {v : ℤ} {s : World g.drive}
    (hftl : s.ftl = { w.ftl with
      dataZoneMapping := s.ftl.dataZoneMapping
      zoneStates := s.ftl.zoneStates })
    (hlook : ∀ u ≠ v, s.ftl.dataZoneMapping.lookup u = w.ftl.dataZoneMapping.lookup u)
    (hzone : ∀ i, i ∉ freeZones g w.ftl → i ≠ g.logZones - 1 →
      w.ftl.dataZoneMapping.lookup v ≠ some ((i * g.nBlocks : ℕ) : ℤ) →
      s.media.zone i = w.media.zone i) :
    LogKept w s ∧ ∀ u ≠ v, Kept u w s := by
  refine ⟨⟨hftl, fun i hi => hzone i ?_ (Nat.ne_of_lt hi) ?_⟩,
    fun u hu => ⟨hlook u hu, fun {e} he => hzone e (hz.used_not_free he) ?_ ?_⟩⟩
  · intro hfree
    have := (mem_freeZones.mp hfree).1
    omega
  · intro hv
    have := hz.used hv
    omega
  · have := hz.used he
    have := g.logZones_pos
    omega
  · exact fun hv => hu (hz.inj he hv)

end ZoneInv

@[simp] lemma markOld_media (w : World g.drive) (v : ℤ) : (markOld w v).media = w.media := by
  rw [markOld]
  cases w.ftl.dataZoneMapping.lookup v <;> rfl

lemma markOld_ftl (w : World g.drive) (v : ℤ) :
    (markOld w v).ftl = { w.ftl with zoneStates := (markOld w v).ftl.zoneStates } := by
  rw [markOld]
  cases w.ftl.dataZoneMapping.lookup v <;> rfl

lemma markOld_states (hz : ZoneInv g w) (v : ℤ) (i : ℕ) :
    (markOld w v).ftl.zoneStates i
      = if w.ftl.dataZoneMapping.lookup v = some ((i * g.nBlocks : ℕ) : ℤ) then emptyZone
        else w.ftl.zoneStates i := by
  rw [markOld]
  cases hv : w.ftl.dataZoneMapping.lookup v with
  | none => simp
  | some zone =>
      obtain ⟨e, rfl, -⟩ := hz.val hv
      simp only [Ftl.setZoneState, tdiv_start, Int.toNat_natCast, Option.some.injEq]
      by_cases hi : i = e
      · subst hi
        simp
      · rw [Function.update_of_ne hi, if_neg fun h => hi (start_inj h).symm]

/-! ## Relocation -/

variable {v : ℤ} {set : UMap ℤ}

/-- Once the map of `v` is switched, `v` is where it is going. -/
lemma ZoneInv.during_moved (hz : ZoneInv g w) {e : ℕ} {bs : List B} (he : e ∈ freeZones g w.ftl)
    {s : World g.drive}
    (hftl : s.ftl = { w.ftl with
      dataZoneMapping := w.ftl.dataZoneMapping.insert v ((e * g.nBlocks : ℕ) : ℤ)
      zoneStates := s.ftl.zoneStates })
    (hself : s.media.zone e = bs)
    (hzone : ∀ i ≠ e, w.ftl.dataZoneMapping.lookup v ≠ some ((i * g.nBlocks : ℕ) : ℤ) →
      s.media.zone i = w.media.zone i) :
    During v bs w s := by
  have hmap : s.ftl.dataZoneMapping
      = w.ftl.dataZoneMapping.insert v ((e * g.nBlocks : ℕ) : ℤ) := by rw [hftl]
  obtain ⟨hlog, hothers⟩ := hz.frame (v := v) (s := s) (by rw [hmap]; exact hftl)
    (fun u hu => by rw [hmap, AList.lookup_insert_ne hu])
    (fun i hi _ hv => hzone i (fun h => hi (h ▸ he)) hv)
  obtain ⟨⟨hle, hlt⟩, -⟩ := mem_freeZones.mp he
  exact ⟨hlog, hothers, Or.inr (Or.inl ⟨e, hle, hlt, by rw [hmap, AList.lookup_insert], hself⟩)⟩

/-- Before that, filling a free zone is not seen. -/
lemma ZoneInv.during_kept (hz : ZoneInv g w) {bs : List B} {s : World g.drive}
    (hftl : s.ftl = { w.ftl with zoneStates := s.ftl.zoneStates })
    (hzone : ∀ i, i ∉ freeZones g w.ftl → s.media.zone i = w.media.zone i) :
    During v bs w s := by
  have hmap : s.ftl.dataZoneMapping = w.ftl.dataZoneMapping := by rw [hftl]
  obtain ⟨hlog, hothers⟩ := hz.frame (v := v) (s := s) (by rw [hmap]; exact hftl)
    (fun u _ => by rw [hmap]) (fun i hi _ _ => hzone i hi)
  exact ⟨hlog, hothers, Or.inl ⟨by rw [hmap], fun he => hzone _ (hz.used_not_free he)⟩⟩

/-- Filling the free zone `e`. -/
lemma ZoneInv.run_fill (hds : g.ds ≤ 18) (hz : ZoneInv g w) {e : ℕ} (he : e ∈ freeZones g w.ftl)
    (bs : List B) (buf : Buffer B) :
    let p := ioWithMdts g.config (e * g.nBlocks) 0 (g.nBlocks * g.lba) false buf
    (p.run exec (markOld w v)).1 = (0, buf) ∧
      (p.run exec (markOld w v)).2.ftl = (markOld w v).ftl ∧
      (∀ i, (p.run exec (markOld w v)).2.media.zone i
        = if i = e then buf.slice 0 g.nBlocks else w.media.zone i) ∧
      Program.Always exec (During v bs w) p (markOld w v) := by
  intro p
  obtain ⟨⟨hle, hlt⟩, hstate⟩ := mem_freeZones.mp he
  have hblank : (markOld w v).media.zone e = [] := by
    rw [markOld_media]
    exact hz.free hle hlt hstate
  obtain ⟨hret, ⟨hftl, hzone⟩, hfill⟩ := run_ioWithMdts_fill (w := markOld w v) hds hlt buf hblank
  refine ⟨hret, hftl, fun i => ?_, hfill.mono ?_⟩
  · change ((ioWithMdts g.config (e * g.nBlocks) 0 (g.nBlocks * g.lba) false buf).run exec
      (markOld w v)).2.media.zone i = _
    rw [hzone, hblank, markOld_media, List.nil_append, Function.update_apply]
  · rintro s ⟨k, -, hs, hsz⟩
    refine hz.during_kept (by rw [hs]; exact markOld_ftl w v) fun i hi => ?_
    have hie : i ≠ e := by
      rintro rfl
      exact hi he
    rw [hsz, Function.update_of_ne hie, markOld_media]

/-- The marks once `v` has got zone `e`. -/
lemma markOld_filled (hz : ZoneInv g w) (v : ℤ) (e i : ℕ) :
    Function.update (markOld w v).ftl.zoneStates e fullZone i
      = if i = e then fullZone else
        if w.ftl.dataZoneMapping.lookup v = some ((i * g.nBlocks : ℕ) : ℤ) then emptyZone
        else w.ftl.zoneStates i := by
  by_cases hi : i = e
  · subst hi
    rw [Function.update_self, if_pos rfl]
  · rw [Function.update_of_ne hi, if_neg hi, markOld_states hz]

/-- `mergeInto` fills the free zone `e`, switches `v` to it, and only then resets the old zone. -/
lemma run_mergeInto (hds : g.ds ≤ 18) (hz : ZoneInv g w) {e : ℕ} (he : e ∈ freeZones g w.ftl)
    (buf : Buffer B) :
    let p := mergeInto g.config v ((e * g.nBlocks : ℕ) : ℤ)
      ((w.ftl.dataZoneMapping.lookup v).getD (-1)) buf
    let bs := buf.slice 0 g.nBlocks
    (p.run exec (markOld w v)).1 = (0, buf) ∧
      Relocated v e bs w (p.run exec (markOld w v)).2 ∧
      Program.Always exec (During v bs w) p (markOld w v) := by
  intro p bs
  obtain ⟨⟨-, hlt⟩, -⟩ := mem_freeZones.mp he
  have h64 := g.toU64_start hlt
  -- filling
  obtain ⟨hret, hftl, hzone, hgrow⟩ := hz.run_fill (v := v) hds he bs buf
  have h₂ := hgrow.last
  generalize hw₂ : ((ioWithMdts g.config (e * g.nBlocks) 0 (g.nBlocks * g.lba) false
    buf).run exec (markOld w v)).2 = w₂ at hftl hzone h₂
  rw [markOld_ftl] at hftl
  have hself : w₂.media.zone e = bs := (hzone e).trans (if_pos rfl)
  have hne : ∀ i ≠ e, w₂.media.zone i = w.media.zone i := fun i hi => (hzone i).trans (if_neg hi)
  -- switching
  let w₃ : World g.drive := ⟨{ w₂.ftl with
    dataZoneMapping := w₂.ftl.dataZoneMapping.insert v ((e * g.nBlocks : ℕ) : ℤ) }, w₂.media⟩
  let w₄ : World g.drive := ⟨w₃.ftl.setZoneState e fullZone, w₂.media⟩
  have hftl₄ : w₄.ftl = { w.ftl with
      dataZoneMapping := w.ftl.dataZoneMapping.insert v ((e * g.nBlocks : ℕ) : ℤ)
      zoneStates := w₄.ftl.zoneStates } := by
    simp only [w₄, w₃, hftl, Ftl.setZoneState]
  have h₃ : During v bs w w₃ :=
    hz.during_moved he (by simp only [w₃, hftl]) hself fun i hi _ => hne i hi
  have h₄ : During v bs w w₄ := hz.during_moved he hftl₄ hself fun i hi _ => hne i hi
  have hstates : ∀ i, w₄.ftl.zoneStates i = if i = e then fullZone else
      if w.ftl.dataZoneMapping.lookup v = some ((i * g.nBlocks : ℕ) : ℤ) then emptyZone
      else w.ftl.zoneStates i := by
    intro i
    rw [← markOld_filled hz]
    simp only [w₄, w₃, Ftl.setZoneState, Int.toNat_natCast, hftl]
  simp only [p, mergeInto, Program.run_bind, Program.always_bind, Setup.config_nBlocksPerZone,
    Setup.config_lbaSizeBytes, h64, hret, hw₂, ne_eq, not_true_eq_false, if_false, run_modifyFtl,
    always_modifyFtl, tdiv_start]
  change _ ∧ Relocated v e bs w (Program.run exec _ w₄).2 ∧
    _ ∧ (_ ∧ During v bs w w₃) ∧ (During v bs w w₃ ∧ During v bs w w₄) ∧
      Program.Always exec _ _ w₄
  cases hv : w.ftl.dataZoneMapping.lookup v with
  | none =>
      simp only [Option.getD_none, not_true_eq_false, if_false, Program.run_pure,
        Program.always_pure]
      refine ⟨trivial, ⟨hftl₄, hstates, fun i => ?_⟩, hgrow, ⟨h₂, h₃⟩, ⟨h₃, h₄⟩, h₄⟩
      rw [hv, if_neg (Option.some_ne_none _).symm]
      exact hzone i
  | some zone =>
      -- resetting
      obtain ⟨q, rfl, -, hq, -⟩ := hz.val hv
      have hqe : q ≠ e := by
        rintro rfl
        exact hz.used_not_free hv he
      have hneg : ((q * g.nBlocks : ℕ) : ℤ) ≠ -1 := by omega
      have hreset := run_nvmeZnsReset_start (w := w₄) hq
      have hzone₅ : ∀ i, (w₄.media.setZone q [] (Nat.zero_le _)).zone i = if i = e then bs else
          if w.ftl.dataZoneMapping.lookup v = some ((i * g.nBlocks : ℕ) : ℤ) then []
          else w.media.zone i := by
        intro i
        rw [Media.setZone_zone]
        by_cases hi : i = q
        · subst hi
          rw [if_pos rfl, if_neg hqe, if_pos hv]
        · have hvi : w.ftl.dataZoneMapping.lookup v ≠ some ((i * g.nBlocks : ℕ) : ℤ) :=
            fun h => hi (start_inj (Option.some.inj (hv.symm.trans h))).symm
          rw [if_neg hi, if_neg hvi]
          exact hzone i
      have h₅ : During v bs w ⟨w₄.ftl, w₄.media.setZone q [] (Nat.zero_le _)⟩ := by
        refine hz.during_moved he hftl₄ ?_ fun i hi hvi => ?_
        · rw [hzone₅, if_pos rfl]
        · rw [hzone₅, if_neg hi, if_neg hvi]
      simp only [Option.getD_some, hneg, not_false_eq_true, if_true, Program.run_bind,
        Program.run_pure, Program.always_bind, Program.always_pure, always_nvmeZnsReset, hreset]
      exact ⟨trivial, ⟨hftl₄, hstates, hzone₅⟩, hgrow, ⟨h₂, h₃⟩, ⟨h₃, h₄⟩, ⟨h₄, h₅⟩, h₅⟩

/-! ## In place -/

/-- While the data zone of `v` is reset and filled again, everything else is as it was. -/
lemma ZoneInv.during_refilled (hz : ZoneInv g w) {q k : ℕ} {bs : List B}
    (hv : w.ftl.dataZoneMapping.lookup v = some ((q * g.nBlocks : ℕ) : ℤ))
    (hfree : freeZones g w.ftl = ∅) {s : World g.drive}
    (hftl : s.ftl = { w.ftl with zoneStates := s.ftl.zoneStates })
    (hself : s.media.zone q = bs.take k)
    (hzone : ∀ i ≠ q, i ≠ g.logZones - 1 → s.media.zone i = w.media.zone i) :
    During v bs w s := by
  have hmap : s.ftl.dataZoneMapping = w.ftl.dataZoneMapping := by rw [hftl]
  obtain ⟨hlog, hothers⟩ := hz.frame (v := v) (s := s) (by rw [hmap]; exact hftl)
    (fun u _ => by rw [hmap]) (fun i _ hi hvi => hzone i (fun h => hvi (h ▸ hv)) hi)
  obtain ⟨hle, hlt, -, -⟩ := hz.used hv
  exact ⟨hlog, hothers, Or.inr (Or.inr ⟨hfree, k, q, hle, hlt, hv, by rw [hmap, hv], hself⟩)⟩

/-- Filling the zone of `v` again, once it has been reset. -/
lemma ZoneInv.run_refill (hds : g.ds ≤ 18) (hz : ZoneInv g w) {q : ℕ}
    (hv : w.ftl.dataZoneMapping.lookup v = some ((q * g.nBlocks : ℕ) : ℤ))
    (hfree : freeZones g w.ftl = ∅) {w₁ : World g.drive} (hftl : w₁.ftl = (markOld w v).ftl)
    (hblank : w₁.media.zone q = []) (hother : ∀ i ≠ q, w₁.media.zone i = w.media.zone i)
    (buf : Buffer B) :
    let p := ioWithMdts g.config (q * g.nBlocks) 0 (g.nBlocks * g.lba) false buf
    (p.run exec w₁).1 = (0, buf) ∧ (p.run exec w₁).2.ftl = (markOld w v).ftl ∧
      (∀ i, (p.run exec w₁).2.media.zone i
        = if i = q then buf.slice 0 g.nBlocks else w.media.zone i) ∧
      Program.Always exec (During v (buf.slice 0 g.nBlocks) w) p w₁ := by
  intro p
  obtain ⟨-, hlt, -⟩ := hz.used hv
  obtain ⟨hret, ⟨hftl', hzone⟩, hfill⟩ := run_ioWithMdts_fill (w := w₁) hds hlt buf hblank
  refine ⟨hret, hftl'.trans hftl, fun i => ?_, hfill.mono ?_⟩
  · change ((ioWithMdts g.config (q * g.nBlocks) 0 (g.nBlocks * g.lba) false buf).run exec
      w₁).2.media.zone i = _
    rw [hzone, hblank, List.nil_append]
    by_cases hi : i = q
    · rw [if_pos hi, hi, Function.update_self]
    · rw [if_neg hi, Function.update_of_ne hi, hother i hi]
  · rintro s ⟨k, hk, hs, hsz⟩
    have hself : s.media.zone q = (buf.slice 0 g.nBlocks).take k := by
      rw [hsz, Function.update_self, hblank, List.nil_append, Buffer.take_slice buf 0 hk]
    have hmarks : s.ftl = { w.ftl with zoneStates := s.ftl.zoneStates } := by
      rw [hs, hftl]
      exact markOld_ftl w v
    refine hz.during_refilled hv hfree hmarks hself fun i hi _ => ?_
    rw [hsz, Function.update_of_ne hi]
    exact hother i hi

/-- Marking the zone of `v` full again undoes the mark. -/
lemma markOld_restored (hz : ZoneInv g w) {q : ℕ}
    (hv : w.ftl.dataZoneMapping.lookup v = some ((q * g.nBlocks : ℕ) : ℤ)) :
    (markOld w v).ftl.setZoneState q fullZone = w.ftl := by
  have hstates : Function.update (markOld w v).ftl.zoneStates q fullZone = w.ftl.zoneStates := by
    funext i
    rw [markOld_filled hz]
    by_cases hi : i = q
    · rw [if_pos hi, hi, (hz.used hv).2.2.1]
    · have hvi : w.ftl.dataZoneMapping.lookup v ≠ some ((i * g.nBlocks : ℕ) : ℤ) :=
        fun h => hi (start_inj (Option.some.inj (hv.symm.trans h))).symm
      rw [if_neg hi, if_neg hvi]
  rw [Ftl.setZoneState, Int.toNat_natCast, hstates, markOld_ftl]

/-- `mergeInPlace` resets the zone of `v` before it writes it. -/
lemma run_mergeInPlace (hds : g.ds ≤ 18) (hz : ZoneInv g w) {q : ℕ}
    (hv : w.ftl.dataZoneMapping.lookup v = some ((q * g.nBlocks : ℕ) : ℤ))
    (hfree : freeZones g w.ftl = ∅) (buf : Buffer B) :
    let p := mergeInPlace g.config (((g.logZones - 1) * g.nBlocks : ℕ) : ℤ)
      ((q * g.nBlocks : ℕ) : ℤ) buf
    let bs := buf.slice 0 g.nBlocks
    (p.run exec (markOld w v)).1 = (0, buf) ∧
      Rewritten v q bs w (p.run exec (markOld w v)).2 ∧
      Program.Always exec (During v bs w) p (markOld w v) ∧
      ¬ Program.Always exec (fun s => ¬ Refilled v [] 0 w s) p (markOld w v) := by
  intro p bs
  obtain ⟨hle, hlt, -, -⟩ := hz.used hv
  have hL := g.logZones_pos
  have hL' := g.logZones_lt
  have hq64 := g.toU64_start hlt
  have hbs : bs.take g.nBlocks = bs :=
    List.take_of_length_le (Nat.le_of_eq (Buffer.length_slice buf 0 g.nBlocks))
  -- reset
  let w₁ : World g.drive := ⟨(markOld w v).ftl, w.media.setZone q [] (Nat.zero_le _)⟩
  have hreset : (nvmeZnsReset ((q * g.nBlocks : ℕ) : ℤ) false : Prog B ℤ).run exec (markOld w v)
      = (0, w₁) := by
    rw [run_nvmeZnsReset_start hlt]
    simp only [markOld_media, w₁]
  have hblank : w₁.media.zone q = [] := Media.setZone_zone_self w.media q [] (Nat.zero_le _)
  have hother : ∀ i ≠ q, w₁.media.zone i = w.media.zone i :=
    fun i hi => Media.setZone_zone_ne w.media [] (Nat.zero_le _) hi
  have h₀ : During v bs w (markOld w v) :=
    hz.during_kept (markOld_ftl w v) fun i _ => by rw [markOld_media]
  have h₁ : During v bs w w₁ :=
    hz.during_refilled (k := 0) hv hfree (markOld_ftl w v) hblank fun i hi _ => hother i hi
  have hmarked : w₁.ftl = (markOld w v).ftl := rfl
  have hgap : Refilled v [] 0 w w₁ := ⟨q, hle, hlt, hv, by rw [hmarked, markOld_ftl, hv], hblank⟩
  -- fill
  obtain ⟨hret, hftl, hzone, hgrow⟩ := hz.run_refill hds hv hfree hmarked hblank hother buf
  have h₂ := hgrow.last
  generalize hw₂ : ((ioWithMdts g.config (q * g.nBlocks) 0 (g.nBlocks * g.lba) false
    buf).run exec w₁).2 = w₂ at hftl hzone h₂
  -- mark the zone full again, and reset the last log zone
  have hback : w₂.ftl.setZoneState q fullZone = w.ftl := by
    rw [hftl, markOld_restored hz hv]
  let w₃ : World g.drive := ⟨w₂.ftl.setZoneState q fullZone, w₂.media⟩
  let w₄ : World g.drive := ⟨w₃.ftl, w₂.media.setZone (g.logZones - 1) [] (Nat.zero_le _)⟩
  have hscratch : (nvmeZnsReset (((g.logZones - 1) * g.nBlocks : ℕ) : ℤ) false
      : Prog B ℤ).run exec w₃ = (0, w₄) :=
    run_nvmeZnsReset_start (by omega)
  have hzone₄ : ∀ i, w₄.media.zone i = if i = q then bs else
      if i = g.logZones - 1 then [] else w.media.zone i := by
    intro i
    rw [Media.setZone_zone]
    by_cases hi : i = g.logZones - 1
    · rw [if_pos hi, if_neg (by omega), if_pos hi]
    · rw [if_neg hi, if_neg hi]
      exact hzone i
  have h₃ : During v bs w w₃ :=
    hz.during_refilled (k := g.nBlocks) hv hfree (by rw [show w₃.ftl = w.ftl from hback])
      (by rw [hbs]; exact (hzone q).trans (if_pos rfl)) fun i hi _ => (hzone i).trans (if_neg hi)
  have h₄ : During v bs w w₄ := by
    refine hz.during_refilled (k := g.nBlocks) hv hfree (by rw [show w₄.ftl = w.ftl from hback])
      ?_ fun i hi hil => ?_
    · rw [hbs, hzone₄, if_pos rfl]
    · rw [hzone₄, if_neg hi, if_neg hil]
  have hrel : Rewritten v q bs w w₄ := ⟨hv, hback, hzone₄⟩
  change (nvmeZnsReset _ false : Prog B ℤ).run exec
    ⟨w₂.ftl.setZoneState q fullZone, w₂.media⟩ = _ at hscratch
  simp only [p, mergeInPlace, Program.run_bind, Program.always_bind, Setup.config_nBlocksPerZone,
    Setup.config_lbaSizeBytes, always_nvmeZnsReset, hreset, hq64, hret, hw₂, ne_eq,
    not_true_eq_false, if_false, run_modifyFtl, always_modifyFtl, tdiv_start, hscratch,
    Program.run_pure, Program.always_pure]
  refine ⟨trivial, hrel, ⟨⟨h₀, h₁⟩, hgrow, ⟨h₂, h₃⟩, ⟨h₃, h₄⟩, h₄⟩, ?_⟩
  rintro ⟨⟨-, hno⟩, -⟩
  exact hno hgap

/-! ## Both ways at once -/

/-- `w'` is `w` after `v` has been merged into contents `bs`, one way or the other. -/
def Placed (v : ℤ) (bs : List B) (w w' : World g.drive) : Prop :=
  (∃ e ∈ freeZones g w.ftl, Relocated v e bs w w') ∨
    freeZones g w.ftl = ∅ ∧ ∃ q, Rewritten v q bs w w'

/-- The address of the last log zone. -/
lemma scratch_eq (g : Setup B) :
    (toU32 (((g.config.logZoneNumConfig - 1) * (g.config.nBlocksPerZone : ℕ) : ℤ)) : ℤ)
      = ((g.logZones - 1) * g.nBlocks : ℕ) := by
  have hlt := g.start_lt (i := g.logZones - 1) (by have := g.logZones_lt; omega)
  have hcast : (g.config.logZoneNumConfig - 1) * (g.config.nBlocksPerZone : ℤ)
      = ((g.logZones - 1) * g.nBlocks : ℕ) := by
    have := g.logZones_pos
    rw [Setup.config_logZoneNumConfig, Setup.config_nBlocksPerZone, Nat.cast_mul,
      Nat.cast_sub (by omega), Nat.cast_one]
  rw [hcast, toU32_of_lt (by omega)]

/-- **One iteration of `zone_merge`.**  It needs a free zone, or a zone of its own. -/
theorem run_mergeZone (hds : g.ds ≤ 18) (hz : ZoneInv g w) (hset : SetOk g set) (t : Traversal ℤ)
    (buf : Buffer B) (hroom : freeZones g w.ftl = ∅ → v ∈ w.ftl.dataZoneMapping) :
    let p := mergeZone g.config v (t.order set) buf
    let bs := (merged w v set buf).slice 0 g.nBlocks
    (p.run exec w).1 = (0, merged w v set buf) ∧ Placed v bs w (p.run exec w).2 ∧
      Program.Always exec (During v bs w) p w ∧
      (freeZones g w.ftl = ∅ → ¬ Program.Always exec (fun s => ¬ Refilled v [] 0 w s) p w) := by
  intro p bs
  have hblocks : ∀ b ∈ t.order set, ∃ x : ℕ, b.2 = x ∧ x < g.nrZones * g.nBlocks := by
    intro b hb
    obtain ⟨-, x, -, -, hx, hlast⟩ := hset ((t.mem_order set).mp hb)
    exact ⟨x, hx, (below_lastLog hlast).2⟩
  have hmerged : overlay (markOld w v).media (t.order set) (oldBuf w v buf) = merged w v set buf := by
    rw [markOld_media, overlay_order]
  have hmark : During v bs w (markOld w v) :=
    hz.during_kept (markOld_ftl w v) fun i _ => by rw [markOld_media]
  have hold := always_readOldZone (I := During v bs w) v buf (During.refl v bs w) hmark
  have hlog := always_readLogBlocks (w := markOld w v) (I := During v bs w) g.config (t.order set)
    (oldBuf w v buf) hmark
  have hscratch := scratch_eq g
  simp only [p, mergeZone, Program.run_bind, Program.always_bind, run_getFtl, always_getFtl,
    run_readOldZone hds hz, ne_eq, not_true_eq_false, if_false, run_readLogBlocks _ _ hblocks,
    hmerged, hscratch]
  rcases nextEmptyZone_cases g w.ftl with ⟨e, he, hfound⟩ | ⟨hfree, hfound⟩
  · obtain ⟨hret, hrel, hall⟩ := run_mergeInto (v := v) hds hz he (merged w v set buf)
    have hne : ((e * g.nBlocks : ℕ) : ℤ) ≠ -1 := by omega
    simp only [hfound, if_neg hne]
    refine ⟨hret, Or.inl ⟨e, he, hrel⟩, ⟨During.refl v bs w, hold, hlog, hall⟩, fun hfree => ?_⟩
    rw [hfree] at he
    exact absurd he (Finset.notMem_empty e)
  · obtain ⟨zone, hv⟩ := lookup_of_mem (hroom hfree)
    obtain ⟨q, rfl, -⟩ := hz.val hv
    obtain ⟨hret, hrel, hall, hgap⟩ := run_mergeInPlace hds hz hv hfree (merged w v set buf)
    simp only [hfound, if_true, hv, Option.getD_some]
    refine ⟨hret, Or.inr ⟨hfree, q, hrel⟩, ⟨During.refl v bs w, hold, hlog, hall⟩, fun _ => ?_⟩
    rintro ⟨-, -, -, h⟩
    exact hgap h

/-! ## What a merge preserves -/

section Placed

variable {bs : List B} {w' : World g.drive}

/-- In a free zone. -/
lemma Relocated.zoneInv {e : ℕ} (h : Relocated v e bs w w') (hz : ZoneInv g w)
    (he : e ∈ freeZones g w.ftl) (hbs : bs.length = g.nBlocks)
    (hv : ∃ u : ℕ, v = u ∧ g.logZones ≤ u ∧ u < g.nrZones) : ZoneInv g w' := by
  obtain ⟨⟨hle, hlt⟩, -⟩ := mem_freeZones.mp he
  have hself : w'.ftl.dataZoneMapping.lookup v = some ((e * g.nBlocks : ℕ) : ℤ) := by
    rw [h.ftl, AList.lookup_insert]
  have hother : ∀ u ≠ v, w'.ftl.dataZoneMapping.lookup u = w.ftl.dataZoneMapping.lookup u :=
    fun u hu => by rw [h.ftl, AList.lookup_insert_ne hu]
  have hfresh : ∀ {u : ℤ}, w.ftl.dataZoneMapping.lookup u ≠ some ((e * g.nBlocks : ℕ) : ℤ) :=
    fun hu => hz.used_not_free hu he
  refine ⟨?_, ?_, ?_, ?_⟩
  · intro u z hu
    by_cases huv : u = v
    · rw [huv]
      exact hv
    · rw [hother u huv] at hu
      exact hz.key hu
  · intro u z hu
    by_cases huv : u = v
    · rw [huv, hself] at hu
      obtain rfl := Option.some.inj hu
      exact ⟨e, rfl, hle, hlt, by rw [h.states, if_pos rfl], by rw [h.zone, if_pos rfl, hbs]⟩
    · rw [hother u huv] at hu
      obtain ⟨i, rfl, hi, hi', hfull, hlen⟩ := hz.val hu
      have hie : i ≠ e := by
        rintro rfl
        exact hfresh hu
      have hiv : w.ftl.dataZoneMapping.lookup v ≠ some ((i * g.nBlocks : ℕ) : ℤ) :=
        fun hvi => huv (hz.inj hu hvi)
      refine ⟨i, rfl, hi, hi', ?_, ?_⟩
      · rw [h.states, if_neg hie, if_neg hiv, hfull]
      · rw [h.zone, if_neg hie, if_neg hiv, hlen]
  · intro u u' z hu hu'
    by_cases huv : u = v <;> by_cases huv' : u' = v
    · rw [huv, huv']
    · rw [huv, hself] at hu
      rw [hother u' huv', ← hu] at hu'
      exact absurd hu' hfresh
    · rw [huv', hself] at hu'
      rw [hother u huv, ← hu'] at hu
      exact absurd hu hfresh
    · rw [hother u huv] at hu
      rw [hother u' huv'] at hu'
      exact hz.inj hu hu'
  · intro i hi hi' hstate
    rw [h.states] at hstate
    have hie : i ≠ e := by
      rintro rfl
      rw [if_pos rfl] at hstate
      exact absurd hstate (by decide)
    rw [if_neg hie] at hstate
    rw [h.zone, if_neg hie]
    split
    · rfl
    · rename_i hiv
      rw [if_neg hiv] at hstate
      exact hz.free hi hi' hstate

/-- In its own. -/
lemma Rewritten.zoneInv {q : ℕ} (h : Rewritten v q bs w w') (hz : ZoneInv g w)
    (hbs : bs.length = g.nBlocks) : ZoneInv g w' := by
  obtain ⟨-, -, hfullq, -⟩ := hz.used h.old
  refine ⟨?_, ?_, ?_, ?_⟩
  · intro u z hu
    rw [h.ftl] at hu
    exact hz.key hu
  · intro u z hu
    rw [h.ftl] at hu
    obtain ⟨i, rfl, hi, hi', hfull, hlen⟩ := hz.val hu
    refine ⟨i, rfl, hi, hi', by rw [h.ftl, hfull], ?_⟩
    rw [h.zone]
    have := g.logZones_pos
    split
    · exact hbs
    · rw [if_neg (by omega), hlen]
  · intro u u' z hu hu'
    rw [h.ftl] at hu hu'
    exact hz.inj hu hu'
  · intro i hi hi' hstate
    rw [h.ftl] at hstate
    have hiq : i ≠ q := by
      rintro rfl
      rw [hfullq] at hstate
      exact absurd hstate (by decide)
    rw [h.zone, if_neg hiq]
    split
    · rfl
    · exact hz.free hi hi' hstate

end Placed

namespace Placed

variable {bs : List B} {w' : World g.drive}

lemma moved (h : Placed v bs w w') (hz : ZoneInv g w) : Moved v bs w' := by
  rcases h with ⟨e, he, h⟩ | ⟨-, q, h⟩
  · obtain ⟨⟨hle, hlt⟩, -⟩ := mem_freeZones.mp he
    exact ⟨e, hle, hlt, by rw [h.ftl, AList.lookup_insert], by rw [h.zone, if_pos rfl]⟩
  · obtain ⟨hle, hlt, -⟩ := hz.used h.old
    exact ⟨q, hle, hlt, by rw [h.ftl, h.old], by rw [h.zone, if_pos rfl]⟩

theorem zoneInv (h : Placed v bs w w') (hz : ZoneInv g w) (hbs : bs.length = g.nBlocks)
    (hv : ∃ u : ℕ, v = u ∧ g.logZones ≤ u ∧ u < g.nrZones) : ZoneInv g w' := by
  rcases h with ⟨e, he, h⟩ | ⟨-, q, h⟩
  · exact h.zoneInv hz he hbs hv
  · exact h.zoneInv hz hbs

lemma tight (h : Placed v bs w w') (ht : Tight g w) : Tight g w' := by
  intro i hi hi'
  rcases h with ⟨e, -, h⟩ | ⟨-, q, h⟩
  · rw [h.states]
    by_cases hie : i = e
    · rw [if_pos hie]
      exact Or.inr ⟨rfl, v, by rw [h.ftl, AList.lookup_insert, hie]⟩
    · rw [if_neg hie]
      by_cases hiv : w.ftl.dataZoneMapping.lookup v = some ((i * g.nBlocks : ℕ) : ℤ)
      · rw [if_pos hiv]
        exact Or.inl rfl
      · rw [if_neg hiv]
        rcases ht i hi hi' with hempty | ⟨hfull, u, hu⟩
        · exact Or.inl hempty
        · have huv : u ≠ v := by
            rintro rfl
            exact hiv hu
          exact Or.inr ⟨hfull, u, by rw [h.ftl, AList.lookup_insert_ne huv, hu]⟩
  · rw [h.ftl]
    exact ht i hi hi'

/-- A zone merged for the first time takes one free zone; any other gives back as many as it
takes. -/
lemma card_free (h : Placed v bs w w') (hz : ZoneInv g w) :
    (freeZones g w'.ftl).card + (if v ∈ w.ftl.dataZoneMapping then 0 else 1)
      = (freeZones g w.ftl).card := by
  classical
  rcases h with ⟨e, he, h⟩ | ⟨-, q, h⟩
  · have hpos := Finset.card_pos.mpr ⟨e, he⟩
    cases hv : w.ftl.dataZoneMapping.lookup v with
    | none =>
        have hmem : v ∉ w.ftl.dataZoneMapping := AList.lookup_eq_none.mp hv
        have hset : freeZones g w'.ftl = (freeZones g w.ftl).erase e := by
          ext i
          rw [mem_freeZones, Finset.mem_erase, mem_freeZones, h.states, hv]
          by_cases hie : i = e
          · simp [hie, fullZone, emptyZone]
          · simp [hie]
        rw [hset, Finset.card_erase_of_mem he, if_neg hmem]
        omega
    | some zone =>
        obtain ⟨q, rfl, hq, hq', -⟩ := hz.val hv
        have hqe : q ≠ e := by
          rintro rfl
          exact hz.used_not_free hv he
        have hset : freeZones g w'.ftl = insert q ((freeZones g w.ftl).erase e) := by
          ext i
          rw [mem_freeZones, Finset.mem_insert, Finset.mem_erase, mem_freeZones, h.states]
          by_cases hie : i = e
          · rw [if_pos hie, hie]
            simp [hqe.symm, fullZone, emptyZone]
          · rw [if_neg hie]
            by_cases hiq : i = q
            · rw [hiq, if_pos hv]
              simp [hq, hq']
            · rw [if_neg fun hvi => hiq (start_inj (Option.some.inj (hv.symm.trans hvi))).symm]
              simp [hie, hiq]
        have hfresh : q ∉ (freeZones g w.ftl).erase e :=
          fun hmem => hz.used_not_free hv (Finset.mem_of_mem_erase hmem)
        rw [hset, Finset.card_insert_of_notMem hfresh, Finset.card_erase_of_mem he,
          if_pos (mem_of_lookup hv)]
        omega
  · rw [h.ftl, if_pos (mem_of_lookup h.old), Nat.add_zero]

end Placed

end

end StoSys
