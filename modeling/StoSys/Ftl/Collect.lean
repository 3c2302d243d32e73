import StoSys.Ftl.MergeLoop

/-!
# One garbage collection

`triggerGc` groups the log by virtual zone, merges the groups, erases the log zones and forgets the
log.  `groupLog` turns out to mark nothing: an address in the log has its top bit clear, so
`& (1 << 63)` leaves zero behind, and an entry of zero is a valid entry that names block `0` of the
device.

`run_triggerGc` is the result of a pass, `always_triggerGc` the list of moments another thread can
see.
-/

namespace StoSys

open Effect HashMap Zoned CInt

variable {B : Type} {g : Setup B} {w : World g.drive}

/-! ## Grouping -/

/-- The log holds user blocks, each with the address of a block the log may occupy. -/
def LogOk (g : Setup B) (m : UMap ℤ) : Prop :=
  ∀ {k x}, m.lookup k = some x → ∃ q y : ℕ, k = ((q * g.lba : ℕ) : ℤ) ∧ q < g.capacity ∧
    x = (y : ℤ) ∧ y < g.logRoom

/-- The entry of the zone sets for offset `o` of virtual zone `v`. -/
def find (sets : UMap (UMap ℤ)) (v o : ℤ) : Option ℤ :=
  (sets.lookup v).bind fun set => set.lookup o

/-- The zone sets after grouping the entries of `m` with keys `ks`. -/
def groupKeys (c : Config) (m : UMap ℤ) (ks : List ℤ) (sets : UMap (UMap ℤ)) : UMap (UMap ℤ) :=
  ks.foldl (fun sets k => groupEntry c sets k ((m.lookup k).getD 0)) sets

/-- The log after its keys `ks` have been visited. -/
def markKeys (ks : List ℤ) (m : UMap ℤ) : UMap ℤ :=
  ks.foldl (fun m k => m.insert k (invalidate ((m.lookup k).getD 0))) m

lemma invalidate_natCast {y : ℕ} (hy : y < 2 ^ 63) : invalidate y = 0 := by
  have h64 : toU64 (y : ℤ) = y := toU64_of_lt (by omega)
  have hbit : y &&& 2 ^ 63 = 0 := by
    refine Nat.eq_of_testBit_eq fun i => ?_
    rw [Nat.testBit_and, Nat.testBit_two_pow, Nat.zero_testBit]
    by_cases hi : 63 = i
    · rw [← hi, Nat.testBit_lt_two_pow hy, Bool.false_and]
    · rw [decide_eq_false hi, Bool.and_false]
  rw [invalidate, h64, hbit]
  rfl

/-- Each entry is read before it is overwritten. -/
lemma groupKeys_congr (c : Config) {m m' : UMap ℤ} : ∀ (ks : List ℤ) (sets : UMap (UMap ℤ)),
    (∀ k ∈ ks, m'.lookup k = m.lookup k) → groupKeys c m' ks sets = groupKeys c m ks sets
  | [], _, _ => rfl
  | k :: ks, sets, h => by
      have ih := groupKeys_congr c ks (groupEntry c sets k ((m.lookup k).getD 0))
        fun k' hk' => h k' (List.mem_cons_of_mem _ hk')
      simp only [groupKeys, List.foldl_cons] at ih ⊢
      rw [h k (List.mem_cons_self ..), ih]

/-- `w` after the keys `ks` of the log have been visited. -/
def marked (w : World g.drive) (ks : List ℤ) : World g.drive :=
  ⟨{ w.ftl with logZoneMapping := markKeys ks w.ftl.logZoneMapping }, w.media⟩

lemma run_groupLog (c : Config) : ∀ (ks : List ℤ) (w : World g.drive) (sets : UMap (UMap ℤ)),
    ks.Nodup → (groupLog c ks sets).run exec w
      = (groupKeys c w.ftl.logZoneMapping ks sets, marked w ks)
  | [], w, sets, _ => rfl
  | k :: ks, w, sets, hnd => by
      obtain ⟨hk, hnd'⟩ := List.nodup_cons.mp hnd
      have ih := run_groupLog c ks (marked w [k])
        (groupEntry c sets k ((w.ftl.logZoneMapping.lookup k).getD 0)) hnd'
      have hcongr : groupKeys c (marked w [k]).ftl.logZoneMapping ks
          = groupKeys c w.ftl.logZoneMapping ks := by
        funext sets'
        refine groupKeys_congr c ks sets' fun k' hk' => ?_
        have hne : k' ≠ k := by
          rintro rfl
          exact hk hk'
        change (AList.insert _ _ _).lookup k' = _
        rw [AList.lookup_insert_ne hne]
      rw [hcongr] at ih
      rw [groupLog]
      simp only [Program.run_bind, run_getFtl, run_modifyFtl]
      exact ih

/-- One entry goes to its zone and offset, unless something is there. -/
lemma find_groupEntry (c : Config) (sets : UMap (UMap ℤ)) (a x v o : ℤ) :
    find (groupEntry c sets a x) v o
      = if v = c.virtualZone a ∧ o = c.blockOffset a ∧ find sets v o = none then some x
        else find sets v o := by
  unfold find groupEntry
  simp only [lookup_insert_eq]
  by_cases hv : v = c.virtualZone a
  · subst hv
    rw [if_pos rfl, Option.bind_some, lookup_insertNew]
    cases hs : sets.lookup (c.virtualZone a) with
    | none => simp
    | some set =>
        simp only [Option.getD_some, Option.bind_some, true_and]
        by_cases ho : o = c.blockOffset a
        · subst ho
          simp [AList.lookup_eq_none]
        · simp [ho]
  · rw [if_neg hv, if_neg fun h => hv h.1]

lemma mem_groupEntry (c : Config) (sets : UMap (UMap ℤ)) (a x v : ℤ) :
    v ∈ groupEntry c sets a x ↔ v = c.virtualZone a ∨ v ∈ sets :=
  AList.mem_insert _

/-- **The groups**, for keys of which no two have the same place: every key has put its value there,
and nothing else is found. -/
lemma find_groupKeys (c : Config) (m : UMap ℤ) : ∀ (ks : List ℤ) (sets : UMap (UMap ℤ)),
    (∀ k ∈ ks, ∀ k' ∈ ks, c.virtualZone k = c.virtualZone k' →
      c.blockOffset k = c.blockOffset k' → k = k') → ∀ {v o x : ℤ},
    (find (groupKeys c m ks sets) v o = some x ↔ find sets v o = some x ∨ find sets v o = none ∧
      ∃ k ∈ ks, c.virtualZone k = v ∧ c.blockOffset k = o ∧ (m.lookup k).getD 0 = x)
  | [], sets, _, v, o, x => by simp [groupKeys]
  | k :: ks, sets, hinj, v, o, x => by
      have hk : k ∈ k :: ks := List.mem_cons_self ..
      have ih := find_groupKeys c m ks (groupEntry c sets k ((m.lookup k).getD 0))
        (fun a ha b hb => hinj a (List.mem_cons_of_mem _ ha) b (List.mem_cons_of_mem _ hb))
        (v := v) (o := o) (x := x)
      rw [find_groupEntry] at ih
      rw [groupKeys, List.foldl_cons]
      refine ih.trans ?_
      by_cases hp : v = c.virtualZone k ∧ o = c.blockOffset k ∧ find sets v o = none
      · rw [if_pos hp, hp.2.2]
        obtain ⟨rfl, rfl, -⟩ := hp
        constructor
        · rintro (hx | ⟨hx, -⟩)
          · exact Or.inr ⟨rfl, k, hk, rfl, rfl, Option.some.inj hx⟩
          · cases hx
        · rintro (hx | ⟨-, k', hk', hv, ho, hx⟩)
          · cases hx
          · rw [hinj k' hk' k hk hv ho] at hx
            exact Or.inl (congrArg some hx)
      · rw [if_neg hp]
        refine or_congr_right (and_congr_right fun hnone => ⟨?_, ?_⟩)
        · rintro ⟨k', hk', hrest⟩
          exact ⟨k', List.mem_cons_of_mem _ hk', hrest⟩
        · rintro ⟨k', hk', hv, ho, hx⟩
          rcases List.mem_cons.mp hk' with rfl | hk'
          · exact absurd ⟨hv.symm, ho.symm, hnone⟩ hp
          · exact ⟨k', hk', hv, ho, hx⟩

lemma mem_groupKeys (c : Config) (m : UMap ℤ) : ∀ (ks : List ℤ) (sets : UMap (UMap ℤ)) {v : ℤ},
    (v ∈ groupKeys c m ks sets ↔ v ∈ sets ∨ ∃ k ∈ ks, c.virtualZone k = v)
  | [], sets, v => by simp [groupKeys]
  | k :: ks, sets, v => by
      rw [groupKeys, List.foldl_cons]
      refine (mem_groupKeys c m ks _).trans ?_
      rw [mem_groupEntry, List.exists_mem_cons_iff, eq_comm]
      tauto

/-- **The groups of a log**, over the keys that satisfy `P`: every entry is in the set of its zone,
and nothing else is. -/
structure Grouped (g : Setup B) (m : UMap ℤ) (P : ℤ → Prop) (sets : UMap (UMap ℤ)) : Prop where
  entry : ∀ {q : ℕ}, P ((q * g.lba : ℕ) : ℤ) →
    find sets (g.vzone q : ℕ) (q % g.nBlocks : ℕ) = m.lookup ((q * g.lba : ℕ) : ℤ)
  only : ∀ {v o x : ℤ}, find sets v o = some x → ∃ q : ℕ, P ((q * g.lba : ℕ) : ℤ) ∧
    v = (g.vzone q : ℕ) ∧ o = (q % g.nBlocks : ℕ) ∧ m.lookup ((q * g.lba : ℕ) : ℤ) = some x
  zone : ∀ {v : ℤ}, v ∈ sets → ∃ q : ℕ, P ((q * g.lba : ℕ) : ℤ) ∧ v = (g.vzone q : ℕ)

lemma addr_inj {q q' : ℕ} (h : ((q * g.lba : ℕ) : ℤ) = (q' * g.lba : ℕ)) : q = q' :=
  Nat.eq_of_mul_eq_mul_right g.lba_pos (by exact_mod_cast h)

/-! ## The zone sets of a pass -/

/-- The keys of the log in the order a pass visits them. -/
def logKeys (ord : HashOrder) (m : Ftl) : List ℤ :=
  (ord.log.order m.logZoneMapping).map Sigma.fst

/-- The zone sets of a pass, in the order it merges them. -/
def passSets (g : Setup B) (ord : HashOrder) (m : Ftl) : ZoneSets :=
  ord.zones.order (groupKeys g.config m.logZoneMapping (logKeys ord m) ∅)

lemma mem_logKeys {ord : HashOrder} {m : Ftl} {k : ℤ} :
    k ∈ logKeys ord m ↔ k ∈ m.logZoneMapping :=
  ord.log.mem_order_keys _

lemma grouped_log (ord : HashOrder) {m : Ftl} (hm : LogOk g m.logZoneMapping) :
    Grouped g m.logZoneMapping (· ∈ m.logZoneMapping)
      (groupKeys g.config m.logZoneMapping (logKeys ord m) ∅) := by
  have hkey : ∀ {k : ℤ}, k ∈ logKeys ord m → ∃ q : ℕ, k = ((q * g.lba : ℕ) : ℤ) := by
    intro k hk
    obtain ⟨x, hx⟩ := lookup_of_mem (mem_logKeys.mp hk)
    obtain ⟨q, -, rfl, -⟩ := hm hx
    exact ⟨q, rfl⟩
  -- blocks of one zone have different offsets
  have hinj : ∀ k ∈ logKeys ord m, ∀ k' ∈ logKeys ord m,
      g.config.virtualZone k = g.config.virtualZone k' →
        g.config.blockOffset k = g.config.blockOffset k' → k = k' := by
    intro k hk k' hk' hv ho
    obtain ⟨q, rfl⟩ := hkey hk
    obtain ⟨q', rfl⟩ := hkey hk'
    rw [g.virtualZone_addr, g.virtualZone_addr] at hv
    rw [g.blockOffset_addr, g.blockOffset_addr] at ho
    have : q = q' := g.vzone_offset_inj (by omega) (by omega)
    rw [this]
  have hfind := fun {v o x : ℤ} => find_groupKeys g.config m.logZoneMapping (logKeys ord m) ∅ hinj
    (v := v) (o := o) (x := x)
  refine ⟨fun {q} hq => ?_, fun {v o x} hx => ?_, fun {v} hv => ?_⟩
  · obtain ⟨x, hx⟩ := lookup_of_mem hq
    rw [hx]
    exact hfind.mpr (Or.inr ⟨rfl, _, mem_logKeys.mpr hq, g.virtualZone_addr q,
      g.blockOffset_addr q, by rw [hx, Option.getD_some]⟩)
  · rcases hfind.mp hx with hx | ⟨-, k, hk, hv, ho, hx⟩
    · cases hx
    · obtain ⟨q, rfl⟩ := hkey hk
      obtain ⟨y, hy⟩ := lookup_of_mem (mem_logKeys.mp hk)
      rw [g.virtualZone_addr] at hv
      rw [g.blockOffset_addr] at ho
      rw [hy, Option.getD_some] at hx
      exact ⟨q, mem_logKeys.mp hk, hv.symm, ho.symm, hx ▸ hy⟩
  · rcases (mem_groupKeys g.config m.logZoneMapping (logKeys ord m) ∅).mp hv with hv | ⟨k, hk, hv⟩
    · cases hv
    · obtain ⟨q, rfl⟩ := hkey hk
      exact ⟨q, mem_logKeys.mp hk, by rw [← hv, g.virtualZone_addr]⟩

section PassSets

variable {ord : HashOrder} {m : Ftl}

lemma find_of_mem {v o : ℤ} {set : UMap ℤ} (h : ⟨v, set⟩ ∈ passSets g ord m) :
    find (groupKeys g.config m.logZoneMapping (logKeys ord m) ∅) v o = set.lookup o := by
  rw [find, (ord.zones.mem_order _).mp h, Option.bind_some]

/-- Every logged block is in the set of its zone. -/
lemma exists_passSet (ord : HashOrder) (hm : LogOk g m.logZoneMapping) {q : ℕ} {x : ℤ}
    (hq : m.logZoneMapping.lookup ((q * g.lba : ℕ) : ℤ) = some x) :
    ∃ set : UMap ℤ, ⟨(g.vzone q : ℤ), set⟩ ∈ passSets g ord m ∧
      set.lookup ((q % g.nBlocks : ℕ) : ℤ) = some x := by
  have h := (grouped_log ord hm).entry (mem_of_lookup hq)
  rw [hq, find, Option.bind_eq_some_iff] at h
  obtain ⟨set, hset, hx⟩ := h
  exact ⟨set, (ord.zones.mem_order _).mpr hset, hx⟩

/-- A set holds nothing but logged blocks of its zone. -/
lemma logged_of_passSet (hm : LogOk g m.logZoneMapping) {v o x : ℤ} {set : UMap ℤ}
    (h : ⟨v, set⟩ ∈ passSets g ord m) (hx : set.lookup o = some x) :
    ∃ q : ℕ, v = (g.vzone q : ℕ) ∧ o = (q % g.nBlocks : ℕ) ∧
      m.logZoneMapping.lookup ((q * g.lba : ℕ) : ℤ) = some x := by
  obtain ⟨q, -, hrest⟩ := (grouped_log ord hm).only ((find_of_mem h).trans hx)
  exact ⟨q, hrest⟩

/-- A zone is merged because some block of it is logged. -/
lemma zone_of_passSet (hm : LogOk g m.logZoneMapping) {v : ℤ} {set : UMap ℤ}
    (h : ⟨v, set⟩ ∈ passSets g ord m) :
    ∃ q : ℕ, v = (g.vzone q : ℕ) ∧ q < g.capacity ∧
      ((q * g.lba : ℕ) : ℤ) ∈ m.logZoneMapping := by
  have hmem := mem_of_lookup ((ord.zones.mem_order _).mp h)
  obtain ⟨q, hq, hv⟩ := (grouped_log ord hm).zone hmem
  obtain ⟨x, hx⟩ := lookup_of_mem hq
  obtain ⟨q', -, heq, hcap, -⟩ := hm hx
  exact ⟨q, hv, by rw [addr_inj heq]; exact hcap, hq⟩

lemma setsOk_passSets (hm : LogOk g m.logZoneMapping) : SetsOk g (passSets g ord m) := by
  refine ⟨ord.zones.nodup_keys _, fun {v set} h => ?_, fun {v set} h => ?_⟩
  · intro o x hx
    obtain ⟨q, rfl, rfl, hlog⟩ := logged_of_passSet hm h hx
    obtain ⟨-, y, -, -, rfl, hy⟩ := hm hlog
    have := g.logRoom_add_le
    have hL : (g.logZones - 1) * g.nBlocks + g.nBlocks = g.logZones * g.nBlocks := by
      rw [← Nat.succ_mul, Nat.succ_eq_add_one, Nat.sub_add_cancel g.logZones_pos]
    exact ⟨_, y, rfl, g.offset_lt q, rfl, by omega⟩
  · obtain ⟨q, hv, hq, -⟩ := zone_of_passSet hm h
    exact ⟨g.vzone q, hv, g.vzone_ge q, g.vzone_lt hq⟩

lemma passSets_nil (hm : m.logZoneMapping = ∅) : passSets g ord m = [] := by
  have hkeys : logKeys ord m = [] := by rw [logKeys, hm, Traversal.order_empty, List.map_nil]
  rw [passSets, hkeys]
  exact Traversal.order_empty _

end PassSets

/-- With every data zone accounted for, there are enough free zones for any set of new ones. -/
lemma newZones_le (hz : ZoneInv g w) (ht : Tight g w) {zs : ZoneSets} (hok : SetsOk g zs) :
    newZones w.ftl zs ≤ (freeZones g w.ftl).card := by
  classical
  have hcard := hz.card_free_add ht
  have hcompl := Finset.card_filter_add_card_filter_not (s := Finset.Ico g.logZones g.nrZones)
    (fun u : ℕ => (u : ℤ) ∈ w.ftl.dataZoneMapping)
  rw [Nat.card_Ico] at hcompl
  let new := zs.filter fun z => z.1 ∉ w.ftl.dataZoneMapping
  have hnodup : (new.map fun z => z.1.toNat).Nodup := by
    have hfst : (new.map Sigma.fst).Nodup := hok.nodup.sublist (List.filter_sublist.map _)
    have hinj := hfst.map_on (f := Int.toNat) fun v hv v' hv' heq => by
      obtain ⟨z, hz', rfl⟩ := List.mem_map.mp hv
      obtain ⟨z', hz'', rfl⟩ := List.mem_map.mp hv'
      obtain ⟨u, hu, -⟩ := hok.zone (show ⟨z.1, z.2⟩ ∈ zs from List.mem_of_mem_filter hz')
      obtain ⟨u', hu', -⟩ := hok.zone (show ⟨z'.1, z'.2⟩ ∈ zs from List.mem_of_mem_filter hz'')
      rw [hu, hu'] at heq ⊢
      exact congrArg _ heq
    rwa [List.map_map] at hinj
  have hsub : (new.map fun z => z.1.toNat).toFinset ⊆
      (Finset.Ico g.logZones g.nrZones).filter fun u : ℕ => (u : ℤ) ∉ w.ftl.dataZoneMapping := by
    intro u hu
    obtain ⟨z, hz', rfl⟩ := List.mem_map.mp (List.mem_toFinset.mp hu)
    obtain ⟨hmem, hnew⟩ := List.mem_filter.mp hz'
    obtain ⟨u, hu, hle, hlt⟩ := hok.zone (show ⟨z.1, z.2⟩ ∈ zs from hmem)
    rw [hu] at hnew ⊢
    rw [Int.toNat_natCast, Finset.mem_filter, Finset.mem_Ico]
    exact ⟨⟨hle, hlt⟩, by simpa using hnew⟩
  have hle := Finset.card_le_card hsub
  rw [List.toFinset_card_of_nodup hnodup, List.length_map] at hle
  rw [newZones, List.countP_eq_length_filter]
  change new.length ≤ _
  omega

/-! ## Erasing the log -/

/-- `k` zones from `i` on are empty; nothing else has changed. -/
structure Wiped (w : World g.drive) (i k : ℕ) (s : World g.drive) : Prop where
  ftl : s.ftl = w.ftl
  zone : ∀ j, s.media.zone j = if i ≤ j ∧ j < i + k then [] else w.media.zone j

lemma Wiped.zero (w : World g.drive) (i : ℕ) : Wiped w i 0 w :=
  ⟨rfl, fun j => by rw [if_neg (by omega)]⟩

lemma run_resetLogZones : ∀ (k i : ℕ) (w : World g.drive), i + k ≤ g.nrZones →
    let p : Prog B Unit := resetLogZones g.config i k
    Wiped w i k (p.run exec w).2 ∧
      Program.Always exec (fun s => ∃ k' ≤ k, Wiped w i k' s) p w
  | 0, i, w, _ => ⟨Wiped.zero w i, Program.always_pure.mpr ⟨0, Nat.le_refl _, Wiped.zero w i⟩⟩
  | k + 1, i, w, hk => by
      have hlt : i < g.nrZones := by omega
      have hreset := run_nvmeZnsReset_start (w := w) hlt
      generalize hw₁ : World.mk w.ftl (w.media.setZone i _ _) = w₁ at hreset
      have hgrow : ∀ r s, Wiped w₁ (i + 1) r s → Wiped w i (r + 1) s := by
        rintro r s ⟨hs, hsz⟩
        refine ⟨by rw [hs, ← hw₁], fun j => ?_⟩
        rw [hsz, ← hw₁, Media.setZone_zone]
        by_cases hj : j = i
        · rw [if_neg (by omega), if_pos hj, if_pos (by omega)]
        · by_cases hr : i + 1 ≤ j ∧ j < i + 1 + r
          · rw [if_pos hr, if_pos (by omega)]
          · rw [if_neg hr, if_neg hj, if_neg (by omega)]
      obtain ⟨hend, hall⟩ := run_resetLogZones k (i + 1) w₁ (by omega)
      intro p
      simp only [p, resetLogZones, Program.run_bind, Program.always_bind, always_nvmeZnsReset,
        Setup.config_nBlocksPerZone, g.toU32_start hlt, hreset]
      refine ⟨hgrow _ _ hend, ⟨⟨0, Nat.zero_le _, Wiped.zero w i⟩, ?_⟩, hall.mono ?_⟩
      · exact ⟨1, by omega, hgrow 0 w₁ (Wiped.zero w₁ (i + 1))⟩
      · rintro s ⟨r, hr, hs⟩
        exact ⟨r + 1, by omega, hgrow r s hs⟩

/-! ## What a pass needs -/

/-- What a pass needs: sets it can merge, and zones to put them in. -/
structure Ready (g : Setup B) (w : World g.drive) : Prop where
  log : LogOk g w.ftl.logZoneMapping
  zones : ZoneInv g w
  supply : ∀ ord, newZones w.ftl (passSets g ord w.ftl) ≤ (freeZones g w.ftl).card
  big : 18 < g.ds → w.ftl.logZoneMapping = ∅

lemma Ready.of_tight (hlog : LogOk g w.ftl.logZoneMapping) (hz : ZoneInv g w) (ht : Tight g w)
    (hbig : 18 < g.ds → w.ftl.logZoneMapping = ∅) : Ready g w :=
  ⟨hlog, hz, fun _ => newZones_le hz ht (setsOk_passSets hlog), hbig⟩

/-- The marks do not matter to what comes after. -/
lemma ZoneInv.congr {s : World g.drive} (hz : ZoneInv g w)
    (hmap : s.ftl.dataZoneMapping = w.ftl.dataZoneMapping)
    (hstates : s.ftl.zoneStates = w.ftl.zoneStates)
    (hzone : ∀ i, g.logZones ≤ i → s.media.zone i = w.media.zone i) : ZoneInv g s := by
  refine ⟨?_, ?_, ?_, ?_⟩
  · intro v z hv
    rw [hmap] at hv
    exact hz.key hv
  · intro v z hv
    rw [hmap] at hv
    obtain ⟨e, he, hle, hlt, hfull, hlen⟩ := hz.val hv
    exact ⟨e, he, hle, hlt, by rw [hstates, hfull], by rw [hzone e hle, hlen]⟩
  · intro v v' z hv hv'
    rw [hmap] at hv hv'
    exact hz.inj hv hv'
  · intro e hle hlt hempty
    rw [hstates] at hempty
    rw [hzone e hle]
    exact hz.free hle hlt hempty

lemma Tight.congr {s : World g.drive} (ht : Tight g w)
    (hmap : s.ftl.dataZoneMapping = w.ftl.dataZoneMapping)
    (hstates : s.ftl.zoneStates = w.ftl.zoneStates) : Tight g s := by
  intro e hle hlt
  rw [hstates, hmap]
  exact ht e hle hlt

/-! ## The pass -/

section Pass

variable [Zero B]

/-- Where a pass has got to when the loop of `zone_merge` is over. -/
def afterMerge (ord : HashOrder) (w : World g.drive) : World g.drive :=
  ((mergeLoop g.config ord (passSets g ord w.ftl) fun _ => 0).run exec
    (marked w (logKeys ord w.ftl))).2

/-- Where it has got to when the log zones are erased. -/
def afterReset (ord : HashOrder) (w : World g.drive) : World g.drive :=
  ((resetLogZones g.config 0 g.logZones : Prog B Unit).run exec (afterMerge ord w)).2

/-- **The moments of a pass.** -/
lemma always_triggerGc (ord : HashOrder) {I : World g.drive → Prop} :
    let s := afterReset ord w
    let s₁ : World g.drive := ⟨{ s.ftl with logZoneEnd := s.ftl.logZoneStart }, s.media⟩
    let s₂ : World g.drive := ⟨{ s₁.ftl with logZoneMapping := ∅ }, s.media⟩
    let s₃ : World g.drive := ⟨{ s₂.ftl with triggerMyGc := false }, s.media⟩
    (triggerGc g.config ord : Prog B Unit).run exec w = ((), s₃) ∧
      (Program.Always exec I (triggerGc g.config ord : Prog B Unit) w ↔
        Program.Always exec I
          (groupLog g.config (logKeys ord w.ftl) ∅ : Prog B (UMap (UMap ℤ))) w ∧
        Program.Always exec I (mergeLoop g.config ord (passSets g ord w.ftl) fun _ => (0 : B))
          (marked w (logKeys ord w.ftl)) ∧
        Program.Always exec I (resetLogZones g.config 0 g.logZones : Prog B Unit)
          (afterMerge ord w) ∧ I s ∧ I s₁ ∧ I s₂ ∧ I s₃) := by
  intro s s₁ s₂ s₃
  have hgroup := run_groupLog (w := w) g.config (logKeys ord w.ftl) ∅ (ord.log.nodup_keys _)
  have hL : g.config.logZoneNumConfig.toNat = g.logZones := Int.toNat_natCast _
  rw [logKeys] at hgroup
  simp only [triggerGc, zoneMerge, Program.run_bind, Program.always_bind, run_getFtl,
    always_getFtl, run_modifyFtl, always_modifyFtl, Program.run_pure, Program.always_pure, hgroup,
    hL]
  refine ⟨rfl, ?_⟩
  change I w ∧ _ ∧ (_ ∧ I (afterMerge ord w)) ∧ _ ∧ (I s ∧ I s₁) ∧ (I s₁ ∧ I s₂) ∧ I s₂ ∧ I s₃ ↔ _
  constructor
  · rintro ⟨-, hgr, ⟨hmerge, -⟩, hreset, ⟨h₀, h₁⟩, ⟨-, h₂⟩, -, h₃⟩
    exact ⟨hgr, hmerge, hreset, h₀, h₁, h₂, h₃⟩
  · rintro ⟨hgr, hmerge, hreset, h₀, h₁, h₂, h₃⟩
    exact ⟨hgr.head, hgr, ⟨hmerge, hmerge.last⟩, hreset, ⟨h₀, h₁⟩, ⟨h₁, h₂⟩, h₂, h₃⟩

/-- **The loop of a pass.** -/
lemma run_passLoop (ord : HashOrder) (hr : Ready g w) :
    let wm := marked w (logKeys ord w.ftl)
    let zs := passSets g ord w.ftl
    let p := mergeLoop g.config ord zs fun _ => (0 : B)
    (p.run exec wm).1 = (0, finalBuf w zs fun _ => 0) ∧
      LoopDone wm zs (fun _ => 0) (afterMerge ord w) ∧ ZoneInv g (afterMerge ord w) ∧
      (Tight g w → Tight g (afterMerge ord w)) ∧
      Program.Always exec (Stage wm zs fun _ => 0) p wm := by
  intro wm zs p
  have hzm : ZoneInv g wm := hr.zones.congr rfl rfl fun _ _ => rfl
  have hds : zs ≠ [] → g.ds ≤ 18 := by
    intro hne
    by_contra hds
    exact hne (passSets_nil (hr.big (by omega)))
  obtain ⟨hret, hdone, hz', ht', -, hall⟩ := run_mergeLoop ord zs wm (fun _ => 0) hds hzm
    (setsOk_passSets hr.log) (hr.supply ord)
  exact ⟨hret, hdone, hz', fun ht => ht' (ht.congr rfl rfl), hall⟩

/-- **What a pass leaves behind**: an empty log, and every zone it merged in its place. -/
structure Collected (ord : HashOrder) (w s : World g.drive) : Prop where
  ftl : s.ftl = { w.ftl with
    logZoneMapping := ∅
    dataZoneMapping := s.ftl.dataZoneMapping
    logZoneEnd := w.ftl.logZoneStart
    zoneStates := s.ftl.zoneStates
    triggerMyGc := false }
  logZone : ∀ i < g.logZones, s.media.zone i = []
  others : ∀ u, u ∉ (passSets g ord w.ftl).map Sigma.fst → Kept u w s
  self : ∀ {done rest : ZoneSets} {v : ℤ} {set : UMap ℤ},
    passSets g ord w.ftl = done ++ ⟨v, set⟩ :: rest →
    Moved v ((finalBuf w (done ++ [⟨v, set⟩]) fun _ => 0).slice 0 g.nBlocks) s

theorem run_triggerGc (ord : HashOrder) (hr : Ready g w) :
    let s := ((triggerGc g.config ord : Prog B Unit).run exec w).2
    Collected ord w s ∧ ZoneInv g s ∧ (Tight g w → Tight g s) := by
  intro s
  have hs : s = _ := congrArg Prod.snd (always_triggerGc (w := w) ord (I := fun _ => True)).1
  obtain ⟨-, hdone, hz, ht, -⟩ := run_passLoop ord hr
  obtain ⟨hwiped, -⟩ := run_resetLogZones g.logZones 0 (afterMerge ord w)
    (by have := g.logZones_lt; omega)
  change Wiped (afterMerge ord w) 0 g.logZones (afterReset ord w) at hwiped
  have hmap : s.ftl.dataZoneMapping = (afterMerge ord w).ftl.dataZoneMapping := by
    rw [hs, ← hwiped.ftl]
  have hstates : s.ftl.zoneStates = (afterMerge ord w).ftl.zoneStates := by
    rw [hs, ← hwiped.ftl]
  have hzone : ∀ i, g.logZones ≤ i → s.media.zone i = (afterMerge ord w).media.zone i := by
    intro i hi
    rw [hs]
    exact (hwiped.zone i).trans (if_neg (by omega))
  refine ⟨⟨?_, ?_, ?_, ?_⟩, hz.congr hmap hstates hzone, fun h => (ht h).congr hmap hstates⟩
  · rw [hmap, hstates, hs]
    simp only [hwiped.ftl]
    rw [hdone.log.ftl]
    rfl
  · intro i hi
    rw [hs]
    exact (hwiped.zone i).trans (if_pos ⟨Nat.zero_le _, by omega⟩)
  · intro u hu
    have hk : Kept u w (afterMerge ord w) := ⟨(hdone.others u hu).lookup, (hdone.others u hu).zone⟩
    refine ⟨by rw [hmap, hk.lookup], fun {e} he => ?_⟩
    rw [hzone e (hr.zones.used he).1, hk.zone he]
  · intro done rest v set heq
    obtain ⟨e, hle, hlt, hlook, hself⟩ := hdone.self heq
    exact ⟨e, hle, hlt, by rw [hmap, hlook], by rw [hzone e hle]; exact hself⟩

end Pass

/-! ## What a reader finds in the data zones -/

/-- A zone that has been moved reads as the buffer it was written from. -/
lemma Moved.dataAt_eq {v : ℤ} {buf : Buffer B} (h : Moved v (buf.slice 0 g.nBlocks) w) {o : ℕ}
    (ho : o < g.nBlocks) : dataAt w v o = some (buf o) := by
  obtain ⟨e, -, -, hlook, hzone⟩ := h
  rw [ZoneInv.dataAt_eq hlook, Setup.blockAt_addr _ ho, hzone]
  simp [Buffer.slice, ho]

end StoSys
