import StoSys.Ftl.Merge

/-!
# The loop of `zone_merge`

All zone sets of a pass, one after the other, through one buffer.  `run_mergeLoop` is proved by
induction on the sets still to be merged.  Two things travel with the induction: the supply of free
zones, of which a zone merged for the first time takes one and any other none; and the buffer, which
each merge leaves as it wrote it.

`Stage` is the view from outside: at every moment of the loop each virtual zone is where the loop
found it, or where the loop will leave it, or is just being rewritten in place.
-/

namespace StoSys

open Effect HashMap Zoned CInt

variable {B : Type} {g : Setup B} {w : World g.drive}

/-- Zone sets, in the order a pass visits them. -/
abbrev ZoneSets : Type := List (Sigma fun _ : ℤ => UMap ℤ)

/-- Distinct virtual zones of the drive, each with a valid block map. -/
structure SetsOk (g : Setup B) (zs : ZoneSets) : Prop where
  nodup : (zs.map Sigma.fst).Nodup
  set : ∀ {v : ℤ} {set : UMap ℤ}, ⟨v, set⟩ ∈ zs → SetOk g set
  zone : ∀ {v : ℤ} {set : UMap ℤ}, ⟨v, set⟩ ∈ zs → ∃ u : ℕ, v = u ∧ g.logZones ≤ u ∧ u < g.nrZones

/-- How many of the virtual zones have no data zone yet. -/
def newZones (m : Ftl) (zs : ZoneSets) : ℕ :=
  zs.countP fun z => z.1 ∉ m.dataZoneMapping

/-- The buffer after merging all of `zs`. -/
def finalBuf (w : World g.drive) (zs : ZoneSets) (buf : Buffer B) : Buffer B :=
  zs.foldl (fun buf z => merged w z.1 z.2 buf) buf

/-! ## What the loop does not touch -/

lemma exists_split {v : ℤ} {zs : ZoneSets} (hv : v ∈ zs.map Sigma.fst) :
    ∃ (done : ZoneSets) (set : UMap ℤ) (rest : ZoneSets), zs = done ++ ⟨v, set⟩ :: rest := by
  obtain ⟨⟨v', set⟩, hmem, rfl⟩ := List.mem_map.mp hv
  obtain ⟨done, rest, h⟩ := List.append_of_mem hmem
  exact ⟨done, set, rest, h⟩

lemma mem_of_split {v : ℤ} {set : UMap ℤ} {zs done rest : ZoneSets}
    (h : zs = done ++ ⟨v, set⟩ :: rest) : ⟨v, set⟩ ∈ zs := by
  rw [h]
  exact List.mem_append_right _ (List.mem_cons_self ..)

/-- A zone of the loop is the first one, or a zone of the rest. -/
lemma cons_split {v v' : ℤ} {set set' : UMap ℤ} {done rest rest' : ZoneSets}
    (h : (⟨v, set⟩ :: rest : ZoneSets) = done ++ ⟨v', set'⟩ :: rest') :
    (done = [] ∧ v' = v ∧ set' = set ∧ rest' = rest) ∨
      ∃ done', done = ⟨v, set⟩ :: done' ∧ rest = done' ++ ⟨v', set'⟩ :: rest' := by
  rcases List.cons_eq_append_iff.mp h with ⟨hdone, hhead⟩ | hrest
  · obtain ⟨⟨hv, hset⟩, hrest⟩ := List.cons.inj hhead |>.imp_left Sigma.mk.inj_iff.mp
    exact Or.inl ⟨hdone, hv, eq_of_heq hset, hrest⟩
  · exact Or.inr hrest

lemma SetsOk.tail {z : Sigma fun _ : ℤ => UMap ℤ} {zs : ZoneSets} (h : SetsOk g (z :: zs)) :
    SetsOk g zs :=
  ⟨(List.nodup_cons.mp h.nodup).2, fun hm => h.set (List.mem_cons_of_mem _ hm),
    fun hm => h.zone (List.mem_cons_of_mem _ hm)⟩

lemma SetsOk.head_notMem {v : ℤ} {set : UMap ℤ} {zs : ZoneSets} (h : SetsOk g (⟨v, set⟩ :: zs)) :
    v ∉ zs.map Sigma.fst :=
  (List.nodup_cons.mp h.nodup).1

lemma LogKept.trans {w₁ s : World g.drive} (h₁ : LogKept w w₁) (h₂ : LogKept w₁ s) :
    LogKept w s := by
  refine ⟨?_, fun i hi => (h₂.zone i hi).trans (h₁.zone i hi)⟩
  rw [h₂.ftl, h₁.ftl]

lemma Kept.trans {u : ℤ} {w₁ s : World g.drive} (h₁ : Kept u w w₁) (h₂ : Kept u w₁ s) :
    Kept u w s :=
  ⟨h₂.lookup.trans h₁.lookup,
    fun he => (h₂.zone (h₁.lookup.trans he)).trans (h₁.zone he)⟩

lemma Kept.mem_iff {u : ℤ} {s : World g.drive} (h : Kept u w s) :
    u ∈ s.ftl.dataZoneMapping ↔ u ∈ w.ftl.dataZoneMapping := by
  rw [← AList.lookup_isSome, h.lookup, AList.lookup_isSome]

/-- A zone that stays where it is keeps its blocks. -/
lemma Kept.dataAt_eq {u : ℤ} {s : World g.drive} (h : Kept u w s) (hz : ZoneInv g w) {o : ℕ}
    (ho : o < g.nBlocks) : dataAt s u o = dataAt w u o := by
  unfold dataAt
  rw [h.lookup]
  cases hu : w.ftl.dataZoneMapping.lookup u with
  | none => rfl
  | some zone =>
      obtain ⟨e, rfl, -⟩ := hz.val hu
      have hzone : (e * g.nBlocks + o) / g.nBlocks = e := Media.addr_div (d := g.drive) ho
      refine congrArg some (Media.blockAt_congr ?_)
      rw [Int.toNat_natCast, Setup.drive_zoneSize, hzone]
      exact h.zone hu

/-- The blocks of the log below its last zone are kept. -/
lemma LogKept.blockAt_eq {s : World g.drive} (h : LogKept w s) {y : ℕ}
    (hy : y < (g.logZones - 1) * g.nBlocks) : s.media.blockAt y = w.media.blockAt y :=
  Media.blockAt_congr (h.zone _ (below_lastLog hy).1)

/-- What a merge computes depends on nothing but its own zone and the log. -/
lemma merged_congr {s : World g.drive} (hz : ZoneInv g w) (hlog : LogKept w s) {u : ℤ}
    (hu : Kept u w s) {set : UMap ℤ} (hset : SetOk g set) (buf : Buffer B) :
    merged s u set buf = merged w u set buf := by
  funext j
  unfold merged
  cases hj : set.lookup j with
  | some x =>
      obtain ⟨-, y, -, -, rfl, hy⟩ := hset hj
      exact hlog.blockAt_eq hy
  | none =>
      change oldBuf s u buf j = oldBuf w u buf j
      unfold oldBuf
      by_cases h : 0 ≤ j ∧ j < g.nBlocks
      · rw [if_pos h, if_pos h, hu.dataAt_eq hz (by omega)]
      · rw [if_neg h, if_neg h]

lemma finalBuf_congr {s : World g.drive} (hz : ZoneInv g w) (hlog : LogKept w s) :
    ∀ (zs : ZoneSets) (buf : Buffer B), (∀ z ∈ zs, Kept z.1 w s) → (∀ z ∈ zs, SetOk g z.2) →
      finalBuf s zs buf = finalBuf w zs buf
  | [], _, _, _ => rfl
  | z :: rest, buf, hkept, hset => by
      have hm := merged_congr hz hlog (hkept z (List.mem_cons_self ..))
        (hset z (List.mem_cons_self ..)) buf
      have ih := finalBuf_congr hz hlog rest (merged w z.1 z.2 buf)
        (fun z hm => hkept z (List.mem_cons_of_mem _ hm))
        (fun z hm => hset z (List.mem_cons_of_mem _ hm))
      simp only [finalBuf, List.foldl_cons] at ih ⊢
      rw [hm, ih]

lemma newZones_congr {s : World g.drive} {zs : ZoneSets} (hkept : ∀ z ∈ zs, Kept z.1 w s) :
    newZones s.ftl zs = newZones w.ftl zs :=
  List.countP_congr fun z hz => by simp [(hkept z hz).mem_iff]

lemma newZones_cons (m : Ftl) (v : ℤ) (set : UMap ℤ) (zs : ZoneSets) :
    newZones m (⟨v, set⟩ :: zs) = newZones m zs + (if v ∈ m.dataZoneMapping then 0 else 1) := by
  rw [newZones, List.countP_cons, newZones]
  by_cases h : v ∈ m.dataZoneMapping <;> simp [h]

lemma newZones_append (m : Ftl) (zs zs' : ZoneSets) :
    newZones m (zs ++ zs') = newZones m zs + newZones m zs' :=
  List.countP_append

lemma SetsOk.left {zs zs' : ZoneSets} (h : SetsOk g (zs ++ zs')) : SetsOk g zs := by
  refine ⟨?_, fun hm => h.set (List.mem_append_left _ hm),
    fun hm => h.zone (List.mem_append_left _ hm)⟩
  have hnodup := h.nodup
  rw [List.map_append] at hnodup
  exact hnodup.of_append_left

/-! ## The view from outside -/

/-- **What is seen while `zs` is merged from `w` with buffer `buf`.** -/
structure Stage (w : World g.drive) (zs : ZoneSets) (buf : Buffer B) (s : World g.drive) :
    Prop where
  log : LogKept w s
  others : ∀ u, u ∉ zs.map Sigma.fst → Kept u w s
  self : ∀ {done rest : ZoneSets} {v : ℤ} {set : UMap ℤ}, zs = done ++ ⟨v, set⟩ :: rest →
    let bs := (finalBuf w (done ++ [⟨v, set⟩]) buf).slice 0 g.nBlocks
    Kept v w s ∨ Moved v bs s ∨
      (freeZones g w.ftl).card = newZones w.ftl done ∧ v ∈ w.ftl.dataZoneMapping ∧
        ∃ k, Refilled v bs k w s

/-- **What is found when the loop is over.** -/
structure LoopDone (w : World g.drive) (zs : ZoneSets) (buf : Buffer B) (s : World g.drive) :
    Prop where
  log : LogKept w s
  others : ∀ u, u ∉ zs.map Sigma.fst → Kept u w s
  self : ∀ {done rest : ZoneSets} {v : ℤ} {set : UMap ℤ}, zs = done ++ ⟨v, set⟩ :: rest →
    Moved v ((finalBuf w (done ++ [⟨v, set⟩]) buf).slice 0 g.nBlocks) s

lemma Moved.of_kept {v : ℤ} {bs : List B} {s : World g.drive} (h : Moved v bs w)
    (hs : Kept v w s) : Moved v bs s := by
  obtain ⟨e, hle, hlt, hlook, hzone⟩ := h
  exact ⟨e, hle, hlt, hs.lookup.trans hlook, (hs.zone hlook).trans hzone⟩

section Step

variable {v : ℤ} {set : UMap ℤ} {rest : ZoneSets} {buf : Buffer B}

/-- What is seen while the first zone is merged is a stage of the whole loop. -/
lemma During.stage {s : World g.drive} (hok : SetsOk g (⟨v, set⟩ :: rest))
    (h : During v ((merged w v set buf).slice 0 g.nBlocks) w s)
    (hroom : freeZones g w.ftl = ∅ → v ∈ w.ftl.dataZoneMapping) :
    Stage w (⟨v, set⟩ :: rest) buf s := by
  refine ⟨h.log, fun u hu => h.others u ?_, ?_⟩
  · rintro rfl
    exact hu (List.mem_cons_self ..)
  · intro done rest' v' set' heq
    rcases cons_split heq with ⟨rfl, rfl, rfl, rfl⟩ | ⟨done', rfl, hrest⟩
    · rcases h.self with hk | hm | ⟨hfree, k, hr⟩
      · exact Or.inl hk
      · exact Or.inr (Or.inl hm)
      · refine Or.inr (Or.inr ⟨?_, hroom hfree, k, hr⟩)
        rw [hfree]
        rfl
    · refine Or.inl (h.others v' ?_)
      rintro rfl
      refine hok.head_notMem ?_
      rw [hrest]
      simp

/-- What a merge leaves behind for the rest of the loop. -/
structure StepTo (w : World g.drive) (v : ℤ) (bs : List B) (w₁ : World g.drive) : Prop where
  log : LogKept w w₁
  others : ∀ u ≠ v, Kept u w w₁
  self : Moved v bs w₁
  card : (freeZones g w₁.ftl).card + (if v ∈ w.ftl.dataZoneMapping then 0 else 1)
    = (freeZones g w.ftl).card

/-- The rest of the loop computes what it would have computed from the start. -/
lemma StepTo.finalBuf_cons {w₁ : World g.drive} {bs : List B} (hz : ZoneInv g w)
    (hok : SetsOk g (⟨v, set⟩ :: rest)) (h : StepTo w v bs w₁) {zs : ZoneSets}
    (hzs : zs ⊆ rest) :
    finalBuf w₁ zs (merged w v set buf) = finalBuf w (⟨v, set⟩ :: zs) buf := by
  have hne : ∀ z ∈ zs, z.1 ≠ v := by
    rintro z hm rfl
    exact hok.head_notMem (List.mem_map_of_mem (hzs hm))
  exact finalBuf_congr hz h.log zs _ (fun z hm => h.others _ (hne z hm))
    (fun z hm => hok.set (List.mem_cons_of_mem _ (hzs hm)))

lemma StepTo.newZones_eq {w₁ : World g.drive} {bs : List B}
    (hok : SetsOk g (⟨v, set⟩ :: rest)) (h : StepTo w v bs w₁) {zs : ZoneSets} (hzs : zs ⊆ rest) :
    newZones w₁.ftl zs = newZones w.ftl zs := by
  refine newZones_congr fun z hm => h.others _ ?_
  rintro rfl
  exact hok.head_notMem (List.mem_map_of_mem (hzs hm))

/-- What neither the first merge nor the rest touches. -/
lemma StepTo.others_cons {w₁ s : World g.drive} {bs : List B} (h₁ : StepTo w v bs w₁)
    (h : ∀ u, u ∉ rest.map Sigma.fst → Kept u w₁ s) :
    ∀ u, u ∉ (⟨v, set⟩ :: rest : ZoneSets).map Sigma.fst → Kept u w s := by
  intro u hu
  rw [List.map_cons, List.mem_cons, not_or] at hu
  exact (h₁.others u hu.1).trans (h u hu.2)

/-- What is seen after the first zone has been merged is a stage of the whole loop. -/
lemma Stage.cons {w₁ s : World g.drive} (hz : ZoneInv g w) (hok : SetsOk g (⟨v, set⟩ :: rest))
    (h₁ : StepTo w v ((merged w v set buf).slice 0 g.nBlocks) w₁)
    (h : Stage w₁ rest (merged w v set buf) s) : Stage w (⟨v, set⟩ :: rest) buf s := by
  have hv := h.others v hok.head_notMem
  refine ⟨h₁.log.trans h.log, h₁.others_cons h.others, ?_⟩
  intro done rest' v' set' heq
  rcases cons_split heq with ⟨rfl, rfl, rfl, rfl⟩ | ⟨done', rfl, hrest⟩
  · exact Or.inr (Or.inl (h₁.self.of_kept hv))
  · have hne : v' ≠ v := by
      rintro rfl
      refine hok.head_notMem ?_
      rw [hrest]
      simp
    have hk := h₁.others v' hne
    have hsub : done' ++ [⟨v', set'⟩] ⊆ rest := by
      rw [hrest]
      simp
    have hdone : done' ⊆ rest := fun z hm => hsub (List.mem_append_left _ hm)
    have hself := h.self hrest
    rw [h₁.finalBuf_cons hz hok hsub] at hself
    rcases hself with hself | hself | ⟨hfree, hmem, k, e, hle, hlt, hlook, hlook', hzone⟩
    · exact Or.inl (hk.trans hself)
    · exact Or.inr (Or.inl hself)
    · refine Or.inr (Or.inr ⟨?_, hk.mem_iff.mp hmem, k, e, hle, hlt, ?_, hlook', hzone⟩)
      · rw [newZones_cons, ← h₁.card, hfree, h₁.newZones_eq hok hdone]
      · rw [← hk.lookup, hlook]

lemma LoopDone.cons {w₁ s : World g.drive} (hz : ZoneInv g w) (hok : SetsOk g (⟨v, set⟩ :: rest))
    (h₁ : StepTo w v ((merged w v set buf).slice 0 g.nBlocks) w₁)
    (h : LoopDone w₁ rest (merged w v set buf) s) : LoopDone w (⟨v, set⟩ :: rest) buf s := by
  refine ⟨h₁.log.trans h.log, h₁.others_cons h.others, ?_⟩
  intro done rest' v' set' heq
  rcases cons_split heq with ⟨rfl, rfl, rfl, rfl⟩ | ⟨done', rfl, hrest⟩
  · exact h₁.self.of_kept (h.others v' hok.head_notMem)
  · have hsub : done' ++ [⟨v', set'⟩] ⊆ rest := by
      rw [hrest]
      simp
    have hself := h.self hrest
    rw [h₁.finalBuf_cons hz hok hsub] at hself
    exact hself

end Step

/-- The first merge of the loop, with all it needs and leaves. -/
lemma run_mergeZone_step (hds : g.ds ≤ 18) (ord : HashOrder) {v : ℤ} {set : UMap ℤ}
    {rest : ZoneSets} (hz : ZoneInv g w) (hok : SetsOk g (⟨v, set⟩ :: rest))
    (hsupply : newZones w.ftl (⟨v, set⟩ :: rest) ≤ (freeZones g w.ftl).card) (buf : Buffer B) :
    let p := mergeZone g.config v ((ord.blocks v).order set) buf
    let w₁ := (p.run exec w).2
    (p.run exec w).1 = (0, merged w v set buf) ∧
      StepTo w v ((merged w v set buf).slice 0 g.nBlocks) w₁ ∧
      ZoneInv g w₁ ∧ (Tight g w → Tight g w₁) ∧
      newZones w₁.ftl rest ≤ (freeZones g w₁.ftl).card ∧
      Program.Always exec (Stage w (⟨v, set⟩ :: rest) buf) p w ∧
      (freeZones g w.ftl = ∅ → ¬ Program.Always exec (fun s => ¬ Refilled v [] 0 w s) p w) := by
  have hcons := newZones_cons w.ftl v set rest
  have hroom : freeZones g w.ftl = ∅ → v ∈ w.ftl.dataZoneMapping := by
    intro hfree
    by_contra hv
    rw [hfree, Finset.card_empty, hcons, if_neg hv] at hsupply
    omega
  obtain ⟨hret, hplaced, hall, hgap⟩ := run_mergeZone hds hz (hok.set (List.mem_cons_self ..))
    (ord.blocks v) buf hroom
  have hduring := hall.last
  have h₁ : StepTo w v ((merged w v set buf).slice 0 g.nBlocks) _ :=
    ⟨hduring.log, hduring.others, hplaced.moved hz, hplaced.card_free hz⟩
  have hcard := h₁.card
  refine ⟨hret, h₁, ?_, hplaced.tight, ?_, hall.mono fun s hs => hs.stage hok hroom, hgap⟩
  · exact hplaced.zoneInv hz (Buffer.length_slice ..) (hok.zone (List.mem_cons_self ..))
  · rw [h₁.newZones_eq hok (List.Subset.refl rest)]
    omega

/-- **The loop.**  Enough free zones for the zones merged for the first time are all it needs. -/
theorem run_mergeLoop (ord : HashOrder) : ∀ (zs : ZoneSets) (w : World g.drive)
    (buf : Buffer B), (zs ≠ [] → g.ds ≤ 18) → ZoneInv g w → SetsOk g zs →
    newZones w.ftl zs ≤ (freeZones g w.ftl).card →
    let p := mergeLoop g.config ord zs buf
    (p.run exec w).1 = (0, finalBuf w zs buf) ∧ LoopDone w zs buf (p.run exec w).2 ∧
      ZoneInv g (p.run exec w).2 ∧ (Tight g w → Tight g (p.run exec w).2) ∧
      (freeZones g (p.run exec w).2.ftl).card + newZones w.ftl zs = (freeZones g w.ftl).card ∧
      Program.Always exec (Stage w zs buf) p w
  | [], w, buf, _, hz, _, _ => by
      refine ⟨rfl, ⟨LogKept.refl w, fun u _ => Kept.refl u w, ?_⟩, hz, id, rfl, ?_⟩
      · intro done rest v set h
        simp at h
      · refine Program.always_pure.mpr ⟨LogKept.refl w, fun u _ => Kept.refl u w, ?_⟩
        intro done rest v set h
        simp at h
  | ⟨v, set⟩ :: rest, w, buf, hds, hz, hok, hsupply => by
      have hds' := hds (List.cons_ne_nil _ _)
      obtain ⟨hret, h₁, hz₁, ht₁, hsupply₁, hall, -⟩ := run_mergeZone_step hds' ord hz hok hsupply buf
      generalize hw₁ : ((mergeZone g.config v ((ord.blocks v).order set) buf).run exec w).2 = w₁
        at h₁ hz₁ ht₁ hsupply₁
      have hcard := h₁.card
      have hcons := newZones_cons w.ftl v set rest
      have hnew := h₁.newZones_eq hok (List.Subset.refl rest)
      obtain ⟨hret', hdone, hz', ht', hcard', hall'⟩ := run_mergeLoop ord rest w₁
        (merged w v set buf) (fun _ => hds') hz₁ hok.tail hsupply₁
      intro p
      simp only [p, mergeLoop, Program.run_bind, Program.always_bind, hret, hw₁, ne_eq,
        not_true_eq_false, if_false]
      refine ⟨?_, hdone.cons hz hok h₁, hz', fun ht => ht' (ht₁ ht), by omega, hall, ?_⟩
      · rw [hret', h₁.finalBuf_cons hz hok (List.Subset.refl rest)]
      · exact hall'.mono fun s hs => hs.cons hz hok h₁

end StoSys
