import StoSys.M45.Main

/-!
# What `m45` makes, and what it finds out

**The map** (`fillUpMap_spec`).  The number at the end of a key makes it unique, whatever the random
part is, so the map gets all its entries, unless a random string of negative length is asked for.
The value is shorter by the number, and gets the number back: an entry is longer than what is
announced.

**With a shadow** (`main_passes_iff`) the database under test has to hold everything that the shadow
holds, what it held before included.

**Without** (`single_passes_iff`) it is enough that it answers.  Either way it has to close without an
error.

**Read-only** (`roverify_passes_iff`), after a run that passed, what it has to hold is what it held
when that run was over.
-/

namespace StoSys.M45

open Effect Strings CInt

variable {rand : ℕ → ℕ} {entries ksize vsize : ℤ} {count r fuel : ℕ} {m : TestMap}

/-! ## Keys -/

/-- Numbers with the same digits are equal. -/
lemma toString_injective : Function.Injective toString := by
  intro c c' h
  have hback := congrArg (fun l => Nat.ofDigitChars 10 l 0) h
  rwa [toString, toString, Nat.ofDigitChars_ten_toDigits, Nat.ofDigitChars_ten_toDigits] at hback

/-- The digits of a larger number are as many at least. -/
lemma length_toString_mono {c c' : ℕ} (h : c ≤ c') :
    (toString c).length ≤ (toString c').length := by
  have hpos : 0 < (toString c').length := Nat.length_toDigits_pos
  have hlt := (Nat.length_toDigits_le_iff (n := c') (by decide) hpos).mp (Nat.le_refl _)
  exact (Nat.length_toDigits_le_iff (by decide) hpos).mpr (h.trans_lt hlt)

/-- Entry number `c`. -/
structure Entry (ksize vsize : ℤ) (c : ℕ) (k v : List Char) : Prop where
  key : (k.length : ℤ) = ksize + (toString c).length
  number : toString c <:+ k
  value : (v.length : ℤ) = vsize

/-- A key ends in the number of one entry only. -/
lemma Entry.unique {c c' : ℕ} {k v v' : List Char} (h : Entry ksize vsize c k v)
    (h' : Entry ksize vsize c' k v') : c = c' := by
  have hlen : (toString c).length = (toString c').length := by
    have := h.key
    have := h'.key
    omega
  have hsuffix : toString c <:+ toString c' :=
    List.suffix_of_suffix_length_le h.number h'.number hlen.le
  exact toString_injective (hsuffix.eq_of_length hlen)

/-- The first `count` entries. -/
structure Filled (ksize vsize : ℤ) (count : ℕ) (m : TestMap) : Prop where
  size : m.keys.length = count
  entry : ∀ {k v}, m.lookup k = some v → ∃ c < count, Entry ksize vsize c k v

/-- There is room for all the numbers. -/
def Fits (entries ksize vsize : ℤ) : Prop :=
  0 ≤ ksize ∧ ((toString (entries.toNat - 1)).length : ℤ) ≤ vsize

instance decidableFits : Decidable (Fits entries ksize vsize) :=
  inferInstanceAs (Decidable (_ ∧ _))

/-! ## The loop -/

lemma genrateRandomString_some (rand : ℕ → ℕ) {len : ℤ} (h : 0 ≤ len) (r : ℕ) :
    ∃ str : List Char, genrateRandomString rand r len = some (str, r + len.toNat) ∧
      (str.length : ℤ) = len := by
  rw [genrateRandomString, if_neg (by omega)]
  exact ⟨_, rfl, by simp [h]⟩

lemma genrateRandomString_none {len : ℤ} (h : len < 0) (r : ℕ) :
    genrateRandomString rand r len = none := if_pos h

/-- What is left for the value. -/
lemma toI32_toU64 {x : ℤ} (hlo : -2147483648 ≤ x) (hhi : x < 2147483648) : toI32 (toU64 x) = x := by
  unfold toI32 toU64
  split <;> omega

section Bounds

variable (hentries : entries < 2147483648) (hlo : -2147483600 ≤ vsize) (hhi : vsize < 2147483648)
include hentries hlo hhi

/-- **One turn** of the loop adds an entry, or throws. -/
lemma fillLoop_turn (hm : Filled ksize vsize count m) (hlt : (count : ℤ) < entries) (fuel r : ℕ) :
    (0 ≤ ksize ∧ ((toString count).length : ℤ) ≤ vsize ∧ ∃ r' m',
      Filled ksize vsize (count + 1) m' ∧ fillLoop rand entries ksize vsize (fuel + 1) count r m
        = fillLoop rand entries ksize vsize fuel (count + 1) r' m') ∨
    ¬ (0 ≤ ksize ∧ ((toString count).length : ℤ) ≤ vsize) ∧
      fillLoop rand entries ksize vsize (fuel + 1) count r m = none := by
  have hsize : m.keys.length ≠ toU64 entries := by
    rw [hm.size]
    unfold toU64
    omega
  have hten : (toString count).length ≤ 10 :=
    (Nat.length_toDigits_le_iff (by decide) (by decide)).mpr (by omega)
  rw [fillLoop, if_neg hsize, if_pos hlt]
  rcases Int.lt_or_le ksize 0 with hneg | hksize
  · rw [genrateRandomString_none hneg]
    exact Or.inr ⟨fun h => by omega, rfl⟩
  · obtain ⟨random, hrandom, hlen⟩ := genrateRandomString_some rand hksize r
    have hkey : ((random ++ toString count).length : ℤ) = ksize + (toString count).length := by
      rw [List.length_append]
      omega
    have hrest : toI32 (toU64 (ksize + vsize - (random ++ toString count).length))
        = vsize - (toString count).length := by
      rw [hkey, show ksize + vsize - (ksize + ((toString count).length : ℤ))
        = vsize - (toString count).length by omega]
      exact toI32_toU64 (by omega) (by omega)
    rw [hrandom, Option.bind_eq_bind, Option.bind_some]
    dsimp only
    rw [hrest]
    rcases Int.lt_or_le (vsize - (toString count).length) 0 with hneg | hvalue
    · rw [genrateRandomString_none hneg]
      exact Or.inr ⟨fun h => by omega, rfl⟩
    · obtain ⟨value, hrandom', hlen'⟩ := genrateRandomString_some rand hvalue (r + ksize.toNat)
      have hentry : Entry ksize vsize count (random ++ toString count)
          (value ++ toString count) := by
        refine ⟨hkey, List.suffix_append _ _, ?_⟩
        rw [List.length_append]
        omega
      have hfresh : random ++ toString count ∉ m := by
        intro hmem
        obtain ⟨v, hv⟩ := Option.isSome_iff_exists.mp (AList.lookup_isSome.mpr hmem)
        obtain ⟨c, hc, hentry'⟩ := hm.entry hv
        have := hentry.unique hentry'
        omega
      rw [hrandom', Option.bind_some]
      dsimp only
      rw [if_neg hfresh]
      refine Or.inl ⟨hksize, by omega, _, _, ⟨?_, ?_⟩, rfl⟩
      · rw [AList.keys, AList.entries_insert_of_notMem hfresh, List.keys_cons, List.length_cons]
        exact congrArg (· + 1) hm.size
      · intro k v hv
        by_cases hk : k = random ++ toString count
        · subst hk
          rw [AList.lookup_insert] at hv
          cases hv
          exact ⟨count, Nat.lt_succ_self count, hentry⟩
        · rw [AList.lookup_insert_ne hk] at hv
          obtain ⟨c, hc, h⟩ := hm.entry hv
          exact ⟨c, Nat.lt_succ_of_lt hc, h⟩

/-- **The rest of the loop**, as long as there is fuel. -/
lemma fillLoop_run (rand : ℕ → ℕ) (fuel : ℕ) (hm : Filled ksize vsize count m)
    (hle : (count : ℤ) ≤ entries) (hfuel : entries < count + fuel) (r : ℕ) :
    ((count : ℤ) = entries ∨ Fits entries ksize vsize) ∧
        (∃ m', Filled ksize vsize entries.toNat m' ∧
          fillLoop rand entries ksize vsize fuel count r m = some m') ∨
      ¬ ((count : ℤ) = entries ∨ Fits entries ksize vsize) ∧
        fillLoop rand entries ksize vsize fuel count r m = none := by
  induction fuel generalizing count m r with
  | zero => omega
  | succ fuel ih =>
      rcases hle.eq_or_lt with heq | hlt
      · have hcount : entries.toNat = count := by omega
        refine Or.inl ⟨Or.inl heq, m, hcount ▸ hm, ?_⟩
        rw [fillLoop, if_pos]
        rw [hm.size]
        unfold toU64
        omega
      · have hmono := length_toString_mono (show count ≤ entries.toNat - 1 by omega)
        rcases fillLoop_turn hentries hlo hhi hm hlt fuel r with
          ⟨hksize, hdigits, r', m', hm', hloop⟩ | ⟨hbad, hloop⟩
        · rw [hloop]
          have hiff : ((count : ℤ) = entries ∨ Fits entries ksize vsize)
              ↔ (((count + 1 : ℕ) : ℤ) = entries ∨ Fits entries ksize vsize) := by
            rw [or_iff_right hlt.ne, eq_comm, iff_def]
            refine ⟨Or.inr, fun h => h.elim (fun hlast => ⟨hksize, ?_⟩) id⟩
            rwa [show entries.toNat - 1 = count by omega]
          rw [hiff]
          exact ih hm' (by omega) (by omega) r'
        · refine Or.inr ⟨fun h => hbad ?_, hloop⟩
          obtain ⟨hksize, hdigits⟩ := h.resolve_left hlt.ne
          exact ⟨hksize, by omega⟩

end Bounds

/-- **The map gets all its entries**, with a key of their own each, if there is room for the
numbers; otherwise there is no map. -/
theorem fillUpMap_spec (rand : ℕ → ℕ) (hint : -2147483648 ≤ entries)
    (hentries : entries < 2147483648) (hlo : -2147483600 ≤ vsize) (hhi : vsize < 2147483648) :
    ((fillUpMap rand entries ksize vsize).isSome ↔
        entries = 0 ∨ 0 < entries ∧ Fits entries ksize vsize) ∧
      ∀ {m}, fillUpMap rand entries ksize vsize = some m → Filled ksize vsize entries.toNat m := by
  have hempty : Filled ksize vsize 0 ∅ := ⟨rfl, fun h => by simp at h⟩
  rcases Int.lt_or_le entries 0 with hneg | hnonneg
  · have hnone : fillUpMap rand entries ksize vsize = none := by
      rw [fillUpMap, fillLoop, if_neg, if_neg (by omega)]
      change (0 : ℕ) ≠ toU64 entries
      unfold toU64
      omega
    rw [hnone]
    refine ⟨iff_of_false (by decide) (by omega), fun h => absurd h (by simp)⟩
  · have hiff : ((0 : ℕ) : ℤ) = entries ∨ Fits entries ksize vsize
        ↔ entries = 0 ∨ 0 < entries ∧ Fits entries ksize vsize := by
      constructor
      · rintro (hzero | hfits)
        · exact Or.inl hzero.symm
        · rcases hnonneg.eq_or_lt with hzero | hpos
          · exact Or.inl hzero.symm
          · exact Or.inr ⟨hpos, hfits⟩
      · rintro (hzero | ⟨-, hfits⟩)
        · exact Or.inl hzero.symm
        · exact Or.inr hfits
    rcases fillLoop_run hentries hlo hhi rand (entries.toNat + 1) hempty
      (by exact_mod_cast hnonneg) (by omega) 0 with ⟨hfits, m, hm, hloop⟩ | ⟨hfits, hloop⟩
    · rw [fillUpMap, hloop]
      refine ⟨iff_of_true rfl (hiff.mp hfits), fun h => ?_⟩
      cases h
      exact hm
    · rw [fillUpMap, hloop]
      exact ⟨iff_of_false (by decide) fun h => hfits (hiff.mpr h), fun h => absurd h (by simp)⟩

/-- Twelve entries with values of two characters, but not with values of one. -/
theorem fillUpMap_spec_twelve :
    (fillUpMap (fun _ => 7) 12 1 2).isSome ∧ fillUpMap (fun _ => 7) 12 1 1 = none := by
  refine ⟨(fillUpMap_spec _ (by decide) (by decide) (by decide) (by decide)).1.mpr (by decide), ?_⟩
  rw [← Option.not_isSome_iff_eq_none,
    (fillUpMap_spec _ (by decide) (by decide) (by decide) (by decide)).1]
  decide

/-! ## Putting and looking up -/

section Databases

variable {S T : Type} {test : Database T} {shadow : Database S} {k v : List Char}

/-- The loop, on one database. -/
def putAll (db : Database T) (l : List (Sigma fun _ : List Char => List Char)) (t : T) : Option T :=
  l.foldlM (fun t x => db.put t x.1 x.2) t

lemma putAll_cons (db : Database T) (x : Sigma fun _ : List Char => List Char)
    (l : List (Sigma fun _ : List Char => List Char)) (t : T) :
    putAll db (x :: l) t = (db.put t x.1 x.2).bind (putAll db l) := rfl

/-- In a database that works the new entries are found, and the others still are. -/
lemma putAll_lawful (hdb : shadow.Lawful) (l : List (Sigma fun _ : List Char => List Char))
    (hl : l.NodupKeys) (s : S) :
    ∃ s', putAll shadow l s = some s' ∧
      ∀ k, shadow.get s' k = (l.dlookup k).or (shadow.get s k) := by
  induction l generalizing s with
  | nil => exact ⟨s, rfl, fun k => rfl⟩
  | cons x l ih =>
      obtain ⟨hx, hrest⟩ := List.nodupKeys_cons.mp hl
      obtain ⟨s₁, hput⟩ := hdb.put_some s x.1 x.2
      obtain ⟨s', hputs, hget⟩ := ih hrest s₁
      refine ⟨s', ?_, fun k => ?_⟩
      · rw [putAll_cons, hput, Option.bind_some, hputs]
      · rw [hget, hdb.get_put hput]
        by_cases hk : k = x.1
        · subst hk
          rw [List.dlookup_eq_none.mpr hx, List.dlookup_cons_eq, if_pos rfl]
          rfl
        · rw [List.dlookup_cons_ne _ _ hk, if_neg hk]

lemma insertAll_single (l : List (Sigma fun _ : List Char => List Char)) (t : T) (s : S) :
    insertAll test shadow true l t s = (putAll test l t).map fun t' => (t', s) := by
  induction l generalizing t with
  | nil => rfl
  | cons x l ih =>
      rw [putAll_cons, insertAll]
      cases hput : test.put t x.1 x.2 with
      | none => rfl
      | some t₁ => exact ih t₁

/-- A shadow that works does not get in the way. -/
lemma insertAll_double (hdb : shadow.Lawful) (l : List (Sigma fun _ : List Char => List Char))
    (t : T) (s : S) : insertAll test shadow false l t s
      = (putAll test l t).bind fun t' => (putAll shadow l s).map fun s' => (t', s') := by
  induction l generalizing t s with
  | nil => rfl
  | cons x l ih =>
      obtain ⟨s₁, hput'⟩ := hdb.put_some s x.1 x.2
      rw [putAll_cons, putAll_cons, hput', insertAll]
      cases hput : test.put t x.1 x.2 with
      | none => rfl
      | some t₁ => simpa [hput'] using ih t₁ s₁

lemma nodupKeys_inOrder (m : TestMap) : (inOrder m).NodupKeys :=
  (List.perm_nodupKeys (List.mergeSort_perm m.entries _)).mpr m.nodupKeys

/-- The order does not matter to what is looked up. -/
lemma dlookup_inOrder (m : TestMap) (k : List Char) : (inOrder m).dlookup k = m.lookup k :=
  List.perm_dlookup k (nodupKeys_inOrder m) (List.mergeSort_perm _ _)

lemma putAll_empty (db : Database T) (t : T) : putAll db (inOrder ∅) t = some t := by
  rw [show inOrder ∅ = [] from List.mergeSort_nil]
  rfl

/-- A database in memory. -/
def mapDatabase : Database TestMap where
  put m k v := some (m.insert k v)
  get m k := m.lookup k
  close m := some m
  entries m := m.entries.map fun x => (x.1, x.2)
  status _ := true
  destroyed := ∅

lemma mapDatabase_lawful : mapDatabase.Lawful where
  put_some _ _ _ := ⟨_, rfl⟩
  get_put := by
    rintro m k v _ ⟨rfl⟩ k'
    split_ifs with hk
    · rw [hk]
      exact AList.lookup_insert m
    · exact AList.lookup_insert_ne hk
  close_some _ := ⟨_, rfl, fun _ => rfl⟩
  status_ok _ := rfl
  mem_entries m k v := by
    refine Iff.trans ?_ (AList.mem_lookup_iff (s := m)).symm
    simp [mapDatabase]
  get_destroyed _ := rfl

lemma compareAll_eq_some {t : T} {l : List (List Char × List Char)} :
    compareAll test t l = some () ↔ ∀ x ∈ l, test.get t x.1 = some x.2 := by
  induction l with
  | nil => simp [compareAll]
  | cons x l ih =>
      rw [compareAll, List.forall_mem_cons, ← ih]
      cases hget : test.get t x.1 with
      | none => simp
      | some v =>
          by_cases hv : v = x.2
          · simp [hv]
          · simp [hv]

lemma isSome_readAll (t : T) (l : List (Sigma fun _ : List Char => List Char)) (ent : ℕ) :
    (readAll test t l ent).isSome ↔ ∀ x ∈ l, (test.get t x.1).isSome := by
  induction l generalizing ent with
  | nil => simp [readAll]
  | cons x l ih =>
      rw [readAll, List.forall_mem_cons]
      cases hget : test.get t x.1 with
      | none => simp
      | some v => exact (ih _).trans (by simp)

/-- The database under test holds what the shadow does. -/
lemma compareAll_entries (hdb : shadow.Lawful) {t : T} {s : S} :
    compareAll test t (shadow.entries s) = some () ↔
      ∀ k v, shadow.get s k = some v → test.get t k = some v := by
  rw [compareAll_eq_some]
  constructor
  · intro h k v hv
    exact h (k, v) ((hdb.mem_entries s k v).mpr hv)
  · rintro h ⟨k, v⟩ hx
    exact h k v ((hdb.mem_entries s k v).mp hx)

end Databases

/-! ## The program -/

section Main

variable {S T σ : Type} {test : Database T} {shadow : Database S} {a : Arguments} {t t' : T}
  {s s' : S} {h : Handler RocksOp RocksOp.Res σ} {e : σ}

lemma exercise_double (hdb : shadow.Lawful) (hsingle : a.single = false) :
    exercise test shadow a rand t s = some (t', s') ↔
      ∃ m, newEntries a rand = some m ∧ putAll test (inOrder m) t = some t' ∧
        putAll shadow (inOrder m) s = some s' ∧
        ∀ k v, (m.lookup k).or (shadow.get s k) = some v → test.get t' k = some v := by
  rw [exercise]
  cases hm : newEntries a rand with
  | none => simp
  | some m =>
      obtain ⟨s₁, hputs, hget⟩ := putAll_lawful hdb (inOrder m) (nodupKeys_inOrder m) s
      simp only [dlookup_inOrder] at hget
      simp only [hsingle, insertAll_double hdb, Option.bind_eq_bind, Option.bind_some, hputs,
        Option.map_some, Option.some.injEq, exists_eq_left', Bool.false_eq_true, if_false]
      cases hput : putAll test (inOrder m) t with
      | none => simp
      | some t₁ =>
          simp only [Option.bind_some, Option.bind_eq_some_iff, hdb.status_ok, if_true, ← hget,
            Option.some.injEq, Prod.mk.injEq]
          constructor
          · rintro ⟨_, hcompare, rfl, rfl⟩
            exact ⟨rfl, rfl, (compareAll_entries hdb).mp hcompare⟩
          · rintro ⟨rfl, rfl, hagree⟩
            exact ⟨(), (compareAll_entries hdb).mpr hagree, rfl, rfl⟩

/-- A shadow that works closes. -/
lemma isSome_closeBoth (hdb : a.single = false → shadow.Lawful) :
    (closeBoth test shadow a t s).isSome ↔ (test.close t).isSome := by
  cases hsingle : a.single with
  | true => cases htest : test.close t <;> simp [closeBoth, hsingle, htest]
  | false =>
      obtain ⟨s', hs', -⟩ := (hdb hsingle).close_some s
      cases htest : test.close t <;> simp [closeBoth, hsingle, hs', htest]

lemma forall_mem_inOrder (m : TestMap) (P : List Char → Prop) :
    (∀ x ∈ inOrder m, P x.1) ↔ ∀ k ∈ m, P k := by
  simp only [inOrder, List.mem_mergeSort]
  constructor
  · intro h k hk
    obtain ⟨x, hx, rfl⟩ := List.mem_map.mp hk
    exact h x hx
  · intro h x hx
    exact h x.1 (List.mem_map_of_mem hx)

lemma exercise_single (hsingle : a.single = true) :
    exercise test shadow a rand t s = some (t', s') ↔
      s' = s ∧ ∃ m, newEntries a rand = some m ∧ putAll test (inOrder m) t = some t' ∧
        ∀ k ∈ m, (test.get t' k).isSome := by
  rw [exercise]
  cases hm : newEntries a rand with
  | none => simp
  | some m =>
      simp only [hsingle, insertAll_single, Option.bind_eq_bind, Option.bind_some, if_true,
        Option.some.injEq, exists_eq_left']
      cases hput : putAll test (inOrder m) t with
      | none => simp
      | some t₁ =>
          have hread : (readAll test t₁ (inOrder m) 0).isSome ↔ ∀ k ∈ m, (test.get t₁ k).isSome :=
            (isSome_readAll t₁ (inOrder m) 0).trans
              (forall_mem_inOrder m fun k => (test.get t₁ k).isSome)
          simp only [Option.map_some, Option.bind_some, Option.some.injEq]
          constructor
          · intro h
            obtain ⟨ent, hent, heq⟩ := Option.bind_eq_some_iff.mp h
            cases heq
            exact ⟨rfl, rfl, hread.mp (Option.isSome_of_mem hent)⟩
          · rintro ⟨rfl, rfl, hall⟩
            obtain ⟨ent, hent⟩ := Option.isSome_iff_exists.mp (hread.mpr hall)
            rw [hent, Option.bind_some]

section Up

variable (hup : ∀ o e, (h o e).1 = true)
include hup

/-- RocksDB does what it is asked. -/
lemma withRocksdb_up (act : Text → RocksOp) {uri : Text} (hpath : (dbPath uri delimiter).isSome)
    (e : σ) : ((withRocksdb act uri delimiter).run h e).1 = some 0 := by
  obtain ⟨path, hpath'⟩ := Option.isSome_iff_exists.mp hpath
  simp [withRocksdb, hpath', hup, Program.run_bind]

variable (htest : (dbPath a.testUri delimiter).isSome)
  (hshadow : a.single = false → (dbPath a.shadowUri delimiter).isSome)
include htest hshadow

lemma deleteBoth_up (e : σ) : ((deleteBoth a).run h e).1 = some 0 := by
  rw [deleteBoth, Program.run_bind, deleteRocksdb, withRocksdb_up hup .destroyDb htest]
  cases hsingle : a.single with
  | true => rfl
  | false =>
      dsimp only
      rw [if_neg (by decide), if_neg (by decide), Program.run_bind, deleteRocksdb,
        withRocksdb_up hup .destroyDb (hshadow hsingle)]
      rfl

lemma openBoth_up (e : σ) : ((openBoth a).run h e).1 = some 0 := by
  have hfirst : ((if a.single = true then pure (some 0) else openRocksdb a.shadowUri delimiter :
      Program RocksOp RocksOp.Res (Option ℤ)).run h e).1 = some 0 := by
    cases hsingle : a.single with
    | true => rfl
    | false => exact withRocksdb_up hup .dbOpen (hshadow hsingle) e
  rw [openBoth, Program.run_bind, hfirst]
  exact withRocksdb_up hup .dbOpen htest _

/-- All that matters then is what happens to the open databases. -/
lemma m45Main_up (hdb : a.single = false → shadow.Lawful)
    (hdelete : ¬ (a.deleteall ∧ a.roverify)) (hro : ¬ (a.single ∧ a.roverify)) :
    ((m45Main test shadow a rand t s).run h e).1 = some 0 ↔
      ∃ t' s', exercise test shadow a rand (if a.deleteall then test.destroyed else t)
        (if a.deleteall ∧ a.single = false then shadow.destroyed else s) = some (t', s') ∧
          (test.close t').isSome := by
  have hfirst : ((if a.deleteall = true then deleteBoth a else pure (some 0) :
      Program RocksOp RocksOp.Res (Option ℤ)).run h e).1 = some 0 := by
    cases hdel : a.deleteall with
    | true => exact deleteBoth_up hup htest hshadow e
    | false => rfl
  rw [m45Main, if_neg hdelete, if_neg hro, Program.run_bind, hfirst]
  dsimp only
  rw [if_neg (by decide), Program.run_bind, openBoth_up hup htest hshadow]
  change ((exercise test shadow a rand _ _).bind _).map (fun _ => (0 : ℤ)) = some 0 ↔ _
  cases exercise test shadow a rand _ _ with
  | none => simp
  | some x =>
      have hclose : (∃ t' s', some x = some (t', s') ∧ (test.close t').isSome) ↔
          (test.close x.1).isSome := by
        constructor
        · rintro ⟨t', s', ⟨rfl⟩, h⟩
          exact h
        · exact fun h => ⟨x.1, x.2, rfl, h⟩
      rw [Option.bind_some, hclose, ← isSome_closeBoth (s := x.2) hdb]
      cases closeBoth test shadow a x.1 x.2 <;> simp

end Up

/-- **When `m45` passes**: the map is filled, the database under test takes all its entries, then it
has what the map says, and for other keys what the shadow says, and it closes. -/
theorem main_passes_iff (hdb : shadow.Lawful) (hup : ∀ o e, (h o e).1 = true)
    (htest : (dbPath a.testUri delimiter).isSome) (hshadow : (dbPath a.shadowUri delimiter).isSome)
    (hdelete : ¬ (a.deleteall ∧ a.roverify)) (hsingle : a.single = false) :
    ((m45Main test shadow a rand t s).run h e).1 = some 0 ↔
      ∃ m t', newEntries a rand = some m ∧
        putAll test (inOrder m) (if a.deleteall then test.destroyed else t) = some t' ∧
        (∀ k v, (m.lookup k).or (if a.deleteall then none else shadow.get s k) = some v →
          test.get t' k = some v) ∧ (test.close t').isSome := by
  have hbefore : ∀ k, (if a.deleteall then none else shadow.get s k)
      = shadow.get (if a.deleteall ∧ a.single = false then shadow.destroyed else s) k := by
    intro k
    cases hdel : a.deleteall with
    | true => simp [hsingle, hdb.get_destroyed]
    | false => simp
  rw [m45Main_up hup htest (fun _ => hshadow) (fun _ => hdb) hdelete (by simp [hsingle])]
  simp only [hbefore]
  constructor
  · rintro ⟨t', s', hex, hclose⟩
    obtain ⟨m, hm, hput, -, hagree⟩ := (exercise_double hdb hsingle).mp hex
    exact ⟨m, t', hm, hput, hagree, hclose⟩
  · rintro ⟨m, t', hm, hput, hagree, hclose⟩
    obtain ⟨s', hputs, -⟩ := putAll_lawful hdb (inOrder m) (nodupKeys_inOrder m)
      (if a.deleteall ∧ a.single = false then shadow.destroyed else s)
    exact ⟨t', s', (exercise_double hdb hsingle).mpr ⟨m, hm, hput, hputs, hagree⟩, hclose⟩

/-- Two databases in memory pass. -/
theorem main_passes_iff_defaults :
    ((m45Main mapDatabase mapDatabase defaults (fun _ => 0) ∅ ∅).run
      (fun _ e => (true, e) : Handler RocksOp RocksOp.Res Unit) ()).1 = some 0 := by
  obtain ⟨m, hm⟩ := Option.isSome_iff_exists.mp
    (show (newEntries defaults fun _ => 0).isSome by decide)
  obtain ⟨t', hput, hget⟩ := putAll_lawful mapDatabase_lawful (inOrder m) (nodupKeys_inOrder m) ∅
  refine (main_passes_iff mapDatabase_lawful (fun _ _ => rfl) (by decide) (by decide) (by decide)
    rfl).mpr ⟨m, t', hm, hput, fun k v hv => ?_, rfl⟩
  rw [hget, dlookup_inOrder]
  exact hv

/-- **Without a shadow** the values do not matter: it is enough that there is one for each key, and
that the database closes. -/
theorem single_passes_iff (hup : ∀ o e, (h o e).1 = true)
    (htest : (dbPath a.testUri delimiter).isSome) (hro : a.roverify = false)
    (hsingle : a.single = true) :
    ((m45Main test shadow a rand t s).run h e).1 = some 0 ↔
      ∃ m t', fillUpMap rand a.entries a.ksize a.vsize = some m ∧
        putAll test (inOrder m) (if a.deleteall then test.destroyed else t) = some t' ∧
        (∀ k ∈ m, (test.get t' k).isSome) ∧ (test.close t').isSome := by
  have hmap : newEntries a rand = fillUpMap rand a.entries a.ksize a.vsize := if_neg (by simp [hro])
  rw [m45Main_up hup htest (by simp [hsingle]) (by simp [hsingle]) (by simp [hro]) (by simp [hro]),
    ← hmap]
  simp only [exercise_single hsingle]
  constructor
  · rintro ⟨t', s', ⟨-, m, hm, hput, hread⟩, hclose⟩
    exact ⟨m, t', hm, hput, hread, hclose⟩
  · rintro ⟨m, t', hm, hput, hread, hclose⟩
    exact ⟨t', _, ⟨rfl, m, hm, hput, hread⟩, hclose⟩

/-- One database in memory, deleted before. -/
theorem single_passes_iff_deleted :
    ((m45Main mapDatabase mapDatabase { defaults with deleteall := true, single := true }
      (fun _ => 0) ∅ ∅).run
        (fun _ e => (true, e) : Handler RocksOp RocksOp.Res Unit) ()).1 = some 0 := by
  obtain ⟨m, hm⟩ := Option.isSome_iff_exists.mp
    (show (fillUpMap (fun _ => 0) 1 10 90).isSome by decide)
  obtain ⟨t', hput, hget⟩ := putAll_lawful mapDatabase_lawful (inOrder m) (nodupKeys_inOrder m) ∅
  refine (single_passes_iff (fun _ _ => rfl) (by decide) rfl rfl).mpr
    ⟨m, t', hm, hput, fun k hk => ?_, rfl⟩
  rw [hget, dlookup_inOrder, Option.isSome_or, AList.lookup_isSome.mpr hk, Bool.true_or]

/-- What a shadow that works holds when it is closed. -/
lemma get_closeBoth (hdb : shadow.Lawful) (hsingle : a.single = false)
    (hclose : closeBoth test shadow a t s = some (t', s')) (k : List Char) :
    shadow.get s' k = shadow.get s k := by
  obtain ⟨s₁, hs₁, hget⟩ := hdb.close_some s
  cases htest : test.close t with
  | none => simp [closeBoth, hsingle, hs₁, htest] at hclose
  | some t₁ =>
      obtain ⟨-, rfl⟩ : t₁ = t' ∧ s₁ = s' := by
        simpa [closeBoth, hsingle, hs₁, htest] using hclose
      exact hget k

/-- **The read-only run** after a run that passed finds out whether a value has changed since the
databases were closed, or got lost. -/
theorem roverify_passes_iff {a' : Arguments} {rand' : ℕ → ℕ} {t₁ : T} {s₁ : S}
    (hdb : shadow.Lawful) (hup : ∀ o e, (h o e).1 = true)
    (htest : (dbPath a'.testUri delimiter).isSome)
    (hshadow : (dbPath a'.shadowUri delimiter).isSome) (hsingle : a.single = false)
    (hpassed : exercise test shadow a rand t s = some (t₁, s₁))
    (hclosed : closeBoth test shadow a t₁ s₁ = some (t', s'))
    (hro : a'.roverify = true) (hdelete : a'.deleteall = false) (hsingle' : a'.single = false)
    (found : T) :
    ((m45Main test shadow a' rand' found s').run h e).1 = some 0 ↔
      (∀ k, (shadow.get s' k).isSome → test.get found k = test.get t₁ k) ∧
        (test.close found).isSome := by
  have hempty : newEntries a' rand' = some ∅ := if_pos hro
  obtain ⟨m, -, -, hputs, hagree⟩ := (exercise_double hdb hsingle).mp hpassed
  obtain ⟨s₂, hputs', hget⟩ := putAll_lawful hdb (inOrder m) (nodupKeys_inOrder m) s
  obtain rfl : s₂ = s₁ := Option.some.inj (hputs'.symm.trans hputs)
  simp only [dlookup_inOrder, ← get_closeBoth hdb hsingle hclosed] at hget
  rw [m45Main_up hup htest (fun _ => hshadow) (fun _ => hdb) (by simp [hdelete])
    (by simp [hsingle'])]
  simp only [hdelete, Bool.false_eq_true, false_and, if_false, exercise_double hdb hsingle', hempty,
    Option.some.injEq, exists_eq_left', putAll_empty]
  constructor
  · rintro ⟨_, _, ⟨rfl, rfl, hall⟩, hclose⟩
    refine ⟨fun k hk => ?_, hclose⟩
    obtain ⟨v, hv⟩ := Option.isSome_iff_exists.mp hk
    rw [hall k v hv, hagree k v (by rw [← hget, hv])]
  · rintro ⟨hsame, hclose⟩
    refine ⟨found, s', ⟨rfl, rfl, fun k v hv => ?_⟩, hclose⟩
    replace hv : shadow.get s' k = some v := hv
    rw [hsame k (by rw [hv]; rfl)]
    exact hagree k v (by rw [← hget, hv])

/-- A database that is empty when it is found fails it. -/
theorem roverify_passes_iff_lost :
    ((m45Main mapDatabase mapDatabase { defaults with roverify := true } (fun _ => 0) ∅
      (AList.singleton ['k'] ['v'])).run
        (fun _ e => (true, e) : Handler RocksOp RocksOp.Res Unit) ()).1 ≠ some 0 := by
  have hpassed : exercise mapDatabase mapDatabase { defaults with entries := 0 } (fun _ => 0)
      (AList.singleton ['k'] ['v']) (AList.singleton ['k'] ['v'])
        = some (AList.singleton ['k'] ['v'], AList.singleton ['k'] ['v']) :=
    (exercise_double mapDatabase_lawful rfl).mpr
      ⟨∅, rfl, putAll_empty _ _, putAll_empty _ _, fun _ _ h => h⟩
  rw [Ne, roverify_passes_iff mapDatabase_lawful (fun _ _ => rfl) (by decide) (by decide) rfl
    hpassed rfl rfl rfl rfl ∅]
  exact fun h => absurd (h.1 ['k'] rfl) (by decide)

end Main

end StoSys.M45
