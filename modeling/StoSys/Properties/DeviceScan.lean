import StoSys.M1.Device

/-!
# Does the scan fit the array?

`main` counts the devices, allocates that many elements, and has the scan fill them.  The count is
of controllers, and the scan fills an element for every namespace.  It fits when there are as many
of these as of those, or when a namespace that does not answer ends the scan early enough
(`scanFits_iff`).
-/

namespace StoSys.M1

/-- **The scan fits**: it stays inside the array that `main` allocates, and if it returns zero it
has filled it. -/
def ScanFits (t : Topology) : Prop :=
  ∃ ret list, scanAndIdentifyZnsDevices (some t)
      (calloc (countAndShowAllNvmeDevices (some t)).toNat) = some (ret, list) ∧
    (ret = 0 → ∀ e ∈ list, e.ctrlName ≠ none)

/-- How many namespaces the scan reaches: all up to the first that does not answer. -/
def reached : List Namespace → ℕ
  | [] => 0
  | n :: rest => if n.identify ≠ 0 then 1 else reached rest + 1

lemma reached_of_answering : ∀ {l : List Namespace}, (∀ n ∈ l, n.identify = 0) →
    reached l = l.length
  | [], _ => rfl
  | n :: rest, h => by
      rw [reached, if_neg (not_not.mpr (h n (List.mem_cons_self ..))),
        reached_of_answering fun n' hn' => h n' (List.mem_cons_of_mem _ hn'), List.length_cons]

/-! ## One namespace -/

section Body

variable {k : ℕ} {list : List SsNvmeNs}

lemma run_setElement (f : SsNvmeNs → SsNvmeNs) (rest : Scanning Unit) :
    (do setElement f; rest : Scanning Unit).run ⟨k, list⟩
      = if k < list.length then rest.run ⟨k, list.modify k f⟩ else .error .outOfBounds := by
  by_cases hk : k < list.length
  · have hset : (setElement f).run ⟨k, list⟩ = .ok ((), ⟨k, list.modify k f⟩) := by
      change (if k < list.length then _ else _ : Scanning Unit).run ⟨k, list⟩ = _
      rw [if_pos hk]
      rfl
    rw [StateT.run_bind, hset, if_pos hk]
    rfl
  · have hset : (setElement f).run ⟨k, list⟩ = .error .outOfBounds := by
      change (if k < list.length then _ else _ : Scanning Unit).run ⟨k, list⟩ = _
      rw [if_neg hk]
      rfl
    rw [StateT.run_bind, hset, if_neg hk]
    rfl

/-- What the scan makes of an element. -/
def filled (n : Namespace) (e : SsNvmeNs) : SsNvmeNs where
  ctrlName := some n.name
  supportsZns := decide (n.csi = nvmeCsiZns)
  nsid := n.nsid.getD e.nsid

lemma modify_modify (l : List SsNvmeNs) (k : ℕ) (f f' : SsNvmeNs → SsNvmeNs) :
    (l.modify k f).modify k f' = l.modify k (f' ∘ f) := by
  refine List.ext_getElem? fun i => ?_
  simp only [List.getElem?_modify]
  cases l[i]? with
  | none => rfl
  | some e => by_cases hi : k = i <;> simp [hi]

lemma run_scanNamespace (n : Namespace) :
    (scanNamespace n).run ⟨k, list⟩
      = if k < list.length then
          if n.identify ≠ 0 then .error (.returned n.identify (list.modify k (filled n)))
          else .ok ((), ⟨k + 1, list.modify k (filled n)⟩)
        else .error .outOfBounds := by
  have hfilled : ((fun e : SsNvmeNs => { e with nsid := n.nsid.getD e.nsid }) ∘
      fun e => if n.csi = nvmeCsiZns then { e with supportsZns := true }
        else { e with supportsZns := false }) ∘ (fun e => { e with ctrlName := some n.name })
      = filled n := by
    funext e
    by_cases hcsi : n.csi = nvmeCsiZns <;> simp [filled, hcsi]
  by_cases hk : k < list.length
  · rw [scanNamespace, run_setElement, if_pos hk, run_setElement, List.length_modify, if_pos hk,
      run_setElement, List.length_modify, List.length_modify, if_pos hk, modify_modify,
      modify_modify, hfilled, if_pos hk]
    split <;> rfl
  · rw [scanNamespace, run_setElement, if_neg hk, if_neg hk]

end Body

/-! ## The walk -/

/-- The array after the namespaces of a list. -/
def fillFrom : List Namespace → ℕ → List SsNvmeNs → List SsNvmeNs
  | [], _, list => list
  | n :: rest, k, list => fillFrom rest (k + 1) (list.modify k (filled n))

lemma length_fillFrom : ∀ (l : List Namespace) (k : ℕ) (list : List SsNvmeNs),
    (fillFrom l k list).length = list.length
  | [], _, _ => rfl
  | n :: rest, k, list => by
      rw [fillFrom, length_fillFrom rest, List.length_modify]

/-- An element has a name if it had one, or if the scan has come by. -/
lemma named_fillFrom : ∀ (l : List Namespace) (k : ℕ) (list : List SsNvmeNs) (i : ℕ),
    ((fillFrom l k list)[i]?.bind SsNvmeNs.ctrlName).isSome ↔
      (list[i]?.bind SsNvmeNs.ctrlName).isSome ∨ i < list.length ∧ k ≤ i ∧ i < k + l.length
  | [], k, list, i => by
      rw [fillFrom, List.length_nil]
      exact ⟨Or.inl, fun h => h.elim id fun h => absurd h.2 (by omega)⟩
  | n :: rest, k, list, i => by
      rw [fillFrom, named_fillFrom rest, List.getElem?_modify, List.length_modify, List.length_cons]
      cases hi : list[i]? with
      | none =>
          have hlen := List.getElem?_eq_none_iff.mp hi
          simp only [Option.map_eq_map, Option.map_none, Option.bind_none, Option.isSome_none,
            Bool.false_eq_true, false_or]
          omega
      | some e =>
          have hlen : i < list.length := (List.getElem?_eq_some_iff.mp hi).1
          by_cases hk : k = i
          · simp only [Option.map_eq_map, Option.map_some, if_pos hk, Option.bind_some, filled,
              Option.isSome_some, true_or, true_iff]
            right
            omega
          · simp only [Option.map_eq_map, Option.map_some, if_neg hk, Option.bind_some]
            refine or_congr_right ?_
            omega

/-- **The walk over the namespaces**, from an element on: it leaves the array, or ends at a
namespace that does not answer, or fills an element for each. -/
lemma run_scanNamespaces : ∀ (l : List Namespace) {k : ℕ} {list : List SsNvmeNs},
    k ≤ list.length →
    (list.length < k + reached l → (l.forM scanNamespace).run ⟨k, list⟩ = .error .outOfBounds) ∧
    (k + reached l ≤ list.length → (∃ n ∈ l, n.identify ≠ 0) → ∃ ret list', ret ≠ 0 ∧
      (l.forM scanNamespace).run ⟨k, list⟩ = .error (.returned ret list')) ∧
    (k + reached l ≤ list.length → (∀ n ∈ l, n.identify = 0) →
      (l.forM scanNamespace).run ⟨k, list⟩ = .ok ((), ⟨k + l.length, fillFrom l k list⟩))
  | [], k, list, hk => by
      exact ⟨fun h => absurd h (Nat.not_lt.mpr hk),
        fun _ h => absurd h.choose_spec.1 List.not_mem_nil, fun _ _ => rfl⟩
  | n :: rest, k, list, hk => by
      have hcons : ((n :: rest).forM scanNamespace).run ⟨k, list⟩
          = (do scanNamespace n; rest.forM scanNamespace : Scanning Unit).run ⟨k, list⟩ := rfl
      rw [hcons, StateT.run_bind, run_scanNamespace, reached]
      rcases Nat.lt_or_ge k list.length with hlt | hge
      · rw [if_pos hlt]
        by_cases hid : n.identify ≠ 0
        · rw [if_pos hid, if_pos hid]
          refine ⟨fun h => absurd h (by omega), fun _ _ => ⟨_, _, hid, rfl⟩, fun _ h => ?_⟩
          exact absurd (h n (List.mem_cons_self ..)) hid
        · rw [if_neg hid, if_neg hid]
          have hk' : k + 1 ≤ (list.modify k (filled n)).length := by
            rw [List.length_modify]
            omega
          obtain ⟨hout, hstop, hall⟩ := run_scanNamespaces rest hk'
          rw [List.length_modify] at hout hstop hall
          refine ⟨fun h => hout (by omega), fun h hex => hstop (by omega) ?_, fun h hzero => ?_⟩
          · obtain ⟨n', hn', hbad⟩ := hex
            rcases List.mem_cons.mp hn' with rfl | hn'
            · exact absurd hbad hid
            · exact ⟨n', hn', hbad⟩
          · refine (hall (by omega) fun n' hn' => hzero n' (List.mem_cons_of_mem _ hn')).trans ?_
            rw [List.length_cons, fillFrom, Nat.add_right_comm, Nat.add_assoc]
      · rw [if_neg (Nat.not_lt.mpr hge)]
        have hpos : 0 < (if n.identify ≠ 0 then 1 else reached rest + 1) := by
          split <;> omega
        exact ⟨fun _ => rfl, fun h => absurd h (by omega), fun h => absurd h (by omega)⟩

/-- A fresh array is full when there were as many namespaces as elements. -/
lemma named_calloc (l : List Namespace) (n : ℕ) :
    (∀ e ∈ fillFrom l 0 (calloc n), e.ctrlName ≠ none) ↔ n ≤ l.length := by
  have hlen : (calloc n).length = n := List.length_replicate
  have hfresh : ∀ i : ℕ, ¬ ((calloc n)[i]?.bind SsNvmeNs.ctrlName).isSome := by
    intro i
    rw [calloc, List.getElem?_replicate]
    split <;> simp
  have hnamed : ∀ (i : ℕ) (h : i < (fillFrom l 0 (calloc n)).length),
      (fillFrom l 0 (calloc n))[i].ctrlName ≠ none ↔ i < l.length := by
    intro i h
    have hiff := named_fillFrom l 0 (calloc n) i
    rw [List.getElem?_eq_getElem h, Option.bind_some] at hiff
    rw [Option.ne_none_iff_isSome, hiff, Nat.zero_add]
    rw [length_fillFrom] at h
    exact ⟨fun hi => hi.elim (fun hi => absurd hi (hfresh i)) fun hi => hi.2.2,
      fun hi => Or.inr ⟨h, Nat.zero_le i, hi⟩⟩
  constructor
  · intro h
    by_contra hfew
    -- the first element that no namespace has filled
    have hget : l.length < (fillFrom l 0 (calloc n)).length := by
      rw [length_fillFrom, hlen]
      omega
    exact absurd ((hnamed _ hget).mp (h _ (List.getElem_mem hget))) (Nat.lt_irrefl _)
  · intro h e he
    obtain ⟨i, hi, rfl⟩ := List.getElem_of_mem he
    refine (hnamed i hi).mpr ?_
    rw [length_fillFrom, hlen] at hi
    omega

/-- **When the scan fits**: for every topology. -/
theorem scanFits_iff (t : Topology) :
    ScanFits t ↔ reached t.namespaces ≤ t.ctrls.length ∧
      ((∀ n ∈ t.namespaces, n.identify = 0) → t.namespaces.length = t.ctrls.length) := by
  have hwalk : t.forEachCtrl (fun c => c.namespaces.forM scanNamespace)
      = t.namespaces.forM scanNamespace := by
    rw [Topology.forEachCtrl_eq, Topology.namespaces, forM_flatMap]
  have hlen : (calloc t.ctrls.length).length = t.ctrls.length := List.length_replicate
  obtain ⟨hout, hstop, hall⟩ := run_scanNamespaces t.namespaces
    (Nat.zero_le (calloc t.ctrls.length).length)
  rw [hlen, Nat.zero_add] at hout hstop hall
  rw [ScanFits, countAndShowAllNvmeDevices_some, Int.toNat_natCast, scanAndIdentifyZnsDevices,
    hwalk]
  rcases Nat.lt_or_ge t.ctrls.length (reached t.namespaces) with hlt | hge
  · rw [hout hlt]
    refine ⟨?_, fun h => absurd h.1 (Nat.not_le.mpr hlt)⟩
    rintro ⟨ret, list, h, -⟩
    cases h
  · by_cases hzero : ∀ n ∈ t.namespaces, n.identify = 0
    · rw [hall hge hzero]
      rw [reached_of_answering hzero] at hge ⊢
      constructor
      · rintro ⟨ret, list, heq, hret⟩
        obtain ⟨rfl, rfl⟩ := Prod.mk.inj (Option.some.inj heq)
        exact ⟨hge, fun _ => Nat.le_antisymm hge ((named_calloc _ _).mp (hret rfl))⟩
      · rintro ⟨-, heq⟩
        exact ⟨0, _, rfl, fun _ => (named_calloc _ _).mpr (Nat.le_of_eq (heq hzero).symm)⟩
    · have hex : ∃ n ∈ t.namespaces, n.identify ≠ 0 := by
        by_contra hno
        exact hzero fun n hn => by_contra fun h => hno ⟨n, hn, h⟩
      obtain ⟨ret, list', hret, hrun⟩ := hstop hge hex
      rw [hrun]
      exact ⟨fun _ => ⟨hge, fun h => absurd h hzero⟩, fun _ => ⟨ret, list', rfl,
        fun h => absurd h hret⟩⟩

/-- A controller with two namespaces. -/
def twoNamespaces : Topology :=
  ⟨[⟨[⟨[⟨[⟨"nvme0n1", 0, some 1, 0⟩, ⟨"nvme0n2", 2, some 2, 0⟩], []⟩]⟩]⟩]⟩

/-- The second namespace is entered after the end of the array. -/
theorem second_namespace_outside :
    countAndShowAllNvmeDevices (some twoNamespaces) = 1 ∧
      scanAndIdentifyZnsDevices (some twoNamespaces) (calloc 1) = none ∧
      ¬ ScanFits twoNamespaces := by
  refine ⟨rfl, rfl, ?_⟩
  rintro ⟨ret, list, h, -⟩
  cases h

end StoSys.M1
