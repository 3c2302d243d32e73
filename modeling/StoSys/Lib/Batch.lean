import StoSys.Lib.Program
import Mathlib.Algebra.Notation.Defs

/-!
# Commands one after another

A transfer that is too long for one command is cut into pieces.  The pieces tile the transfer, each
becomes one command, and the first command that fails ends it.

* `Tiles` — pieces that follow each other from one end of an interval to the other.
* `Program.Batch` — a program that issues a list of commands up to the first failure, and returns
  its code.  A loop is shown to be one command by command (`Batch.cons`, `Batch.nil`).
* `Program.Sent` — what follows of the operations issued and of the code returned, for commands made
  of the pieces of a tiling.
-/

namespace Effect

/-! ## Tilings -/

/-- The pieces, given by start and length, follow each other from `lo` to `hi`; none is empty. -/
def Tiles (lo : ℕ) : List (ℕ × ℕ) → ℕ → Prop
  | [], hi => lo = hi
  | x :: l, hi => x.1 = lo ∧ 0 < x.2 ∧ Tiles (lo + x.2) l hi

namespace Tiles

variable {lo hi : ℕ} {l : List (ℕ × ℕ)}

lemma le (h : Tiles lo l hi) : lo ≤ hi := by
  induction l generalizing lo with
  | nil => exact Nat.le_of_eq h
  | cons x l ih => exact Nat.le_trans (Nat.le_add_right _ _) (ih h.2.2)

/-- A piece lies inside the interval. -/
lemma mem_le (h : Tiles lo l hi) {x : ℕ × ℕ} (hx : x ∈ l) :
    lo ≤ x.1 ∧ 0 < x.2 ∧ x.1 + x.2 ≤ hi := by
  induction l generalizing lo with
  | nil => cases hx
  | cons y l ih =>
      obtain ⟨rfl, hpos, hrest⟩ := h
      rcases List.mem_cons.mp hx with rfl | hx
      · exact ⟨Nat.le_refl _, hpos, hrest.le⟩
      · obtain ⟨hge, hxpos, hle⟩ := ih hrest hx
        exact ⟨by omega, hxpos, hle⟩

/-- In another unit. -/
lemma scale {n : ℕ} (hn : 0 < n) (h : Tiles lo l hi) :
    Tiles (lo * n) (l.map fun x => (x.1 * n, x.2 * n)) (hi * n) := by
  induction l generalizing lo with
  | nil => exact congrArg (· * n) h
  | cons x l ih =>
      obtain ⟨rfl, hpos, hrest⟩ := h
      refine ⟨rfl, Nat.mul_pos hpos hn, ?_⟩
      rw [← Nat.add_mul]
      exact ih hrest

/-- From another start. -/
lemma shift (k : ℕ) (h : Tiles lo l hi) :
    Tiles (k + lo) (l.map fun x => (k + x.1, x.2)) (k + hi) := by
  induction l generalizing lo with
  | nil => exact congrArg (k + ·) h
  | cons x l ih =>
      obtain ⟨rfl, hpos, hrest⟩ := h
      refine ⟨rfl, hpos, ?_⟩
      rw [Nat.add_assoc]
      exact ih hrest

end Tiles

/-- Cut `cnt` from `start` on into pieces of `per`, and a shorter one at the end. -/
def cut (per : ℕ) : (fuel start cnt : ℕ) → List (ℕ × ℕ)
  | 0, _, _ => []
  | fuel + 1, start, cnt =>
      if cnt = 0 then []
      else (start, min per cnt) :: cut per fuel (start + min per cnt) (cnt - min per cnt)

section Cut

variable {per : ℕ} (hper : 0 < per)

include hper in
lemma tiles_cut {fuel start cnt : ℕ} (hfuel : cnt ≤ fuel * per) :
    Tiles start (cut per fuel start cnt) (start + cnt) := by
  induction fuel generalizing start cnt with
  | zero =>
      change start = start + cnt
      omega
  | succ fuel ih =>
      rw [Nat.succ_mul] at hfuel
      rw [cut]
      split
      · rename_i hcnt
        rw [hcnt]
        exact rfl
      · have hmin : min per cnt ≤ cnt := Nat.min_le_right _ _
        refine ⟨rfl, by omega, ?_⟩
        have hrest : Tiles (start + min per cnt) _ (start + min per cnt + (cnt - min per cnt)) :=
          ih (by omega)
        rwa [Nat.add_assoc, Nat.add_sub_cancel' hmin] at hrest

lemma le_of_mem_cut {fuel start cnt : ℕ} {x : ℕ × ℕ} (hx : x ∈ cut per fuel start cnt) :
    x.2 ≤ per := by
  induction fuel generalizing start cnt with
  | zero => cases hx
  | succ fuel ih =>
      rw [cut] at hx
      split at hx
      · cases hx
      · rcases List.mem_cons.mp hx with rfl | hx
        · exact Nat.min_le_left _ _
        · exact ih hx

end Cut

/-! ## Batches -/

namespace Program

variable {Op : Type} {Res : Op → Type} {σ α E : Type}

/-- The return codes of the operations of a run, in order. -/
def codes (h : Handler Op Res σ) (code : (o : Op) → Res o → E) : Program Op Res α → σ → List E
  | .pure _, _ => []
  | .op o next, s => code o (h o s).1 :: codes h code (next (h o s).1) (h o s).2

variable [Zero E] [DecidableEq E]

/-- **The program issues `ops`** one after another, until one is not answered with `0`; it returns
that code, and `0` if there is none. -/
def Batch (h : Handler Op Res σ) (code : (o : Op) → Res o → E) (ret : α → E) :
    List Op → Program Op Res α → σ → Prop
  | [], p, s => p.issued h s = [] ∧ p.codes h code s = [] ∧ ret (p.run h s).1 = 0
  | o :: ops, p, s => ∃ next, p = .op o next ∧
      let a := h o s
      if code o a.1 = 0 then Batch h code ret ops (next a.1) a.2
      else (next a.1).issued h a.2 = [] ∧ (next a.1).codes h code a.2 = [] ∧
        ret ((next a.1).run h a.2).1 = code o a.1

/-- **What a run of a batch looks like** when its commands are made of the pieces of a tiling. -/
structure Sent (h : Handler Op Res σ) (code : (o : Op) → Res o → E) (ret : α → E)
    (command : ℕ × ℕ → Op) (cnt : ℕ) (pieces : List (ℕ × ℕ)) (p : Program Op Res α) (s : σ) :
    Prop where
  tiles : Tiles 0 pieces cnt
  issued : p.issued h s <+: pieces.map command
  ok_iff : ret (p.run h s).1 = 0 ↔ ∀ r ∈ p.codes h code s, r = 0
  complete : ret (p.run h s).1 = 0 → p.issued h s = pieces.map command
  failed : ret (p.run h s).1 ≠ 0 →
    ∃ before, p.codes h code s = before ++ [ret (p.run h s).1] ∧ ∀ r ∈ before, r = 0

namespace Batch

variable {h : Handler Op Res σ} {code : (o : Op) → Res o → E} {ret : α → E} {s : σ} {ops : List Op}

lemma nil {a : α} (ha : ret a = 0) : Batch h code ret [] (Pure.pure a : Program Op Res α) s :=
  ⟨rfl, rfl, ha⟩

/-- **One command**, and the rest if it has not failed. -/
lemma cons {o : Op} (bad : Res o → α) {rest : Res o → Program Op Res α}
    (hbad : ∀ a, ret (bad a) = code o a)
    (hrest : code o (h o s).1 = 0 → Batch h code ret ops (rest (h o s).1) (h o s).2) :
    Batch h code ret (o :: ops)
      (perform o >>= fun a => if code o a ≠ 0 then Pure.pure (bad a) else rest a) s := by
  refine ⟨fun a => if code o a ≠ 0 then Pure.pure (bad a) else rest a, rfl, ?_⟩
  by_cases hc : code o (h o s).1 = 0
  · simp only [hc, ne_eq, not_true_eq_false, if_false, if_true]
    exact hrest hc
  · simp only [hc, ne_eq, not_false_eq_true, if_true, if_false]
    exact ⟨rfl, rfl, hbad _⟩

variable {p : Program Op Res α}

/-- Nothing else is issued. -/
lemma issued (hp : Batch h code ret ops p s) : p.issued h s <+: ops := by
  induction ops generalizing p s with
  | nil => exact hp.1 ▸ List.prefix_rfl
  | cons o ops ih =>
      obtain ⟨next, rfl, hnext⟩ := hp
      refine List.cons_prefix_cons.mpr ⟨rfl, ?_⟩
      dsimp only at hnext
      split at hnext
      · exact ih hnext
      · exact hnext.1 ▸ List.nil_prefix

/-- Either all commands have been issued and done, or the last one issued has failed. -/
lemma verdict (hp : Batch h code ret ops p s) :
    (∀ r ∈ p.codes h code s, r = 0) ∧ ret (p.run h s).1 = 0 ∧ p.issued h s = ops ∨
      ret (p.run h s).1 ≠ 0 ∧
        ∃ before, p.codes h code s = before ++ [ret (p.run h s).1] ∧ ∀ r ∈ before, r = 0 := by
  induction ops generalizing p s with
  | nil =>
      refine Or.inl ⟨?_, hp.2.2, hp.1⟩
      rw [hp.2.1]
      exact List.forall_mem_nil _
  | cons o ops ih =>
      obtain ⟨next, rfl, hnext⟩ := hp
      dsimp only at hnext
      split at hnext
      · rename_i hc
        rcases ih hnext with ⟨hall, hret, hops⟩ | ⟨hret, before, hcodes, hall⟩
        · exact Or.inl ⟨List.forall_mem_cons.mpr ⟨hc, hall⟩, hret, congrArg (o :: ·) hops⟩
        · refine Or.inr ⟨hret, 0 :: before, ?_, List.forall_mem_cons.mpr ⟨rfl, hall⟩⟩
          rw [codes, hc, hcodes]
          rfl
      · rename_i hc
        refine Or.inr ⟨?_, [], ?_, List.forall_mem_nil _⟩
        · exact hnext.2.2 ▸ hc
        · rw [codes, hnext.2.1, List.nil_append, run, hnext.2.2]

lemma sent {command : ℕ × ℕ → Op} {cnt : ℕ} {pieces : List (ℕ × ℕ)}
    (hp : Batch h code ret (pieces.map command) p s) (htiles : Tiles 0 pieces cnt) :
    Sent h code ret command cnt pieces p s := by
  refine ⟨htiles, hp.issued, ?_, fun hret => ?_, fun hret => ?_⟩
  · rcases hp.verdict with ⟨hall, hret, -⟩ | ⟨hret, before, hcodes, -⟩
    · exact iff_of_true hret hall
    · refine iff_of_false hret fun hall => hret (hall _ ?_)
      rw [hcodes]
      exact List.mem_append_right _ (List.mem_singleton_self _)
  · rcases hp.verdict with ⟨-, -, hops⟩ | ⟨hno, -⟩
    · exact hops
    · exact absurd hret hno
  · rcases hp.verdict with ⟨-, hyes, -⟩ | ⟨-, hlast⟩
    · exact absurd hyes hret
    · exact hlast

end Batch

end Program

end Effect
