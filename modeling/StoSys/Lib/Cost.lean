import StoSys.Lib.Program
import Mathlib.Algebra.BigOperators.Group.List.Basic
import Mathlib.Algebra.GroupWithZero.Nat

/-!
# What a run costs

A price list says what each operation costs, and a run costs what it issues.  With price `1` for one
kind of operation and `0` for the others this counts; with the length of the data it measures traffic.

* `Program.AtMost` — a bound that holds whatever the answers are, so it is read off the program.
* `Program.Costs` — the exact cost from states that satisfy a precondition, with a postcondition.
-/

namespace Effect.Program

variable {Op : Type} {Res : Op → Type} {σ α β : Type}

/-- The prices of the operations of a run, added up. -/
def cost (h : Handler Op Res σ) (price : Op → ℕ) (p : Program Op Res α) (s : σ) : ℕ :=
  ((p.issued h s).map price).sum

section Equations

variable (h : Handler Op Res σ) (price : Op → ℕ)

@[simp] lemma cost_pure (a : α) (s : σ) :
    cost h price (Pure.pure a : Program Op Res α) s = 0 := rfl

@[simp] lemma cost_perform (o : Op) (s : σ) :
    cost h price (perform o : Program Op Res (Res o)) s = price o := by
  simp [cost]

@[simp] lemma cost_bind (p : Program Op Res α) (f : α → Program Op Res β) (s : σ) :
    cost h price (p >>= f) s = cost h price p s + cost h price (f (run h p s).1) (run h p s).2 := by
  simp [cost]

@[simp] lemma cost_map (f : α → β) (p : Program Op Res α) (s : σ) :
    cost h price (f <$> p) s = cost h price p s :=
  cost_bind h price p (Pure.pure ∘ f) s

end Equations

/-! ## Bounds for all answers -/

/-- No run of the program costs more than `n`. -/
def AtMost (price : Op → ℕ) (n : ℕ) (p : Program Op Res α) : Prop :=
  ∀ (σ : Type) (h : Handler Op Res σ) (s : σ), cost h price p s ≤ n

namespace AtMost

variable {price : Op → ℕ} {n m : ℕ}

lemma pure (a : α) : AtMost price n (Pure.pure a : Program Op Res α) := by
  intro _ h s
  simp

lemma perform {o : Op} (ho : price o ≤ n) :
    AtMost price n (Program.perform o : Program Op Res (Res o)) := by
  intro _ h s
  simpa using ho

lemma bind {p : Program Op Res α} {f : α → Program Op Res β} (hp : AtMost price n p)
    (hf : ∀ a, AtMost price m (f a)) : AtMost price (n + m) (p >>= f) := by
  intro _ h s
  rw [cost_bind]
  exact Nat.add_le_add (hp _ h s) (hf _ _ h _)

lemma ite {c : Prop} [Decidable c] {p q : Program Op Res α} (hp : c → AtMost price n p)
    (hq : ¬ c → AtMost price n q) : AtMost price n (if c then p else q) := by
  split
  · exact hp ‹_›
  · exact hq ‹_›

lemma mono {p : Program Op Res α} (hp : AtMost price n p) (hnm : n ≤ m) : AtMost price m p :=
  fun _ h s => Nat.le_trans (hp _ h s) hnm

/-- The first part is for free. -/
lemma bind_free {p : Program Op Res α} {f : α → Program Op Res β} (hp : AtMost price 0 p)
    (hf : ∀ a, AtMost price n (f a)) : AtMost price n (p >>= f) :=
  (hp.bind hf).mono (Nat.le_of_eq (Nat.zero_add n))

/-- The rest is for free. -/
lemma then_free {p : Program Op Res α} {f : α → Program Op Res β} (hp : AtMost price n p)
    (hf : ∀ a, AtMost price 0 (f a)) : AtMost price n (p >>= f) :=
  hp.bind hf

end AtMost

/-! ## Exact costs -/

/-- From a state that satisfies `P` the program costs `n`, and ends with an answer and a state that
satisfy `Q`. -/
def Costs (h : Handler Op Res σ) (price : Op → ℕ) (P : σ → Prop) (p : Program Op Res α) (n : ℕ)
    (Q : α → σ → Prop) : Prop :=
  ∀ s, P s → cost h price p s = n ∧ Q (run h p s).1 (run h p s).2

namespace Costs

variable {h : Handler Op Res σ} {price : Op → ℕ} {P : σ → Prop} {R Q : α → σ → Prop}
  {Q' : β → σ → Prop} {n m : ℕ}

/-- What is for free costs nothing. -/
lemma free {p : Program Op Res α} (hp : AtMost price 0 p) (hQ : Triple h P p Q) :
    Costs h price P p 0 Q :=
  fun s hs => ⟨Nat.le_zero.mp (hp _ h s), hQ s hs⟩

lemma perform {o : Op} {Q : Res o → σ → Prop} (ho : price o = n)
    (hQ : Triple h P (Program.perform o) Q) : Costs h price P (Program.perform o) n Q :=
  fun s hs => ⟨(cost_perform h price o s).trans ho, hQ s hs⟩

lemma bind {p : Program Op Res α} {f : α → Program Op Res β} (hp : Costs h price P p n R)
    (hf : ∀ a, Costs h price (R a) (f a) m Q') : Costs h price P (p >>= f) (n + m) Q' := by
  intro s hs
  obtain ⟨hn, hR⟩ := hp s hs
  obtain ⟨hm, hQ⟩ := hf _ _ hR
  rw [cost_bind, run_bind, hn, hm]
  exact ⟨rfl, hQ⟩

/-- The first part costs nothing. -/
lemma bind_free {p : Program Op Res α} {f : α → Program Op Res β} (hp : Costs h price P p 0 R)
    (hf : ∀ a, Costs h price (R a) (f a) n Q') : Costs h price P (p >>= f) n Q' :=
  fun s hs => by simpa using hp.bind hf s hs

lemma ite {c : Prop} [Decidable c] {p q : Program Op Res α} (hp : c → Costs h price P p n Q)
    (hq : ¬ c → Costs h price P q n Q) : Costs h price P (if c then p else q) n Q := by
  split
  · exact hp ‹_›
  · exact hq ‹_›

/-- What the precondition says of the data of the program. -/
lemma given {p : Program Op Res α} {φ : Prop} (hφ : ∀ s, P s → φ)
    (hp : φ → Costs h price P p n Q) : Costs h price P p n Q :=
  fun s hs => hp (hφ s hs) s hs

end Costs

end Effect.Program
