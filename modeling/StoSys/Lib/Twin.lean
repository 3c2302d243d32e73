import StoSys.Lib.Faults

/-!
# Two runs of a program

`Twin` relates the run of one program under one handler to the run of another under another one:
from related states they give related answers and end in related states.  There is a rule for each
way to put programs together, so two texts of the same shape are compared part by part.
-/

namespace Effect.Program

variable {Op : Type} {Res : Op → Type} {σ τ α β α' β' : Type}

/-- **Twin runs**, of states related by `R` and answers related by `Q`. -/
def Twin (h : Handler Op Res σ) (k : Handler Op Res τ) (R : σ → τ → Prop) (Q : α → β → Prop)
    (p : Program Op Res α) (q : Program Op Res β) : Prop :=
  ∀ s t, R s t → Q (p.run h s).1 (q.run k t).1 ∧ R (p.run h s).2 (q.run k t).2

namespace Twin

variable {h : Handler Op Res σ} {k : Handler Op Res τ} {R : σ → τ → Prop} {Q : α → β → Prop}
  {Q' : α' → β' → Prop} {p : Program Op Res α} {q : Program Op Res β}

lemma pure {a : α} {b : β} (hQ : Q a b) :
    Twin h k R Q (Pure.pure a : Program Op Res α) (Pure.pure b) :=
  fun _ _ hR => ⟨hQ, hR⟩

lemma bind {f : α → Program Op Res α'} {g : β → Program Op Res β'} (hp : Twin h k R Q p q)
    (hf : ∀ a b, Q a b → Twin h k R Q' (f a) (g b)) : Twin h k R Q' (p >>= f) (q >>= g) := by
  intro s t hR
  obtain ⟨hQ, hR'⟩ := hp s t hR
  rw [run_bind, run_bind]
  exact hf _ _ hQ _ _ hR'

lemma map {f : α → α'} {g : β → β'} (hp : Twin h k R Q p q)
    (hf : ∀ a b, Q a b → Q' (f a) (g b)) : Twin h k R Q' (f <$> p) (g <$> q) :=
  hp.bind fun a b hQ => .pure (hf a b hQ)

/-- Two conditionals with one condition. -/
lemma ite {c : Prop} [Decidable c] {p' : Program Op Res α} {q' : Program Op Res β}
    (hp : c → Twin h k R Q p q) (hq : ¬ c → Twin h k R Q p' q') :
    Twin h k R Q (if c then p else p') (if c then q else q') := by
  split
  · exact hp ‹_›
  · exact hq ‹_›

/-- Two programs that give the same answers, one after the other. -/
lemma seq {f : α → Program Op Res α'} {g : α → Program Op Res β'} {q : Program Op Res α}
    (hp : Twin h k R Eq p q) (hf : ∀ a, Twin h k R Q' (f a) (g a)) :
    Twin h k R Q' (p >>= f) (q >>= g) :=
  hp.bind fun a _ hab => hab ▸ hf a

end Twin

end Effect.Program
