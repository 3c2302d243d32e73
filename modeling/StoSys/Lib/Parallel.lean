import StoSys.Lib.Program
import Mathlib.Logic.Function.Basic

/-!
# Programs side by side

Several programs share a state and take turns, one operation at a time.  When each of them owns a
part of the state that the others leave alone, and all keep an invariant of the rest, what they do
together follows from what each does alone.

* `Pool.interleave` — the programs run in any order, which a list of turns describes.
* `Outline` — a local proof: of one program, in terms of its own part (`view`), while anything may
  happen to the rest of the state as long as the invariant holds.
* `Pool.outlines` — **the parallel rule**: the local proofs are good in every interleaving.
* `Prompt` — from every point of a program the end is near, once a flag is up; so a program ends when
  it gets enough turns (`Pool.prompt`).
-/

namespace Effect

/-- What is left of each program, and the state they share. -/
structure Pool (Op : Type) (Res : Op → Type) (ι σ α : Type) where
  program : ι → Program Op Res α
  shared : σ

variable {Op : Type} {Res : Op → Type} {ι σ V α β : Type}

/-! ## Local proofs -/

namespace Program

/-- **A local proof** of a program that sees the part `view` of the state and performs only operations
that satisfy `May`.  It does not know the rest, but that `I` holds. -/
def Outline (h : Handler Op Res σ) (view : σ → V) (I : σ → Prop) (May : Op → Prop)
    (Q : α → V → Prop) : Program Op Res α → V → Prop
  | .pure a, v => Q a v
  | .op o next, v => May o ∧ ∀ s, I s → view s = v →
      I (h o s).2 ∧ Outline h view I May Q (next (h o s).1) (view (h o s).2)

namespace Outline

variable {h : Handler Op Res σ} {view : σ → V} {I : σ → Prop} {May : Op → Prop}
  {Q R : α → V → Prop} {Q' : β → V → Prop} {v : V}

lemma pure {a : α} (ha : Q a v) :
    Outline h view I May Q (Pure.pure a : Program Op Res α) v := ha

/-- One operation. -/
lemma perform {o : Op} {Q : Res o → V → Prop} (hmay : May o)
    (ho : ∀ s, I s → view s = v → I (h o s).2 ∧ Q (h o s).1 (view (h o s).2)) :
    Outline h view I May Q (Program.perform o : Program Op Res (Res o)) v := ⟨hmay, ho⟩

/-- **Sequencing rule.** -/
lemma bind {p : Program Op Res α} {f : α → Program Op Res β} (hp : Outline h view I May R p v)
    (hf : ∀ a v, R a v → Outline h view I May Q' (f a) v) :
    Outline h view I May Q' (p >>= f) v := by
  induction p generalizing v with
  | pure a => exact hf a v hp
  | op o next ih =>
      refine ⟨hp.1, fun s hI hv => ?_⟩
      obtain ⟨hI', hnext⟩ := hp.2 s hI hv
      exact ⟨hI', ih _ hnext⟩

lemma ite {c : Prop} [Decidable c] {p q : Program Op Res α}
    (hp : c → Outline h view I May Q p v) (hq : ¬ c → Outline h view I May Q q v) :
    Outline h view I May Q (if c then p else q) v := by
  split
  · exact hp ‹_›
  · exact hq ‹_›

lemma post {p : Program Op Res α} (hp : Outline h view I May R p v) (hRQ : ∀ a v, R a v → Q a v) :
    Outline h view I May Q p v := by
  induction p generalizing v with
  | pure a => exact hRQ a v hp
  | op o next ih =>
      refine ⟨hp.1, fun s hI hv => ?_⟩
      obtain ⟨hI', hnext⟩ := hp.2 s hI hv
      exact ⟨hI', ih _ hnext⟩

/-- A program that runs alone. -/
lemma run {p : Program Op Res α} {s : σ} (hp : Outline h view I May Q p (view s)) (hs : I s) :
    I (p.run h s).2 ∧ Q (p.run h s).1 (view (p.run h s).2) := by
  induction p generalizing s with
  | pure a => exact ⟨hs, hp⟩
  | op o next ih =>
      obtain ⟨hI, hnext⟩ := hp.2 s hs rfl
      exact ih _ hnext hI

end Outline

/-! ## How soon a program ends -/

/-- The program performs at most `n` operations, as long as each finds `flag` up. -/
def EndsIn (h : Handler Op Res σ) (flag : σ → Prop) : ℕ → Program Op Res α → Prop
  | _, .pure _ => True
  | 0, .op _ _ => False
  | n + 1, .op o next => ∀ s, flag s → EndsIn h flag n (next (h o s).1)

/-- So it does from every point of it, whatever has happened before. -/
def Prompt (h : Handler Op Res σ) (flag : σ → Prop) (n : ℕ) : Program Op Res α → Prop
  | .pure _ => True
  | .op o next => EndsIn h flag n (.op o next) ∧ ∀ r, Prompt h flag n (next r)

section Ends

variable {h : Handler Op Res σ} {flag : σ → Prop} {n m k : ℕ}

lemma EndsIn.pure (a : α) : EndsIn h flag n (Pure.pure a : Program Op Res α) := by
  cases n <;> trivial

lemma EndsIn.mono {p : Program Op Res α} (hp : EndsIn h flag n p) (hle : n ≤ m) :
    EndsIn h flag m p := by
  induction p generalizing n m with
  | pure a => exact .pure a
  | op o next ih =>
      cases n with
      | zero => cases hp
      | succ n =>
          cases m with
          | zero => omega
          | succ m => exact fun s hs => ih _ (hp s hs) (Nat.le_of_succ_le_succ hle)

lemma EndsIn.bind {p : Program Op Res α} {f : α → Program Op Res β} (hp : EndsIn h flag n p)
    (hf : ∀ a, EndsIn h flag m (f a)) : EndsIn h flag (n + m) (p >>= f) := by
  induction p generalizing n with
  | pure a => exact (hf a).mono (Nat.le_add_left _ _)
  | op o next ih =>
      cases n with
      | zero => cases hp
      | succ n =>
          rw [Nat.succ_add]
          exact fun s hs => ih _ (hp s hs)

namespace Prompt

lemma endsIn {p : Program Op Res α} (hp : Prompt h flag n p) : EndsIn h flag n p := by
  cases p with
  | pure a => exact .pure a
  | op o next => exact hp.1

lemma pure (a : α) : Prompt h flag n (Pure.pure a : Program Op Res α) := trivial

lemma perform (o : Op) : Prompt h flag 1 (Program.perform o : Program Op Res (Res o)) :=
  ⟨fun _ _ => trivial, fun _ => trivial⟩

lemma mono {p : Program Op Res α} (hp : Prompt h flag n p) (hle : n ≤ m) : Prompt h flag m p := by
  induction p with
  | pure a => trivial
  | op o next ih => exact ⟨hp.1.mono hle, fun r => ih r (hp.2 r)⟩

/-- **Sequencing rule.**  Up to `k` operations are left in front of the continuation, and then `m` of
it if the flag is up, but it may take `n` from a point inside it. -/
lemma bind {p : Program Op Res α} {f : α → Program Op Res β} (hp : Prompt h flag k p)
    (hends : ∀ a, EndsIn h flag m (f a)) (hf : ∀ a, Prompt h flag n (f a)) (hle : k + m ≤ n) :
    Prompt h flag n (p >>= f) := by
  induction p with
  | pure a => exact hf a
  | op o next ih => exact ⟨(hp.1.bind hends).mono hle, fun r => ih r (hp.2 r)⟩

/-- The same, with what follows for the whole. -/
lemma chain {p : Program Op Res α} {f : α → Program Op Res β} (hp : Prompt h flag k p)
    (hf : ∀ a, EndsIn h flag m (f a) ∧ Prompt h flag n (f a)) (hle : k + m ≤ n) :
    EndsIn h flag (k + m) (p >>= f) ∧ Prompt h flag n (p >>= f) :=
  ⟨hp.endsIn.bind fun a => (hf a).1, hp.bind (fun a => (hf a).1) (fun a => (hf a).2) hle⟩

/-- A continuation that ends as soon from every point. -/
lemma seq {p : Program Op Res α} {f : α → Program Op Res β} (hp : Prompt h flag k p)
    (hf : ∀ a, Prompt h flag m (f a)) : Prompt h flag (k + m) (p >>= f) :=
  hp.bind (fun a => (hf a).endsIn) (fun a => (hf a).mono (Nat.le_add_left m k)) (Nat.le_refl _)

lemma ite {c : Prop} [Decidable c] {p q : Program Op Res α} (hp : Prompt h flag n p)
    (hq : Prompt h flag n q) : Prompt h flag n (if c then p else q) := by
  split
  · exact hp
  · exact hq

end Prompt

end Ends

end Program

/-! ## All together -/

namespace Pool

open Program

variable [DecidableEq ι] (h : Handler Op Res σ) {c : Pool Op Res ι σ α}

/-- Program `i` performs its next operation, if there is one. -/
def turn (c : Pool Op Res ι σ α) (i : ι) : Pool Op Res ι σ α :=
  match c.program i with
  | .pure _ => c
  | .op o next =>
      ⟨Function.update c.program i (next (h o c.shared).1), (h o c.shared).2⟩

/-- The programs run in the order of the list. -/
def interleave (c : Pool Op Res ι σ α) : List ι → Pool Op Res ι σ α
  | [] => c
  | i :: order => (c.turn h i).interleave order

/-- How often it is the turn of program `i`. -/
def turns (i : ι) (order : List ι) : ℕ := order.count i

lemma interleave_append (order order' : List ι) :
    c.interleave h (order ++ order') = (c.interleave h order).interleave h order' := by
  induction order generalizing c with
  | nil => rfl
  | cons i order ih => exact ih

variable {h}

lemma turn_ended {i : ι} {a : α} (hi : c.program i = .pure a) : c.turn h i = c := by
  rw [turn, hi]

lemma turn_op {i : ι} {o : Op} {next : Res o → Program Op Res α} (hi : c.program i = .op o next) :
    c.turn h i = ⟨Function.update c.program i (next (h o c.shared).1), (h o c.shared).2⟩ := by
  rw [turn, hi]

/-- A turn of one program leaves the others where they are. -/
lemma turn_of_ne {i j : ι} (hne : j ≠ i) : (c.turn h i).program j = c.program j := by
  cases hi : c.program i with
  | pure a => rw [turn_ended hi]
  | op o next =>
      rw [turn_op hi]
      exact Function.update_of_ne hne _ _

/-! ### The parallel rule -/

section Outlines

variable {view : ι → σ → V} {I : σ → Prop} {May : ι → Op → Prop} {Q : ι → α → V → Prop}

/-- The local proofs are good for the pool as it stands. -/
structure Outlined (h : Handler Op Res σ) (view : ι → σ → V) (I : σ → Prop) (May : ι → Op → Prop)
    (Q : ι → α → V → Prop) (c : Pool Op Res ι σ α) : Prop where
  shared : I c.shared
  outline : ∀ i, Outline h (view i) I (May i) (Q i) (c.program i) (view i c.shared)

lemma Outlined.turn (hc : Outlined h view I May Q c)
    (hother : ∀ i j o s, I s → i ≠ j → May j o → view i (h o s).2 = view i s) (i : ι) :
    Outlined h view I May Q (c.turn h i) := by
  have houtline := hc.outline i
  cases hi : c.program i with
  | pure a => rwa [turn_ended hi]
  | op o next =>
      rw [hi] at houtline
      obtain ⟨hmay, hrun⟩ := houtline
      obtain ⟨hI, hnext⟩ := hrun c.shared hc.shared rfl
      rw [turn_op hi]
      refine ⟨hI, fun j => ?_⟩
      dsimp only
      rcases eq_or_ne j i with rfl | hj
      · rwa [Function.update_self]
      · rw [Function.update_of_ne hj, hother j i o c.shared hc.shared hj hmay]
        exact hc.outline j

/-- **The parallel rule.**  If no operation of a program touches what another one owns, the local
proofs are good in every interleaving. -/
theorem Outlined.interleave (hc : Outlined h view I May Q c)
    (hother : ∀ i j o s, I s → i ≠ j → May j o → view i (h o s).2 = view i s) (order : List ι) :
    Outlined h view I May Q (c.interleave h order) := by
  induction order generalizing c with
  | nil => exact hc
  | cons i order ih => exact ih (hc.turn hother i)

omit [DecidableEq ι] in
/-- What is known of a program that has ended. -/
lemma Outlined.ended (hc : Outlined h view I May Q c) {i : ι} {a : α}
    (hi : c.program i = .pure a) : Q i a (view i c.shared) := by
  have houtline := hc.outline i
  rw [hi] at houtline
  exact houtline

end Outlines

/-! ### Ends -/

section Ends

variable {flag : σ → Prop} {n : ℕ}

lemma flag_turn (hflag : ∀ o s, flag s → flag (h o s).2) (hc : flag c.shared) (i : ι) :
    flag (c.turn h i).shared := by
  cases hi : c.program i with
  | pure a => rwa [turn_ended hi]
  | op o next =>
      rw [turn_op hi]
      exact hflag _ _ hc

/-- A program stays prompt, whoever takes a turn. -/
lemma prompt_turn {i : ι} (hi : Prompt h flag n (c.program i)) (j : ι) :
    Prompt h flag n ((c.turn h j).program i) := by
  rcases eq_or_ne i j with rfl | hij
  · cases hp : c.program i with
    | pure a => rwa [turn_ended hp]
    | op o next =>
        rw [hp] at hi
        rw [turn_op hp]
        dsimp only
        rw [Function.update_self]
        exact hi.2 _
  · rwa [turn_of_ne hij]

lemma prompt_interleave {i : ι} (hi : Prompt h flag n (c.program i)) (order : List ι) :
    Prompt h flag n ((c.interleave h order).program i) := by
  induction order generalizing c with
  | nil => exact hi
  | cons j order ih => exact ih (prompt_turn hi j)

/-- With the flag up, `n` turns are enough, whatever the others do meanwhile. -/
lemma ended_of_endsIn (hflag : ∀ o s, flag s → flag (h o s).2) {i : ι} {order : List ι}
    (hc : flag c.shared) (hi : EndsIn h flag n (c.program i)) (hn : n ≤ turns i order) :
    ∃ a, (c.interleave h order).program i = .pure a := by
  induction order generalizing c n with
  | nil =>
      rw [turns, List.count_nil, Nat.le_zero] at hn
      subst hn
      change ∃ a, c.program i = .pure a
      cases hp : c.program i with
      | pure a => exact ⟨a, rfl⟩
      | op o next =>
          rw [hp] at hi
          cases hi
  | cons j order ih =>
      have hup : flag (c.turn h j).shared := flag_turn hflag hc j
      rcases eq_or_ne i j with rfl | hij
      · rw [turns, List.count_cons_self] at hn
        cases hp : c.program i with
        | pure a =>
            have hnext : EndsIn h flag 0 ((c.turn h i).program i) := by
              rw [turn_ended hp, hp]
              exact .pure a
            exact ih hup hnext (Nat.zero_le _)
        | op o next =>
            rw [hp] at hi
            cases n with
            | zero => cases hi
            | succ n =>
                refine ih hup ?_ (Nat.le_of_succ_le_succ hn)
                rw [turn_op hp]
                dsimp only
                rw [Function.update_self]
                exact hi c.shared hc
      · rw [turns, List.count_cons_of_ne (Ne.symm hij)] at hn
        refine ih hup ?_ hn
        rwa [turn_of_ne hij]

/-- **A prompt program ends** within `n` of its turns from the moment on that the flag is up. -/
theorem ended_of_prompt (hflag : ∀ o s, flag s → flag (h o s).2) {i : ι}
    (hi : Prompt h flag n (c.program i)) {order order' : List ι}
    (hup : flag (c.interleave h order).shared) (hn : n ≤ turns i order') :
    ∃ a, (c.interleave h (order ++ order')).program i = .pure a := by
  rw [interleave_append]
  exact ended_of_endsIn hflag hup (prompt_interleave hi order).endsIn hn

end Ends

end Pool

end Effect
