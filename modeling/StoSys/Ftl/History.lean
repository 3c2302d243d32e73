import StoSys.Ftl.Session

/-!
# Histories

A `Session` only makes one-block writes that return.  A `History` is any sequence of calls: writes
of any size, whatever they return and also when they do not return, reads, and collections the
thread makes on its own.
-/

namespace StoSys

open Effect HashMap Zoned CInt

variable {B : Type} [Zero B] {g : Setup B} {w : World g.drive}

/-! ## Histories -/

/-- **A history**: a fresh process opens the device with a reset and makes calls.  `ok` says which
writes, of how many blocks at which byte address, may be made in a state. -/
inductive History (g : Setup B) (ok : World g.drive → ℕ → ℕ → Prop) :
    Config → World g.drive → Prop
  | init {c : Config} {w : World g.drive} (m : Media g.drive)
      (h : (initSsZnsDevice (g.params true) : Prog B _).run exec ⟨Ftl.fresh, m⟩
        = ((0, some c), w)) : History g ok c w
  | write {c : Config} {w : World g.drive} {address k : ℕ} (hw : History g ok c w)
      (passes : List HashOrder) (buf : Buffer B) (hok : ok w address k) :
      History g ok c ((znsUdeviceWrite c passes address (k * g.lba) buf).run exec w).2
  | read {c : Config} {w : World g.drive} (hw : History g ok c w) (address size : ℕ)
      (buf : Buffer B) : History g ok c ((znsUdeviceRead c address size buf).run exec w).2
  | collect {c : Config} {w : World g.drive} (hw : History g ok c w) (ord : HashOrder) :
      History g ok c ((triggerGc c ord : Prog B Unit).run exec w).2

namespace History

variable {ok : World g.drive → ℕ → ℕ → Prop} {c : Config}

lemma fresh (g : Setup B) (ok : World g.drive → ℕ → ℕ → Prop) :
    History g ok g.config (StoSys.fresh g) :=
  .init (Media.empty _) (run_init_fresh _)

lemma config_eq (h : History g ok c w) : c = g.config := by
  induction h with
  | init m h =>
      rw [run_init_fresh] at h
      cases h
      rfl
  | write _ _ _ _ ih => exact ih
  | read _ _ _ _ ih => exact ih
  | collect _ _ ih => exact ih

/-- **Rule for histories**: what holds of a fresh device and is kept by permitted writes and by
collections holds throughout. -/
lemma rule {P : World g.drive → Prop} (hfresh : P (StoSys.fresh g))
    (hwrite : ∀ {w address k}, P w → ok w address k → ∀ (passes : List HashOrder) (buf : Buffer B),
      P ((znsUdeviceWrite g.config passes address (k * g.lba) buf).run exec w).2)
    (hcollect : ∀ {w}, P w → ∀ ord, P ((triggerGc g.config ord : Prog B Unit).run exec w).2)
    (h : History g ok c w) : P w := by
  obtain rfl := h.config_eq
  generalize hc : g.config = c at h
  induction h with
  | init m h =>
      rw [run_init_fresh] at h
      cases h
      exact hfresh
  | write _ passes buf hok ih =>
      subst hc
      exact hwrite ih hok passes buf
  | read _ address size buf ih =>
      rw [run_read_snd]
      exact ih
  | collect _ ord ih =>
      subst hc
      exact hcollect ih ord

end History

end StoSys
