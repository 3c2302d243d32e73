import StoSys.Lib.Liveness
import StoSys.Ftl.Flags
import StoSys.Ftl.Schedules
import StoSys.Ftl.Session
import StoSys.Properties.LockDiscipline
import StoSys.Properties.SleepingWriters

/-!
# Every interleaving is a serial history

`Threads` lets any number of writers, the collector and the shutdown overtake each other at every
point of their code.  What they do to the maps, the cursor and the device is nevertheless what a
serial history does: calls made one at a time, in the order in which they return, and collections
between them (`schedule_serial`).  So what is proved of serial histories holds of every
interleaving.

**Room.**  A writer tests the watermark with the mutex held, and sleeps without it.  When it gets to
its body the test succeeds, whatever the others have written in the meantime (`room_before_body`).

**Order.**  A call takes effect in its body, which is its last step; `returns` reads the calls off a
run in that order.
-/

namespace StoSys

open Effect HashMap Zoned CInt Monitor Transitions

variable {B σ ρ ι : Type} [Zero B]

/-! ## Serial histories -/

/-- **Serial histories**: calls one at a time, the latest first with what they have returned, and
collections between them.  A call finds room in the log. -/
inductive Serial (h : Handler (Op B) Op.Res σ) (c : Config) (req : ι → Request B) (w₀ : σ) :
    List (ι × ℤ) → σ → Prop
  | start : Serial h c req w₀ [] w₀
  | call {l : List (ι × ℤ)} {w w' : σ} {r : ℤ} (hs : Serial h c req w₀ l w) (i : ι)
      (hrun : (znsUdeviceWrite c [] (req i).address (req i).size (req i).buf).run h w
        = (some r, w')) : Serial h c req w₀ ((i, r) :: l) w'
  | collect {l : List (ι × ℤ)} {w : σ} (hs : Serial h c req w₀ l w) (ord : HashOrder) :
      Serial h c req w₀ l ((triggerGc c ord : Prog B Unit).run h w).2

/-- The calls that return in a run to `s`, the latest first. -/
def returns : List (Threads ι σ × Thread ι) → Threads ι σ → List (ι × ℤ)
  | [], _ => []
  | (s, .writer i) :: tr, s' =>
      match s'.thread (.writer i) with
      | .running (.returned r) => (i, r) :: returns tr s
      | _ => returns tr s
  | (s, .gc) :: tr, _ | (s, .deinit) :: tr, _ => returns tr s

section Returns

variable {tr : List (Threads ι σ × Thread ι)} {s s' : Threads ι σ} {t : Thread ι}

omit [Zero B] in
lemma returns_returned {i : ι} {r : ℤ} (h : s'.thread (.writer i) = .running (.returned r)) :
    returns ((s, .writer i) :: tr) s' = (i, r) :: returns tr s := by
  rw [returns, h]

lemma returns_quiet
    (h : ∀ i r, t = .writer i → s'.thread (.writer i) ≠ .running (.returned r)) :
    returns ((s, t) :: tr) s' = returns tr s := by
  cases t with
  | writer i =>
      rw [returns]
      split
      · exact absurd ‹_› (h i _ rfl)
      · rfl
  | _ => rfl

end Returns

/-! ## Room in the log -/

/-- There is room in the log for the call, above the watermark: the test of the code itself.  Its
32-bit number of free zones wraps for requests that are larger than the log. -/
def HasRoom (c : Config) (r : Request B) (m : Ftl) : Prop :=
  c.gcWatermark < freeZoneNumber c m (toI32 (r.size / c.lbaSizeBytes : ℕ))

omit [Zero B] in
lemma HasRoom.alike {c : Config} {r : Request B} {m m' : Ftl} (h : HasRoom c r m) (hm : m.Alike m') :
    HasRoom c r m' := by
  obtain ⟨mutex, trigger, stop, rfl⟩ := hm
  exact h

/-- What a writer knows of the log before its body. -/
def roomy (c : Config) (req : ι → Request B) : (t : Thread ι) → Point t → Ftl → Prop
  | .writer i, .writing, m => HasRoom c (req i) m
  | _, _, _ => True

section Process

variable {h : Handler (Op B) Op.Res σ} {mem : σ → Ftl} {hh : Faithful h mem} {c : Config}
  {req : ι → Request B}

lemma annotated_roomy :
    Annotated (process c hh req) holding fun t pc x => roomy c req t pc (mem x) where
  lock {t pc next} x hcode := by
    cases t <;> cases pc <;> cases hcode <;> trivial
  wake {t pc cv next} x hcode := by
    cases t <;> cases pc <;> cases hcode <;> trivial
  signal {t pc cv next x} hcode _ := by
    cases t <;> cases pc <;> cases hcode <;> trivial
  await {t pc ready next x} hcode _ := by
    cases t with
    | writer i =>
        cases pc <;> cases hcode
        split
        · trivial
        · trivial
    | _ => cases pc <;> cases hcode <;> trivial
  act {t pc result x y next} hcode hx hholding _ := by
    cases t with
    | writer i =>
        cases pc with
        | testing =>
            cases hcode
            rw [hx.1, hx.2, run_getFtl_fst hh, mem_getFtl hh]
            dsimp only
            split
            case isTrue => trivial
            case isFalse hroom => exact Nat.not_le.mp hroom
        | triggering =>
            cases hcode
            rw [hx.2]
            trivial
        | writing =>
            cases hcode
            rw [hx.2] at hholding
            cases hholding
        | _ => cases hcode
    | gc => cases next <;> trivial
    | deinit => cases next <;> trivial
  outside {t pc result x y next} hcode hx hfree {u pc'} hroomy := by
    cases t with
    | deinit =>
        cases pc <;> cases hcode
        rw [hx.1, mem_modifyFtl hh]
        cases u with
        | writer i => cases pc' <;> exact hroomy
        | _ => cases pc' <;> trivial
    | _ => cases pc <;> cases hcode <;> cases hfree

variable [DecidableEq ι]

omit [DecidableEq ι] in
lemma started_of_eq {s₀ : Threads ι σ} (ho : Opened mem s₀) (s : Threads ι σ) (hs : s = s₀) :
    Started holding s :=
  hs ▸ ho.started

/-! ## What a step does to the data -/

/-- **A step, seen from the data**: it does nothing to them, or it is the end of a call that is
refused, the body of a call, or a collection. -/
inductive DataStep (h : Handler (Op B) Op.Res σ) (mem : σ → Ftl) (rest : σ → ρ) (c : Config)
    (req : ι → Request B) (s s' : Threads ι σ) : Thread ι → Prop
  | quiet {t : Thread ι}
      (hquiet : ∀ i r, t = .writer i → s'.thread (.writer i) ≠ .running (.returned r))
      (hdata : SameData mem rest s.shared s'.shared) : DataStep h mem rest c req s s' t
  | refused {i : ι} (halign : (req i).size % c.lbaSizeBytes ≠ 0)
      (hret : s'.thread (.writer i) = .running (.returned (-1))) (hsame : s'.shared = s.shared) :
      DataStep h mem rest c req s s' (.writer i)
  | body {i : ι} (hpc : s.thread (.writer i) = .running .writing)
      (hret : s'.thread (.writer i) = .running (.returned
        ((writeBody c (req i).address (req i).size (req i).buf).run h s.shared).1))
      (hdata : s'.shared
        = ((writeBody c (req i).address (req i).size (req i).buf).run h s.shared).2) :
      DataStep h mem rest c req s s' (.writer i)
  | collection {ord : HashOrder} (hpc : s.thread .gc = .running .collecting)
      (hdata : s'.shared = ((triggerGc c ord : Prog B Unit).run h s.shared).2) :
      DataStep h mem rest c req s s' .gc

section DataStep

variable {rest : σ → ρ} (hr : Apart h rest) {inv : (t : Thread ι) → Point t → σ → Prop}
  {s s' : Threads ι σ} {t : Thread ι}

omit [Zero B] in
/-- A thread that gets to a point which is not the end of a call has not returned. -/
lemma not_returned {x : σ} {status : Status Cond (Point t)}
    (hne : ∀ i r (ht : t = .writer i), status ≠ ht ▸ .running (.returned r)) :
    ∀ i r, t = .writer i → (⟨x, Function.update s.thread t status⟩ : Threads ι σ).thread (.writer i)
      ≠ .running (.returned r) := by
  rintro i r rfl heq
  dsimp only at heq
  rw [Function.update_self] at heq
  exact hne i r rfl heq

/-- A thread that waits for others: a call looks at its size before that. -/
lemma dataStep_await {ready : Points (Thread ι) Cond Point → Prop} {pc next : Point t}
    (hcode : (process c hh req).code t pc = .await ready next) :
    DataStep h mem rest c req s ⟨s.shared, Function.update s.thread t (.running next)⟩ t := by
  cases t with
  | writer i =>
      cases pc <;> cases hcode
      by_cases halign : (req i).size % c.lbaSizeBytes ≠ 0
      · refine .refused halign ?_ rfl
        dsimp only
        rw [Function.update_self, if_pos halign]
      · refine .quiet (not_returned ?_) (.refl _)
        rw [if_neg halign]
        rintro j r hj heq
        cases hj
        cases heq
  | gc | deinit => exact .quiet (fun i r ht => by cases ht) (.refl _)

section Act

variable {result : σ → σ → Point t → Prop} {pc next : Point t} {x : σ}
include hr

/-- Of what a writer does only the body touches the data. -/
lemma dataStep_writer {i : ι} {result : σ → σ → Point (.writer i) → Prop}
    {pc next : Point (.writer i)} (hpc : s.thread (.writer i) = .running pc)
    (hcode : (process c hh req).code (.writer i) pc = .act result) (hx : result s.shared x next) :
    DataStep h mem rest c req s ⟨x, Function.update s.thread (.writer i) (.running next)⟩
      (.writer i) := by
  cases pc with
  | testing =>
      cases hcode
      obtain ⟨rfl, rfl⟩ := hx
      refine .quiet (not_returned ?_) (.getFtl hh hr _)
      rintro j r hj heq
      cases hj
      dsimp only at heq
      split at heq <;> cases heq
  | triggering =>
      cases hcode
      obtain ⟨rfl, rfl⟩ := hx
      refine .quiet (not_returned ?_) (.setFlag hh hr (fun m => ⟨_, true, _, rfl⟩) _)
      rintro j r hj heq
      cases hj
      cases heq
  | writing =>
      cases hcode
      obtain ⟨rfl, rfl⟩ := hx
      exact .body hpc (Function.update_self ..) rfl
  | _ => cases hcode

/-- Of what the collector does only the pass touches them, … -/
lemma dataStep_gc {result : σ → σ → Point (.gc : Thread ι) → Prop}
    {pc next : Point (.gc : Thread ι)} (hpc : s.thread .gc = .running pc)
    (hcode : (process c hh req).code .gc pc = .act result) (hx : result s.shared x next) :
    DataStep h mem rest c req s ⟨x, Function.update s.thread .gc (.running next)⟩ .gc := by
  have hquiet : ∀ i r, Thread.gc = .writer i → (⟨x, Function.update s.thread .gc
      (.running next)⟩ : Threads ι σ).thread (.writer i) ≠ .running (.returned r) :=
    fun i r ht => by cases ht
  cases pc with
  | testing | checking =>
      cases hcode
      exact .quiet hquiet (hx.1 ▸ .getFtl hh hr _)
  | leaving | unlocking =>
      cases hcode
      exact .quiet hquiet (hx.1 ▸ .setFlag hh hr (fun m => ⟨false, _, _, rfl⟩) _)
  | collecting =>
      cases hcode
      obtain ⟨ord, hx, -⟩ := hx
      exact .collection hpc hx
  | _ => cases hcode

/-- … and the shutdown touches a flag only. -/
lemma dataStep_act (hpc : s.thread t = .running pc)
    (hcode : (process c hh req).code t pc = .act result) (hx : result s.shared x next) :
    DataStep h mem rest c req s ⟨x, Function.update s.thread t (.running next)⟩ t := by
  cases t with
  | writer i => exact dataStep_writer hr hpc hcode hx
  | gc => exact dataStep_gc hr hpc hcode hx
  | deinit =>
      cases pc <;> cases hcode
      exact .quiet (fun i r ht => by cases ht)
        (hx.1 ▸ .setFlag hh hr (fun m => ⟨_, _, true, rfl⟩) _)

end Act

include hr in
/-- Every step is one of these. -/
lemma dataStep (hv : Valid (process c hh req) holding inv s) (hs : Step (process c hh req) t s s') :
    DataStep h mem rest c req s s' t := by
  cases hs with
  | @lock pc next hpc hcode hfree =>
      refine .quiet (not_returned fun i r ht heq => ?_) (.setFlag hh hr (fun m => ⟨true, _, _, rfl⟩) _)
      cases ht
      cases pc <;> cases hcode
      cases heq
  | @wait cv pc next hpc hcode =>
      refine .quiet (not_returned fun i r ht heq => ?_) (.setFlag hh hr (fun m => ⟨false, _, _, rfl⟩) _)
      cases ht
      cases heq
  | @wake pc hpc hfree =>
      refine .quiet (not_returned fun i r ht heq => ?_) (.setFlag hh hr (fun m => ⟨true, _, _, rfl⟩) _)
      cases ht
      cases heq
      obtain ⟨pc₀, cv, hcode⟩ := hv.roused hpc
      cases pc₀ <;> cases hcode
  | @signal cv pc next u pc' hpc hcode hu =>
      refine .quiet ?_ (.refl _)
      rintro i r rfl heq
      have hne : Thread.writer i ≠ u := by
        rintro rfl
        rw [hpc] at hu
        cases hu
      dsimp only at heq
      rw [Function.update_of_ne hne, Function.update_self] at heq
      cases heq
      cases pc <;> cases hcode
  | @lost cv pc next hpc hcode hnone =>
      refine .quiet (not_returned fun i r ht heq => ?_) (.refl _)
      cases ht
      cases heq
      cases pc <;> cases hcode
  | await hpc hcode hready => exact dataStep_await hcode
  | act hpc hcode hx => exact dataStep_act hr hpc hcode hx

end DataStep

/-! ## Calls with a size that has been tested -/

/-- What a writer knows of its size. -/
def Admitted (c : Config) (r : Request B) : WritePoint → Prop
  | .idle | .returned _ => True
  | _ => r.size % c.lbaSizeBytes = 0

/-- The same at the points of all threads. -/
def admitted (c : Config) (req : ι → Request B) : (t : Thread ι) → Point t → Prop
  | .writer i, pc => Admitted c (req i) pc
  | .gc, _ | .deinit, _ => True

omit [DecidableEq ι] in
/-- A call goes on with the size it has been admitted with. -/
lemma closed_admitted : Closed (process c hh req) (admitted c req) where
  next {t pc q} ha hreach := by
    cases t with
    | writer i =>
        cases pc with
        | idle =>
            cases hreach
            change Admitted c (req i) _
            split
            · trivial
            · exact not_not.mp ‹_›
        | testing =>
            obtain ⟨x, y, -, hq⟩ := hreach
            rw [hq]
            dsimp only
            split
            · exact ha
            · exact ha
        | triggering =>
            obtain ⟨x, y, -, hq⟩ := hreach
            rw [hq]
            exact ha
        | writing =>
            obtain ⟨x, y, -, hq⟩ := hreach
            rw [hq]
            trivial
        | locking | signalling =>
            cases hreach
            exact ha
        | _ => cases hreach
    | _ => trivial
  wait {t pc cv q} ha hcode := by
    cases t with
    | writer i =>
        cases pc <;> cases hcode
        exact ha
    | _ => trivial

omit [DecidableEq ι] [Zero B] in
lemma Opened.admitted {s : Threads ι σ} (ho : Opened mem s) (c : Config) (req : ι → Request B)
    (t : Thread ι) : StoSys.admitted c req t (s.thread t).point := by
  cases t with
  | writer i =>
      rw [ho.writer i]
      trivial
  | _ => trivial

lemma admitted_run {init : Threads ι σ → Prop} (hinit : ∀ s, init s → Opened mem s)
    {tr : List (Threads ι σ × Thread ι)} {s : Threads ι σ}
    (hr : Run init (Step (process c hh req)) tr s) (t : Thread ι) :
    admitted c req t (s.thread t).point :=
  hr.invariant (I := fun s => ∀ t, admitted c req t (s.thread t).point)
    (fun s hs => (hinit s hs).admitted c req) (fun h hs => closed_admitted.step hs h) t

/-! ## The serial history of a run -/

omit [Zero B] in
/-- The body of a write gives the mutex back exactly if it succeeds. -/
lemma writeBody_mutex (hh : Faithful h mem) (c : Config) (address size : ℕ) (buf : Buffer B) :
    Program.Triple h (fun s => (mem s).gcMutex = true) (writeBody c address size buf)
      fun r s => (mem s).gcMutex = true ↔ r ≠ 0 := by
  have hfinish : ∀ f : UMap ℤ → UMap ℤ, Program.Triple h (fun s => (mem s).gcMutex = true) (do
      modifyFtl fun m => { m with logZoneMapping := f m.logZoneMapping }
      modifyFtl fun m => { m with gcMutex := false }
      Pure.pure 0 : Prog B ℤ) fun r s => (mem s).gcMutex = true ↔ r ≠ 0 := by
    intro f s _
    simp only [Program.run_bind, Program.run_pure, mem_modifyFtl hh]
    exact iff_of_false Bool.false_ne_true (not_not.mpr rfl)
  have hfailed : ∀ {r : ℤ} {s : σ}, r ≠ 0 → (mem s).gcMutex = true →
      ((mem s).gcMutex = true ↔ r ≠ 0) := fun hr hs => iff_of_true hs hr
  refine .bind (Keeps.perform hh (P := fun m => m.gcMutex = true) rfl) fun m => .ite (fun _ => ?_)
    fun _ => ?_
  · refine .bind (Keeps.perform hh (P := fun m => m.gcMutex = true) rfl) fun r => ?_
    refine .ite (fun hr => .pure fun s hs => hfailed hr hs) fun _ => ?_
    exact .bind (Keeps.modify hh (P := fun m => m.gcMutex = true) fun _ hm => hm) fun _ => hfinish _
  · refine .bind (Keeps.ioLoop hh (P := fun m => m.gcMutex = true) c 0 false _ _ _ _ _) fun r => ?_
    exact .ite (fun hr => .pure fun s hs => hfailed hr hs) fun _ => hfinish _

/-- A call that fails leaves the mutex taken. -/
lemma abandoned_of_failed {inv : (t : Thread ι) → Point t → σ → Prop} {s s' : Threads ι σ} {i : ι}
    (hv : Valid (process c hh req) holding inv s) (hs : Step (process c hh req) (.writer i) s s')
    (hpc : s.thread (.writer i) = .running .writing)
    (hret : s'.thread (.writer i) = .running (.returned
      ((writeBody c (req i).address (req i).size (req i).buf).run h s.shared).1))
    (hdata : s'.shared = ((writeBody c (req i).address (req i).size (req i).buf).run h s.shared).2)
    (hne : ((writeBody c (req i).address (req i).size (req i).buf).run h s.shared).1 ≠ 0) :
    Abandoned (process c hh req) holding s' := by
  have hholds : Monitor.Holds holding s (.writer i) := ⟨_, hpc, rfl⟩
  refine hv.abandoned hs hholds ?_ ?_
  · rintro ⟨pc, hpc', hholding⟩
    rw [hret] at hpc'
    cases hpc'
    cases hholding
  · change (mem s'.shared).gcMutex = true
    rw [hdata]
    exact (writeBody_mutex hh c (req i).address (req i).size (req i).buf s.shared
      (hv.held hholds)).mpr hne

/-- A call that finds room runs its body at once, with the mutex held. -/
lemma run_call {rest : σ → ρ} (hh : Faithful h mem) (hr : Apart h rest) {r : Request B}
    {w : σ} (hfree : (mem w).gcMutex = false) (halign : r.size % c.lbaSizeBytes = 0)
    (hroom : HasRoom c r (mem w)) : ∃ w₁, SameData mem rest w w₁ ∧ (mem w₁).gcMutex = true ∧
      (znsUdeviceWrite c [] r.address r.size r.buf).run h w
        = (some ((writeBody c r.address r.size r.buf).run h w₁).1,
          ((writeBody c r.address r.size r.buf).run h w₁).2) := by
  let w₁ := ((takeMutex : Prog B Unit).run h w).2
  have hmem : mem w₁ = { mem w with gcMutex := true } := mem_takeMutex hh
  have htake : SameData mem rest w w₁ := by
    refine (SameData.getFtl hh hr w).trans ?_
    exact .setFlag hh hr (f := fun m => { m with gcMutex := true }) (fun m => ⟨true, _, _, rfl⟩) _
  have hroom' : c.gcWatermark
      < freeZoneNumber c (mem w₁) (toI32 (r.size / c.lbaSizeBytes : ℕ)) := hroom.alike htake.mem
  have hloop : (watermarkLoop c (r.size / c.lbaSizeBytes) [] : Prog B Bool).run h w₁
      = (true, ((getFtl : Prog B Ftl).run h w₁).2) := by
    rw [watermarkLoop, Program.run_bind, Program.run_pure, run_getFtl_fst hh, decide_eq_true hroom']
  have hrun := run_znsUdeviceWrite_free hh hfree halign [] r.address r.buf
  refine ⟨((getFtl : Prog B Ftl).run h w₁).2, htake.trans (.getFtl hh hr w₁), ?_, ?_⟩
  · rw [mem_getFtl hh, hmem]
  · rw [hrun, hloop, if_pos rfl]

/-- **The serial history `w` stands for the run.**  A mutex that is taken there has been left behind
by a call that failed. -/
structure Stands (hh : Faithful h mem) (rest : σ → ρ) (c : Config) (req : ι → Request B) (w₀ : σ)
    (tr : List (Threads ι σ × Thread ι)) (s : Threads ι σ) (w : σ) : Prop where
  serial : Serial h c req w₀ (returns tr s) w
  data : SameData mem rest w s.shared
  mutex : (mem w).gcMutex = true → Abandoned (process c hh req) holding s

section Stands

variable {rest : σ → ρ} (hr : Apart h rest) {w₀ w : σ} {tr : List (Threads ι σ × Thread ι)}
  {s s' : Threads ι σ} {t : Thread ι}

include hr in
/-- The body of a call is the whole call of the serial history. -/
lemma Stands.body (hv : Valid (process c hh req) holding (fun t pc x => roomy c req t pc (mem x)) s)
    (ha : ∀ i, Admitted c (req i) (s.thread (.writer i)).point)
    (hst : Stands hh rest c req w₀ tr s w) {i : ι} (hs : Step (process c hh req) (.writer i) s s')
    (hpc : s.thread (.writer i) = .running .writing)
    (hret : s'.thread (.writer i) = .running (.returned
      ((writeBody c (req i).address (req i).size (req i).buf).run h s.shared).1))
    (hdata : s'.shared
      = ((writeBody c (req i).address (req i).size (req i).buf).run h s.shared).2) :
    ∃ w', Stands hh rest c req w₀ ((s, .writer i) :: tr) s' w' := by
  have hfree : (mem w).gcMutex = false :=
    Bool.eq_false_iff.mpr fun hm => (hst.mutex hm).2 _ ⟨_, hpc, rfl⟩
  have hroom : HasRoom c (req i) (mem s.shared) := hv.holds hpc rfl
  have halign : (req i).size % c.lbaSizeBytes = 0 := by
    have h := ha i
    rw [hpc] at h
    exact h
  obtain ⟨w₁, hw₁, hmutex, hrun⟩ := run_call hh hr hfree halign
    (hroom.alike hst.data.symm.mem)
  obtain ⟨hcode, hsame⟩ := Flagless.writeBody hh hr c (req i).address (req i).size (req i).buf w₁
    s.shared (hw₁.symm.trans hst.data)
  refine ⟨((writeBody c (req i).address (req i).size (req i).buf).run h w₁).2, ?_, ?_,
    fun hm => abandoned_of_failed hv hs hpc hret hdata ?_⟩
  · rw [returns_returned hret, ← hcode]
    exact hst.serial.call i hrun
  · rw [hdata]
    exact hsame
  · have hne := (writeBody_mutex hh c (req i).address (req i).size (req i).buf w₁ hmutex).mp hm
    rw [hcode] at hne
    exact hne

include hr in
/-- **One step.** -/
lemma Stands.step (hv : Valid (process c hh req) holding (fun t pc x => roomy c req t pc (mem x)) s)
    (ha : ∀ i, Admitted c (req i) (s.thread (.writer i)).point)
    (hst : Stands hh rest c req w₀ tr s w) (hs : Step (process c hh req) t s s') :
    ∃ w', Stands hh rest c req w₀ ((s, t) :: tr) s' w' := by
  have hkeep : (mem w).gcMutex = true → Abandoned (process c hh req) holding s' :=
    fun hm => (hst.mutex hm).step guarded hs
  cases dataStep hr hv hs with
  | quiet hquiet hdata =>
      refine ⟨w, ?_, hst.data.trans hdata, hkeep⟩
      rw [returns_quiet hquiet]
      exact hst.serial
  | @refused i halign hret hsame =>
      refine ⟨w, ?_, hsame ▸ hst.data, hkeep⟩
      rw [returns_returned hret]
      refine hst.serial.call i ?_
      rw [znsUdeviceWrite, if_pos halign]
      rfl
  | body hpc hret hdata => exact hst.body hr hv ha hs hpc hret hdata
  | @collection ord hpc hdata =>
      have hfree : (mem w).gcMutex = false :=
        Bool.eq_false_iff.mpr fun hm => (hst.mutex hm).2 .gc ⟨_, hpc, rfl⟩
      refine ⟨_, hst.serial.collect ord, ?_, fun hm => ?_⟩
      · rw [hdata]
        exact (Flagless.triggerGc hh hr c ord _ _ hst.data).2
      · rw [mem_triggerGc_mutex hh, hfree] at hm
        cases hm

include hr in
/-- **Every run** has its serial history. -/
lemma stands_of_run {s₀ : Threads ι σ} (ho : Opened mem s₀)
    (hrun : Run (· = s₀) (Step (process c hh req)) tr s) :
    ∃ w, Stands hh rest c req s₀.shared tr s w := by
  induction hrun with
  | start hs =>
      subst hs
      refine ⟨_, .start, .refl _, fun hm => ?_⟩
      rw [ho.gcMutex] at hm
      cases hm
  | step hrun hs ih =>
      obtain ⟨w, hst⟩ := ih
      have hv := Valid.run guarded annotated_roomy (started_of_eq ho) hrun
      have ha := fun i => admitted_run (fun _ hs => hs ▸ ho) hrun (.writer i)
      exact hst.step hr hv ha hs

end Stands

/-! ## The calls that have returned -/

/-- A call that has returned has come to its end. -/
lemma returned_stays {s s' : Threads ι σ} {t : Thread ι} {i : ι} {r : ℤ}
    (hs : Step (process c hh req) t s s')
    (h : s.thread (.writer i) = .running (.returned r)) :
    t ≠ .writer i ∧ s'.thread (.writer i) = .running (.returned r) := by
  have hne : t ≠ .writer i := by
    rintro rfl
    exact hs.inv h
  refine ⟨hne, ?_⟩
  rcases hs.other hne.symm with heq | ⟨cv, pc, hslept, -⟩
  · rw [heq, h]
  · rw [h] at hslept
    cases hslept

/-- … and every other call has been there before. -/
lemma returned_before {s s' : Threads ι σ} {t : Thread ι} {i : ι} {r : ℤ}
    (hs : Step (process c hh req) t s s') (hne : t ≠ .writer i)
    (h : s'.thread (.writer i) = .running (.returned r)) :
    s.thread (.writer i) = .running (.returned r) := by
  rcases hs.other hne.symm with heq | ⟨cv, pc, -, hwoken, -⟩
  · rw [← heq, h]
  · rw [h] at hwoken
    cases hwoken

/-- `returns` lists the calls that have returned, each once. -/
lemma returns_spec {init : Threads ι σ → Prop} (hinit : ∀ s, init s → Opened mem s)
    {tr : List (Threads ι σ × Thread ι)} {s : Threads ι σ}
    (hrun : Run init (Step (process c hh req)) tr s) :
    (∀ i r, s.thread (.writer i) = .running (.returned r) ↔ (i, r) ∈ returns tr s) ∧
      ((returns tr s).map Prod.fst).Nodup := by
  induction hrun with
  | @start s hs =>
      refine ⟨fun i r => iff_of_false (fun h => ?_) List.not_mem_nil, List.nodup_nil⟩
      rw [(hinit s hs).writer i] at h
      cases h
  | @step tr s s' t hrun hs ih =>
      obtain ⟨hmem, hnodup⟩ := ih
      by_cases hret : ∃ i r, t = .writer i ∧ s'.thread (.writer i) = .running (.returned r)
      · obtain ⟨j, x, rfl, hj⟩ := hret
        rw [returns_returned hj]
        refine ⟨fun i r => ⟨fun h => ?_, fun h => ?_⟩, List.nodup_cons.mpr ⟨fun hin => ?_, hnodup⟩⟩
        · by_cases hij : i = j
          · subst hij
            cases hj.symm.trans h
            exact List.mem_cons_self ..
          · have hne : Thread.writer j ≠ .writer i := fun heq => hij (Thread.writer.inj heq).symm
            exact List.mem_cons_of_mem _ ((hmem i r).mp (returned_before hs hne h))
        · rcases List.mem_cons.mp h with heq | h
          · cases heq
            exact hj
          · exact (returned_stays hs ((hmem i r).mpr h)).2
        · obtain ⟨⟨i, r⟩, hir, rfl⟩ := List.mem_map.mp hin
          exact (returned_stays hs ((hmem i r).mpr hir)).1 rfl
      · have hquiet : ∀ i r, t = .writer i → s'.thread (.writer i) ≠ .running (.returned r) :=
          fun i r ht h => hret ⟨i, r, ht, h⟩
        rw [returns_quiet hquiet]
        refine ⟨fun i r => ⟨fun h => ?_, fun h => ?_⟩, hnodup⟩
        · exact (hmem i r).mp (returned_before hs (fun ht => hquiet i r ht h) h)
        · exact (returned_stays hs ((hmem i r).mpr h)).2

/-- **Room at every body.**  In every environment, with any number of calls of any size, and
wherever they overtake each other: for a call that is about to write `free_zone_number` is above
the watermark. -/
theorem room_before_body {tr : List (Threads ι σ × Thread ι)} {s : Threads ι σ}
    (hr : Schedule hh c req tr s) {i : ι} (hpc : s.thread (.writer i) = .running .writing) :
    HasRoom c (req i) (mem s.shared) :=
  (Valid.run guarded annotated_roomy (fun _ ho => ho.started) hr).holds hpc rfl

/-- **Every interleaving is a serial history**, up to the mutex and the flags, on every device apart
from the memory of the process: that of the calls that have returned, in the order in which they did
so, with the codes they returned. -/
theorem schedule_serial {rest : σ → ρ} (hr : Apart h rest) {s₀ s : Threads ι σ}
    {tr : List (Threads ι σ × Thread ι)} (ho : Opened mem s₀)
    (hrun : Run (· = s₀) (Step (process c hh req)) tr s) :
    (∃ w, Serial h c req s₀.shared (returns tr s) w ∧ SameData mem rest w s.shared) ∧
      (∀ i r, s.thread (.writer i) = .running (.returned r) ↔ (i, r) ∈ returns tr s) ∧
      ((returns tr s).map Prod.fst).Nodup := by
  obtain ⟨w, hst⟩ := stands_of_run hr ho hrun
  exact ⟨⟨w, hst.serial, hst.data⟩, returns_spec (fun _ hs => hs ▸ ho) hrun⟩

end Process

omit [Zero B] in
/-- Also a drive that refuses commands does not look into the memory. -/
lemma apart_faulty {d : Drive B} (fails : ℕ → Op B → Bool) :
    Apart (faulty (d := d) fails) fun s => (s.1.media, s.2) :=
  apart_exec.failing rfl (fun _ => rfl) fails

/-! ## A run -/

/-- The third of three calls comes to its body after a pass. -/
theorem room_before_third_body :
    ∃ tr s, Schedule (faithful_exec (d := smallDrive.drive)) smallDrive.config blockCalls tr s ∧
      s.thread (.writer 2) = .running .writing ∧
      HasRoom smallDrive.config (blockCalls 2) s.shared.ftl := by
  obtain ⟨tr, hr⟩ := Run.extend (.start opened_freshStart) steps_to_body
  have hpc := both_writer twoReturned 2 (.asleep .startGc .testing) (.running .writing)
  exact ⟨tr, _, hr, hpc, room_before_body hr hpc⟩

/-- All three have returned. -/
theorem schedule_serial_three :
    ∃ tr s, Run (· = freshStart)
        (Step (process smallDrive.config (faithful_exec (d := smallDrive.drive)) blockCalls)) tr s ∧
      (∀ i, (i, 0) ∈ returns tr s) ∧
      ∃ w, Serial exec smallDrive.config blockCalls (fresh smallDrive) (returns tr s) w ∧
        SameData World.ftl World.media w s.shared := by
  have hstart : Run (· = freshStart)
      (Step (process smallDrive.config (faithful_exec (d := smallDrive.drive)) blockCalls)) []
      freshStart := .start rfl
  obtain ⟨tr, hr⟩ := hstart.extend steps_to_return
  obtain ⟨hserial, hmem, -⟩ := schedule_serial apart_exec opened_freshStart hr
  exact ⟨tr, _, hr, fun i => (hmem i 0).mp (returned_all i), hserial⟩

end StoSys
