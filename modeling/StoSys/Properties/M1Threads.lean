import StoSys.M1.Local

/-!
# The threads of `m1`

**No interleaving goes wrong** (`threads_agree`).  Each thread has a zone of its own and takes nothing
from the others, so what it wrote is what it reads, whatever the others do in between; an error is
never counted, and the test returns zero.

**The threads stop** (`threads_stop`), on a drive that may do anything, once the flag is up: each of
them ends its round.
-/

namespace StoSys.M1

open Effect Zoned CInt M3 Program

variable {ds : ℕ} {d : Drive (Block ds)} {n : ℕ}

/-! ## A round, locally -/

/-- Every block holds the pattern of thread `x`, as far as that reaches: `write_pattern_with_start`
stores `lba_size - start` bytes. -/
def Patterned (x : ℤ) (l : List (Block ds)) : Prop :=
  ∀ (o : ℕ) (ho : o < l.length) (k : Fin (2 ^ ds)), (k : ℕ) < 2 ^ ds - toU64 (x + o) →
    l[o] k = patternByte (toU64 (x + o) + k)

variable {x : ℤ} {l : List (Block ds)}

lemma patterned_nil : Patterned x ([] : List (Block ds)) :=
  fun o ho => absurd ho (Nat.not_lt_zero o)

/-- The next block. -/
lemma Patterned.append (h : Patterned x l) {lba : ℕ} (hlba : lba = 2 ^ ds) (wdata : Bytes) :
    Patterned x (l ++ [front ds (writePatternWithStart wdata lba (toU64 (x + l.length)))]) := by
  subst hlba
  intro o ho k hk
  rcases Nat.lt_or_ge o l.length with hlt | hge
  · rw [List.getElem_append_left hlt]
    exact h o hlt k hk
  · have ho' : o = l.length := by
      rw [List.length_append, List.length_singleton] at ho
      omega
    subst ho'
    rw [List.getElem_concat_length rfl, front, writePatternWithStart_apply, if_pos hk]

/-- A zone that a thread has written, and found in order. -/
structure Checked (d : Drive (Block ds)) (x : ℤ) (l : List (Block ds)) : Prop where
  full : l.length = d.zoneCap
  pattern : Patterned x l

section Round

variable (hds : d.ds = ds) (hlba : d.lbaSize < 4294967296)
  (hfit : d.nrZones * d.zoneSize < 18446744073709551616) {i : Fin n} (hi : (i : ℕ) < d.nrZones)
include hds hlba hfit hi

lemma local_writeZone (k : ℕ) : ∀ (wptr : ℕ) (ret : ℤ) (wdata : Bytes) (l : List (Block ds)),
    wptr = l.length → wptr + k = d.zoneCap → Patterned x l →
    Local (d := d) (some i)
      (fun r l' => (∃ b, r = .ok (if k = 0 then ret else 0, b)) ∧ Checked d x l')
      (writeZone d.lbaSize (i * d.zoneSize) x k wptr ret wdata) l := by
  have hsize : d.lbaSize = 2 ^ ds := congrArg (2 ^ ·) hds
  have hone : toU16 0 + 1 = 1 := rfl
  have hlen : toU32 (d.lbaSize : ℤ) = 1 * d.lbaSize := (toU32_of_lt hlba).trans (Nat.one_mul _).symm
  induction k with
  | zero =>
      rintro wptr ret wdata l rfl hcap hl
      exact .pure ⟨⟨wdata, rfl⟩, hcap, hl⟩
  | succ k ih =>
      rintro wptr ret wdata l rfl hcap hl
      have hnext := hl.append hsize wdata
      set wdata' := writePatternWithStart wdata d.lbaSize (toU64 (x + l.length))
      have hrest := ih (l.length + 1) 0 wdata' (l ++ [front ds wdata']) (by simp) (by omega) hnext
      simp only [ite_self] at hrest
      have haddr := toU64_addr hfit hi (o := l.length) (by have := d.cap_le; omega)
      simp only [writeZone, Nat.succ_ne_zero, if_false, haddr]
      refine .ite (fun _ => ?_) fun _ => ?_
      · refine .bind (local_nvmeWrite hi wdata' hone hlen (by omega)) ?_
        rintro ret _ ⟨rfl, rfl⟩
        rw [if_neg (not_not.mpr rfl), slice_front]
        exact hrest
      · refine .bind (local_nvmeZnsAppend hi wdata' hone hlen (by omega)) ?_
        rintro r _ ⟨rfl, rfl⟩
        rw [if_neg (not_not.mpr rfl), if_neg (not_not.mpr rfl), slice_front]
        exact hrest

lemma local_readZone (hl : Checked d x l) (k : ℕ) :
    ∀ (wptr : ℕ) (ret : ℤ) (rdata : Bytes), wptr + k = d.zoneCap →
    Local (d := d) (some i)
      (fun r l' => (∃ b, r = .ok (if k = 0 then ret else 0, b)) ∧ l' = l)
      (readZone d.lbaSize (i * d.zoneSize) x k wptr ret rdata) l := by
  have hsize : d.lbaSize = 2 ^ ds := congrArg (2 ^ ·) hds
  have hone : toU16 0 + 1 = 1 := rfl
  have hlen : toU32 (d.lbaSize : ℤ) = 1 * d.lbaSize := (toU32_of_lt hlba).trans (Nat.one_mul _).symm
  induction k with
  | zero => exact fun wptr ret rdata _ => .pure ⟨⟨rdata, rfl⟩, rfl⟩
  | succ k ih =>
      intro wptr ret rdata hcap
      have ho : wptr < l.length := by
        rw [hl.full]
        omega
      simp only [readZone, Nat.succ_ne_zero, if_false]
      rw [toU64_addr hfit hi (by have := d.cap_le; omega)]
      refine .bind (local_nvmeRead hi rdata hone hlen ho hl.full.le) ?_
      rintro r _ ⟨rfl, hret, hdata⟩
      have hrest := ih (wptr + 1) 0 r.2 (by omega)
      simp only [ite_self] at hrest
      rw [if_neg (not_not.mpr hret), if_pos, hret]
      · exact hrest
      · rw [matchPatternWithStart_iff]
        intro j hj
        have hj' : j < 2 ^ ds := by omega
        have hpattern := hl.pattern wptr ho ⟨j, hj'⟩
          (hj.trans_eq (by rw [hsize]))
        have hbyte := hdata 0 Nat.one_pos ⟨j, hj'⟩
        rw [Nat.zero_mul, Nat.zero_add] at hbyte
        exact hbyte.trans hpattern

/-- What a thread returns, and leaves in its zone. -/
def Returns (d : Drive (Block ds)) (x : ℤ) (r : Option ℤ) (l : List (Block ds)) : Prop :=
  r = some (-1) ∨ r = some 0 ∧ Checked d x l

lemma local_zoneRounds (rounds : ℕ) : ∀ (ret : ℤ) (wdata rdata : Bytes) (l : List (Block ds)),
    Returns d x (some ret) l →
    Local (d := d) (some i) (Returns d x)
      (zoneRounds d.zoneCap d.lbaSize (i * d.zoneSize) x rounds ret wdata rdata) l := by
  have hcap : d.zoneCap ≠ 0 := d.cap_pos.ne'
  induction rounds with
  | zero => exact fun ret wdata rdata l hl => .pure hl
  | succ rounds ih =>
      intro ret wdata rdata l hl
      rw [zoneRounds]
      refine .bind (R := fun _ l' => l' = l) (.perform trivial fun s hs hv => ⟨hs, hv⟩) ?_
      rintro stop _ rfl
      refine .ite (fun _ => .pure hl) fun _ => ?_
      refine .bind (local_reset hi) ?_
      rintro ret _ ⟨rfl, rfl⟩
      rw [if_neg (not_not.mpr rfl)]
      refine .bind (local_writeZone hds hlba hfit hi d.zoneCap 0 0 wdata [] rfl (Nat.zero_add _)
        patterned_nil) ?_
      rintro _ l ⟨⟨wdata, rfl⟩, hchecked⟩
      refine .bind (local_readZone hds hlba hfit hi hchecked d.zoneCap 0 _ rdata
        (Nat.zero_add _)) ?_
      rintro _ _ ⟨⟨rdata, rfl⟩, rfl⟩
      dsimp only
      rw [if_neg hcap]
      exact ih 0 wdata rdata _ (Or.inr ⟨rfl, hchecked⟩)

end Round

/-! ## All threads -/

lemma local_test3ThreadedParallel (timeOut : ℤ) (l : List (Block ds)) :
    Local (d := d) (none : Option (Fin n)) (fun r _ => r = some 0) (test3ThreadedParallel timeOut)
      l := by
  have hwait : ∀ (k : ℕ) (l : List (Block ds)),
      Local (d := d) (none : Option (Fin n)) (fun _ _ => True) (waitForErrors k) l := by
    intro k
    induction k with
    | zero => exact fun l => .pure trivial
    | succ k ih =>
        intro l
        refine .bind (R := fun _ _ => True) (.perform trivial fun s hs _ => ⟨hs, trivial⟩) ?_
        exact fun e l _ => .ite (fun _ => ih l) fun _ => .pure trivial
  refine .bind (hwait _ l) fun _ l _ => ?_
  refine .bind (R := fun _ _ => True) (.perform trivial fun s hs _ => ⟨hs, trivial⟩) fun _ l _ => ?_
  refine .bind (R := fun e _ => e = 0) (.perform trivial fun s hs _ => ⟨hs, hs⟩) ?_
  rintro e l rfl
  exact .pure rfl

/-- What each thread returns. -/
def Outcome (d : Drive (Block ds)) (tid : Fin n → ℤ) :
    Option (Fin n) → Option ℤ → List (Block ds) → Prop
  | none, r, _ => r = some 0
  | some i, r, l => Returns d (tid i) r l

/-- **No interleaving goes wrong.**  With a zone for each thread no error is ever counted and no
assertion fails, and the test returns zero.  A thread that has done a round leaves its zone full, each
block with the pattern as far as that reaches: bytes `k < lba_size - (tid + o)` of block `o`, none of
them when `tid + o` is the block size or more. -/
theorem threads_agree (hds : d.ds = ds) (hlba : d.lbaSize < 4294967296)
    (hfit : d.nrZones * d.zoneSize < 18446744073709551616) (hn : n ≤ d.nrZones) (tid : Fin n → ℤ)
    (rounds : Fin n → ℕ) (timeOut : ℤ) {s : Machine d} (hs : s.errors = 0)
    (order : List (Option (Fin n))) :
    let c : Pool (TestOp ds) TestOp.Res (Option (Fin n)) (Machine d) (Option ℤ) :=
      Pool.interleave testExec ⟨threads d.zoneCap d.lbaSize (fun i => i * d.zoneSize) tid
        (fun _ => true) rounds timeOut, s⟩ order
    c.shared.errors = 0 ∧ (∀ r, c.program none = .pure r → r = some 0) ∧
      ∀ i r, c.program (some i) = .pure r →
        r = some (-1) ∨ r = some 0 ∧ Checked d (tid i) (c.shared.world.media.zone i) := by
  have hstart : Pool.Outlined testExec ownZone NoErrors (Own d) (Outcome d tid)
      (⟨threads d.zoneCap d.lbaSize (fun i : Fin n => i * d.zoneSize) tid (fun _ => true) rounds
        timeOut, s⟩ : Pool (TestOp ds) TestOp.Res (Option (Fin n)) (Machine d) (Option ℤ)) := by
    refine ⟨hs, fun i => ?_⟩
    cases i with
    | none => exact local_test3ThreadedParallel timeOut _
    | some i =>
        exact local_zoneRounds hds hlba hfit (i.isLt.trans_le hn) (rounds i) (-1) _ _ _ (Or.inl rfl)
  have hall := hstart.interleave ownZone_other order
  exact ⟨hall.shared, fun r hr => hall.ended hr, fun i r hr => hall.ended hr⟩

/-- A drive with zones of five blocks of 16 bytes. -/
def tinyDrive : Drive (Block 4) where
  ds := 4
  nrZones := 3
  zoneSize := 8
  zoneCap := 5
  readAcross := false
  fill := fun _ => 0
  cap_pos := Nat.succ_pos 4
  cap_le := Nat.le_add_right 5 3

/-- Two threads and the one that stops them, in turn: each of them does its round, and its pattern
reaches at least eight bytes into every block. -/
theorem threads_agree_two :
    let c : Pool (TestOp 4) TestOp.Res (Option (Fin 2)) (Machine tinyDrive) (Option ℤ) :=
      Pool.interleave testExec ⟨threads tinyDrive.zoneCap tinyDrive.lbaSize
        (fun i => i * tinyDrive.zoneSize) (fun i => 3 + i) (fun _ => true) (fun _ => 5) 1,
        ⟨⟨Ftl.fresh, .empty tinyDrive⟩, false, 0⟩⟩ (List.replicate 13 [some 0, some 1, none]).flatten
    c.shared.errors = 0 ∧ c.program none = .pure (some 0) ∧
      ∀ i, c.program (some i) = .pure (some 0) ∧
        Checked tinyDrive (3 + i) (c.shared.world.media.zone i) := by
  intro c
  have hend : ∀ i, c.program i = .pure (some 0) := by
    intro i
    match i with
    | none => rfl
    | some 0 => rfl
    | some 1 => rfl
  have h := threads_agree (d := tinyDrive) rfl (by decide) (by decide) (by decide)
    (fun i : Fin 2 => 3 + i) (fun _ => 5) 1 (s := ⟨⟨Ftl.fresh, .empty tinyDrive⟩, false, 0⟩) rfl
    (List.replicate 13 [some 0, some 1, none]).flatten
  refine ⟨h.1, hend none, fun i => ⟨hend (some i), ?_⟩⟩
  exact ((h.2.2 i _ (hend (some i))).resolve_left (by simp)).2

/-! ## The end of the test -/

section Ends

variable {σ : Type} {h : Handler (TestOp ds) TestOp.Res σ} {flag : σ → Prop} {lba zslba : ℕ}

/-- An error is counted, and that is all. -/
lemma prompt_failed {α : Type} (a : α) :
    Prompt h flag 1 (fetchAdd >>= fun _ => Pure.pure a : Prog ds α) :=
  (Prompt.perform _).seq (m := 0) fun _ => .pure a

lemma prompt_writeZone (k : ℕ) : ∀ (wptr : ℕ) (ret : ℤ) (wdata : Bytes),
    Prompt h flag (k + 1) (writeZone lba zslba x k wptr ret wdata : Prog ds _) := by
  induction k with
  | zero => exact fun wptr ret wdata => .pure _
  | succ k ih =>
      intro wptr ret wdata
      have hle : 1 ≤ k + 1 := Nat.succ_le_succ (Nat.zero_le k)
      rw [writeZone, Nat.add_comm (k + 1)]
      refine .ite ((Prompt.perform _).seq fun r => ?_) ((Prompt.perform _).seq fun r => ?_)
      · exact .ite ((prompt_failed _).mono hle) (ih _ _ _)
      · exact .ite ((prompt_failed _).mono hle) (.ite ((prompt_failed _).mono hle) (ih _ _ _))

lemma prompt_nvmeRead (slba : ℕ) (nlb dataLen : ℤ) (buf : Bytes) :
    Prompt h flag 1 (nvmeRead slba nlb dataLen buf : Prog ds _) :=
  (Prompt.perform _).seq (m := 0) fun _ => .pure _

lemma prompt_readZone (k : ℕ) : ∀ (wptr : ℕ) (ret : ℤ) (rdata : Bytes),
    Prompt h flag (k + 1) (readZone lba zslba x k wptr ret rdata : Prog ds _) := by
  induction k with
  | zero => exact fun wptr ret rdata => .pure _
  | succ k ih =>
      intro wptr ret rdata
      have hle : 1 ≤ k + 1 := Nat.succ_le_succ (Nat.zero_le k)
      rw [readZone, Nat.add_comm (k + 1)]
      refine (prompt_nvmeRead _ _ _ _).seq fun r => ?_
      exact .ite ((prompt_failed _).mono hle) (.ite (ih _ _ _) (.pure _))

lemma soon_orDone {p : Prog ds (Except (Option ℤ) (ℤ × Bytes))}
    {next : ℤ → Bytes → Prog ds (Option ℤ)} {a b c : ℕ} (hp : Prompt h flag a p)
    (hnext : ∀ ret data, EndsIn h flag b (next ret data) ∧ Prompt h flag c (next ret data))
    (hle : a + b ≤ c) :
    EndsIn h flag (a + b) (orDone p next) ∧ Prompt h flag c (orDone p next) := by
  refine hp.chain ?_ hle
  rintro (e | ⟨ret, data⟩)
  · exact ⟨.pure e, .pure e⟩
  · exact hnext ret data

variable (hload : ∀ s, flag s → (h .loadStop s).1 = true)
include hload

/-- At the head of its loop a thread looks at the flag. -/
lemma endsIn_zoneRounds (zcap rounds : ℕ) (ret : ℤ) (wdata rdata : Bytes) :
    EndsIn h flag 1 (zoneRounds zcap lba zslba x rounds ret wdata rdata : Prog ds _) := by
  cases rounds with
  | zero => exact .pure _
  | succ rounds =>
      intro s hs
      change EndsIn h flag 0 (if (h .loadStop s).1 = true then _ else _ : Prog ds (Option ℤ))
      rw [if_pos (hload s hs)]
      exact .pure _

lemma prompt_zoneRounds (zcap rounds : ℕ) : ∀ (ret : ℤ) (wdata rdata : Bytes),
    Prompt h flag (2 * zcap + 4)
      (zoneRounds zcap lba zslba x rounds ret wdata rdata : Prog ds _) := by
  induction rounds with
  | zero => exact fun ret wdata rdata => .pure _
  | succ rounds ih =>
      intro ret wdata rdata
      refine ⟨(endsIn_zoneRounds hload zcap (rounds + 1) ret wdata rdata).mono (by omega),
        fun stop : Bool => ?_⟩
      change Prompt h flag _ (if stop = true then _ else _ : Prog ds (Option ℤ))
      refine .ite (.pure _) ?_
      -- the rest of the round: a reset, the two loops, and a look at the flag
      refine ((Prompt.perform _).chain (m := 2 * zcap + 3) (fun ret => ?_) (by omega)).2
      split
      · exact ⟨(prompt_failed _).endsIn.mono (by omega), (prompt_failed _).mono (by omega)⟩
      · have hread : ∀ (ret : ℤ) (wdata : Bytes), EndsIn h flag (zcap + 1 + 1)
              (orDone (readZone lba zslba x zcap 0 ret rdata) fun ret rdata =>
                zoneRounds zcap lba zslba x rounds ret wdata rdata) ∧
            Prompt h flag (2 * zcap + 4)
              (orDone (readZone lba zslba x zcap 0 ret rdata) fun ret rdata =>
                zoneRounds zcap lba zslba x rounds ret wdata rdata) :=
          fun ret wdata => soon_orDone (prompt_readZone zcap 0 ret rdata)
            (fun ret rdata => ⟨endsIn_zoneRounds hload zcap rounds ret wdata rdata,
              ih ret wdata rdata⟩) (by omega)
        have hwrite : Prompt h flag (zcap + 1) (writeZone lba zslba x zcap 0 ret wdata) :=
          prompt_writeZone zcap 0 ret wdata
        obtain ⟨hends, hprompt⟩ := soon_orDone hwrite hread (by omega)
        exact ⟨hends.mono (by omega), hprompt⟩

/-- **The threads stop.**  From the moment on that the flag is up a thread takes at most one more
round, whatever the drive answers and the others do. -/
theorem threads_stop (hkeep : ∀ o s, flag s → flag (h o s).2) {zcap : ℕ} {start : Fin n → ℕ}
    {tid : Fin n → ℤ} {allocated : Fin n → Bool} {rounds : Fin n → ℕ} {timeOut : ℤ} {s : σ}
    {order order' : List (Option (Fin n))} {i : Fin n} :
    let c : Pool (TestOp ds) TestOp.Res (Option (Fin n)) σ (Option ℤ) :=
      ⟨threads zcap lba start tid allocated rounds timeOut, s⟩
    flag (c.interleave h order).shared → 2 * zcap + 4 ≤ Pool.turns (some i) order' →
      ∃ r, (c.interleave h (order ++ order')).program (some i) = .pure r := by
  intro c hup hcount
  refine Pool.ended_of_prompt hkeep ?_ hup hcount
  change Prompt h flag (2 * zcap + 4) (test3ZoneXFullIoTest zcap lba (start i) (tid i) (allocated i)
    (rounds i))
  rw [test3ZoneXFullIoTest]
  refine .ite (prompt_zoneRounds hload zcap _ _ _ _) ?_
  exact (prompt_failed _).mono (by omega)

end Ends

/-- The flag goes up when thread `0` has reset its zone. -/
theorem threads_stop_two :
    let c : Pool (TestOp 4) TestOp.Res (Option (Fin 2)) (Machine tinyDrive) (Option ℤ) :=
      ⟨threads 5 16 (fun i => i * 8) (fun i => 1000 + i) (fun _ => true) (fun _ => 3) 0,
        ⟨⟨Ftl.fresh, .empty tinyDrive⟩, false, 0⟩⟩
    ∃ r, (c.interleave testExec ([some 0, some 0, none] ++ List.replicate 14 (some 0))).program
      (some 0) = .pure r :=
  threads_stop (h := testExec) (fun _ hs => hs) (fun o s hs => by cases o <;> trivial) rfl
    (by decide)

end StoSys.M1
