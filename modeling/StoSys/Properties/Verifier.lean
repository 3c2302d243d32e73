import StoSys.M3.FullDevice

/-!
# What the full-device test can tell

Every way through `wr_full_device_verify` after the file has its size ends at the label `done`,
where the variable with the verdict is assigned the return code of `remove`.  So the test passes
whenever the file can be deleted, whatever the device does, and its answer means something only
where it cannot pass at all (`sound_iff`).

The verdict that reaches the label is right (`passes_sound`).
-/

namespace StoSys.M3

open Effect CInt

variable {δ : Type} {host : Host} {device : Device δ} {dev : UserDevice} {fuel : ℕ}
  {addrList : List ℕ} {maxHammerIo : ℕ}

/-- Every write has succeeded. -/
def Clean (s : TestState δ) : Prop := ∀ r ∈ s.written, r = 0

/-- Every block that was read back is what the file holds there. -/
def Checked (dev : UserDevice) (s : TestState δ) : Prop :=
  ∀ b ∈ s.readBack, ∀ j < dev.lbaSizeBytes, b.2 j = s.file (b.1 + j)

/-- **The test is sound**: whatever the device does, it returns zero only if every write to the
device succeeded and every block read back is the file's. -/
def Sound (host : Host) (dev : UserDevice) (addrList : List ℕ) (maxHammerIo : ℕ) : Prop :=
  ∀ (δ : Type) (device : Device δ) (fuel : ℕ) (file : Bytes) (x : δ),
    let outcome := (wrFullDeviceVerify dev fuel addrList maxHammerIo).run (testEnv host device)
      { file := file, device := x }
    outcome.1 = some 0 → Clean outcome.2 ∧ Checked dev outcome.2

/-! ## The verdict at the label -/

section Verdict

/-- Only successful writes so far, and nothing read back. -/
def Writing (s : TestState δ) : Prop := Clean s ∧ s.readBack = []

/-- Transfers to the file leave the record alone. -/
lemma fileIoLoop_write (offset : ℕ) (sz : ℤ) : ∀ (fuel writtenSoFar : ℕ) (buf : Bytes),
    Program.Triple (testEnv host device) Writing
      (fileIoLoop offset sz false fuel writtenSoFar buf) fun _ => Writing
  | 0, _, _ => .pure fun _ => id
  | fuel + 1, writtenSoFar, buf => by
      rw [fileIoLoop, if_neg Bool.false_ne_true]
      refine .ite (fun _ => ?_) fun _ => .pure fun _ => id
      refine .bind (R := fun _ => Writing) (fun s hs => ?_) fun ret => ?_
      · rw [pwrite, Program.run_perform]
        dsimp only [testEnv]
        split <;> exact hs
      · exact .ite (fun _ => .pure fun _ => id) fun _ => fileIoLoop_write offset sz fuel _ _

/-- The state while block after block is read back from the file. -/
def Reading (written : List ℤ) (readBack : List (ℕ × Bytes)) (file : Bytes) (s : TestState δ) :
    Prop :=
  s.written = written ∧ s.readBack = readBack ∧ s.file = file

/-- The bytes read so far are the file's. -/
lemma fileIoLoop_read (host : Host) (device : Device δ) (offset : ℕ) {sz : ℤ}
    (hsz : offset + sz ≤ 18446744073709551616) (hsz' : sz < 18446744073709551616)
    {written : List ℤ} {readBack : List (ℕ × Bytes)} {file : Bytes} :
    ∀ (fuel writtenSoFar : ℕ) (buf : Bytes), writtenSoFar ≤ sz →
    (∀ j < writtenSoFar, buf j = file (offset + j)) →
    Program.Triple (testEnv host device) (Reading written readBack file)
      (fileIoLoop offset sz true fuel writtenSoFar buf)
      fun r s => Reading written readBack file s ∧
        ∀ b, r = some (0, b) → ∀ j : ℕ, j < sz → b j = file (offset + j)
  | 0, _, _, _, _ => .pure fun _ hs => ⟨hs, fun _ h => by cases h⟩
  | fuel + 1, w, buf, hw, hbuf => by
      rw [fileIoLoop, if_pos rfl]
      refine .ite (fun hlt => ?_) fun hge => .pure fun s hs => ⟨hs, fun b hb j hj => ?_⟩
      · have hcount : toU64 (sz - w) = (sz - w).toNat := by
          unfold toU64
          omega
        have hoffset : toU64 ((offset + w : ℕ) : ℤ) = offset + w := toU64_of_lt (by omega)
        rw [hcount, hoffset]
        refine .bind (R := fun r s => Reading written readBack file s ∧
            (r.1 < 0 ∨ r.1 ≤ sz - w ∧ ∀ j, r.2 j = file (offset + w + j))) (fun s hs => ?_)
          fun r => ?_
        · rw [pread, Program.run_perform]
          dsimp only [testEnv]
          split
          · exact ⟨hs, Or.inl ‹_›⟩
          · refine ⟨hs, Or.inr ⟨?_, fun j => by rw [hs.2.2]⟩⟩
            dsimp only
            omega
        · refine .ite (fun hneg => .pure fun s hs => ⟨hs.1, fun b hb => ?_⟩) fun hpos s hs => ?_
          · have := (Prod.mk.inj (Option.some.inj hb)).1
            omega
          · obtain ⟨hrec, hr⟩ := hs
            obtain ⟨hle, hbytes⟩ := hr.resolve_left hpos
            refine fileIoLoop_read host device offset hsz hsz' fuel (w + r.1.toNat)
              (buf.put w r.1.toNat r.2) (by omega) (fun j hj => ?_) s hrec
            rw [Bytes.put]
            split
            · rw [hbytes, show offset + w + (j - w) = offset + j by omega]
            · exact hbuf j (by omega)
      · obtain ⟨-, rfl⟩ := Prod.mk.inj (Option.some.inj hb)
        exact hbuf j (by omega)

/-- The verdict is not yet good when a writing pass ends early. -/
def Wrote (r : Except Exit Bytes) (s : TestState δ) : Prop :=
  match r with
  | .ok _ => Writing s
  | .error e => e ≠ .done 0

lemma writeBoth_wrote (woffset : ℕ) (b1 : Bytes) :
    Program.Triple (testEnv host device) Writing (writeBoth dev fuel woffset b1) Wrote := by
  refine .bind (R := fun _ => Writing) (fun s hs => hs) fun position => ?_
  refine .bind (R := fun _ => Writing) (fun s hs => hs) fun byte => ?_
  refine .bind (R := fun ret s => ret = 0 → Writing s) (fun s hs hret => ?_) fun ret => ?_
  · refine ⟨fun r hr => ?_, hs.2⟩
    rcases List.mem_append.mp hr with hr | hr
    · exact hs.1 r hr
    · exact (List.mem_singleton.mp hr).trans hret
  · refine .ite (fun hret => .pure fun _ _ h => hret (Exit.done.inj h)) fun hret s hs => ?_
    refine Program.Triple.bind (R := fun _ => Writing) (fileIoLoop_write _ _ fuel 0 _)
      (fun r => ?_) s (hs (not_not.mp hret))
    match r with
    | none => exact .pure fun _ _ h => by cases h
    | some (ret', _) =>
        exact .ite (fun hret' => .pure fun _ _ h => hret' (Exit.done.inj h)) fun _ => .pure fun _ => id

lemma writeLoop_wrote : ∀ (l : List ℕ) (b1 : Bytes),
    Program.Triple (testEnv host device) Writing (writeLoop dev fuel l b1) Wrote
  | [], _ => .pure fun _ => id
  | a :: rest, b1 => by
      refine .bind (writeBoth_wrote _ b1) fun r => ?_
      match r with
      | .error e => exact .pure fun _ => id
      | .ok b1 => exact writeLoop_wrote rest b1

lemma hammerLoop_wrote (l : List ℕ) : ∀ (n : ℕ) (b1 : Bytes),
    Program.Triple (testEnv host device) Writing (hammerLoop dev fuel l n b1) Wrote
  | 0, _ => .pure fun _ => id
  | n + 1, b1 => by
      refine .bind (R := fun _ => Writing) (fun s hs => hs) fun r => ?_
      refine .ite (fun _ => .pure fun _ _ h => by cases h) fun _ => ?_
      refine .bind (writeBoth_wrote _ b1) fun r => ?_
      match r with
      | .error e => exact .pure fun _ => id
      | .ok b1 => exact hammerLoop_wrote l n b1

/-- All that was read back before this block is what the file holds. -/
def AllButLast (dev : UserDevice) (last : ℕ × Bytes) (s : TestState δ) : Prop :=
  ∃ earlier, s.readBack = earlier ++ [last] ∧
    ∀ b ∈ earlier, ∀ j < dev.lbaSizeBytes, b.2 j = s.file (b.1 + j)

/-- The final pass writes nothing, and goes on only while the blocks are equal. -/
lemma verifyLoop_sound (hlba : dev.lbaSizeBytes < 2147483648) : ∀ (l : List ℕ) (b1 b2 : Bytes),
    (∀ a ∈ l, (a + 1) * dev.lbaSizeBytes ≤ 18446744073709551616) →
    Program.Triple (testEnv host device) (fun s => Clean s ∧ Checked dev s)
      (verifyLoop dev fuel l b1 b2) fun e s => e = .done 0 → Clean s ∧ Checked dev s
  | [], _, _, _ => .pure fun _ hs _ => hs
  | a :: rest, b1, b2, hl => by
      have hfit := hl a (List.mem_cons_self ..)
      have hpos := dev.lba_pos
      rw [Nat.add_mul, Nat.one_mul] at hfit
      have hroffset : toU64 ((a * dev.lbaSizeBytes : ℕ) : ℤ) = a * dev.lbaSizeBytes :=
        toU64_of_lt (by omega)
      have hsz : toI32 (dev.lbaSizeBytes : ℤ) = dev.lbaSizeBytes := toI32_of_lt hlba
      rw [verifyLoop, hroffset]
      refine .bind (R := fun r s => Clean s ∧ AllButLast dev (a * dev.lbaSizeBytes, r.2) s)
        (fun s hs => ⟨hs.1, s.readBack, rfl, hs.2⟩) fun r => ?_
      refine .ite (fun _ => .pure fun _ _ h => by cases h) fun _ => ?_
      refine .bind (R := fun r' s => (Clean s ∧ AllButLast dev (a * dev.lbaSizeBytes, r.2) s) ∧
        ∀ b, r' = some (0, b) → ∀ j < dev.lbaSizeBytes, b j = s.file (a * dev.lbaSizeBytes + j))
        (fun s hs => ?_) fun r' => ?_
      · rw [completeFileIo, hsz]
        obtain ⟨⟨hwritten, hread, hfile⟩, hbytes⟩ := fileIoLoop_read host device
          (a * dev.lbaSizeBytes) (show _ + (dev.lbaSizeBytes : ℤ) ≤ 18446744073709551616 by omega)
          (by omega) fuel 0 b2 (by omega) (fun j hj => absurd hj (Nat.not_lt_zero j)) s
          ⟨rfl, rfl, rfl⟩
        refine ⟨⟨?_, ?_⟩, fun b hb j hj => ?_⟩
        · rw [Clean, hwritten]
          exact hs.1
        · rw [AllButLast, hread, hfile]
          exact hs.2
        · rw [hfile]
          exact hbytes b hb j (by omega)
      · match r' with
        | none => exact .pure fun _ _ h => by cases h
        | some (ret, b2) =>
            refine .ite (fun _ => .pure fun _ _ h => by cases h) fun hret => ?_
            refine .ite (fun heq s hs => ?_) fun _ => .pure fun _ _ h => by cases h
            obtain ⟨⟨hclean, earlier, hlast, hearlier⟩, hfile⟩ := hs
            refine verifyLoop_sound hlba rest r.2 b2
              (fun a' ha' => hl a' (List.mem_cons_of_mem _ ha')) s ⟨hclean, fun b hb j hj => ?_⟩
            rw [hlast] at hb
            rcases List.mem_append.mp hb with hb | hb
            · exact hearlier b hb j hj
            · rw [List.mem_singleton.mp hb, heq j hj]
              exact hfile b2 (by rw [not_not.mp hret]) j hj

/-- **The verdict that reaches the label is right**: zero there means that every write succeeded and
every block read back is the file's. -/
theorem passes_sound (hlba : dev.lbaSizeBytes < 2147483648)
    (haddr : ∀ a ∈ addrList, (a + 1) * dev.lbaSizeBytes ≤ 18446744073709551616) :
    Program.Triple (testEnv host device) Writing (passes dev fuel addrList maxHammerIo)
      fun e s => e = .done 0 → Clean s ∧ Checked dev s := by
  rw [passes]
  refine .bind (writeLoop_wrote addrList _) fun r => ?_
  match r with
  | .error e => exact .pure fun _ hs h => absurd h hs
  | .ok b1 =>
      refine .bind (R := Wrote) ?_ fun r => ?_
      · exact .ite (fun _ => hammerLoop_wrote addrList _ b1) fun _ => .pure fun _ => id
      · match r with
        | .error e => exact .pure fun _ hs h => absurd h hs
        | .ok b1 =>
            refine fun s hs => verifyLoop_sound hlba addrList _ _ haddr s ⟨hs.1, fun b hb => ?_⟩
            rw [hs.2] at hb
            cases hb

end Verdict

/-! ## The label -/

/-- Once the file is there: the answer is that of `remove`, unless the process ends before. -/
lemma run_verify (hopen : 0 ≤ host.openRet) (hsize : host.fallocateRet = 0) (s : TestState δ) :
    let outcome := (passes dev fuel addrList maxHammerIo).run (testEnv host device) s
    (wrFullDeviceVerify dev fuel addrList maxHammerIo).run (testEnv host device) s
      = (match outcome.1 with
        | .aborted => none
        | .done _ => some host.removeRet, outcome.2) := by
  intro outcome
  rw [wrFullDeviceVerify, Program.run_bind]
  change (if host.openRet < 0 then _ else _ : Prog (Option ℤ)).run (testEnv host device) s = _
  rw [if_neg (Int.not_lt.mpr hopen), Program.run_bind]
  change (if host.fallocateRet ≠ 0 then _ else _ : Prog (Option ℤ)).run (testEnv host device) s = _
  rw [if_neg (not_not.mpr hsize), Program.run_bind]
  change Program.run _ (match outcome.1 with
    | .aborted => _
    | .done _ => _) outcome.2 = _
  cases outcome.1 <;> rfl

/-- Without the file the test gives up at once. -/
lemma run_verify_none (h : host.openRet < 0 ∨ host.fallocateRet ≠ 0) (s : TestState δ) :
    (wrFullDeviceVerify dev fuel addrList maxHammerIo).run (testEnv host device) s
      = (some (-1), s) := by
  rw [wrFullDeviceVerify, Program.run_bind]
  change (if host.openRet < 0 then _ else _ : Prog (Option ℤ)).run (testEnv host device) s = _
  by_cases hopen : host.openRet < 0
  · rw [if_pos hopen]
    rfl
  · rw [if_neg hopen, Program.run_bind]
    change (if host.fallocateRet ≠ 0 then _ else _ : Prog (Option ℤ)).run
      (testEnv host device) s = _
    rw [if_pos (h.resolve_left hopen)]
    rfl

/-- A device that refuses every write. -/
def broken : Device Unit where
  write _ _ _ x := (-1, x)
  read _ buf _ x := ((0, buf), x)

/-- With no block to write the device is not used. -/
lemma run_passes_nil (dev : UserDevice) (fuel : ℕ) (host : Host) (device : Device δ) (n : ℕ)
    (file : Bytes) (x : δ) :
    let outcome := (passes dev fuel [] n).run (testEnv host device) { file := file, device := x }
    outcome.2.written = [] ∧ outcome.2.readBack = [] := by
  intro outcome
  cases n with
  | zero => exact ⟨rfl, rfl⟩
  | succ n => exact ⟨rfl, rfl⟩

/-- The first refused write ends the passes, and the test passes. -/
lemma run_verify_broken (hopen : 0 ≤ host.openRet) (hsize : host.fallocateRet = 0)
    (hremove : host.removeRet = 0) (dev : UserDevice) (fuel a : ℕ) (rest : List ℕ) (n : ℕ)
    (file : Bytes) :
    let outcome := (wrFullDeviceVerify dev fuel (a :: rest) n).run (testEnv host broken)
      { file := file, device := () }
    outcome.1 = some 0 ∧ outcome.2.written = [-1] := by
  intro outcome
  have hend : outcome = _ := run_verify hopen hsize _
  rw [hend]
  exact ⟨congrArg some hremove, rfl⟩

/-- **When the test is sound**: for every list of addresses, number of random writes and host. -/
theorem sound_iff : Sound host dev addrList maxHammerIo ↔
    addrList = [] ∨ host.openRet < 0 ∨ host.fallocateRet ≠ 0 ∨ host.removeRet ≠ 0 := by
  by_cases hgone : host.openRet < 0 ∨ host.fallocateRet ≠ 0
  · refine iff_of_true (fun δ device fuel file x h => ?_)
      (Or.inr (hgone.elim Or.inl fun h => Or.inr (Or.inl h)))
    rw [run_verify_none hgone] at h
    cases h
  obtain ⟨hopen, hsize⟩ := not_or.mp hgone
  replace hopen := Int.not_lt.mp hopen
  replace hsize := not_not.mp hsize
  by_cases hremove : host.removeRet = 0
  · cases addrList with
    | nil =>
        refine iff_of_true (fun δ device fuel file x h => ?_) (Or.inl rfl)
        obtain ⟨hwritten, hread⟩ := run_passes_nil dev fuel host device maxHammerIo file x
        rw [run_verify hopen hsize]
        refine ⟨fun r hr => ?_, fun b hb => ?_⟩
        · rw [hwritten] at hr
          cases hr
        · rw [hread] at hb
          cases hb
    | cons a rest =>
        refine iff_of_false (fun h => ?_) ?_
        · obtain ⟨hzero, hwritten⟩ := run_verify_broken hopen hsize hremove dev 0 a rest
            maxHammerIo fun _ => 0
          have hret := (h Unit broken 0 (fun _ => 0) () hzero).1 (-1)
            (hwritten ▸ List.mem_singleton.mpr rfl)
          exact absurd hret (by decide)
        · rintro (h | h | h | h)
          · cases h
          · exact absurd hopen (Int.not_le.mpr h)
          · exact h hsize
          · exact h hremove
  · refine iff_of_true (fun δ device fuel file x h => ?_) (Or.inr (Or.inr (Or.inr hremove)))
    rw [run_verify hopen hsize] at h
    dsimp only at h
    split at h
    · cases h
    · exact absurd (Option.some.inj h) hremove

/-- A host on which everything works. -/
def workingHost : Host where
  openRet := 3
  fallocateRet := 0
  removeRet := 0
  rand _ := 0
  transfer _ := 4096

/-- A device of two blocks. -/
def twoBlocks : UserDevice := ⟨4096, 8192, by decide, by decide⟩

/-- The device refuses the first write, and the test returns zero. -/
theorem refused_write_passes :
    let outcome := (wrFullDeviceVerify twoBlocks 1 [0, 1] 0).run (testEnv workingHost broken)
      { file := fun _ => 0, device := () }
    outcome.1 = some 0 ∧ outcome.2.written = [-1] ∧ ¬ Sound workingHost twoBlocks [0, 1] 0 := by
  intro outcome
  obtain ⟨hzero, hwritten⟩ : outcome.1 = some 0 ∧ outcome.2.written = [-1] :=
    run_verify_broken (by decide) rfl rfl twoBlocks 1 0 [1] 0 fun _ => 0
  refine ⟨hzero, hwritten, fun h => ?_⟩
  have hret := (h Unit broken 1 (fun _ => 0) () hzero).1 (-1)
    (hwritten ▸ List.mem_singleton.mpr rfl)
  exact absurd hret (by decide)

end StoSys.M3
