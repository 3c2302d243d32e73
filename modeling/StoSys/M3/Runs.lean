import StoSys.M3.Ideal

/-!
# `wr_full_device_verify` on a device that stores

The machine may move the bytes of the side file in pieces of any size, as long as there is
progress.  Then device and file hold the same in every block written so far (`Matches`): each
writing step keeps that, for the block it writes and for the others, and the final pass finds no
difference.
-/

namespace StoSys.M3

open Effect CInt

variable {δ : Type} {host : Host} {device : Device δ} {dev : UserDevice} {fuel : ℕ}
  {addrList : List ℕ}

/-- **A machine on which the test works**: every transfer moves something, a block is transferred
within the bound on calls, and sizes and positions fit their types. -/
structure Works (host : Host) (dev : UserDevice) (fuel : ℕ) : Prop where
  transfer : ∀ i, 0 < host.transfer i
  fuel : dev.lbaSizeBytes < fuel
  lba : dev.lbaSizeBytes < 2147483648
  capacity : dev.capacityBytes < 18446744073709551616

/-- Block `a` is inside the device. -/
def Inside (dev : UserDevice) (a : ℕ) : Prop :=
  a * dev.lbaSizeBytes + dev.lbaSizeBytes ≤ dev.capacityBytes

lemma Inside.oneBlock {a : ℕ} (h : Inside dev a) :
    OneBlock dev (a * dev.lbaSizeBytes) dev.lbaSizeBytes :=
  ⟨Nat.dvd_mul_left _ _, rfl, h⟩

/-! ## The side file -/

/-- The device and the file, as they are between two steps. -/
def Both (x : δ) (file : Bytes) (s : TestState δ) : Prop :=
  s.device = x ∧ s.file = file

/-- Two pieces of one write. -/
lemma Bytes.put_put (file buf : Bytes) (offset w n m : ℕ) :
    (file.put (offset + w) n fun j => buf (w + j)).put (offset + (w + n)) m
        (fun j => buf (w + n + j))
      = file.put (offset + w) (n + m) fun j => buf (w + j) := by
  funext i
  simp only [Bytes.put]
  by_cases h : offset + (w + n) ≤ i ∧ i < offset + (w + n) + m
  · rw [if_pos h, if_pos (by omega)]
    exact congrArg buf (by omega)
  · rw [if_neg h]
    exact if_congr (by omega) rfl rfl

lemma Bytes.put_zero (file data : Bytes) (start : ℕ) : file.put start 0 data = file := by
  funext i
  exact if_neg (by omega)

variable (hw : Works host dev fuel)
include hw

/-- Writing the side file to the end. -/
lemma fileIoLoop_writes {offset sz : ℕ} (hoffset : offset + sz < 18446744073709551616)
    (x : δ) : ∀ (n w : ℕ) (buf file : Bytes), w ≤ sz → sz - w < n →
    Program.Delivers (testEnv host device) Accepted (Both x file)
      (fileIoLoop offset sz false n w buf)
      fun r s => r = some (0, buf) ∧
        Both x (file.put (offset + w) (sz - w) fun j => buf (w + j)) s
  | 0, w, _, _, _, hn => absurd hn (Nat.not_lt_zero _)
  | n + 1, w, buf, file, hle, hn => by
      rw [fileIoLoop, if_neg Bool.false_ne_true]
      refine .ite (fun hlt => ?_) fun hge => .pure fun s hs => ⟨rfl, ?_⟩
      · have hlt' : w < sz := by omega
        have hcount : toU64 ((sz : ℤ) - w) = sz - w := by
          unfold toU64
          omega
        have hpos : toU64 ((offset + w : ℕ) : ℤ) = offset + w := toU64_of_lt (by omega)
        rw [hcount, hpos]
        refine .bind (R := fun ret s => ∃ m : ℕ, ret = (m : ℤ) ∧ 0 < m ∧ m ≤ sz - w ∧
          Both x (file.put (offset + w) m fun j => buf (w + j)) s) ?_ fun ret => ?_
        · refine .perform fun s hs => ⟨trivial, ?_⟩
          have htransfer := hw.transfer s.transfers
          dsimp only [testEnv]
          rw [if_neg (by omega)]
          exact ⟨_, rfl, by omega, Nat.min_le_right _ _, hs.1, by rw [hs.2]⟩
        · refine .given (φ := 0 < ret ∧ ret.toNat ≤ sz - w) ?_ fun hret => ?_
          · rintro s ⟨m, rfl, hm, hle', -⟩
            omega
          · rw [if_neg (by omega)]
            have ih := fileIoLoop_writes hoffset x n (w + ret.toNat) buf
              (file.put (offset + w) ret.toNat fun j => buf (w + j)) (by omega) (by omega)
            refine (ih.pre fun s hs => ?_).post fun r s hr => ⟨hr.1, ?_⟩
            · obtain ⟨m, rfl, -, -, hboth⟩ := hs
              exact hboth
            · have hput := hr.2
              rw [Bytes.put_put, show ret.toNat + (sz - (w + ret.toNat)) = sz - w by omega] at hput
              exact hput
      · rw [show sz - w = 0 by omega, Bytes.put_zero]
        exact hs

/-- Reading the side file to the end. -/
lemma fileIoLoop_reads {offset sz : ℕ} (hoffset : offset + sz < 18446744073709551616)
    {x : δ} {file : Bytes} : ∀ (n w : ℕ) (buf : Bytes), w ≤ sz → sz - w < n →
    (∀ j < w, buf j = file (offset + j)) →
    Program.Delivers (testEnv host device) Accepted (Both x file)
      (fileIoLoop offset sz true n w buf)
      fun r s => Both x file s ∧ ∃ b, r = some (0, b) ∧ ∀ j < sz, b j = file (offset + j)
  | 0, w, _, _, hn, _ => absurd hn (Nat.not_lt_zero _)
  | n + 1, w, buf, hle, hn, hbuf => by
      rw [fileIoLoop, if_pos rfl]
      refine .ite (fun hlt => ?_) fun hge => .pure fun s hs => ⟨hs, buf, rfl, fun j hj => ?_⟩
      · have hcount : toU64 ((sz : ℤ) - w) = sz - w := by
          unfold toU64
          omega
        have hpos : toU64 ((offset + w : ℕ) : ℤ) = offset + w := toU64_of_lt (by omega)
        rw [hcount, hpos]
        refine .bind (R := fun r s => Both x file s ∧ 0 < r.1 ∧ r.1.toNat ≤ sz - w ∧
          ∀ j, r.2 j = file (offset + w + j)) ?_ fun r => ?_
        · refine .perform fun s hs => ⟨trivial, ?_⟩
          have htransfer := hw.transfer s.transfers
          dsimp only [testEnv]
          rw [if_neg (by omega)]
          refine ⟨hs, ?_, ?_, fun j => by rw [hs.2]⟩
          · dsimp only
            omega
          · dsimp only
            omega
        · refine .given (fun s hs => hs.2) fun hr => ?_
          obtain ⟨hmore, hcap, hbytes⟩ := hr
          rw [if_neg (by omega)]
          refine (fileIoLoop_reads hoffset n (w + r.1.toNat) (buf.put w r.1.toNat r.2) (by omega)
            (by omega) fun j hj => ?_).pre fun s hs => hs.1
          rw [Bytes.put]
          split
          · rw [hbytes, show offset + w + (j - w) = offset + j by omega]
          · exact hbuf j (by omega)
      · exact hbuf j (by omega)

/-- The whole transfer of a block, in either direction. -/
lemma completeFileIo_writes (device : Device δ) {a : ℕ} (ha : Inside dev a) (x : δ)
    (file buf : Bytes) :
    Program.Delivers (testEnv host device) Accepted (Both x file)
      (completeFileIo fuel (a * dev.lbaSizeBytes) buf dev.lbaSizeBytes false)
      fun r s => r = some (0, buf) ∧
        Both x (file.put (a * dev.lbaSizeBytes) dev.lbaSizeBytes buf) s := by
  have hcapacity := hw.capacity
  have hinside : a * dev.lbaSizeBytes + dev.lbaSizeBytes ≤ dev.capacityBytes := ha
  rw [completeFileIo, toI32_of_lt hw.lba]
  have hfits : a * dev.lbaSizeBytes + dev.lbaSizeBytes < 18446744073709551616 := by omega
  have hloop : Program.Delivers (testEnv host device) Accepted _ _ _ :=
    fileIoLoop_writes hw hfits x fuel 0 buf file (Nat.zero_le _) (by have := hw.fuel; omega)
  simp only [Nat.add_zero, Nat.sub_zero, Nat.zero_add] at hloop
  exact hloop

lemma completeFileIo_reads (device : Device δ) {a : ℕ} (ha : Inside dev a) (x : δ)
    (file buf : Bytes) :
    Program.Delivers (testEnv host device) Accepted (Both x file)
      (completeFileIo fuel (a * dev.lbaSizeBytes) buf dev.lbaSizeBytes true)
      fun r s => Both x file s ∧ ∃ b, r = some (0, b) ∧
        ∀ j < dev.lbaSizeBytes, b j = file (a * dev.lbaSizeBytes + j) := by
  have hcapacity := hw.capacity
  have hinside : a * dev.lbaSizeBytes + dev.lbaSizeBytes ≤ dev.capacityBytes := ha
  rw [completeFileIo, toI32_of_lt hw.lba]
  exact fileIoLoop_reads hw (by omega) fuel 0 buf (Nat.zero_le _) (by have := hw.fuel; omega)
    fun j hj => absurd hj (Nat.not_lt_zero j)

/-! ## The passes -/

omit hw in
/-- Device and file hold the same in these blocks. -/
def Match (dev : UserDevice) (l : List ℕ) (st : Stored) (file : Bytes) : Prop :=
  ∀ a ∈ l, ∀ j < dev.lbaSizeBytes,
    st (a * dev.lbaSizeBytes + j) = some (file (a * dev.lbaSizeBytes + j))

omit hw in
/-- One block more. -/
lemma Match.put {l : List ℕ} {st : Stored} {file : Bytes} (h : Match dev l st file) (a : ℕ)
    (b : Bytes) : Match dev (a :: l) (st.put (a * dev.lbaSizeBytes) dev.lbaSizeBytes b)
      (file.put (a * dev.lbaSizeBytes) dev.lbaSizeBytes b) := by
  intro x hx j hj
  rw [Stored.put, Bytes.put]
  by_cases hin : a * dev.lbaSizeBytes ≤ x * dev.lbaSizeBytes + j ∧
      x * dev.lbaSizeBytes + j < a * dev.lbaSizeBytes + dev.lbaSizeBytes
  · rw [if_pos hin, if_pos hin]
  · rw [if_neg hin, if_neg hin]
    rcases List.mem_cons.mp hx with rfl | hx
    · exact absurd ⟨by omega, by omega⟩ hin
    · exact h x hx j hj

/-- Device and file hold the same in these blocks, between two steps. -/
def Matches (dev : UserDevice) (l : List ℕ) (s : TestState Stored) : Prop :=
  Match dev l s.device s.file

/-- A step of the writing passes: some buffer goes to both. -/
lemma writeBoth_both {a : ℕ} (ha : Inside dev a) (st : Stored) (file b1 : Bytes) :
    Program.Delivers (testEnv host (ideal dev)) Accepted (Both st file)
      (writeBoth dev fuel (toU64 (a * dev.lbaSizeBytes : ℕ)) b1)
      fun r s => ∃ p c, r = .ok (Function.update b1 p c) ∧
        Both (st.put (a * dev.lbaSizeBytes) dev.lbaSizeBytes (Function.update b1 p c))
          (file.put (a * dev.lbaSizeBytes) dev.lbaSizeBytes (Function.update b1 p c)) s := by
  have hoffset : toU64 ((a * dev.lbaSizeBytes : ℕ) : ℤ) = a * dev.lbaSizeBytes :=
    toU64_of_lt (by have := hw.capacity; unfold Inside at ha; omega)
  rw [hoffset]
  refine .bind (R := fun _ => Both st file) (.perform fun s hs => ⟨trivial, hs⟩) fun position => ?_
  refine .bind (R := fun _ => Both st file) (.perform fun s hs => ⟨trivial, hs⟩) fun byte => ?_
  dsimp only
  generalize ((position : ℤ).tmod (toI32 dev.lbaSizeBytes)).toNat = p
  refine .bind (R := fun ret s => ret = 0 ∧ Both (st.put (a * dev.lbaSizeBytes) dev.lbaSizeBytes
    (Function.update b1 p (UInt8.ofNat byte))) file s) ?_ fun ret => ?_
  · refine udeviceWrite_delivers ha.oneBlock _ ?_
    rintro s ⟨rfl, rfl⟩
    exact ⟨rfl, rfl, rfl⟩
  · refine .given (fun s hs => hs.1) fun hret => ?_
    rw [if_neg (not_not.mpr hret)]
    refine .bind ((completeFileIo_writes hw (ideal dev) ha _ file _).pre fun s hs => hs.2)
      fun r => ?_
    refine .given (fun s hs => hs.1) fun hr => ?_
    subst hr
    dsimp only
    rw [if_neg (not_not.mpr rfl)]
    exact .pure fun s hs => ⟨p, _, rfl, hs.2⟩

/-- **A step of the writing passes.** -/
lemma writeBoth_delivers {a : ℕ} (ha : Inside dev a) (l : List ℕ) (b1 : Bytes) :
    Program.Delivers (testEnv host (ideal dev)) Accepted (Matches dev l)
      (writeBoth dev fuel (toU64 (a * dev.lbaSizeBytes : ℕ)) b1)
      fun r s => (∃ b, r = .ok b) ∧ Matches dev (a :: l) s := by
  intro s hs
  obtain ⟨hserved, p, c, hr, hdevice, hfile⟩ :=
    writeBoth_both hw ha s.device s.file b1 s ⟨rfl, rfl⟩
  refine ⟨hserved, ⟨_, hr⟩, ?_⟩
  rw [Matches, hdevice, hfile]
  exact hs.put a _

/-- The first pass. -/
lemma writeLoop_delivers : ∀ (l done : List ℕ) (b1 : Bytes), (∀ a ∈ l, Inside dev a) →
    Program.Delivers (testEnv host (ideal dev)) Accepted (Matches dev done)
      (writeLoop dev fuel l b1)
      fun r s => (∃ b, r = .ok b) ∧ Matches dev (l.reverse ++ done) s
  | [], _, b1, _ => .pure fun s hs => ⟨⟨b1, rfl⟩, hs⟩
  | a :: rest, done, b1, hl => by
      rw [writeLoop]
      refine .bind (writeBoth_delivers hw (hl a (List.mem_cons_self ..)) done b1) fun r => ?_
      refine .given (fun s hs => hs.1) ?_
      rintro ⟨b, rfl⟩
      have hrest := writeLoop_delivers rest (a :: done) b fun x hx =>
        hl x (List.mem_cons_of_mem _ hx)
      refine (hrest.pre fun s hs => hs.2).post fun r s hr => ⟨hr.1, ?_⟩
      rw [List.reverse_cons, List.append_assoc]
      exact hr.2

omit hw in
lemma Match.mono {l l' : List ℕ} {st : Stored} {file : Bytes} (h : Match dev l st file)
    (hl : ∀ a ∈ l', a ∈ l) : Match dev l' st file :=
  fun a ha => h a (hl a ha)

/-- The second pass, over blocks that have been written. -/
lemma hammerLoop_delivers (hne : addrList ≠ []) (hl : ∀ a ∈ addrList, Inside dev a) :
    ∀ (n : ℕ) (b1 : Bytes),
    Program.Delivers (testEnv host (ideal dev)) Accepted (Matches dev addrList)
      (hammerLoop dev fuel addrList n b1) fun r s => (∃ b, r = .ok b) ∧ Matches dev addrList s
  | 0, b1 => .pure fun s hs => ⟨⟨b1, rfl⟩, hs⟩
  | n + 1, b1 => by
      have hpos : 0 < addrList.length := List.length_pos_iff.mpr hne
      rw [hammerLoop]
      refine .bind (R := fun _ => Matches dev addrList) (.perform fun s hs => ⟨trivial, hs⟩)
        fun r => ?_
      rw [if_neg (Nat.ne_of_gt hpos)]
      have hin : addrList.getD (r % addrList.length) 0 ∈ addrList := by
        rw [List.getD_eq_getElem?_getD, List.getElem?_eq_getElem (Nat.mod_lt r hpos),
          Option.getD_some]
        exact List.getElem_mem _
      dsimp only
      refine .bind (writeBoth_delivers hw (hl _ hin) addrList b1) fun r => ?_
      refine .given (fun s hs => hs.1) ?_
      rintro ⟨b, rfl⟩
      exact (hammerLoop_delivers hne hl n b).pre fun s hs =>
        hs.2.mono fun a ha => List.mem_cons_of_mem _ ha

/-- The final pass finds no difference. -/
lemma verifyLoop_delivers {st : Stored} {file : Bytes} : ∀ (l : List ℕ) (b1 b2 : Bytes),
    (∀ a ∈ l, Inside dev a) → Match dev l st file →
    Program.Delivers (testEnv host (ideal dev)) Accepted (Both st file)
      (verifyLoop dev fuel l b1 b2) fun e _ => e = .done 0
  | [], _, _, _, _ => .pure fun _ _ => rfl
  | a :: rest, b1, b2, hl, hmatch => by
      have ha := hl a (List.mem_cons_self ..)
      have hhead := hmatch a (List.mem_cons_self ..)
      have hoffset : toU64 ((a * dev.lbaSizeBytes : ℕ) : ℤ) = a * dev.lbaSizeBytes :=
        toU64_of_lt (by have := hw.capacity; unfold Inside at ha; omega)
      have hhas : st.Has (a * dev.lbaSizeBytes) dev.lbaSizeBytes := fun j hj => by
        rw [hhead j hj]
        rfl
      rw [verifyLoop, hoffset]
      refine .bind (R := fun r s => Both st file s ∧ r = (0, b1.put 0 dev.lbaSizeBytes
        (st.bytes (a * dev.lbaSizeBytes)))) ?_ fun r => ?_
      · refine udeviceRead_delivers ha.oneBlock _ (fun s hs => by rw [hs.1]; exact hhas) ?_
        rintro s b ⟨rfl, rfl⟩ rfl
        exact ⟨⟨rfl, rfl⟩, rfl⟩
      · refine .given (fun s hs => hs.2) ?_
        rintro rfl
        rw [if_neg (not_not.mpr rfl)]
        refine .bind ((completeFileIo_reads hw (ideal dev) ha _ _ b2).pre fun s hs => hs.1)
          fun x => ?_
        refine .given (fun s hs => hs.2) ?_
        rintro ⟨b, rfl, hb⟩
        dsimp only
        rw [if_neg (not_not.mpr rfl), if_pos]
        · exact (verifyLoop_delivers rest _ _ (fun x hx => hl x (List.mem_cons_of_mem _ hx))
            (hmatch.mono fun x hx => List.mem_cons_of_mem _ hx)).pre fun s hs => hs.1
        · intro j hj
          rw [Bytes.put, if_pos ⟨Nat.zero_le _, by omega⟩, Nat.sub_zero, Stored.bytes, hhead j hj,
            hb j hj]
          rfl

/-- **All passes**, from any state: the verdict at the label is good. -/
theorem passes_delivers (hl : ∀ a ∈ addrList, Inside dev a) {maxHammerIo : ℕ}
    (hne : 0 < maxHammerIo → addrList ≠ []) :
    Program.Delivers (testEnv host (ideal dev)) Accepted (fun _ => True)
      (passes dev fuel addrList maxHammerIo) fun e _ => e = .done 0 := by
  refine .bind ((writeLoop_delivers hw addrList [] _ hl).pre fun s _ => ?_) fun r => ?_
  · exact fun a ha => absurd ha List.not_mem_nil
  refine .given (fun s hs => hs.1) ?_
  rintro ⟨b, rfl⟩
  dsimp only
  have hmatch : ∀ {s : TestState Stored}, Matches dev (addrList.reverse ++ []) s →
      Matches dev addrList s := fun hs =>
    hs.mono fun a ha => List.mem_append_left _ (List.mem_reverse.mpr ha)
  refine .bind (R := fun r s => (∃ b, r = .ok b) ∧ Matches dev addrList s) ?_ fun r => ?_
  · refine .ite (fun hpos => ?_) fun _ => .pure fun s hs => ⟨⟨b, rfl⟩, hmatch hs.2⟩
    exact (hammerLoop_delivers hw (hne hpos) hl _ b).pre fun s hs => hmatch hs.2
  · refine .given (fun s hs => hs.1) ?_
    rintro ⟨b', rfl⟩
    exact fun s hs => verifyLoop_delivers hw addrList _ _ hl hs.2 s ⟨rfl, rfl⟩

omit hw in
/-- The files of the test can be made and deleted. -/
structure Clears (host : Host) : Prop where
  opens : 0 ≤ host.openRet
  allocates : host.fallocateRet = 0
  removes : host.removeRet = 0

/-- **A whole run** of the test, from any state. -/
lemma wrFullDeviceVerify_delivers (hc : Clears host) (hl : ∀ a ∈ addrList, Inside dev a)
    {maxHammerIo : ℕ} (hne : 0 < maxHammerIo → addrList ≠ []) :
    Program.Delivers (testEnv host (ideal dev)) Accepted (fun _ => True)
      (wrFullDeviceVerify dev fuel addrList maxHammerIo) fun r _ => r = some 0 := by
  refine .bind (R := fun fd _ => fd = host.openRet) (.perform fun s _ => ⟨trivial, rfl⟩)
    fun fd => ?_
  refine .given (fun s hs => hs) ?_
  rintro rfl
  rw [if_neg (Int.not_lt.mpr hc.opens)]
  refine .bind (R := fun ret _ => ret = 0) (.perform fun s _ => ⟨trivial, hc.allocates⟩)
    fun ret => ?_
  refine .given (fun s hs => hs) ?_
  rintro rfl
  rw [if_neg (not_not.mpr rfl)]
  refine .bind ((passes_delivers hw hl hne).pre fun _ _ => trivial) fun e => ?_
  refine .given (fun s hs => hs) ?_
  rintro rfl
  refine .bind (R := fun ret _ => ret = 0) (.perform fun s _ => ⟨trivial, hc.removes⟩) fun ret => ?_
  refine .given (fun s hs => hs) ?_
  rintro rfl
  exact .pure fun _ _ => rfl

omit hw in
/-- Every block of the array is inside the device. -/
lemma getSequenceAsArray_inside {shuffle : List ℕ → List ℕ}
    (hperm : ∀ l : List ℕ, (shuffle l).Perm l) (isShuffled : Bool) :
    ∀ a ∈ getSequenceAsArray (toU32 (dev.capacityBytes / dev.lbaSizeBytes : ℕ)) isShuffled shuffle,
      Inside dev a := by
  intro a ha
  have hmem : a ∈ List.range (toU32 (dev.capacityBytes / dev.lbaSizeBytes : ℕ)) := by
    rw [getSequenceAsArray] at ha
    split at ha
    · exact (hperm _).mem_iff.mp ha
    · exact ha
  have hlt : a < dev.capacityBytes / dev.lbaSizeBytes := by
    refine Nat.lt_of_lt_of_le (List.mem_range.mp hmem) ?_
    rw [toU32_natCast]
    exact Nat.mod_le _ _
  have hmul := (Nat.le_div_iff_mul_le dev.lba_pos).mp (Nat.succ_le_of_lt hlt)
  rw [Nat.succ_mul] at hmul
  exact hmul

omit hw in
/-- … and the array is as long as asked for. -/
lemma getSequenceAsArray_ne_nil {n : ℕ} {shuffle : List ℕ → List ℕ}
    (hperm : ∀ l : List ℕ, (shuffle l).Perm l) (isShuffled : Bool) (hn : 0 < n) :
    getSequenceAsArray n isShuffled shuffle ≠ [] := by
  intro hnil
  have hlen : (getSequenceAsArray n isShuffled shuffle).length = n := by
    rw [getSequenceAsArray]
    split
    · rw [(hperm _).length_eq, List.length_range]
    · exact List.length_range
  rw [hnil, List.length_nil] at hlen
  omega

/-- **`main`.** -/
lemma m3Main_delivers (hc : Clears host) {shuffle : List ℕ → List ℕ}
    (hperm : ∀ l : List ℕ, (shuffle l).Perm l)
    (hentries : 0 < toU32 (dev.capacityBytes / dev.lbaSizeBytes : ℕ)) (toHammerLba : ℕ)
    (deinitRet : ℤ) :
    Program.Delivers (testEnv host (ideal dev)) Accepted (fun _ => True)
      (m3Main dev fuel shuffle toHammerLba deinitRet) fun r _ => r = some deinitRet := by
  have hrun : ∀ (isShuffled : Bool) (n : ℕ), Program.Delivers (testEnv host (ideal dev)) Accepted
      (fun _ => True) (wrFullDeviceVerify dev fuel (getSequenceAsArray
        (toU32 (dev.capacityBytes / dev.lbaSizeBytes : ℕ)) isShuffled shuffle) n)
      fun r _ => r = some 0 := fun isShuffled n =>
    wrFullDeviceVerify_delivers hw hc (getSequenceAsArray_inside hperm isShuffled)
      fun _ => getSequenceAsArray_ne_nil hperm isShuffled hentries
  refine .bind (hrun false 0) fun t1 => .given (fun _ hs => hs) ?_
  rintro rfl
  refine .bind ((hrun true 0).pre fun _ _ => trivial) fun t2 => .given (fun _ hs => hs) ?_
  rintro rfl
  refine .bind ((hrun true toHammerLba).pre fun _ _ => trivial) fun t3 => .given (fun _ hs => hs) ?_
  rintro rfl
  exact .pure fun _ _ => rfl

end StoSys.M3
