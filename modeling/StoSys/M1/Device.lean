import Mathlib.Algebra.Group.Nat.Defs
import Mathlib.Data.Int.Init
import Mathlib.Data.List.Basic
import Mathlib.Tactic.Common

/-!
# `device.cpp`: counting and scanning the devices

Two walks over the tree that libnvme reports: from the host over subsystems to controllers, and from
a controller over its namespaces.  The first walk counts controllers.  The second fills one element
of the caller's array for every namespace, and stops at the first that does not answer.

The array is a list, and an access outside it ends the walk (`Stop.outOfBounds`): in C it has no
meaning.
-/

namespace StoSys.M1

/-- `NVME_CSI_ZNS` -/
def nvmeCsiZns : ℕ := 2

/-- A namespace, with what it answers: its number, unless asking fails, and the return code of
`nvme_ns_identify`. -/
structure Namespace where
  name : String
  csi : ℕ
  nsid : Option ℕ
  identify : ℤ

structure Ctrl where
  namespaces : List Namespace
  paths : List String

structure Subsystem where
  ctrls : List Ctrl

structure Host where
  subsystems : List Subsystem

/-- The tree under `nvme_root_t`. -/
structure Topology where
  hosts : List Host

/-- `nvme_for_each_host`, `nvme_for_each_subsystem` and `nvme_subsystem_for_each_ctrl`, nested. -/
def Topology.forEachCtrl {M : Type → Type} [Monad M] (t : Topology) (f : Ctrl → M Unit) : M Unit :=
  t.hosts.forM fun h => h.subsystems.forM fun s => s.ctrls.forM f

/-- `count_and_show_all_nvme_devices`; the loops inside the body print, and do nothing else. -/
def countAndShowAllNvmeDevices : Option Topology → ℤ
  | none => -1
  | some t => ((t.forEachCtrl (M := StateM ℤ) fun _ => modify (· + 1)).run 0).2

/-- `struct ss_nvme_ns`, as `calloc` leaves it. -/
structure SsNvmeNs where
  ctrlName : Option String := none
  supportsZns : Bool := false
  nsid : ℕ := 0

def calloc (n : ℕ) : List SsNvmeNs := List.replicate n {}

/-- The variables of the walk. -/
structure Scan where
  nsCounter : ℕ
  list : List SsNvmeNs

/-- Why a walk ends early. -/
inductive Stop where
  | outOfBounds
  | returned (ret : ℤ) (list : List SsNvmeNs)

abbrev Scanning (α : Type) : Type := StateT Scan (Except Stop) α

/-- An assignment to `list[ns_counter]`. -/
def setElement (f : SsNvmeNs → SsNvmeNs) : Scanning Unit := do
  let s ← get
  if s.nsCounter < s.list.length then set { s with list := s.list.modify s.nsCounter f }
  else throw .outOfBounds

/-- The body of the innermost loop.  `nvme_get_nsid` leaves the field as it is when it fails. -/
def scanNamespace (n : Namespace) : Scanning Unit := do
  setElement fun e => { e with ctrlName := some n.name }
  setElement fun e => if n.csi = nvmeCsiZns then { e with supportsZns := true }
    else { e with supportsZns := false }
  setElement fun e => { e with nsid := n.nsid.getD e.nsid }
  if n.identify ≠ 0 then throw (.returned n.identify (← get).list)
  else modify fun s => { s with nsCounter := s.nsCounter + 1 }

/-- `scan_and_identify_zns_devices`: the return value and the array, or `none` when it has left the
array. -/
def scanAndIdentifyZnsDevices (root : Option Topology) (list : List SsNvmeNs) :
    Option (ℤ × List SsNvmeNs) :=
  match root with
  | none => some (-1, list)
  | some t =>
      match (t.forEachCtrl fun c => c.namespaces.forM scanNamespace).run ⟨0, list⟩ with
      | .ok (_, s) => some (0, s.list)
      | .error (.returned ret list) => some (ret, list)
      | .error .outOfBounds => none

/-! ## The tree as a list -/

def Topology.ctrls (t : Topology) : List Ctrl :=
  t.hosts.flatMap fun h => h.subsystems.flatMap Subsystem.ctrls

def Topology.namespaces (t : Topology) : List Namespace := t.ctrls.flatMap Ctrl.namespaces

lemma forM_flatMap {M : Type → Type} [Monad M] [LawfulMonad M] {α β : Type} (g : α → List β)
    (f : β → M Unit) : ∀ l : List α, (l.flatMap g).forM f = l.forM fun a => (g a).forM f
  | [] => rfl
  | a :: l => by
      have ih := forM_flatMap g f l
      simp only [List.forM_eq_forM] at ih ⊢
      rw [List.flatMap_cons, List.forM_append, List.forM_cons, ih]

/-- A walk visits the controllers in the order of the list. -/
lemma Topology.forEachCtrl_eq {M : Type → Type} [Monad M] [LawfulMonad M] (t : Topology)
    (f : Ctrl → M Unit) : t.forEachCtrl f = t.ctrls.forM f := by
  rw [Topology.ctrls, forM_flatMap]
  simp only [forM_flatMap]
  rfl

/-- The count is that of the controllers. -/
lemma countAndShowAllNvmeDevices_some (t : Topology) :
    countAndShowAllNvmeDevices (some t) = t.ctrls.length := by
  have hcount : ∀ (l : List Ctrl) (k : ℤ),
      ((l.forM (m := StateM ℤ) fun _ => modify (· + 1)).run k).2 = k + l.length := by
    intro l
    induction l with
    | nil => exact fun k => (Int.add_zero k).symm
    | cons c l ih =>
        intro k
        simp only [List.forM_eq_forM] at ih ⊢
        rw [List.forM_cons]
        refine (ih (k + 1)).trans ?_
        rw [List.length_cons]
        push_cast
        omega
  rw [countAndShowAllNvmeDevices, Topology.forEachCtrl_eq, hcount, Int.zero_add]

end StoSys.M1
