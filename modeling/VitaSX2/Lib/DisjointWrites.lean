/-
Tasks that write to a store under distinct keys.

A list of writes to distinct keys gives the same store in every order.  Tasks
whose writes do not depend on the keys that any of them writes can all be
evaluated on the store before the first of them.
-/
import Mathlib.Data.List.Nodup
import Mathlib.Data.List.Perm.Basic
import Mathlib.Logic.Function.Basic

namespace VitaSX2.DisjointWrites

variable {κ α ι : Type*} [DecidableEq κ]

/-- Write the values of a list one after the other. -/
def applyWrites (writes : List (κ × α)) (store : κ → α) : κ → α :=
  writes.foldl (fun current write => Function.update current write.1 write.2) store

@[simp] lemma applyWrites_nil (store : κ → α) : applyWrites [] store = store := rfl

lemma applyWrites_cons (write : κ × α) (writes : List (κ × α)) (store : κ → α) :
    applyWrites (write :: writes) store =
      applyWrites writes (Function.update store write.1 write.2) := rfl

lemma applyWrites_append (left right : List (κ × α)) (store : κ → α) :
    applyWrites (left ++ right) store = applyWrites right (applyWrites left store) :=
  List.foldl_append

/-- A key that is not written keeps its value. -/
lemma applyWrites_of_notMem {writes : List (κ × α)} {key : κ}
    (h : key ∉ writes.map Prod.fst) (store : κ → α) : applyWrites writes store key = store key := by
  induction writes generalizing store with
  | nil => rfl
  | cons write rest ih =>
    rw [List.map_cons, List.mem_cons, not_or] at h
    rw [applyWrites_cons, ih h.2, Function.update_of_ne h.1]

/-- Distinct keys may be written in any order. -/
theorem applyWrites_perm {left right : List (κ × α)} (hperm : left.Perm right)
    (hnodup : (left.map Prod.fst).Nodup) (store : κ → α) :
    applyWrites left store = applyWrites right store := by
  induction hperm generalizing store with
  | nil => rfl
  | cons write _ ih =>
    rw [List.map_cons, List.nodup_cons] at hnodup
    rw [applyWrites_cons, applyWrites_cons, ih hnodup.2]
  | swap first second rest =>
    have hne : second.1 ≠ first.1 := by
      rw [List.map_cons, List.map_cons, List.nodup_cons, List.mem_cons, not_or] at hnodup
      exact hnodup.1.1
    rw [applyWrites_cons, applyWrites_cons, applyWrites_cons, applyWrites_cons,
      Function.update_comm hne]
  | trans hleft _ ihleft ihright =>
    have hmiddle := (hleft.map Prod.fst).nodup_iff.mp hnodup
    exact (ihleft hnodup store).trans (ihright hmiddle store)

/-- Every task sees what the tasks before it have written. -/
def runSequential (writes : (κ → α) → ι → List (κ × α)) (tasks : List ι) (store : κ → α) : κ → α :=
  tasks.foldl (fun current task => applyWrites (writes current task) current) store

/-- Two stores agree outside a set of keys. -/
def AgreeOff (keys : List κ) (left right : κ → α) : Prop := ∀ key ∉ keys, left key = right key

/-- If no task depends on a written key, running the tasks in sequence applies
the writes they have on the first store. -/
theorem runSequential_eq {writes : (κ → α) → ι → List (κ × α)} {tasks : List ι} {store : κ → α}
    (hstable : ∀ task ∈ tasks, ∀ current,
      AgreeOff ((tasks.flatMap (writes store)).map Prod.fst) current store →
      writes current task = writes store task) :
    runSequential writes tasks store = applyWrites (tasks.flatMap (writes store)) store := by
  set keys := (tasks.flatMap (writes store)).map Prod.fst with hkeys
  have hrun : ∀ (done rest : List ι), tasks = done ++ rest → ∀ current,
      AgreeOff keys current store →
      runSequential writes rest current = applyWrites (rest.flatMap (writes store)) current := by
    intro done rest
    induction rest generalizing done with
    | nil => exact fun _ _ _ => rfl
    | cons task rest ih =>
      intro htasks current hagree
      have hmem : task ∈ tasks := htasks ▸ List.mem_append_right _ List.mem_cons_self
      have hwrites : writes current task = writes store task := hstable task hmem current hagree
      have hnext : AgreeOff keys (applyWrites (writes store task) current) store := by
        intro key hkey
        rw [applyWrites_of_notMem, hagree key hkey]
        intro hwritten
        refine hkey ?_
        rw [hkeys]
        obtain ⟨write, hwrite, rfl⟩ := List.mem_map.mp hwritten
        exact List.mem_map_of_mem (List.mem_flatMap.mpr ⟨task, hmem, hwrite⟩)
      have hrest : tasks = (done ++ [task]) ++ rest := by rw [htasks, List.append_assoc]; rfl
      have hsplit : runSequential writes (task :: rest) current =
          runSequential writes rest (applyWrites (writes current task) current) := rfl
      rw [hsplit, hwrites, ih _ hrest _ hnext, List.flatMap_cons, applyWrites_append]
  exact hrun [] tasks rfl store fun _ _ => rfl

end VitaSX2.DisjointWrites
