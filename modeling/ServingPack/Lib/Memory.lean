import Mathlib.Data.List.GetD
import ServingPack.Lib.Unstructured

namespace unstructured

open golang

/-- The maps a program can reach, those within others left out. A map variable is the
place of one of them, and a write through one variable is seen through every other
that has the same place. -/
abbrev Memory := List (Fields Value)

abbrev Ref := Nat

/-- What a map variable shows. -/
def contents (r : Ref) : StateM Memory (Fields Value) := fun mem => (mem.getD r [], mem)

/-- `map[string]interface{}{}`. -/
def makeMap : StateM Memory Ref := fun mem => (mem.length, mem ++ [[]])

/-- `runtime.DeepCopyJSON`. -/
def deepCopyJSON (r : Ref) : StateM Memory Ref := fun mem => (mem.length, mem ++ [mem.getD r []])

/-- `m[k] = v`. -/
def setKey (r : Ref) (k : GoString) (v : Value) : StateM Memory Unit := fun mem =>
  ((), mem.modify r (fun m => m.set k v))

/-- `delete(m, k)`. -/
def deleteKey (r : Ref) (k : GoString) : StateM Memory Unit :=
  fun mem => ((), mem.modify r (fun m => m.delete k))

/-- `unstructured.NestedMap` of one field, which copies the map it finds. -/
def nestedMapCopy (r : Ref) (field : GoString) : StateM Memory (Option Ref) := fun mem =>
  match nestedMap (mem.getD r []) [field] with
  | .ok (some m) => (some mem.length, mem ++ [m])
  | _ => (none, mem)

/-- The map a lookup found, or a new one. -/
def orMake (found : StateM Memory (Option Ref)) : StateM Memory Ref := do
  match ← found with
  | some r => pure r
  | none => makeMap

theorem run_bind {α β : Type} {p : StateM Memory α} {next : α → StateM Memory β} {mem mem' : Memory}
    {a : α} (h : p mem = (a, mem')) : (p >>= next) mem = next a mem' := by
  show next (p mem).1 (p mem).2 = _
  rw [h]

section Own

/-! A program that came with `old` and has `own` of its own. -/

variable {old own : Memory} {r : Ref} {k field : GoString} {v : Value}

theorem contents_own (old own : Memory) (i : Nat) :
    contents (old.length + i) (old ++ own) = (own.getD i [], old ++ own) := by
  rw [contents, List.getD_append_right _ _ _ _ (Nat.le_add_right ..), Nat.add_sub_cancel_left]

private theorem modify_own (old own : Memory) (i : Nat) (f : Fields Value → Fields Value) :
    (old ++ own).modify (old.length + i) f = old ++ own.modify i f := by
  induction old with
  | nil => simp
  | cons m old ih =>
    rw [List.length_cons, Nat.add_right_comm, List.cons_append, List.modify_succ_cons, ih,
      List.cons_append]

theorem setKey_own (old own : Memory) (i : Nat) (k : GoString) (v : Value) :
    setKey (old.length + i) k v (old ++ own) = ((), old ++ own.modify i (fun m => m.set k v)) := by
  rw [setKey, modify_own]

theorem deleteKey_own (old own : Memory) (i : Nat) (k : GoString) :
    deleteKey (old.length + i) k (old ++ own) =
      ((), old ++ own.modify i (fun m => m.delete k)) := by
  rw [deleteKey, modify_own]

/-- A nested map is a copy of its own, empty where there was none. -/
theorem orMake_own (old own : Memory) (i : Nat) (field : GoString) :
    orMake (nestedMapCopy (old.length + i) field) (old ++ own) =
      (old.length + own.length,
        old ++ (own ++ [Unstructured.nestedMapOrNil (own.getD i []) field])) := by
  have hget : (old ++ own).getD (old.length + i) [] = own.getD i [] := by
    rw [List.getD_append_right _ _ _ _ (Nat.le_add_right ..), Nat.add_sub_cancel_left]
  have hnested : nestedMapCopy (old.length + i) field (old ++ own) =
      match nestedMap (own.getD i []) [field] with
      | .ok (some m) => (some (old ++ own).length, old ++ own ++ [m])
      | _ => (none, old ++ own) := by
    rw [nestedMapCopy, hget]
  show (match (nestedMapCopy (old.length + i) field (old ++ own)).1 with
    | some r => pure r
    | none => makeMap) (nestedMapCopy (old.length + i) field (old ++ own)).2 = _
  rw [hnested, Unstructured.nestedMapOrNil, ← List.append_assoc, ← List.length_append]
  cases nestedMap (own.getD i []) [field] with
  | error e => rfl
  | ok found =>
    cases found with
    | none => rfl
    | some m => rfl

end Own

end unstructured
