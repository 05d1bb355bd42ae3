import Mathlib.Logic.Function.Basic

namespace CoreinitNx

class HostObject (Host : Type) where
  init : Host

-- The guest structure at an address is only a key: its bytes are never read.
structure HandleTable (Host : Type) where
  map : UInt64 → Option Host

namespace HandleTable

variable {Host : Type} [HostObject Host]

def empty : HandleTable Host := ⟨fun _ => none⟩

def get (t : HandleTable Host) (key : UInt64) : Host × HandleTable Host :=
  match t.map key with
  | some host => (host, t)
  | none => (HostObject.init, ⟨Function.update t.map key (some HostObject.init)⟩)

-- A write through the pointer that `get` returned.
def store (t : HandleTable Host) (key : UInt64) (host : Host) : HandleTable Host :=
  ⟨Function.update t.map key (some host)⟩

def erase (t : HandleTable Host) (key : UInt64) : HandleTable Host :=
  ⟨Function.update t.map key none⟩

def view (t : HandleTable Host) (key : UInt64) : Host := (t.map key).getD HostObject.init

theorem get_fst (t : HandleTable Host) (key : UInt64) : (t.get key).1 = t.view key := by
  rw [get, view]
  cases t.map key <;> rfl

@[simp] theorem view_get (t : HandleTable Host) (key k : UInt64) :
    (t.get key).2.view k = t.view k := by
  rw [get]
  cases h : t.map key with
  | some host => rfl
  | none =>
    by_cases hk : k = key
    · subst hk; simp [view, h]
    · simp [view, hk]

@[simp] theorem view_store_same (t : HandleTable Host) (key : UInt64) (host : Host) :
    (t.store key host).view key = host := by simp [store, view]

theorem view_store_ne (t : HandleTable Host) {key k : UInt64} (host : Host) (h : k ≠ key) :
    (t.store key host).view k = t.view k := by simp [store, view, h]

end HandleTable

end CoreinitNx
