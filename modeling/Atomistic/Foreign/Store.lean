/-!
# Objects behind handles

Callers of another language hold handles of the objects that were created for them. An object is in
the store until it is freed; a null handle, and the handle of a freed object, stand for no object.
-/

namespace Atomistic.Foreign

/-- The number of an object. -/
abbrev Handle := Nat

/-- The objects that were created, except for those that were freed. -/
structure Store (β : Type) where
  slots : Array (Option β)

namespace Store

variable {β : Type}

/-- A store without objects. -/
def empty : Store β := ⟨#[]⟩

/-- The object of a handle. -/
def get? (s : Store β) (h : Option Handle) : Option β :=
  match h with
  | some i => s.slots[i]?.join
  | none => none

/-- The handle of the next object. -/
def next (s : Store β) : Handle := s.slots.size

/-- Store an object under the next handle. -/
def insert (s : Store β) (v : β) : Store β := ⟨s.slots.push (some v)⟩

/-- Replace the object of a handle. -/
def set (s : Store β) (h : Option Handle) (v : β) : Store β :=
  match h with
  | some i => ⟨s.slots.setIfInBounds i (some v)⟩
  | none => s

/-- Free the object of a handle. -/
def remove (s : Store β) (h : Option Handle) : Store β :=
  match h with
  | some i => ⟨s.slots.setIfInBounds i none⟩
  | none => s

theorem get?_insert (s : Store β) (v : β) : (s.insert v).get? (some s.next) = some v := by
  simp [get?, insert, next]

theorem get?_remove (s : Store β) (h : Option Handle) : (s.remove h).get? h = none := by
  cases h with
  | none => rfl
  | some i =>
    by_cases hi : i < s.slots.size <;> simp [get?, remove, hi]

end Store

end Atomistic.Foreign
