import Atomistic.Geometry.Vector3

/-!
# Directions

A triple is a function of its direction, and what is computed direction by direction is computed at
each of them.
-/

namespace Atomistic

/-- The directions of space. -/
inductive Direction where
  | x
  | y
  | z
  deriving DecidableEq

namespace Vector3

variable {β γ δ : Type}

/-- The value in a direction. -/
def along (v : Vector3 β) : Direction → β
  | .x => v.x
  | .y => v.y
  | .z => v.z

/-- The triple of the values in the three directions. -/
def ofDirections (f : Direction → β) : Vector3 β := ⟨f .x, f .y, f .z⟩

@[simp] theorem along_ofDirections (f : Direction → β) (k : Direction) :
    (ofDirections f).along k = f k := by
  cases k <;> rfl

@[simp] theorem along_map (f : β → γ) (v : Vector3 β) (k : Direction) :
    (v.map f).along k = f (v.along k) := by
  cases k <;> rfl

@[simp] theorem along_zipWith (f : β → γ → δ) (u : Vector3 β) (v : Vector3 γ) (k : Direction) :
    (zipWith f u v).along k = f (u.along k) (v.along k) := by
  cases k <;> rfl

@[simp] theorem along_replicate (b : β) (k : Direction) : (replicate b).along k = b := by
  cases k <;> rfl

theorem ext_along {u v : Vector3 β} (h : ∀ k, u.along k = v.along k) : u = v := by
  cases u
  cases v
  rw [mk.injEq]
  exact ⟨h .x, h .y, h .z⟩

theorem all_eq_true {p : β → Bool} {v : Vector3 β} : v.all p = true ↔ ∀ k, p (v.along k) = true := by
  rw [all, Bool.and_eq_true, Bool.and_eq_true]
  constructor
  · rintro ⟨⟨hx, hy⟩, hz⟩ k
    cases k with
    | x => exact hx
    | y => exact hy
    | z => exact hz
  · exact fun h => ⟨⟨h .x, h .y⟩, h .z⟩

end Vector3

end Atomistic
