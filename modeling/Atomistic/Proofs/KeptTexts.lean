import Atomistic.Foreign.Buffer
import Atomistic.Foreign.Status

/-!
# Texts that are read whole

A caller reads a text from its bytes up to the first zero. Only the character zero is written with
such a byte, so a text without it is read whole. Messages can have it, as they repeat what they were
given; it is written in another way before a message is kept, so that no message is cut or lost.
-/

namespace Atomistic

/-! ### Bytes -/

namespace Utf8

theorem ofNat_eq_zero {n : Nat} (small : n < 256) (h : UInt8.ofNat n = 0) : n = 0 := by
  have same := congrArg UInt8.toNat h
  rwa [UInt8.toNat_ofNat', Nat.mod_eq_of_lt small] at same

/-- All bytes of a character that takes several of them are marked. -/
theorem eq_zero_of_mem_utf8EncodeChar {c : Char} (h : 0 ∈ String.utf8EncodeChar c) :
    c = '\x00' := by
  rw [String.utf8EncodeChar] at h
  split at h
  · have zero := ofNat_eq_zero (by omega) (List.mem_singleton.1 h).symm
    exact Char.ext (UInt32.toNat_inj.1 zero)
  exfalso
  split at h
  · simp only [List.mem_cons, List.not_mem_nil, or_false] at h
    rcases h with h | h <;> have := ofNat_eq_zero (by omega) h.symm <;> omega
  split at h <;> simp only [List.mem_cons, List.not_mem_nil, or_false] at h
  · rcases h with h | h | h <;> have := ofNat_eq_zero (by omega) h.symm <;> omega
  · rcases h with h | h | h | h <;> have := ofNat_eq_zero (by omega) h.symm <;> omega

theorem encode_eq_flatMap (s : String) : encode s = s.toList.flatMap String.utf8EncodeChar := by
  rw [encode, String.toUTF8, ← String.utf8Encode_toList, List.utf8Encode]
  simp

theorem zero_not_mem_encode {s : String} (h : '\x00' ∉ s.toList) : 0 ∉ encode s := by
  rw [encode_eq_flatMap, List.mem_flatMap]
  rintro ⟨c, hc, zero⟩
  exact h (eq_zero_of_mem_utf8EncodeChar zero ▸ hc)

end Utf8

/-- A message says at least what kind of error it is about. -/
theorem Error.message_ne_empty (e : Error) : e.message ≠ "" := by
  intro h
  cases e <;> exact absurd (String.append_eq_empty_iff.1 h).1 (by decide)

namespace Foreign

/-- A text without the character zero is read whole, whatever is behind it. -/
theorem beforeZero_encode {s : String} (h : '\x00' ∉ s.toList) {rest : List UInt8} :
    beforeZero (Utf8.encode s ++ 0 :: rest) = Utf8.encode s := by
  have all : ∀ b ∈ Utf8.encode s, decide (b ≠ 0) = true := by
    intro b hb
    rw [decide_eq_true_eq]
    rintro rfl
    exact Utf8.zero_not_mem_encode h hb
  rw [beforeZero, List.takeWhile_append_of_pos all]
  simp

/-! ### Messages -/

theorem zero_not_mem_escapeZeros (text : String) : '\x00' ∉ (escapeZeros text).toList := by
  rw [escapeZeros, String.toList_ofList, List.mem_flatMap]
  rintro ⟨c, -, zero⟩
  split at zero
  · exact absurd zero (by decide)
  · next other =>
    rw [List.mem_singleton] at zero
    exact other (beq_iff_eq.2 zero.symm)

theorem escapeZeros_ne_empty {text : String} (h : text ≠ "") : escapeZeros text ≠ "" := by
  intro none
  have none := congrArg String.toList none
  rw [escapeZeros, String.toList_ofList, String.toList_empty, List.flatMap_eq_nil_iff] at none
  refine h (String.toList_eq_nil_iff.1 (List.eq_nil_iff_forall_not_mem.2 fun c hc => ?_))
  have := none c hc
  split at this <;> cases this

/-- The whole message is kept, in which zeros are written as a backslash and the digit 0. -/
theorem errorText_eq (e : Error) : errorText e = escapeZeros e.message := by
  rw [errorText, zeroFree?, if_neg]
  · rfl
  · rw [List.contains_iff_mem]
    exact zero_not_mem_escapeZeros e.message

end Foreign
end Atomistic
