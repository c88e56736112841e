import Atomistic.Foreign.Calls
import Atomistic.Proofs.KeptTexts
import Mathlib.Algebra.Group.Nat.Defs
import Mathlib.Data.List.TakeWhile
import Mathlib.Tactic.SplitIfs

/-!
# Texts without zeros

The first zero ends a text for those who read it from its bytes, so texts should have none. A text
that was itself read from the bytes before a zero has none: the ranges of the bytes of a character
leave the character zero to the byte zero. Numbers that are written into a text add none either. But
a text that was given inside of other data, where characters may be written by their code, can have
any number of zeros.
-/

namespace Atomistic

/-- The text has no character zero. -/
def ZeroFree (text : String) : Prop := '\x00' ∉ text.toList

instance (text : String) : Decidable (ZeroFree text) :=
  inferInstanceAs (Decidable (¬ '\x00' ∈ text.toList))

/-- The text before its first character zero. -/
def upToZero (text : String) : String := String.ofList (text.toList.takeWhile (· ≠ '\x00'))

/-! ### Characters from bytes -/

namespace Utf8

theorem zero_mem_encode {s : String} (h : '\x00' ∈ s.toList) : 0 ∈ encode s := by
  rw [encode_eq_flatMap, List.mem_flatMap]
  exact ⟨_, h, by decide⟩

theorem toNat_ofNat {n : Nat} (valid : n.isValidChar) : (Char.ofNat n).toNat = n := by
  rw [Char.ofNat, dif_pos valid]
  rfl

/-- Codes of characters other than zero are not taken for zero, as those of no characters are. -/
theorem ofNat_ne_zero {n : Nat} (valid : n.isValidChar) (positive : 0 < n) :
    Char.ofNat n ≠ '\x00' := by
  intro zero
  have code := congrArg Char.toNat zero
  rw [toNat_ofNat valid] at code
  exact absurd code (Nat.ne_of_gt positive)

/-- Bytes that continue a character add to its code, but do not change what it starts with. -/
theorem readTail_bounds : ∀ {count seen code : Nat} {rest : List UInt8} {r : Nat},
    readTail count seen code rest = .ok r → code * 64 ^ count ≤ r ∧ r < (code + 1) * 64 ^ count
  | 0, _, _, _, _, h => by
    cases h
    omega
  | _ + 1, _, _, [], _, h => by cases h
  | count + 1, seen, code, b :: rest, r, h => by
    rw [readTail] at h
    split at h
    · obtain ⟨low, high⟩ := readTail_bounds h
      have six : b.toNat % 64 < 64 := Nat.mod_lt _ (by decide)
      rw [append] at low high
      have power : 64 ^ (count + 1) = 64 * 64 ^ count := by rw [Nat.pow_succ, Nat.mul_comm]
      constructor
      · calc code * 64 ^ (count + 1) = code * 64 * 64 ^ count := by rw [power, Nat.mul_assoc]
          _ ≤ (code * 64 + b.toNat % 64) * 64 ^ count :=
            Nat.mul_le_mul_right _ (Nat.le_add_right ..)
          _ ≤ r := low
      · calc r < (code * 64 + b.toNat % 64 + 1) * 64 ^ count := high
          _ ≤ (code + 1) * 64 * 64 ^ count := Nat.mul_le_mul_right _ (by omega)
          _ = (code + 1) * 64 ^ (count + 1) := by rw [power, Nat.mul_assoc]
    · cases h

/-- Codes that start that of a character, without its last `count` bytes, and not that of zero. -/
def Leads : (count start : Nat) → Prop
  | 0, start => 0 < start ∧ start < 0x800
  | 1, start => 0 < start ∧ (start < 0x360 ∨ 0x380 ≤ start) ∧ start < 0x400
  | 2, start => 0x10 ≤ start ∧ start < 0x110
  | _, _ => False

/-- The ranges of the first two bytes of a character leave no other codes. -/
theorem leads_of_following {first second low high : UInt8} {count : Nat}
    (start : following first = some (count + 1, low, high)) (least : low ≤ second)
    (most : second ≤ high) : Leads count (append (payload first (count + 1)) second) := by
  have equal (n : UInt8) : first = n ↔ first.toNat = n.toNat := UInt8.toNat_inj.symm
  simp only [following, equal, UInt8.le_iff_toNat_le, UInt8.lt_iff_toNat_lt, UInt8.reduceToNat]
    at start
  rw [UInt8.le_iff_toNat_le] at least most
  rw [append, payload, if_neg (Nat.succ_ne_zero count)]
  split_ifs at start <;> cases start <;>
  · simp only [UInt8.reduceToNat] at least most
    simp only [Leads, Nat.reduceAdd, Nat.reduceSub, Nat.pow_eq, Nat.reducePow]
    omega

/-- A code that starts so is that of a character, and not of zero. -/
theorem isValidChar_of_leads {count start code : Nat} (leads : Leads count start)
    (bounds : start * 64 ^ count ≤ code ∧ code < (start + 1) * 64 ^ count) :
    code.isValidChar ∧ 0 < code := by
  match count, leads with
  | 0, leads | 1, leads | 2, leads =>
    rw [Leads] at leads
    rw [Nat.isValidChar]
    omega

/-- A byte without others behind it is a character of its own. -/
theorem single_bound {first low high : UInt8} (start : following first = some (0, low, high)) :
    first.toNat < 0x80 := by
  rw [following] at start
  split_ifs at start with single
  · have bound := UInt8.le_iff_toNat_le.1 single
    exact Nat.lt_succ_of_le bound
  all_goals cases start

/-- The character that some bytes start with is not zero if the first byte is not. -/
theorem readChar_ne_zero {first : UInt8} {rest : List UInt8} {c : Char} {count : Nat}
    (read : readChar first rest = .ok (c, count)) (nonzero : first ≠ 0) : c ≠ '\x00' := by
  rw [readChar] at read
  cases start : following first with
  | none =>
    rw [start] at read
    cases read
  | some range =>
    obtain ⟨behind, low, high⟩ := range
    rw [start] at read
    cases behind with
    | zero =>
      cases read
      have small := single_bound start
      refine ofNat_ne_zero (.inl (by omega)) (Nat.pos_of_ne_zero fun zero => nonzero ?_)
      exact UInt8.toNat_inj.1 zero
    | succ behind =>
      cases rest with
      | nil => cases read
      | cons second rest =>
        dsimp only at read
        split at read
        · next between =>
          rw [Bool.and_eq_true, decide_eq_true_eq, decide_eq_true_eq] at between
          cases tail : readTail behind 2 (append (payload first (behind + 1)) second) rest with
          | error e =>
            rw [tail] at read
            cases read
          | ok code =>
            rw [tail] at read
            cases read
            have leads := leads_of_following start between.1 between.2
            obtain ⟨valid, positive⟩ := isValidChar_of_leads leads (readTail_bounds tail)
            exact ofNat_ne_zero valid positive
        · cases read

/-- Bytes without zeros hold a text without zeros. -/
theorem zero_not_mem_of_decodeFrom : ∀ {position : Nat} {bytes : List UInt8} {chars : List Char},
    decodeFrom position bytes = .ok chars → 0 ∉ bytes → '\x00' ∉ chars := by
  intro position bytes
  induction position, bytes using decodeFrom.induct with
  | case1 position =>
    intro chars h _
    rw [decodeFrom] at h
    cases h
    exact List.not_mem_nil
  | case2 position first rest length wrong =>
    intro chars h _
    rw [decodeFrom, wrong] at h
    cases h
  | case3 position first rest c count read ih =>
    intro chars h none
    rw [decodeFrom, read] at h
    dsimp only at h
    cases later : decodeFrom (position + 1 + count) (rest.drop count) with
    | error e =>
      rw [later] at h
      cases h
    | ok others =>
      rw [later] at h
      cases h
      have nonzero : first ≠ 0 := fun zero => none (zero ▸ List.mem_cons_self)
      have others_none := ih later fun zero =>
        none (List.mem_cons_of_mem _ (List.mem_of_mem_drop zero))
      rw [List.mem_cons, not_or]
      exact ⟨(readChar_ne_zero read nonzero).symm, others_none⟩

theorem zeroFree_of_decode {bytes : List UInt8} {text : String} (h : decode bytes = .ok text)
    (none : 0 ∉ bytes) : ZeroFree text := by
  rw [decode] at h
  cases decoded : decodeFrom 0 bytes with
  | error e =>
    rw [decoded] at h
    cases h
  | ok chars =>
    rw [decoded] at h
    cases h
    rw [ZeroFree, String.toList_ofList]
    exact zero_not_mem_of_decodeFrom decoded none

end Utf8

/-! ### Texts in memory -/

namespace Foreign

theorem zero_not_mem_beforeZero (bytes : List UInt8) : 0 ∉ beforeZero bytes := fun zero =>
  absurd (List.mem_takeWhile_imp zero) (by decide)

/-- A text that a caller gives has no zeros. -/
theorem zeroFree_of_readText {bytes : List UInt8} {text : String}
    (h : readText bytes = .ok text) : ZeroFree text := by
  rw [readText] at h
  cases decoded : Utf8.decode (beforeZero bytes) with
  | error e =>
    rw [decoded] at h
    cases h
  | ok text' =>
    rw [decoded] at h
    cases h
    exact Utf8.zeroFree_of_decode decoded (zero_not_mem_beforeZero bytes)

theorem takeWhile_utf8Encode (chars : List Char) (rest : List UInt8) :
    (chars.flatMap String.utf8EncodeChar ++ 0 :: rest).takeWhile (· ≠ 0)
      = (chars.takeWhile (· ≠ '\x00')).flatMap String.utf8EncodeChar := by
  induction chars with
  | nil => rfl
  | cons c chars ih =>
    rw [List.flatMap_cons, List.append_assoc]
    by_cases zero : c = '\x00'
    · subst zero
      rfl
    · have all : ∀ b ∈ String.utf8EncodeChar c, decide (b ≠ 0) = true := by
        intro b hb
        rw [decide_eq_true_eq]
        rintro rfl
        exact zero (Utf8.eq_zero_of_mem_utf8EncodeChar hb)
      rw [List.takeWhile_append_of_pos all, ih, List.takeWhile_cons_of_pos (by simpa using zero),
        List.flatMap_cons]

/-- What is read of a text is what stands before its first zero. -/
theorem beforeZero_encode_append (text : String) (rest : List UInt8) :
    beforeZero (Utf8.encode text ++ 0 :: rest) = Utf8.encode (upToZero text) := by
  rw [beforeZero, Utf8.encode_eq_flatMap, Utf8.encode_eq_flatMap, takeWhile_utf8Encode, upToZero,
    String.toList_ofList]

/-- A text is read whole exactly when it has no zeros. -/
theorem beforeZero_eq_encode_iff (text : String) (rest : List UInt8) :
    beforeZero (Utf8.encode text ++ 0 :: rest) = Utf8.encode text ↔ ZeroFree text := by
  constructor
  · intro whole zero
    have none := zero_not_mem_beforeZero (Utf8.encode text ++ 0 :: rest)
    rw [whole] at none
    exact none (Utf8.zero_mem_encode zero)
  · exact fun none => beforeZero_encode none

end Foreign

/-! ### Written numbers -/

theorem zeroFree_append {s t : String} : ZeroFree (s ++ t) ↔ ZeroFree s ∧ ZeroFree t := by
  rw [ZeroFree, String.toList_append, List.mem_append, not_or]
  rfl

theorem zeroFree_repr (n : Nat) : ZeroFree n.repr := by
  intro zero
  rw [Nat.toList_repr] at zero
  exact absurd (Nat.isDigit_of_mem_toDigits (by decide) (by decide) zero) (by decide)

theorem zeroFree_int (n : Int) : ZeroFree n.repr := by
  cases n with
  | ofNat n => exact zeroFree_repr n
  | negSucc n => exact zeroFree_append.2 ⟨by decide, zeroFree_repr _⟩

theorem zeroFree_zeros (n : Nat) : ZeroFree (Decimal.zeros n) := by
  intro zero
  rw [Decimal.zeros, String.toList_ofList] at zero
  exact absurd (List.eq_of_mem_replicate zero) (by decide)

theorem zeroFree_write (d : Decimal.Digits) : ZeroFree (Decimal.plain.write d) := by
  have digits : ZeroFree (toString d.digits) := zeroFree_repr d.digits
  change ZeroFree (Decimal.writeInPlace false (toString d.digits) _)
  rw [Decimal.writeInPlace]
  dsimp only
  split
  · exact zeroFree_append.2 ⟨zeroFree_append.2 ⟨digits, zeroFree_zeros _⟩, by decide⟩
  split
  · refine zeroFree_append.2 ⟨zeroFree_append.2 ⟨fun zero => ?_, by decide⟩, fun zero => ?_⟩
    · rw [String.toList_ofList] at zero
      exact digits (List.mem_of_mem_take zero)
    · rw [String.toList_ofList] at zero
      exact digits (List.mem_of_mem_drop zero)
  · exact zeroFree_append.2 ⟨zeroFree_append.2 ⟨by decide, zeroFree_zeros _⟩, digits⟩

theorem zeroFree_text (x : Float) : ZeroFree (Scalar.text x) := by
  change ZeroFree (Binary64.write Decimal.plain x)
  have sign (negative : Bool) : ZeroFree (if negative then "-" else "") := by
    cases negative <;> decide
  rw [Binary64.write]
  split
  · split
    · exact zeroFree_append.2 ⟨sign _, by decide⟩
    · decide
  split
  · exact zeroFree_append.2 ⟨sign _, by decide⟩
  · exact zeroFree_append.2 ⟨sign _, zeroFree_write _⟩

/-- All that can put a zero into the name of a calculator for tests is the name it was given. -/
theorem zeroFree_description_iff (d : DummyKernel Float) :
    ZeroFree d.description ↔ ZeroFree d.name := by
  have flag (b : Bool) : ZeroFree (toString b) := by cases b <;> decide +kernel
  have words : ZeroFree "dummy test calculator with cutoff: " ∧ ZeroFree " - delta: " ∧
    ZeroFree " - " ∧ ZeroFree "name: " ∧ ZeroFree " - gradients: " := by decide +kernel
  obtain ⟨first, second, dash, third, last⟩ := words
  unfold DummyKernel.description
  simp only [zeroFree_append]
  constructor
  · rintro ⟨-, ⟨⟨-, name⟩, -⟩, -⟩
    exact name
  · intro name
    have cutoff := And.intro (And.intro first (zeroFree_text d.cutoff)) second
    have delta := And.intro cutoff (zeroFree_int d.delta)
    exact ⟨⟨delta, dash⟩, ⟨⟨third, name⟩, last⟩, flag d.gradients⟩

end Atomistic
