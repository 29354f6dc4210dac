import Mathlib.Tactic.SplitIfs
import Ripple.Text.Utf8

/-! # Reading back the octets of a text

A text is written with the octets of its characters in a row. Each character announces how many
octets it takes, so the reader finds the same characters again, and nothing to replace.
-/
namespace Ripple.Text.Utf8

theorem toList_loop (octets : ByteArray) (i : Nat) (done : List UInt8) :
    ByteArray.toList.loop octets i done = done.reverse ++ octets.data.toList.drop i := by
  induction hleft : octets.size - i generalizing i done with
  | zero =>
    have hend : octets.data.toList.length ≤ i := by
      rw [Array.length_toList, ByteArray.size_data]
      omega
    rw [ByteArray.toList.loop, if_neg (by omega), List.drop_eq_nil_of_le hend, List.append_nil]
  | succ left ih =>
    have hi : i < octets.data.toList.length := by
      rw [Array.length_toList, ByteArray.size_data]
      omega
    have hget : octets.get! i = octets.data.toList[i] := by
      rw [Array.getElem_toList]
      exact getElem!_pos octets.data i (by simpa using hi)
    rw [ByteArray.toList.loop, if_pos (by omega), ih (i + 1) _ (by omega),
      List.drop_eq_getElem_cons hi, hget]
    simp

/-- The octets of a text are those of its characters. -/
theorem encode_ofList (s : List Char) :
    encode (String.ofList s) = s.flatMap String.utf8EncodeChar := by
  have hbytes : (String.ofList s).toUTF8 = (s.flatMap String.utf8EncodeChar).toByteArray :=
    String.toByteArray_ofList
  rw [encode, hbytes, ByteArray.toList, toList_loop, List.data_toByteArray]
  rfl

theorem continuation_octet {low high n : Nat} (hlow : low ≤ n % 64 + 128)
    (hhigh : n % 64 + 128 ≤ high) (bits owed used : Nat) (rest : List UInt8) :
    continuation bits (owed + 1) low high used (UInt8.ofNat (n % 64 + 128) :: rest) =
      continuation (bits * 64 + n % 64) owed 0x80 0xbf (used + 1) rest := by
  have hn : (UInt8.ofNat (n % 64 + 128)).toNat = n % 64 + 128 :=
    UInt8.toNat_ofNat_of_lt' (show n % 64 + 128 < 256 by omega)
  rw [continuation, hn, if_pos ⟨hlow, hhigh⟩, Nat.add_sub_cancel]

theorem step_of_announce {b : UInt8} {bits owed low high : Nat}
    (h : announce? b = some (bits, owed, low, high)) (rest : List UInt8) {n used : Nat}
    (hrest : continuation bits owed low high 1 rest = .ok (n, used)) :
    step b rest = .ok (Char.ofNat n, used) := by
  rw [step, h]
  simp only [hrest]

theorem announce?_of_lt {n : Nat} (h : n < 0x80) :
    announce? (UInt8.ofNat n) = some (n, 0, 0, 0) := by
  have hn : (UInt8.ofNat n).toNat = n := UInt8.toNat_ofNat_of_lt' (show n < 256 by omega)
  rw [announce?, hn]
  exact if_pos h

/-- The first of two octets. -/
theorem announce?_two {n : Nat} (hlow : 2 ≤ n) (hhigh : n < 32) :
    announce? (UInt8.ofNat (n + 0xc0)) = some (n, 1, 0x80, 0xbf) := by
  have hn : (UInt8.ofNat (n + 0xc0)).toNat = n + 0xc0 :=
    UInt8.toNat_ofNat_of_lt' (show n + 0xc0 < 256 by omega)
  rw [announce?, hn]
  simp (disch := omega) only [if_neg, if_pos, Nat.add_sub_cancel]

/-- The first of three octets. Behind two of them the second one has a smaller range. -/
theorem announce?_three {n : Nat} (h : n < 16) : announce? (UInt8.ofNat (n + 0xe0)) =
    some (n, 2, if n = 0 then 0xa0 else 0x80, if n = 13 then 0x9f else 0xbf) := by
  decide +revert

/-- The first of four octets. -/
theorem announce?_four {n : Nat} (h : n < 5) : announce? (UInt8.ofNat (n + 0xf0)) =
    some (n, 3, if n = 0 then 0x90 else 0x80, if n = 4 then 0x8f else 0xbf) := by
  decide +revert

/-- A character is read from its octets, whatever follows them. -/
theorem step_utf8EncodeChar (c : Char) : ∃ b more, String.utf8EncodeChar c = b :: more ∧
    ∀ rest, step b (more ++ rest) = .ok (c, more.length + 1) := by
  have hchar : Char.ofNat c.val.toNat = c := Char.ofNat_toNat c
  have hvalid : c.val.toNat < 0xd800 ∨ 0xdfff < c.val.toNat ∧ c.val.toNat < 0x110000 := c.valid
  rw [String.utf8EncodeChar.eq_1]
  generalize c.val.toNat = n at hchar hvalid
  subst hchar
  split_ifs with hone htwo hthree
  · refine ⟨_, _, rfl, fun rest => ?_⟩
    exact step_of_announce (announce?_of_lt (by omega)) _ rfl
  · have hlead : n / 64 % 32 = n / 64 := Nat.mod_eq_of_lt (by omega)
    refine ⟨_, _, rfl, fun rest => ?_⟩
    rw [hlead]
    refine step_of_announce (announce?_two (by omega) (by omega)) _ ?_
    rw [List.singleton_append, continuation_octet (by omega) (by omega), continuation]
    have hsum : n / 64 * 64 + n % 64 = n := by omega
    rw [hsum]
    rfl
  · have hlead : n / 4096 % 16 = n / 4096 := Nat.mod_eq_of_lt (by omega)
    refine ⟨_, _, rfl, fun rest => ?_⟩
    rw [hlead]
    refine step_of_announce (announce?_three (by omega)) _ ?_
    rw [List.cons_append, continuation_octet (by split_ifs <;> omega) (by split_ifs <;> omega),
      List.cons_append, continuation_octet (by omega) (by omega), continuation]
    have hsum : (n / 4096 * 64 + n / 64 % 64) * 64 + n % 64 = n := by omega
    rw [hsum]
    rfl
  · have hlead : n / 262144 % 8 = n / 262144 := Nat.mod_eq_of_lt (by omega)
    refine ⟨_, _, rfl, fun rest => ?_⟩
    rw [hlead]
    refine step_of_announce (announce?_four (by omega)) _ ?_
    rw [List.cons_append, continuation_octet (by split_ifs <;> omega) (by split_ifs <;> omega),
      List.cons_append, continuation_octet (by omega) (by omega),
      List.cons_append, continuation_octet (by omega) (by omega), continuation]
    have hsum : ((n / 262144 * 64 + n / 4096 % 64) * 64 + n / 64 % 64) * 64 + n % 64 = n := by
      omega
    rw [hsum]
    rfl

theorem decodeLossyFrom_flatMap (s : List Char) {fuel : Nat}
    (hfuel : (s.flatMap String.utf8EncodeChar).length ≤ fuel) :
    decodeLossyFrom fuel (s.flatMap String.utf8EncodeChar) = s := by
  induction s generalizing fuel with
  | nil => cases fuel <;> rfl
  | cons c rest ih =>
    obtain ⟨b, more, hc, hstep⟩ := step_utf8EncodeChar c
    rw [List.flatMap_cons, hc, List.cons_append] at hfuel ⊢
    cases fuel with
    | zero => simp at hfuel
    | succ fuel =>
      rw [List.length_cons, List.length_append] at hfuel
      rw [decodeLossyFrom, hstep]
      simp only [Nat.add_sub_cancel, List.drop_left]
      rw [ih (by omega)]

/-- Nothing is replaced in a text that was written. -/
theorem decodeLossy_encode (s : String) : decodeLossy (encode s) = s.toList := by
  rw [← String.ofList_toList (s := s), encode_ofList, decodeLossy,
    decodeLossyFrom_flatMap _ (Nat.le_refl _), String.toList_ofList]

end Ripple.Text.Utf8
