import Mathlib.Algebra.Group.Nat.Defs
import Mathlib.Algebra.Ring.Int.Defs
import Mathlib.Data.List.Basic
import Ripple.Json.Reader
import Ripple.Json.Writer

/-! # Reading integers and texts that were written

A written text reads back, whatever its characters are, and so does a written integer in front of
something that does not go on with a number, unless it has more digits than the reader converts.
-/
namespace Ripple.Json

theorem toList_toString (n : Nat) : (toString n).toList = Nat.toDigits 10 n := by
  rw [Nat.toString_eq_ofList_toDigits, String.toList_ofList]

theorem ofDigits_toDigits (n : Nat) : ofDigits (Nat.toDigits 10 n) = n := by
  have h := @Nat.ofDigitChars_ten_toDigits n
  have hzero : '0'.toNat = 48 := rfl
  rw [Nat.ofDigitChars_eq_foldl] at h
  simpa only [ofDigits, Nat.mul_comm, hzero] using h

theorem isDigit_of_mem_toDigits {n : Nat} {c : Char} (h : c ∈ Nat.toDigits 10 n) :
    c.isDigit = true :=
  Nat.isDigit_of_mem_toDigits (by decide) (by decide) h

/-- Only zero is written with a zero in front. -/
theorem eq_zero_of_head?_toDigits {n : Nat} (h : (Nat.toDigits 10 n).head? = some '0') : n = 0 := by
  induction n using Nat.strongRecOn with
  | ind n ih =>
    by_cases hn : n < 10
    · rw [Nat.toDigits_of_lt_base hn] at h
      simpa [Nat.digitChar_eq_zero] using h
    · rw [Nat.toDigits_of_base_le (by decide) (Nat.not_lt.mp hn), List.head?_append,
        List.head?_eq_some_head Nat.toDigits_ne_nil, Option.some_or, ← List.head?_eq_some_head] at h
      have hzero := ih (n / 10) (Nat.div_lt_self (by omega) (by decide)) h
      omega

theorem takeWhile_isDigit_append {ds rest : List Char} (h : ∀ c ∈ ds, c.isDigit = true)
    (hrest : ∀ c ∈ rest.head?, c.isDigit = false) : (ds ++ rest).takeWhile Char.isDigit = ds := by
  rw [List.takeWhile_append_of_pos h]
  cases rest with
  | nil => rw [List.takeWhile_nil, List.append_nil]
  | cons c rest =>
    rw [List.takeWhile_cons, hrest c rfl, if_neg Bool.false_ne_true, List.append_nil]

/-- The text does not go on with a number. -/
def EndsNumber (rest : List Char) : Prop :=
  ∀ c ∈ rest.head?, c.isDigit = false ∧ c ≠ '.' ∧ c ≠ 'e' ∧ c ≠ 'E'

theorem EndsNumber.takeExponent? {rest : List Char} (h : EndsNumber rest) :
    takeExponent? rest = none := by
  cases rest with
  | nil => rfl
  | cons c rest =>
    obtain ⟨-, -, he, hE⟩ := h c rfl
    simp [Json.takeExponent?, he, hE]

/-- The integer has no more digits than the reader converts. -/
def Convertible (i : Int) : Prop := (toString i.natAbs).length ≤ digitLimit

instance (i : Int) : Decidable (Convertible i) := inferInstanceAs (Decidable (_ ≤ _))

theorem convertible_iff (i : Int) : Convertible i ↔ i.natAbs < 10 ^ digitLimit := by
  rw [Convertible, ← String.length_toList, toList_toString,
    Nat.length_toDigits_le_iff (by decide) (by decide)]

theorem not_convertible_pow {k : Nat} (h : digitLimit ≤ k) : ¬ Convertible (10 ^ k) := by
  rw [convertible_iff, Int.natAbs_pow]
  exact Nat.not_lt.mpr (Nat.pow_le_pow_right (by decide) h)

theorem takeSign_digit {c : Char} {s : List Char} (h : c.isDigit = true) :
    takeSign (c :: s) = (false, c :: s) := by
  have hc : c ≠ '-' := by
    rintro rfl
    cases h
  rw [takeSign]
  simpa using hc

theorem takeWhole_toDigits (n : Nat) {rest : List Char} (h : EndsNumber rest) :
    takeWhole (Nat.toDigits 10 n ++ rest) = Nat.toDigits 10 n := by
  rw [takeWhole.eq_def]
  split
  · rename_i more hmore
    have hzero : n = 0 := by
      refine eq_zero_of_head?_toDigits ?_
      rw [← List.head?_append_of_ne_nil _ Nat.toDigits_ne_nil, hmore]
      rfl
    rw [hzero]
    rfl
  · exact takeWhile_isDigit_append (fun c hc => isDigit_of_mem_toDigits hc) fun c hc => (h c hc).1

theorem EndsNumber.takeFraction {rest : List Char} (h : EndsNumber rest) :
    takeFraction rest = ([], rest) := by
  rw [Json.takeFraction.eq_def]
  split
  · exact absurd rfl (h '.' rfl).2.1
  · rfl

theorem readNumber_of_takeSign {start rest : List Char} {negative : Bool} {n : Nat}
    (hstart : takeSign start = (negative, Nat.toDigits 10 n ++ rest)) (h : EndsNumber rest) :
    (readNumber start).toOption = if (Nat.toDigits 10 n).length ≤ digitLimit then
      some (.int (if negative then -n else n), rest) else none := by
  have hne : (Nat.toDigits 10 n).isEmpty = false :=
    List.isEmpty_eq_false_iff.mpr Nat.toDigits_ne_nil
  unfold readNumber
  simp only [hstart, takeWhole_toDigits n h, List.drop_left, h.takeFraction, h.takeExponent?,
    ofDigits_toDigits, hne, Bool.false_eq_true, if_false]
  by_cases hlong : digitLimit < (Nat.toDigits 10 n).length
  · rw [if_pos hlong, if_neg (Nat.not_le.mpr hlong)]
    rfl
  · rw [if_neg hlong, if_pos (Nat.not_lt.mp hlong)]
    rfl

theorem toList_toString_int (i : Int) :
    (toString i).toList = (if i < 0 then ['-'] else []) ++ Nat.toDigits 10 i.natAbs := by
  rw [Int.toString_eq_repr, Int.repr_eq_if]
  by_cases hi : i < 0
  · have habs : (-i).toNat = i.natAbs := by omega
    rw [if_neg (by omega), if_pos hi, habs, Nat.repr_eq_ofList_toDigits]
    simp
  · have habs : i.toNat = i.natAbs := by omega
    rw [if_pos (by omega), if_neg hi, habs, Nat.repr_eq_ofList_toDigits, String.toList_ofList]
    rfl

/-- An integer reads back as long as it has not too many digits. -/
theorem readNumber_toString (i : Int) {rest : List Char} (h : EndsNumber rest) :
    (readNumber ((toString i).toList ++ rest)).toOption =
      if Convertible i then some (.int i, rest) else none := by
  have hsign : takeSign ((toString i).toList ++ rest) =
      (decide (i < 0), Nat.toDigits 10 i.natAbs ++ rest) := by
    rw [toList_toString_int]
    by_cases hi : i < 0
    · simp [hi, takeSign]
    · obtain ⟨d, ds, hd⟩ :=
        List.exists_cons_of_ne_nil (Nat.toDigits_ne_nil (n := i.natAbs) (b := 10))
      have hdigit : d.isDigit = true := isDigit_of_mem_toDigits (hd ▸ List.mem_cons_self)
      simp [hi, hd, takeSign_digit hdigit]
  have hvalue : (if decide (i < 0) = true then -(i.natAbs : Int) else i.natAbs) = i := by
    by_cases hi : i < 0
    · rw [decide_eq_true hi, if_pos rfl]
      omega
    · rw [decide_eq_false hi, if_neg Bool.false_ne_true]
      omega
  have hlength : Convertible i ↔ (Nat.toDigits 10 i.natAbs).length ≤ digitLimit := by
    rw [Convertible, ← String.length_toList, toList_toString]
  rw [readNumber_of_takeSign hsign h, hvalue]
  simp only [hlength]

theorem hexValue?_digitChar : ∀ k < 16, hexValue? (Nat.digitChar k) = some k := by decide

theorem fourHex?_hexFour {n : Nat} (hn : n < 0x10000) {rest : List Char} (hrest : rest ≠ []) :
    fourHex? (hexFour n ++ rest) = some (n, rest) := by
  have hdigit : ∀ m : Nat, hexValue? (Nat.digitChar (m % 16)) = some (m % 16) :=
    fun m => hexValue?_digitChar _ (Nat.mod_lt _ (by decide))
  have hsum : ((n / 4096 % 16 * 16 + n / 256 % 16) * 16 + n / 16 % 16) * 16 + n % 16 = n := by
    omega
  simp [hexFour, fourHex?, hdigit, hsum, hrest]

theorem readUnicode_hexFour {n : Nat} (hn : n < 0xd800) (escape : List Char) {rest : List Char}
    (hrest : rest ≠ []) :
    readUnicode escape (hexFour n ++ rest) = .ok (some (Char.ofNat n), rest) := by
  have hhigh : isHighHalf n = false := by
    rw [isHighHalf, Bool.and_eq_false_iff]
    exact .inl (by simpa using hn)
  have hlow : isLowHalf n = false := by
    rw [isLowHalf, Bool.and_eq_false_iff]
    exact .inl (by simp; omega)
  rw [readUnicode, fourHex?_hexFour (by omega) hrest]
  simp [hhigh, hlow]

theorem readString_plain (opening : List Char) (fuel : Nat) (draft : Draft) {c : Char}
    (hquote : c ≠ '"') (hslash : c ≠ '\\') (hc : 32 ≤ c.toNat) (rest : List Char) :
    readString opening (fuel + 1) draft (c :: rest) =
      readString opening fuel (draft.map (c :: ·)) rest := by
  rw [readString.eq_def]
  dsimp only
  split
  case h_6 d s hd =>
    obtain ⟨rfl, rfl⟩ := List.cons.inj hd
    exact if_neg (Nat.not_lt.mpr hc)
  all_goals simp_all

/-- A written character is read in one step. -/
theorem readString_charText (opening : List Char) (fuel : Nat) (draft : List Char) (c : Char)
    {rest : List Char} (hrest : rest ≠ []) :
    readString opening (fuel + 1) (some draft) (charText false c ++ rest) =
      readString opening fuel (some (c :: draft)) rest := by
  rw [charText.eq_def]
  split
  case h_8 hquote hslash _ _ _ _ _ =>
    by_cases hc : c.toNat < 32
    · have hread := readUnicode_hexFour (Nat.lt_trans hc (by decide))
        ('u' :: (hexFour c.toNat ++ rest)) hrest
      rw [Char.ofNat_toNat] at hread
      rw [if_pos hc, unitEscape, List.cons_append, List.cons_append, readString, hread]
      rfl
    · have hplain : (decide (c.toNat < 128) || !false) = true := by simp
      simp only [if_neg hc, if_pos hplain, List.cons_append, List.nil_append]
      exact readString_plain opening fuel (some draft) hquote hslash (Nat.not_lt.mp hc) rest
  all_goals rfl

theorem readString_flatMap (opening : List Char) (s : List Char) (draft rest : List Char)
    {fuel : Nat} (hfuel : s.length < fuel) :
    readString opening fuel (some draft) (s.flatMap (charText false) ++ '"' :: rest) =
      .ok (.text (String.ofList (draft.reverse ++ s)), rest) := by
  induction s generalizing draft fuel with
  | nil =>
    cases fuel with
    | zero => cases hfuel
    | succ fuel => simp [readString, Draft.finish]
  | cons c s ih =>
    cases fuel with
    | zero => cases hfuel
    | succ fuel =>
      rw [List.flatMap_cons, List.append_assoc, readString_charText opening fuel draft c (by simp),
        ih _ (Nat.lt_of_succ_lt_succ hfuel)]
      simp

theorem charText_ne_nil (latinOnly : Bool) (c : Char) : charText latinOnly c ≠ [] := by
  rw [charText.eq_def]
  split
  case h_8 =>
    dsimp only
    split_ifs <;> simp [unitEscape]
  all_goals simp

theorem length_le_flatMap_charText (latinOnly : Bool) (s : List Char) :
    s.length ≤ (s.flatMap (charText latinOnly)).length := by
  induction s with
  | nil => exact Nat.le_refl 0
  | cons c s ih =>
    have hpos := List.length_pos_iff.mpr (charText_ne_nil latinOnly c)
    rw [List.flatMap_cons, List.length_append, List.length_cons]
    omega

/-- A written string reads back. -/
theorem readString_text (opening : List Char) (s : String) (rest : List Char) :
    readString opening ((s.toList.flatMap (charText false) ++ '"' :: rest).length + 1) (some [])
      (s.toList.flatMap (charText false) ++ '"' :: rest) = .ok (.text s, rest) := by
  have hlength := length_le_flatMap_charText false s.toList
  rw [readString_flatMap]
  · simp
  · rw [List.length_append]
    omega

end Ripple.Json
