import Mathlib.Data.String.Basic
import Ripple.Proofs.Checked
import Ripple.Proofs.JsonScalars
import Ripple.Validation.Instant

/-! # Reading instants that were written

The written form of an instant is read back with its offset cut to whole minutes, towards zero: the
form has no place for the seconds of an offset.
-/
namespace Ripple

/-- The day and the time of day exist, in the years 1 to 9999, and the offset is shorter than a
day. -/
structure Timestamp.Exists (t : Timestamp) : Prop where
  year : 1 ≤ t.date.year ∧ t.date.year ≤ 9999
  month : 1 ≤ t.date.month ∧ t.date.month ≤ 12
  day : 1 ≤ t.date.day ∧ t.date.day ≤ Date.monthLength t.date.year t.date.month
  clock : t.hour < 24 ∧ t.minute < 60 ∧ t.second < 60 ∧ t.micro < 1000000
  offset : ∀ o ∈ t.offset, o.natAbs < 86400

instance (t : Timestamp) : Decidable t.Exists :=
  decidable_of_iff ((1 ≤ t.date.year ∧ t.date.year ≤ 9999) ∧
      (1 ≤ t.date.month ∧ t.date.month ≤ 12) ∧
      (1 ≤ t.date.day ∧ t.date.day ≤ Date.monthLength t.date.year t.date.month) ∧
      (t.hour < 24 ∧ t.minute < 60 ∧ t.second < 60 ∧ t.micro < 1000000) ∧
      ∀ o ∈ t.offset, o.natAbs < 86400)
    ⟨fun ⟨hyear, hmonth, hday, hclock, hoffset⟩ => ⟨hyear, hmonth, hday, hclock, hoffset⟩,
      fun ⟨hyear, hmonth, hday, hclock, hoffset⟩ => ⟨hyear, hmonth, hday, hclock, hoffset⟩⟩

/-- The offset without its seconds. -/
def Timestamp.wholeMinutes (t : Timestamp) : Timestamp :=
  { t with offset := t.offset.map fun o => o.tdiv 60 * 60 }

namespace Checker

theorem isDigit_of_mem_zeroPadded {width n : Nat} {c : Char}
    (h : c ∈ (zeroPadded width n).toList) : c.isDigit = true := by
  rw [zeroPadded, String.toList_append, String.toList_ofList, List.mem_append,
    Json.toList_toString] at h
  rcases h with h | h
  · rw [List.eq_of_mem_replicate h]
    rfl
  · exact Json.isDigit_of_mem_toDigits h

theorem length_zeroPadded {width n : Nat} (hwidth : 0 < width) (h : n < 10 ^ width) :
    (zeroPadded width n).toList.length = width := by
  have hlength : (Nat.toDigits 10 n).length ≤ width :=
    (Nat.length_toDigits_le_iff (by decide) hwidth).mpr h
  rw [zeroPadded, String.toList_append, String.toList_ofList, List.length_append,
    List.length_replicate, ← String.length_toList, Json.toList_toString]
  omega

theorem ofDigits_zeroPadded (width n : Nat) : Json.ofDigits (zeroPadded width n).toList = n := by
  have hzeros : ∀ k, Json.ofDigits (List.replicate k '0' ++ Nat.toDigits 10 n) = n := by
    intro k
    induction k with
    | zero => exact Json.ofDigits_toDigits n
    | succ k ih => exact ih
  rw [zeroPadded, String.toList_append, String.toList_ofList, Json.toList_toString, hzeros]

theorem fixedDigits?_digits {ds : List Char} (h : ∀ c ∈ ds, c.isDigit = true) (n : Nat)
    (rest : List Char) : fixedDigits? ds.length n (ds ++ rest) =
      some (ds.foldl (fun n c => n * 10 + (c.toNat - 48)) n, rest) := by
  induction ds generalizing n with
  | nil => rfl
  | cons c ds ih =>
    obtain ⟨hc, hds⟩ := List.forall_mem_cons.mp h
    rw [List.length_cons, List.cons_append, fixedDigits?, if_pos hc, ih hds, List.foldl_cons]

/-- A number written with leading zeros is read back if it has no more digits than that. -/
theorem fixedDigits?_zeroPadded {width n : Nat} (hwidth : 0 < width) (h : n < 10 ^ width)
    (rest : List Char) :
    fixedDigits? width 0 ((zeroPadded width n).toList ++ rest) = some (n, rest) := by
  have hdigits : ∀ c ∈ (zeroPadded width n).toList, c.isDigit = true :=
    fun _ => isDigit_of_mem_zeroPadded
  have hvalue : (zeroPadded width n).toList.foldl (fun n c => n * 10 + (c.toNat - 48)) 0 = n :=
    ofDigits_zeroPadded width n
  have hread := fixedDigits?_digits hdigits 0 rest
  rw [length_zeroPadded hwidth h, hvalue] at hread
  exact hread

theorem length_le_utf8Len (s : List Char) : s.length ≤ String.utf8Len s := by
  induction s with
  | nil => exact Nat.le_refl 0
  | cons c s ih =>
    have hpos := c.utf8Size_pos
    rw [String.utf8Len_cons, List.length_cons]
    omega

theorem monthLength_le (year month : Nat) : Date.monthLength year month ≤ 31 := by
  rw [Date.monthLength.eq_def]
  split
  · split_ifs <;> decide
  all_goals decide

theorem dayAtStart_text {d : Date} (hyear : d.year ≤ 9999) (hmonth : 1 ≤ d.month ∧ d.month ≤ 12)
    (hday : 1 ≤ d.day ∧ d.day ≤ Date.monthLength d.year d.month) (rest : List Char) :
    dayAtStart ((zeroPadded 4 d.year).toList ++ '-' :: ((zeroPadded 2 d.month).toList ++
      '-' :: ((zeroPadded 2 d.day).toList ++ rest))) = .ok (d, rest) := by
  have hlength := monthLength_le d.year d.month
  have hshort : d.year < 10 ^ 4 ∧ d.month < 10 ^ 2 ∧ d.day < 10 ^ 2 := by omega
  have hsize : ¬ (String.ofList ((zeroPadded 4 d.year).toList ++ '-' ::
      ((zeroPadded 2 d.month).toList ++ '-' :: ((zeroPadded 2 d.day).toList ++ rest)))).utf8ByteSize
        < 10 := by
    refine Nat.not_lt.mpr (Nat.le_trans ?_ (String.utf8ByteSize_ofList _ ▸ length_le_utf8Len _))
    simp only [List.length_append, List.length_cons, length_zeroPadded, Nat.zero_lt_succ, hshort]
    omega
  have hmonthIn : ¬ (d.month < 1 ∨ 12 < d.month) := by omega
  have hdayIn : ¬ (d.day < 1 ∨ Date.monthLength d.year d.month < d.day) := by omega
  rw [dayAtStart, if_neg hsize]
  simp only [fixedDigits?_zeroPadded, Nat.zero_lt_succ, hshort, if_neg hmonthIn, if_neg hdayIn]
  rfl

/-- The text does not go on with the digits or the fraction of a second. -/
def EndsClock (rest : List Char) : Prop :=
  ∀ c ∈ rest.head?, c.isDigit = false ∧ c ≠ '.' ∧ c ≠ ','

/-- The fraction of a second, which stands only where it is not zero. -/
def fractionText (micro : Nat) : List Char :=
  if micro = 0 then [] else '.' :: (zeroPadded 6 micro).toList

theorem clockAtStart_text {hour minute second micro : Nat}
    (h : hour < 24 ∧ minute < 60 ∧ second < 60 ∧ micro < 1000000) {rest : List Char}
    (hrest : EndsClock rest) :
    clockAtStart ((zeroPadded 2 hour).toList ++ ':' :: ((zeroPadded 2 minute).toList ++
      ':' :: ((zeroPadded 2 second).toList ++ (fractionText micro ++ rest)))) =
        .ok (hour, minute, second, micro, rest) := by
  have hshort : hour < 10 ^ 2 ∧ minute < 10 ^ 2 ∧ second < 10 ^ 2 ∧ micro < 10 ^ 6 := by omega
  have hsize : ¬ ((zeroPadded 2 hour).toList ++ ':' :: ((zeroPadded 2 minute).toList ++
      ':' :: ((zeroPadded 2 second).toList ++ (fractionText micro ++ rest)))).length < 5 := by
    simp only [List.length_append, List.length_cons, length_zeroPadded, Nat.zero_lt_succ, hshort]
    omega
  have hhour : ¬ 23 < hour := by omega
  have hminute : ¬ 59 < minute := by omega
  have hsecond : ¬ 59 < second := by omega
  rw [clockAtStart, if_neg hsize]
  simp only [fixedDigits?_zeroPadded, Nat.zero_lt_succ, hshort, if_neg hhour, if_neg hminute,
    if_neg hsecond]
  by_cases hmicro : micro = 0
  · rw [fractionText, if_pos hmicro, List.nil_append, hmicro]
    cases rest with
    | nil => rfl
    | cons c rest =>
      obtain ⟨-, hpoint, hcomma⟩ := hrest c rfl
      simp [hpoint, hcomma, pure, Except.pure]
  · have hdigits : ((zeroPadded 6 micro).toList ++ rest).takeWhile Char.isDigit =
        (zeroPadded 6 micro).toList :=
      Json.takeWhile_isDigit_append (fun _ => isDigit_of_mem_zeroPadded) fun c hc => (hrest c hc).1
    have hsix : (zeroPadded 6 micro).toList.length = 6 :=
      length_zeroPadded (by decide) hshort.2.2.2
    have hnonempty : (zeroPadded 6 micro).toList.isEmpty = false :=
      List.isEmpty_eq_false_iff.mpr (List.ne_nil_of_length_pos (by omega))
    have hvalue :
        (zeroPadded 6 micro).toList.foldl (fun n c => n * 10 + (c.toNat - 48)) 0 = micro :=
      ofDigits_zeroPadded 6 micro
    rw [fractionText, if_neg hmicro, List.cons_append]
    simp only [hdigits, hnonempty, List.take_left' hsix, hvalue, List.drop_left]
    rfl

theorem exists_toList_offsetText (o : Int) : ∃ sign, (sign = '+' ∧ 0 ≤ o ∨ sign = '-' ∧ o < 0) ∧
    (Timestamp.offsetText o).toList = sign :: ((zeroPadded 2 (o.natAbs / 60 / 60)).toList ++
      ':' :: (zeroPadded 2 (o.natAbs / 60 % 60)).toList) := by
  by_cases ho : o < 0
  · exact ⟨'-', .inr ⟨rfl, ho⟩, by simp [Timestamp.offsetText, ho]⟩
  · exact ⟨'+', .inl ⟨rfl, Int.not_lt.mp ho⟩, by simp [Timestamp.offsetText, ho]⟩

theorem offsetAtEnd_offsetText {o : Int} (h : o.natAbs < 86400) :
    offsetAtEnd (Timestamp.offsetText o).toList = .ok (some (o.tdiv 60 * 60)) := by
  have hhours : o.natAbs / 60 / 60 < 10 ^ 2 ∧ ¬ 23 < o.natAbs / 60 / 60 := by omega
  have hminutes : o.natAbs / 60 % 60 < 10 ^ 2 ∧ ¬ 59 < o.natAbs / 60 % 60 := by omega
  obtain ⟨sign, hsign, htext⟩ := exists_toList_offsetText o
  have hread := fixedDigits?_zeroPadded (by decide : 0 < 2) hminutes.1 []
  rw [List.append_nil] at hread
  have htwo : (sign == '+' || sign == '-' || sign == '\u2212') = true := by
    rcases hsign with ⟨rfl, -⟩ | ⟨rfl, -⟩ <;> rfl
  rw [htext, offsetAtEnd, if_pos htwo]
  · simp only [fixedDigits?_zeroPadded (by decide : 0 < 2) hhours.1, List.head?_cons, if_true,
      List.drop_succ_cons, List.drop_zero, hread, if_neg hhours.2, if_neg hminutes.2]
    rcases hsign with ⟨rfl, ho⟩ | ⟨rfl, ho⟩
    · have hseconds : ((o.natAbs / 60 / 60 : Nat) * 60 + (o.natAbs / 60 % 60 : Nat)) * 60 =
          o.tdiv 60 * 60 := by
        rw [Int.tdiv_eq_ediv_of_nonneg ho]
        omega
      exact congrArg (fun seconds => Except.ok (some seconds)) hseconds
    · have hseconds : -(((o.natAbs / 60 / 60 : Nat) * 60 + (o.natAbs / 60 % 60 : Nat)) * 60) =
          o.tdiv 60 * 60 := by
        rw [← Int.neg_neg o, Int.neg_tdiv, Int.tdiv_eq_ediv_of_nonneg (by omega)]
        omega
      exact congrArg (fun seconds => Except.ok (some seconds)) hseconds
  · intro hnil
    simp at hnil

/-- The written offset: nothing, a Z for universal time, or hours and minutes with a sign. -/
def offsetSuffix : Option Int → String
  | none => ""
  | some 0 => "Z"
  | some o => Timestamp.offsetText o

theorem offsetAtEnd_offsetSuffix {offset : Option Int} (h : ∀ o ∈ offset, o.natAbs < 86400) :
    offsetAtEnd (offsetSuffix offset).toList = .ok (offset.map fun o => o.tdiv 60 * 60) := by
  rw [offsetSuffix.eq_def]
  split
  · rfl
  · rfl
  · exact offsetAtEnd_offsetText (h _ rfl)

theorem endsClock_offsetSuffix (offset : Option Int) : EndsClock (offsetSuffix offset).toList := by
  rw [offsetSuffix.eq_def]
  split
  · rintro c ⟨⟩
  · rintro c ⟨⟩
    decide
  · rename_i o _
    obtain ⟨sign, hsign, htext⟩ := exists_toList_offsetText o
    rw [htext]
    rintro c ⟨⟩
    rcases hsign with ⟨rfl, -⟩ | ⟨rfl, -⟩ <;> decide

theorem toList_text (t : Timestamp) : t.text.toList =
    (zeroPadded 4 t.date.year).toList ++ '-' :: ((zeroPadded 2 t.date.month).toList ++
      '-' :: ((zeroPadded 2 t.date.day).toList ++ 'T' :: ((zeroPadded 2 t.hour).toList ++
        ':' :: ((zeroPadded 2 t.minute).toList ++ ':' :: ((zeroPadded 2 t.second).toList ++
          (fractionText t.micro ++ (offsetSuffix t.offset).toList)))))) := by
  have hsuffix : t.text = t.clockText ++ offsetSuffix t.offset := rfl
  have hfraction : (if t.micro = 0 then "" else "." ++ zeroPadded 6 t.micro).toList =
      fractionText t.micro := by
    rw [fractionText]
    split_ifs <;> simp
  rw [hsuffix, Timestamp.clockText]
  simp [hfraction]

/-- An instant is read back from its written form without the seconds of its offset. -/
theorem instant_text {t : Timestamp} (h : t.Exists) :
    instant (.text t.text) = .valid t.wholeMinutes := by
  have hday := dayAtStart_text h.year.2 h.month h.day
  have hclock := clockAtStart_text h.clock (endsClock_offsetSuffix t.offset)
  have hoffset := offsetAtEnd_offsetSuffix h.offset
  have hread : instantOfText t.text.toList = .ok t.wholeMinutes := by
    rw [toList_text, instantOfText, hday]
    simp only [bind, Except.bind, hclock, hoffset]
    rfl
  have hyear : t.wholeMinutes.date.year ≠ 0 := Nat.ne_of_gt h.year.1
  rw [instant, instantInText, hread]
  exact if_neg hyear

end Checker

end Ripple
