import Formwork.Expr.Scan
import Formwork.Proofs.Number.ReadBack
import Formwork.Value.Basic

/-!
# Texts of numbers

The text of a nonnegative number is scanned whole and reads back as the number. Each of the four
layouts denotes the digits times the same power of ten.
-/

namespace Formwork

open Scan

theorem span_append {p : Char → Bool} {cs rest : List Char} (all : ∀ c ∈ cs, p c = true)
    (ends : ∀ c ∈ rest.head?, p c = false) :
    (cs ++ rest).takeWhile p = cs ∧ (cs ++ rest).dropWhile p = rest := by
  have none_behind : rest.takeWhile p = [] ∧ rest.dropWhile p = rest := by
    cases rest with
    | nil => exact ⟨rfl, rfl⟩
    | cons c rest => simp [ends c rfl]
  rw [List.takeWhile_append_of_pos all, List.dropWhile_append_of_pos all, none_behind.1,
    none_behind.2, List.append_nil]
  exact ⟨rfl, rfl⟩

namespace Decimal

def AllDigits (cs : List Char) : Prop := ∀ c ∈ cs, c.isDigit = true

/-- The text does not start with a digit. -/
def NoDigit (rest : List Char) : Prop := ∀ c ∈ rest.head?, c.isDigit = false

theorem digitsValue_eq (acc : Nat) (cs : List Char) :
    digitsValue acc cs = Nat.ofDigitChars 10 cs acc := by
  simp only [digitsValue, Nat.ofDigitChars_eq_foldl, Nat.mul_comm 10]
  rfl

theorem digitsValue_append (acc : Nat) (cs ds : List Char) :
    digitsValue acc (cs ++ ds) = digitsValue (digitsValue acc cs) ds := by
  simp only [digitsValue_eq, Nat.ofDigitChars_append]

theorem digitsValue_zeros (acc n : Nat) :
    digitsValue acc (List.replicate n '0') = acc * 10 ^ n := by
  rw [digitsValue_eq, Nat.ofDigitChars_replicate_zero, Nat.mul_comm]

theorem digitsValue_toDigits (n : Nat) : digitsValue 0 (Nat.toDigits 10 n) = n := by
  rw [digitsValue_eq, Nat.ofDigitChars_toDigits (by decide) (by decide)]

theorem allDigits_toDigits (n : Nat) : AllDigits (Nat.toDigits 10 n) :=
  fun _ mem => Nat.isDigit_of_mem_toDigits (by decide) (by decide) mem

theorem allDigits_zeros (n : Nat) : AllDigits (List.replicate n '0') := by
  intro c mem
  rw [List.eq_of_mem_replicate mem]
  rfl

theorem AllDigits.append {cs ds : List Char} (h : AllDigits cs) (h' : AllDigits ds) :
    AllDigits (cs ++ ds) := List.forall_mem_append.2 ⟨h, h'⟩

section Read

variable {whole fraction rest : List Char}

theorem read?_whole (nonempty : whole ≠ []) (digits : AllDigits whole) (ends : NoDigit rest)
    (no_point : rest.head? ≠ some '.') :
    read? (whole ++ rest) = (readExponent rest).map fun e => ⟨digitsValue 0 whole, e⟩ := by
  obtain ⟨taken, left⟩ := span_append digits ends
  have some_digit : whole.isEmpty = false := by simpa using nonempty
  simp only [read?, taken, left, some_digit, Bool.false_and]
  cases rest with
  | nil => simp [digitsValue]
  | cons c rest =>
      have other : c ≠ '.' := fun point => no_point (congrArg some point)
      simp [digitsValue, other]

theorem read?_point (nonempty : whole ≠ []) (digits : AllDigits whole)
    (digits' : AllDigits fraction) (ends : NoDigit rest) :
    read? (whole ++ '.' :: (fraction ++ rest)) = (readExponent rest).map fun e =>
      ⟨digitsValue 0 (whole ++ fraction), e - fraction.length⟩ := by
  have point : NoDigit ('.' :: (fraction ++ rest)) := by
    rintro c ⟨⟩
    rfl
  obtain ⟨taken, left⟩ := span_append digits point
  obtain ⟨taken', left'⟩ := span_append digits' ends
  have some_digit : whole.isEmpty = false := by simpa using nonempty
  simp only [read?, taken, left, taken', left', some_digit, Bool.false_and, digitsValue_append]
  rfl

end Read

def exponentPart (e : Int) : List Char :=
  'e' :: (if e < 0 then '-' else '+') :: Nat.toDigits 10 e.natAbs

theorem readExponent_exponentPart (e : Int) : readExponent (exponentPart e) = some e := by
  have nonempty : (Nat.toDigits 10 e.natAbs).isEmpty = false := by simp
  have digits : (Nat.toDigits 10 e.natAbs).all Char.isDigit = true :=
    List.all_eq_true.2 (allDigits_toDigits e.natAbs)
  unfold exponentPart
  split
  · simp only [readExponent, nonempty, digits, digitsValue_toDigits]
    exact congrArg some (by omega)
  · simp only [readExponent, nonempty, digits, digitsValue_toDigits]
    exact congrArg some (by omega)

theorem value_zeros (digits z : ℕ) (p : ℤ) : value ⟨digits * 10 ^ z, p⟩ = value ⟨digits, p + z⟩ := by
  rw [value, value, zpow_add₀ (by norm_num), zpow_natCast]
  push_cast
  ring

end Decimal

open Decimal

/-- The text is scanned whole as a number and denotes this decimal. -/
def Numeral (cs : List Char) (d : Decimal) : Prop :=
  (∃ c rest, cs = c :: rest ∧ c.isDigit = true ∧ numberSpan c rest = (rest, [])) ∧
    read? cs = some d

namespace Numeral

/-- The end of a numeral after its digits: nothing, or an exponent. -/
structure Ends (tail : List Char) (e : ℤ) : Prop where
  no_digit : NoDigit tail
  no_point : tail.head? ≠ some '.'
  spans : ∀ before, numberSpan before tail = (tail, [])
  reads : readExponent tail = some e

theorem numberSpan_append {cs tail : List Char} {e : ℤ}
    (plain : ∀ c ∈ cs, c.isDigit = true ∨ c = '.') (ends : Ends tail e) (before : Char) :
    numberSpan before (cs ++ tail) = (cs ++ tail, []) := by
  induction cs generalizing before with
  | nil => exact ends.spans before
  | cons c rest ih =>
      rw [List.forall_mem_cons] at plain
      rw [List.cons_append, numberSpan, if_pos, ih plain.2]
      rcases plain.1 with digit | rfl
      · simp [digit]
      · simp

theorem ends_nil : Ends [] 0 where
  no_digit := nofun
  no_point := nofun
  spans _ := rfl
  reads := rfl

theorem ends_exponentPart (e : ℤ) : Ends (exponentPart e) e where
  no_digit := by
    rintro c ⟨⟩
    rfl
  no_point := by simp [exponentPart]
  spans before := by
    have digits (before : Char) :
        numberSpan before (Nat.toDigits 10 e.natAbs) = (Nat.toDigits 10 e.natAbs, []) := by
      have spans := numberSpan_append
        (fun c mem => .inl (allDigits_toDigits e.natAbs c mem)) ends_nil before
      rwa [List.append_nil] at spans
    unfold exponentPart
    split <;> simp [numberSpan, digits]
  reads := readExponent_exponentPart e

section Parts

variable {whole fraction tail : List Char} {e : ℤ}

theorem of_append {c : Char} {cs : List Char} {d : Decimal} (digit : c.isDigit = true)
    (plain : ∀ c ∈ cs, c.isDigit = true ∨ c = '.') (ends : Ends tail e)
    (reads : read? (c :: cs ++ tail) = some d) : Numeral (c :: cs ++ tail) d :=
  ⟨⟨c, cs ++ tail, rfl, digit, numberSpan_append plain ends c⟩, reads⟩

theorem of_whole (nonempty : whole ≠ []) (digits : AllDigits whole) (ends : Ends tail e) :
    Numeral (whole ++ tail) ⟨digitsValue 0 whole, e⟩ := by
  have reads := read?_whole nonempty digits ends.no_digit ends.no_point
  rw [ends.reads, Option.map_some] at reads
  cases whole with
  | nil => exact (nonempty rfl).elim
  | cons c rest =>
      obtain ⟨digit, more⟩ := List.forall_mem_cons.1 digits
      exact of_append digit (fun c mem => .inl (more c mem)) ends reads

theorem of_point (nonempty : whole ≠ []) (digits : AllDigits whole) (digits' : AllDigits fraction)
    (ends : Ends tail e) : Numeral (whole ++ '.' :: (fraction ++ tail))
      ⟨digitsValue 0 (whole ++ fraction), e - fraction.length⟩ := by
  have reads := read?_point nonempty digits digits' ends.no_digit
  rw [ends.reads, Option.map_some] at reads
  cases whole with
  | nil => exact (nonempty rfl).elim
  | cons c rest =>
      obtain ⟨digit, more⟩ := List.forall_mem_cons.1 digits
      have plain : ∀ c ∈ rest ++ '.' :: fraction, c.isDigit = true ∨ c = '.' := by
        simp only [List.forall_mem_append, List.forall_mem_cons]
        exact ⟨fun c mem => .inl (more c mem), .inr trivial, fun c mem => .inl (digits' c mem)⟩
      have regrouped : c :: rest ++ '.' :: (fraction ++ tail) =
          c :: (rest ++ '.' :: fraction) ++ tail := by simp
      rw [regrouped] at reads ⊢
      exact of_append digit plain ends reads

end Parts

end Numeral

namespace Finite

open Numeral

variable {digits : List Char}

theorem toList_zeros (n : Nat) : (zeros n).toList = List.replicate n '0' := String.toList_ofList

/-- `0.000ddd` -/
theorem numeral_small (all : AllDigits digits) (n : ℕ) :
    Numeral ("0." ++ zeros n ++ String.ofList digits).toList
      ⟨digitsValue 0 digits, -(n + digits.length : ℕ)⟩ := by
  have numeral := of_point (List.cons_ne_nil '0' []) (List.forall_mem_singleton.2 rfl)
    ((allDigits_zeros n).append all) ends_nil
  have start : "0.".toList = ['0', '.'] := by decide
  have zero : digitsValue 0 ['0'] = 0 := rfl
  rw [digitsValue_append, digitsValue_append, digitsValue_zeros, zero, Nat.zero_mul,
    List.append_nil, List.length_append, List.length_replicate, zero_sub] at numeral
  simpa only [String.toList_append, toList_zeros, String.toList_ofList, start, List.append_assoc,
    List.cons_append, List.nil_append] using numeral

/-- `ddd000.0` -/
theorem numeral_large (nonempty : digits ≠ []) (all : AllDigits digits) (n : ℕ) :
    Numeral (String.ofList digits ++ zeros n ++ ".0").toList
      ⟨digitsValue 0 digits * 10 ^ (n + 1), -1⟩ := by
  have numeral := of_point (List.append_ne_nil_of_left_ne_nil nonempty (List.replicate n '0'))
    (all.append (allDigits_zeros n)) (List.forall_mem_singleton.2 rfl : AllDigits ['0']) ends_nil
  have mark : ".0".toList = ['.', '0'] := by decide
  have zero : ['0'] = List.replicate 1 '0' := rfl
  have whole : digitsValue 0 (digits ++ List.replicate n '0' ++ ['0']) =
      digitsValue 0 digits * 10 ^ (n + 1) := by
    rw [digitsValue_append, digitsValue_append, digitsValue_zeros, zero, digitsValue_zeros,
      Nat.pow_one, Nat.pow_succ, Nat.mul_assoc]
  rw [whole] at numeral
  simp only [String.toList_append, toList_zeros, String.toList_ofList, mark]
  exact numeral

/-- `dd.ddd` -/
theorem numeral_middle (all : AllDigits digits) {n : ℕ} (positive : 0 < n)
    (fraction : n < digits.length) :
    Numeral (String.ofList (digits.take n) ++ "." ++ String.ofList (digits.drop n)).toList
      ⟨digitsValue 0 digits, n - digits.length⟩ := by
  have nonempty : digits.take n ≠ [] := by
    rw [← List.length_pos_iff, List.length_take]
    omega
  have numeral := of_point nonempty (fun c mem => all c (List.mem_of_mem_take mem))
    (fun c mem => all c (List.mem_of_mem_drop mem) : AllDigits (digits.drop n)) ends_nil
  have point : ".".toList = ['.'] := by decide
  have length : (0 : ℤ) - (digits.drop n).length = n - digits.length := by
    rw [List.length_drop]
    omega
  rw [List.take_append_drop, length, List.append_nil] at numeral
  simpa only [String.toList_append, String.toList_ofList, point, List.append_assoc,
    List.cons_append, List.nil_append] using numeral

theorem toList_exponentPart (mantissa : String) (e : ℤ) :
    (mantissa ++ "e" ++ (if e < 0 then "-" else "+") ++ toString e.natAbs).toList =
      mantissa.toList ++ exponentPart e := by
  unfold exponentPart
  split <;> simp

/-- `d.ddde-9` -/
theorem numeral_exponent {d : Char} {rest : List Char} (all : AllDigits (d :: rest)) (e : ℤ) :
    Numeral ((match d :: rest with
        | [] => ""
        | [d] => String.ofList [d]
        | d :: rest => String.ofList [d] ++ "." ++ String.ofList rest) ++
      "e" ++ (if e < 0 then "-" else "+") ++ toString e.natAbs).toList
      ⟨digitsValue 0 (d :: rest), e - rest.length⟩ := by
  rw [toList_exponentPart]
  cases rest with
  | nil =>
      have numeral := of_whole (List.cons_ne_nil d []) all (ends_exponentPart e)
      simpa using numeral
  | cons d' rest =>
      obtain ⟨digit, more⟩ := List.forall_mem_cons.1 all
      have numeral := of_point (List.cons_ne_nil d []) (List.forall_mem_singleton.2 digit)
        (more : AllDigits (d' :: rest)) (ends_exponentPart e)
      have point : ".".toList = ['.'] := by decide
      simpa only [String.toList_append, String.toList_ofList, point, List.append_assoc,
        List.cons_append, List.nil_append] using numeral

/-- Every layout denotes the digits with the point after the first one, times the power of ten. -/
theorem exists_numeral_layout (nonempty : digits ≠ []) (all : AllDigits digits) (e : Int) :
    ∃ d, Numeral (layout .document digits e).toList d ∧
      d.value = value ⟨digitsValue 0 digits, e + 1 - digits.length⟩ := by
  unfold layout
  simp only
  split
  · split
    · next negative =>
      refine ⟨_, numeral_small all _, congrArg (fun p => value ⟨_, p⟩) ?_⟩
      omega
    · split
      · next whole =>
        refine ⟨_, numeral_large nonempty all _, ?_⟩
        rw [value_zeros]
        refine congrArg (fun p => value ⟨_, p⟩) ?_
        omega
      · next fraction =>
        refine ⟨_, numeral_middle all (Nat.succ_pos _) (by omega), congrArg (fun p => value ⟨_, p⟩) ?_⟩
        omega
  · cases digits with
    | nil => exact (nonempty rfl).elim
    | cons d rest =>
        refine ⟨_, numeral_exponent all e, congrArg (fun p => value ⟨_, p⟩) ?_⟩
        rw [List.length_cons]
        omega

theorem exists_stripZeros (digits : List Char) :
    ∃ z, digits = stripZeros digits ++ List.replicate z '0' := by
  let behind := digits.reverse.takeWhile (· == '0')
  have zeros : behind = List.replicate behind.length '0' := by
    refine List.eq_replicate_of_mem fun c mem => ?_
    simpa using List.all_eq_true.1 List.all_takeWhile c mem
  refine ⟨behind.length, ?_⟩
  have split : digits.reverse = behind ++ digits.reverse.dropWhile (· == '0') :=
    List.takeWhile_append_dropWhile.symm
  have reversed := congrArg List.reverse split
  rw [List.reverse_reverse, List.reverse_append] at reversed
  rw [stripZeros, ← List.reverse_replicate, ← zeros]
  exact reversed

/-- The text of a nonzero double reads back as the double. -/
theorem exists_numeral_text {x : Finite} (unsigned : x.negative = false) (nonzero : x.quanta ≠ 0) :
    ∃ d, Numeral (x.text .document).toList d ∧ d.toBinary64 false = .finite x := by
  have near := near_shortest nonzero NumberFormat.document.halfUp
  have positive := digits_ne_zero_of_near nonzero near
  simp only [text, unsigned, if_neg nonzero]
  generalize shortest NumberFormat.document.halfUp x.quanta = short at near positive
  obtain ⟨z, stripped⟩ := exists_stripZeros (Nat.toDigits 10 short.digits)
  have all := allDigits_toDigits short.digits
  have value_digits := digitsValue_toDigits short.digits
  have length := congrArg List.length stripped
  rw [List.length_append, List.length_replicate] at length
  generalize stripZeros (Nat.toDigits 10 short.digits) = digits at *
  rw [stripped, digitsValue_append, digitsValue_zeros] at value_digits
  rw [stripped] at all
  have nonempty : digits ≠ [] := by
    rintro rfl
    rw [← value_digits] at positive
    simp [digitsValue] at positive
  obtain ⟨d, numeral, same⟩ := exists_numeral_layout nonempty
    (fun c mem => all c (List.mem_append_left _ mem))
    (short.exponent + (Nat.toDigits 10 short.digits).length - 1)
  refine ⟨d, by simpa using numeral, ?_⟩
  have shifted : d.value = short.value := by
    have exponent : short.exponent + (Nat.toDigits 10 short.digits).length - 1 + 1 - digits.length =
        short.exponent + z := by omega
    rw [same, exponent, ← value_zeros, value_digits]
  rw [toBinary64_of_near x.representable nonzero (shifted ▸ near), ← unsigned]

theorem exists_numeral_truncate {x : Finite} (unsigned : x.negative = false)
    (integral : x.isIntegral = true) :
    ∃ d, Numeral (toString x.truncate).toList d ∧ d.toBinary64 false = .finite x := by
  rcases x with ⟨negative, q, rep⟩
  obtain rfl : negative = false := unsigned
  simp only [isIntegral, beq_iff_eq] at integral
  obtain ⟨n, multiple⟩ := exists_eq_mul_left_of_dvd (Nat.dvd_of_mod_eq_zero integral)
  have whole : truncate ⟨false, q, rep⟩ = (n : ℕ) := by
    change (q : ℤ).tdiv quantaPerUnit = n
    rw [multiple, Nat.cast_mul]
    exact Int.mul_tdiv_cancel _ (Int.natCast_ne_zero.2 quantaPerUnit_pos.ne')
  have numeral := of_whole Nat.toDigits_ne_nil (allDigits_toDigits n) ends_nil
  rw [digitsValue_toDigits, List.append_nil] at numeral
  refine ⟨⟨n, 0⟩, ?_, ?_⟩
  · rw [whole]
    exact Nat.toList_repr ▸ numeral
  · by_cases zero : n = 0
    · obtain rfl : q = 0 := by rw [multiple, zero, Nat.zero_mul]
      rw [zero]
      rfl
    · have nonzero : q ≠ 0 := by
        rw [multiple]
        exact Nat.mul_ne_zero zero quantaPerUnit_pos.ne'
      have value : value ⟨n, 0⟩ = q / quantaPerUnit := by
        rw [multiple, Nat.cast_mul,
          mul_div_cancel_right₀ _ (Nat.cast_ne_zero.2 quantaPerUnit_pos.ne')]
        simp [Decimal.value]
      exact toBinary64_of_near rep nonzero (value ▸ near_self nonzero) false

end Finite

/-- The text of the number that a nonnegative double becomes reads back as the double. -/
theorem Value.exists_numeral_ofBinary64 {x : Finite} (unsigned : x.negative = false) :
    ∃ n, Value.ofBinary64 (.finite x) = .number n ∧
      ∃ d, Numeral n.text.toList d ∧ d.toBinary64 false = .finite x := by
  simp only [Value.ofBinary64]
  split
  · next whole => exact ⟨_, rfl, Finite.exists_numeral_truncate unsigned whole.1⟩
  · next no_integer =>
    refine ⟨_, rfl, Finite.exists_numeral_text unsigned fun zero => no_integer ?_⟩
    have nothing : x.truncate = 0 := by
      rw [Finite.truncate, Finite.signed, unsigned, if_neg Bool.false_ne_true, zero]
      exact Int.zero_tdiv _
    have integral : x.isIntegral = true := by
      rw [Finite.isIntegral, zero, Nat.zero_mod]
      rfl
    rw [nothing]
    exact ⟨integral, by decide, by decide⟩

end Formwork
