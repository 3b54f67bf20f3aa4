import Mathlib.Data.List.TakeWhile
import Mathlib.Tactic.Ring
import Lox.Number.Reading
import Lox.Number.Text

/-!
The texts of finite numbers tell them apart. What a text says is a decimal to which the number that
was written is the nearest one, no two numbers are nearest to one decimal, and a number is known
from its sign and its magnitude. And such a text can be read again.
-/

namespace Lox.Number

/-! The parts of a double. Each magnitude occurs in one form only. -/

structure Canonical (mantissa : Nat) (exponent : Int) : Prop where
  bounded : mantissa < 2 ^ 53
  least : -1074 ≤ exponent
  normal : -1074 < exponent → 2 ^ 52 ≤ mantissa

section Parts

variable {x y : Float} {mantissa : Nat} {exponent : Int}

theorem canonical_of_magnitude (finite : magnitude x = .finite mantissa exponent) :
    Canonical mantissa exponent := by
  simp only [magnitude, Nat.pow_eq] at finite
  split at finite
  · split at finite <;> cases finite
  · split at finite <;> cases finite <;> constructor <;> omega

theorem eq_of_toNat_toBits (same : x.toBits.toNat = y.toBits.toNat) : x = y := by
  obtain ⟨⟨x, _⟩⟩ := x
  obtain ⟨⟨y, _⟩⟩ := y
  obtain rfl : x = y := UInt64.toNat_inj.mp same
  rfl

theorem eq_of_parts (sign : isNegative x = isNegative y)
    (xFinite : magnitude x = .finite mantissa exponent)
    (yFinite : magnitude y = .finite mantissa exponent) : x = y := by
  apply eq_of_toNat_toBits
  have xBound := x.toBits.toNat_lt
  have yBound := y.toBits.toNat_lt
  simp only [isNegative, Nat.pow_eq, decide_eq_decide] at sign
  simp only [magnitude, Nat.pow_eq] at xFinite yFinite
  split at xFinite
  · split at xFinite <;> cases xFinite
  split at yFinite
  · split at yFinite <;> cases yFinite
  split at xFinite <;> cases xFinite <;> split at yFinite <;>
    simp only [Magnitude.finite.injEq] at yFinite <;> omega

end Parts

/-! The decimals to which a number is the nearest one. A decimal is given by its digits without the
point and by the number of places behind the point. -/

/-- In quarters of the mantissa's unit, the distance to the midpoint below. -/
def gapBelow (mantissa : Nat) (exponent : Int) : Nat :=
  if mantissa = 2 ^ 52 ∧ -1074 < exponent then 1 else 2

/-- The midpoints to the neighbouring numbers, in quarters of the least positive number. -/
def midpointBelow (mantissa : Nat) (exponent : Int) : Nat :=
  (4 * mantissa - gapBelow mantissa exponent) * 2 ^ (exponent + 1074).toNat

def midpointAbove (mantissa : Nat) (exponent : Int) : Nat :=
  (4 * mantissa + 2) * 2 ^ (exponent + 1074).toNat

def leastPlace : Nat := 1074

def quartersInOne : Nat := 4 * 2 ^ leastPlace

structure Nearest (mantissa : Nat) (exponent : Int) (digits places : Nat) : Prop where
  below_le : midpointBelow mantissa exponent * 10 ^ places ≤ digits * quartersInOne
  le_above : digits * quartersInOne ≤ midpointAbove mantissa exponent * 10 ^ places
  strict : mantissa % 2 = 1 →
    midpointBelow mantissa exponent * 10 ^ places < digits * quartersInOne ∧
      digits * quartersInOne < midpointAbove mantissa exponent * 10 ^ places

theorem gapBelow_le (mantissa : Nat) (exponent : Int) :
    1 ≤ gapBelow mantissa exponent ∧ gapBelow mantissa exponent ≤ 2 := by
  unfold gapBelow
  split <;> decide

/-- Everything nearest to the first number is less than everything nearest to the second: a midpoint
between them does not belong to both. -/
structure Precedes (mantissa : Nat) (exponent : Int) (other : Nat) (higher : Int) : Prop where
  le : midpointAbove mantissa exponent ≤ midpointBelow other higher
  odd : midpointAbove mantissa exponent = midpointBelow other higher →
    mantissa % 2 = 1 ∨ other % 2 = 1

section Unique

variable {mantissa other : Nat} {exponent higher : Int}

theorem precedes_of_mantissa_lt (less : mantissa < other) :
    Precedes mantissa exponent other exponent := by
  have gap := gapBelow_le other exponent
  refine ⟨Nat.mul_le_mul_right _ (by omega), fun meet => ?_⟩
  have same := Nat.mul_right_cancel (Nat.two_pow_pos _) meet
  omega

theorem precedes_of_exponent_lt (canonical : Canonical mantissa exponent)
    (otherCanonical : Canonical other higher) (less : exponent < higher) :
    Precedes mantissa exponent other higher := by
  -- The greatest number below a power of two is odd.
  have aboveLeast := Int.lt_of_le_of_lt canonical.least less
  have large := otherCanonical.normal aboveLeast
  have bounded := canonical.bounded
  have otherMantissa : 2 ^ 54 - 1 ≤ 4 * other - gapBelow other higher := by
    have gap := gapBelow_le other higher
    by_cases least : other = 2 ^ 52
    · rw [gapBelow, if_pos ⟨least, aboveLeast⟩]
      omega
    · omega
  have doubled : 2 * 2 ^ (exponent + 1074).toNat ≤ 2 ^ (higher + 1074).toNat := by
    have least := canonical.least
    rw [← Nat.pow_succ']
    exact Nat.pow_le_pow_right Nat.two_pos (by omega)
  have reached : (2 ^ 55 - 2) * 2 ^ (exponent + 1074).toNat ≤ midpointBelow other higher :=
    calc (2 ^ 55 - 2) * 2 ^ (exponent + 1074).toNat
        = (2 ^ 54 - 1) * (2 * 2 ^ (exponent + 1074).toNat) := by
          rw [show 2 ^ 55 - 2 = (2 ^ 54 - 1) * 2 by omega, Nat.mul_assoc]
      _ ≤ midpointBelow other higher := Nat.mul_le_mul otherMantissa doubled
  refine ⟨Nat.le_trans (Nat.mul_le_mul_right _ (by omega)) reached, fun meet => ?_⟩
  by_cases odd : mantissa % 2 = 1
  · exact .inl odd
  · have short : midpointAbove mantissa exponent < midpointBelow other higher :=
      Nat.lt_of_lt_of_le (Nat.mul_lt_mul_of_pos_right (by omega) (Nat.two_pow_pos _)) reached
    exact absurd meet (Nat.ne_of_lt short)

variable {digits places : Nat}

theorem Nearest.not_both (nearest : Nearest mantissa exponent digits places)
    (otherNearest : Nearest other higher digits places)
    (precedes : Precedes mantissa exponent other higher) : False := by
  have scaled := Nat.mul_le_mul_right (10 ^ places) precedes.le
  have le_above := nearest.le_above
  have below_le := otherNearest.below_le
  have meet : midpointAbove mantissa exponent = midpointBelow other higher :=
    Nat.mul_right_cancel (Nat.pow_pos (by decide : 0 < 10)) (Nat.le_antisymm scaled (by omega))
  rcases precedes.odd meet with odd | odd
  · have strict := nearest.strict odd
    omega
  · have strict := otherNearest.strict odd
    omega

theorem Nearest.unique (nearest : Nearest mantissa exponent digits places)
    (otherNearest : Nearest other higher digits places) (canonical : Canonical mantissa exponent)
    (otherCanonical : Canonical other higher) : mantissa = other ∧ exponent = higher := by
  rcases Int.lt_trichotomy exponent higher with less | rfl | greater
  · exact absurd (precedes_of_exponent_lt canonical otherCanonical less)
      (nearest.not_both otherNearest)
  · rcases Nat.lt_trichotomy mantissa other with less | same | greater
    · exact absurd (precedes_of_mantissa_lt less) (nearest.not_both otherNearest)
    · exact ⟨same, rfl⟩
    · exact absurd (precedes_of_mantissa_lt greater) (otherNearest.not_both nearest)
  · exact absurd (precedes_of_exponent_lt otherCanonical canonical greater)
      (otherNearest.not_both nearest)

end Unique

/-! What is written is such a decimal. -/

def Decimal.wholeDigits (d : Decimal) : Nat := d.digits * 10 ^ d.exponent.toNat

def Decimal.places (d : Decimal) : Nat := (-d.exponent).toNat

section Shortest

variable {mantissa : Nat} {exponent place : Int}

theorem Scale.between_mul (least : -1074 ≤ exponent) (place : Int) :
    ∃ factor, 0 < factor ∧
      (Scale.between exponent place).numerator * factor =
        2 ^ (exponent + 1074).toNat * 10 ^ (-place).toNat ∧
      4 * (Scale.between exponent place).denominator * factor =
        10 ^ place.toNat * quartersInOne := by
  have exact : leastPlace = 1074 := rfl
  refine ⟨2 ^ (leastPlace - (-exponent).toNat), Nat.two_pow_pos _, ?_, ?_⟩
  · have powers : (exponent + 1074).toNat =
        exponent.toNat + (leastPlace - (-exponent).toNat) := by omega
    simp only [between, Nat.pow_eq]
    rw [powers]
    ring
  · have powers : leastPlace = (-exponent).toNat + (leastPlace - (-exponent).toNat) := by omega
    have unit : 2 ^ leastPlace = 2 ^ (-exponent).toNat * 2 ^ (leastPlace - (-exponent).toNat) := by
      rw [← pow_add, ← powers]
    simp only [between, Nat.pow_eq]
    rw [quartersInOne, unit]
    ring

theorem nearest_of_readsBack (least : -1074 ≤ exponent) {point : Nat}
    (reads : readsBack mantissa exponent (Scale.between exponent place) point) :
    Nearest mantissa exponent (point * 10 ^ place.toNat) (-place).toNat := by
  obtain ⟨factor, positive, numerator, denominator⟩ := Scale.between_mul least place
  have scaled : ∀ quarters, quarters * (Scale.between exponent place).numerator * factor =
      quarters * 2 ^ (exponent + 1074).toNat * 10 ^ (-place).toNat := by
    intro quarters
    rw [Nat.mul_assoc, numerator, Nat.mul_assoc]
  have here : 4 * point * (Scale.between exponent place).denominator * factor =
      point * 10 ^ place.toNat * quartersInOne := by
    rw [Nat.mul_assoc point, ← denominator]
    ring
  have le_scaled : ∀ {a b : Nat}, a ≤ b → a * factor ≤ b * factor :=
    Nat.mul_le_mul_right factor
  have lt_scaled : ∀ {a b : Nat}, a < b → a * factor < b * factor :=
    fun less => Nat.mul_lt_mul_of_pos_right less positive
  unfold readsBack at reads
  simp only at reads
  split at reads
  · obtain ⟨low, high⟩ := of_decide_eq_true reads
    have below := le_scaled low
    have above := le_scaled high
    simp only [scaled, here] at below above
    exact ⟨below, above, by omega⟩
  · obtain ⟨low, high⟩ := of_decide_eq_true reads
    have below := lt_scaled low
    have above := lt_scaled high
    simp only [scaled, here] at below above
    exact ⟨Nat.le_of_lt below, Nat.le_of_lt above, fun _ => ⟨below, above⟩⟩

theorem exactDecimal_eq (least : -1074 ≤ exponent) (mantissa : Nat) :
    let d := exactDecimal mantissa exponent
    d.wholeDigits * quartersInOne =
      4 * mantissa * (2 ^ (exponent + 1074).toNat * 10 ^ d.places) := by
  intro d
  have exact : leastPlace = 1074 := rfl
  by_cases whole : 0 ≤ exponent
  · have written : d = ⟨mantissa * 2 ^ exponent.toNat, 0⟩ := if_pos whole
    have powers : (exponent + 1074).toNat = exponent.toNat + leastPlace := by omega
    rw [written, Decimal.wholeDigits, Decimal.places, quartersInOne, powers]
    simp only [Int.toNat_zero, Int.neg_zero]
    ring
  · have written : d = ⟨mantissa * 5 ^ (-exponent).toNat, exponent⟩ := if_neg whole
    have powers : leastPlace = (exponent + 1074).toNat + (-exponent).toNat := by omega
    have noZeros : exponent.toNat = 0 := by omega
    have tens : 10 ^ (-exponent).toNat = 2 ^ (-exponent).toNat * 5 ^ (-exponent).toNat :=
      mul_pow 2 5 _
    rw [written, Decimal.wholeDigits, Decimal.places, quartersInOne, powers, noZeros, tens]
    ring

theorem nearest_exactDecimal (least : -1074 ≤ exponent) (mantissa : Nat) :
    let d := exactDecimal mantissa exponent
    Nearest mantissa exponent d.wholeDigits d.places := by
  intro d
  have gap := gapBelow_le mantissa exponent
  have unit : 0 < 2 ^ (exponent + 1074).toNat * 10 ^ d.places :=
    Nat.mul_pos (Nat.two_pow_pos _) (Nat.pow_pos (by decide))
  have here := exactDecimal_eq least mantissa
  have below : midpointBelow mantissa exponent * 10 ^ d.places =
      (4 * mantissa - gapBelow mantissa exponent) *
        (2 ^ (exponent + 1074).toNat * 10 ^ d.places) := Nat.mul_assoc _ _ _
  have above : midpointAbove mantissa exponent * 10 ^ d.places =
      (4 * mantissa + 2) * (2 ^ (exponent + 1074).toNat * 10 ^ d.places) := Nat.mul_assoc _ _ _
  constructor
  · rw [below, here]
    exact Nat.mul_le_mul_right _ (by omega)
  · rw [above, here]
    exact Nat.mul_le_mul_right _ (by omega)
  · intro odd
    rw [below, above, here]
    exact ⟨Nat.mul_lt_mul_of_pos_right (by omega) unit,
      Nat.mul_lt_mul_of_pos_right (by omega) unit⟩

theorem readsBack_of_pointAt? {point : Nat}
    (found : pointAt? mantissa exponent place = some point) :
    readsBack mantissa exponent (Scale.between exponent place) point := by
  unfold pointAt? at found
  simp only at found
  split at found
  · split at found <;> cases found <;> assumption
  · cases found
    assumption
  · cases found
    assumption
  · cases found

theorem nearest_shortestFrom (least : -1074 ≤ exponent) (grids : Nat) (place : Int) :
    let d := shortestFrom mantissa exponent grids place
    Nearest mantissa exponent d.wholeDigits d.places := by
  induction grids generalizing place with
  | zero => exact nearest_exactDecimal least mantissa
  | succ grids ih =>
    rw [shortestFrom]
    cases found : pointAt? mantissa exponent place with
    | some point => exact nearest_of_readsBack least (readsBack_of_pointAt? found)
    | none => exact ih (place - 1)

end Shortest

/-! What is written of a decimal: digits, and a point where there are places behind it. -/

structure Numeral (text : String) (whole fraction : List Char) : Prop where
  text : text.toList = if fraction.isEmpty then whole else whole ++ '.' :: fraction
  nonempty : whole ≠ []
  digits : ∀ c ∈ whole ++ fraction, c.isDigit

namespace Numeral

variable {text : String} {whole fraction whole' fraction' : List Char}

theorem cut (numeral : Numeral text whole fraction) :
    text.toList.takeWhile (· ≠ '.') = whole ∧
      (text.toList.dropWhile (· ≠ '.')).drop 1 = fraction := by
  have noPoint : ∀ c ∈ whole, decide (c ≠ '.') = true := by
    intro c member
    refine decide_eq_true fun point => ?_
    exact absurd (numeral.digits c (List.mem_append_left _ member)) (by rw [point]; decide)
  obtain ⟨behind, same, rest⟩ : ∃ behind, text.toList = whole ++ behind ∧
      behind.takeWhile (· ≠ '.') = [] ∧ (behind.dropWhile (· ≠ '.')).drop 1 = fraction := by
    rw [numeral.text]
    cases fraction with
    | nil => exact ⟨[], by simp⟩
    | cons digit digits => exact ⟨'.' :: digit :: digits, by simp⟩
  rw [same, List.takeWhile_append_of_pos noPoint, List.dropWhile_append_of_pos noPoint, rest.1,
    List.append_nil]
  exact ⟨rfl, rest.2⟩

theorem unique (numeral : Numeral text whole fraction) (other : Numeral text whole' fraction') :
    whole = whole' ∧ fraction = fraction' :=
  ⟨numeral.cut.1.symm.trans other.cut.1, numeral.cut.2.symm.trans other.cut.2⟩

theorem isDigit_or_point (numeral : Numeral text whole fraction) {c : Char}
    (member : c ∈ text.toList) : c.isDigit ∨ c = '.' := by
  have digits := numeral.digits c
  rw [List.mem_append] at digits
  rw [numeral.text] at member
  split at member
  · exact .inl (digits (.inl member))
  · rcases List.mem_append.mp member with front | back
    · exact .inl (digits (.inl front))
    · exact (List.mem_cons.mp back).symm.imp_left fun inFraction => digits (.inr inFraction)

theorem ne_nil (numeral : Numeral text whole fraction) : text.toList ≠ [] := by
  rw [numeral.text]
  split <;> simp [numeral.nonempty]

end Numeral

section Digits

theorem isDigit_of_mem_toDigits {n : Nat} {c : Char} (member : c ∈ Nat.toDigits 10 n) :
    c.isDigit :=
  Nat.isDigit_of_mem_toDigits (by decide) (by decide) member

theorem isDigit_of_mem_zeros {zeros : Nat} {c : Char} (member : c ∈ List.replicate zeros '0') :
    c.isDigit := by
  rw [List.eq_of_mem_replicate member]
  decide

theorem digitsValue_toDigits (n : Nat) : digitsValue (Nat.toDigits 10 n) = n :=
  Nat.ofDigitChars_toDigits (by decide) (by decide)

theorem digitsValue_append_zeros (digits : List Char) (zeros : Nat) :
    digitsValue (digits ++ List.replicate zeros '0') = digitsValue digits * 10 ^ zeros :=
  calc digitsValue (digits ++ List.replicate zeros '0')
      = Nat.ofDigitChars 10 (List.replicate zeros '0') (digitsValue digits) :=
        Nat.ofDigitChars_append 0
    _ = digitsValue digits * 10 ^ zeros := by rw [Nat.ofDigitChars_replicate_zero, Nat.mul_comm]

theorem digitsValue_zeros_append (zeros : Nat) (digits : List Char) :
    digitsValue (List.replicate zeros '0' ++ digits) = digitsValue digits :=
  calc digitsValue (List.replicate zeros '0' ++ digits)
      = Nat.ofDigitChars 10 digits (Nat.ofDigitChars 10 (List.replicate zeros '0') 0) :=
        Nat.ofDigitChars_append 0
    _ = digitsValue digits := by rw [Nat.ofDigitChars_replicate_zero]; rfl

end Digits

namespace Decimal

variable {d : Decimal}

structure Written (d : Decimal) (whole fraction : List Char) : Prop where
  numeral : Numeral d.text whole fraction
  value : digitsValue (whole ++ fraction) = d.wholeDigits
  places : fraction.length = d.places

theorem written_whole (noPoint : 0 ≤ d.exponent) :
    d.Written (Nat.toDigits 10 d.digits ++ List.replicate d.exponent.toNat '0') [] := by
  refine ⟨⟨?_, ?_, ?_⟩, ?_, ?_⟩
  · rw [text, if_pos noPoint, String.toList_ofList]
    rfl
  · simp [Nat.toDigits_ne_nil]
  · intro c member
    rw [List.append_nil] at member
    exact (List.mem_append.mp member).elim isDigit_of_mem_toDigits isDigit_of_mem_zeros
  · rw [List.append_nil, digitsValue_append_zeros, digitsValue_toDigits, wholeDigits]
  · have noPlaces : (-d.exponent).toNat = 0 := by omega
    exact noPlaces.symm

theorem wholeDigits_of_neg (point : ¬0 ≤ d.exponent) : d.wholeDigits = d.digits := by
  have noZeros : d.exponent.toNat = 0 := by omega
  rw [wholeDigits, noZeros, Nat.pow_zero, Nat.mul_one]

theorem written_inside (point : ¬0 ≤ d.exponent)
    (inside : d.places < (Nat.toDigits 10 d.digits).length) :
    let place := (Nat.toDigits 10 d.digits).length - d.places
    d.Written ((Nat.toDigits 10 d.digits).take place)
      ((Nat.toDigits 10 d.digits).drop place) := by
  intro place
  have split := List.take_append_drop place (Nat.toDigits 10 d.digits)
  have length : ((Nat.toDigits 10 d.digits).drop place).length = d.places := by
    rw [List.length_drop]
    omega
  have nonempty : ((Nat.toDigits 10 d.digits).drop place).isEmpty = false := by
    rw [List.isEmpty_eq_false_iff, ← List.length_pos_iff, length, places]
    omega
  refine ⟨⟨?_, ?_, ?_⟩, ?_, length⟩
  · rw [nonempty, text, if_neg point]
    exact (congrArg String.toList (if_pos inside)).trans String.toList_ofList
  · rw [← List.length_pos_iff, List.length_take]
    omega
  · rw [split]
    exact fun _ => isDigit_of_mem_toDigits
  · rw [split, digitsValue_toDigits, wholeDigits_of_neg point]

theorem written_behind (point : ¬0 ≤ d.exponent)
    (behind : ¬d.places < (Nat.toDigits 10 d.digits).length) :
    let zeros := d.places - (Nat.toDigits 10 d.digits).length
    d.Written ['0'] (List.replicate zeros '0' ++ Nat.toDigits 10 d.digits) := by
  intro zeros
  have nonempty : (List.replicate zeros '0' ++ Nat.toDigits 10 d.digits).isEmpty = false := by
    simp [Nat.toDigits_ne_nil]
  have leading : ['0'] ++ (List.replicate zeros '0' ++ Nat.toDigits 10 d.digits) =
      List.replicate (zeros + 1) '0' ++ Nat.toDigits 10 d.digits := rfl
  refine ⟨⟨?_, List.cons_ne_nil _ _, ?_⟩, ?_, ?_⟩
  · rw [nonempty, text, if_neg point]
    exact (congrArg String.toList (if_neg behind)).trans String.toList_ofList
  · intro c member
    rw [leading] at member
    exact (List.mem_append.mp member).elim isDigit_of_mem_zeros isDigit_of_mem_toDigits
  · rw [leading, digitsValue_zeros_append, digitsValue_toDigits, wholeDigits_of_neg point]
  · rw [List.length_append, List.length_replicate]
    omega

theorem exists_written (d : Decimal) : ∃ whole fraction, d.Written whole fraction := by
  by_cases point : 0 ≤ d.exponent
  · exact ⟨_, _, written_whole point⟩
  · by_cases inside : d.places < (Nat.toDigits 10 d.digits).length
    · exact ⟨_, _, written_inside point inside⟩
    · exact ⟨_, _, written_behind point inside⟩

end Decimal

/-! What is written of a number. -/

section Magnitudes

variable {mantissa other : Nat} {exponent higher : Int}

theorem nearest_zero (exponent : Int) : Nearest 0 exponent 0 0 := by
  have below : midpointBelow 0 exponent = 0 := by simp [midpointBelow]
  constructor
  · rw [below, Nat.zero_mul]
    exact Nat.zero_le _
  · rw [Nat.zero_mul]
    exact Nat.zero_le _
  · intro odd
    contradiction

theorem exists_nearest_numeral (least : -1074 ≤ exponent) (mantissa : Nat) :
    ∃ whole fraction, Numeral (Magnitude.finite mantissa exponent).text whole fraction ∧
      Nearest mantissa exponent (digitsValue (whole ++ fraction)) fraction.length := by
  cases mantissa with
  | zero =>
    have numeral : Numeral "0" ['0'] [] := ⟨by decide, by decide, by simp⟩
    exact ⟨['0'], [], numeral, nearest_zero exponent⟩
  | succ less =>
    obtain ⟨whole, fraction, written⟩ := (shortest (less + 1) exponent).exists_written
    refine ⟨whole, fraction, written.numeral, ?_⟩
    rw [written.value, written.places]
    exact nearest_shortestFrom least 20 _

theorem eq_of_magnitude_text (canonical : Canonical mantissa exponent)
    (otherCanonical : Canonical other higher)
    (same : (Magnitude.finite mantissa exponent).text = (Magnitude.finite other higher).text) :
    Magnitude.finite mantissa exponent = .finite other higher := by
  obtain ⟨whole, fraction, numeral, nearest⟩ := exists_nearest_numeral canonical.least mantissa
  obtain ⟨_, _, otherNumeral, otherNearest⟩ := exists_nearest_numeral otherCanonical.least other
  rw [same] at numeral
  obtain ⟨rfl, rfl⟩ := numeral.unique otherNumeral
  obtain ⟨rfl, rfl⟩ := nearest.unique otherNearest canonical otherCanonical
  rfl

end Magnitudes

section Texts

variable {x y : Float}

def Magnitude.isFinite : Magnitude → Bool
  | finite _ _ => true
  | infinite | notANumber => false

def IsFinite (x : Float) : Prop :=
  (magnitude x).isFinite

instance (x : Float) : Decidable (IsFinite x) :=
  inferInstanceAs (Decidable (_ = true))

theorem IsFinite.parts (finite : IsFinite x) :
    ∃ mantissa exponent, magnitude x = .finite mantissa exponent := by
  unfold IsFinite Magnitude.isFinite at finite
  split at finite
  · rename_i mantissa exponent parts
    exact ⟨mantissa, exponent, parts⟩
  · contradiction
  · contradiction

def inNumber (c : Char) : Bool := c.isDigit || c = '.' || c = '-'

theorem exists_numeral_of_finite (finite : IsFinite x) : ∃ whole fraction,
    Numeral (magnitude x).text whole fraction ∧
      text x = if isNegative x then "-" ++ (magnitude x).text else (magnitude x).text := by
  obtain ⟨mantissa, exponent, parts⟩ := finite.parts
  obtain ⟨whole, fraction, numeral, -⟩ :=
    exists_nearest_numeral (canonical_of_magnitude parts).least mantissa
  rw [text, parts]
  exact ⟨whole, fraction, numeral, rfl⟩

theorem text_chars (finite : IsFinite x) :
    (text x).toList ≠ [] ∧ ∀ c ∈ (text x).toList, inNumber c := by
  obtain ⟨whole, fraction, numeral, written⟩ := exists_numeral_of_finite finite
  have unsigned : ∀ c ∈ (magnitude x).text.toList, inNumber c := by
    intro c member
    rcases numeral.isDigit_or_point member with digit | rfl
    · simp [inNumber, digit]
    · decide
  rw [written]
  split
  · rw [String.toList_append]
    refine ⟨List.cons_ne_nil _ _, fun c member => ?_⟩
    rcases List.mem_cons.mp member with rfl | behind
    · decide
    · exact unsigned c behind
  · exact ⟨numeral.ne_nil, unsigned⟩

theorem Numeral.no_minus {text : String} {whole fraction : List Char}
    (numeral : Numeral text whole fraction) : '-' ∉ text.toList :=
  fun member => absurd (numeral.isDigit_or_point member) (by decide)

theorem eq_of_signed_eq {negative other : Bool} {first second : String}
    (firstUnsigned : '-' ∉ first.toList) (secondUnsigned : '-' ∉ second.toList)
    (same : (if negative then "-" ++ first else first) =
      if other then "-" ++ second else second) : negative = other ∧ first = second := by
  cases negative <;> cases other
  · exact ⟨rfl, same⟩
  · have same : first = "-" ++ second := same
    rw [same] at firstUnsigned
    simp at firstUnsigned
  · have same : "-" ++ first = second := same
    rw [← same] at secondUnsigned
    simp at secondUnsigned
  · have same : "-" ++ first = "-" ++ second := same
    exact ⟨rfl, by simpa using same⟩

/-- Different finite numbers have different texts, the two zeros included. -/
theorem eq_of_text_eq (xFinite : IsFinite x) (yFinite : IsFinite y) (same : text x = text y) :
    x = y := by
  obtain ⟨_, _, xNumeral, xText⟩ := exists_numeral_of_finite xFinite
  obtain ⟨_, _, yNumeral, yText⟩ := exists_numeral_of_finite yFinite
  rw [xText, yText] at same
  obtain ⟨signs, texts⟩ := eq_of_signed_eq xNumeral.no_minus yNumeral.no_minus same
  obtain ⟨mantissa, exponent, xParts⟩ := xFinite.parts
  obtain ⟨other, higher, yParts⟩ := yFinite.parts
  rw [xParts, yParts] at texts
  have magnitudes := eq_of_magnitude_text (canonical_of_magnitude xParts)
    (canonical_of_magnitude yParts) texts
  exact eq_of_parts signs xParts (yParts.trans magnitudes.symm)

/-! Numbers read back from what is written. -/

theorem unsigned?_of_numeral {text : String} {whole fraction : List Char}
    (numeral : Numeral text whole fraction) :
    unsigned? text.toList = some (ofNumeral text.toList) := by
  obtain ⟨wholeDigits, fractionDigits⟩ := List.forall_mem_append.mp numeral.digits
  have nonempty : whole.isEmpty = false := by simpa using numeral.nonempty
  rw [ofNumeral, numeral.cut.1, numeral.cut.2, numeral.text, unsigned?]
  cases fraction with
  | nil =>
    simp only [List.isEmpty_nil, if_true, List.takeWhile_eq_self_iff.mpr wholeDigits,
      List.dropWhile_eq_nil_iff.mpr wholeDigits, nonempty]
    rfl
  | cons digit digits =>
    have point : ¬Char.isDigit '.' := by decide
    simp only [List.isEmpty_cons, Bool.false_eq_true, if_false,
      List.takeWhile_append_of_pos wholeDigits, List.dropWhile_append_of_pos wholeDigits,
      List.takeWhile_cons_of_neg point, List.dropWhile_cons_of_neg point,
      List.takeWhile_eq_self_iff.mpr fractionDigits, List.dropWhile_eq_nil_iff.mpr fractionDigits,
      List.append_nil, nonempty]
    rfl

theorem ofText?_of_chars {text : String} (chars : ∀ c ∈ text.toList, inNumber c) :
    ofText? text = match text.toList with
      | '-' :: numeral => (unsigned? numeral).map (- ·)
      | numeral => unsigned? numeral := by
  unfold ofText?
  split
  · exact absurd (chars 'i' (by decide)) (by decide)
  · exact absurd (chars 'i' (by decide)) (by decide)
  · exact absurd (chars 'N' (by decide)) (by decide)
  · rfl

/-- What is written of a finite number is read as a script would read it, apart from the sign. -/
theorem ofText?_text (finite : IsFinite x) :
    let unsigned := ofNumeral (magnitude x).text.toList
    ofText? (text x) = some (if isNegative x then -unsigned else unsigned) := by
  obtain ⟨whole, fraction, numeral, written⟩ := exists_numeral_of_finite finite
  rw [ofText?_of_chars (text_chars finite).2, written]
  cases isNegative x with
  | true => simp [unsigned?_of_numeral numeral]
  | false =>
    simp only [Bool.false_eq_true, if_false]
    split
    · rename_i starts
      exact absurd (starts ▸ List.mem_cons_self) numeral.no_minus
    · exact unsigned?_of_numeral numeral

end Texts

end Lox.Number
