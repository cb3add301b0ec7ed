import Mathlib.Data.List.DropRight
import StoryEngine.Proofs.Double.Rounding

/-! # The shortest digits

Seventeen decimal digits always suffice: at the seventeenth place of a binary64 number the integer
next to it is nearer than half of the last binary place. So the search for the fewest digits finds
some, and what it finds rounds to the number.
-/

namespace StoryEngine.Double

theorem pow_toNat {b : ℚ} (hb : b ≠ 0) (z : ℤ) : b ^ z.toNat = b ^ z * b ^ (-z).toNat := by
  rw [← zpow_natCast, ← zpow_natCast, ← zpow_add₀ hb]
  congr 1
  omega

section Place

variable (x : Double) (place : ℤ)

/-- A number of quarters of the last binary place, made whole for the comparison at a decimal
place. -/
def quarters (k : ℕ) : ℕ := k * Nat.pow 2 (x.exponent - 2).toNat * Nat.pow 10 (-place).toNat

/-- One at a decimal place, made whole for the comparison with quarters. -/
def unit : ℕ := Nat.pow 10 place.toNat * Nat.pow 2 (2 - x.exponent).toNat

def denominator : ℚ := 2 ^ (2 - x.exponent).toNat * 10 ^ (-place).toNat

theorem denominator_pos : 0 < x.denominator place := by
  unfold denominator
  positivity

theorem cast_quarters (k : ℕ) :
    (x.quarters place k : ℚ) = k * x.quarter * x.denominator place := by
  have h := pow_toNat (b := 2) two_ne_zero (x.exponent - 2)
  rw [neg_sub] at h
  simp only [quarters, Nat.pow_eq, Nat.cast_mul, Nat.cast_pow, Nat.cast_ofNat, h, quarter,
    denominator]
  ring

theorem cast_mul_unit (d : ℕ) :
    ((d * x.unit place : ℕ) : ℚ) = d * 10 ^ place * x.denominator place := by
  have h := pow_toNat (b := 10) (by norm_num) place
  simp only [unit, Nat.pow_eq, Nat.cast_mul, Nat.cast_pow, Nat.cast_ofNat, h, denominator]
  ring

variable {x place} {k d : ℕ}

theorem quarters_le_iff :
    x.quarters place k ≤ d * x.unit place ↔ k * x.quarter ≤ d * 10 ^ place := by
  rw [← Nat.cast_le (α := ℚ), cast_quarters, cast_mul_unit,
    mul_le_mul_iff_left₀ (x.denominator_pos place)]

theorem le_quarters_iff :
    d * x.unit place ≤ x.quarters place k ↔ d * 10 ^ place ≤ k * x.quarter := by
  rw [← Nat.cast_le (α := ℚ), cast_quarters, cast_mul_unit,
    mul_le_mul_iff_left₀ (x.denominator_pos place)]

def fits (x : Double) (place : ℤ) (d : ℕ) : Bool :=
  if x.neighbourhood.closed then
    x.quarters place x.neighbourhood.low ≤ d * x.unit place &&
      d * x.unit place ≤ x.quarters place x.neighbourhood.high
  else
    x.quarters place x.neighbourhood.low < d * x.unit place &&
      d * x.unit place < x.quarters place x.neighbourhood.high

/-- The integer next to the number at a place, a tie going to the even one. -/
def nearest (x : Double) (place : ℤ) : ℕ :=
  let below := x.quarters place (4 * x.significand) / x.unit place
  let rest := x.quarters place (4 * x.significand) % x.unit place
  if 2 * rest < x.unit place ∨ (2 * rest = x.unit place ∧ below % 2 = 0) then below else below + 1

theorem digitsAt?_eq (x : Double) (place : ℤ) : digitsAt? x place =
    [x.nearest place, x.quarters place (4 * x.significand) / x.unit place,
      x.quarters place (4 * x.significand) / x.unit place + 1].find? (x.fits place) := rfl

theorem rounds_of_fits (h : x.fits place d = true) : x.Rounds (d * 10 ^ place) := by
  unfold fits at h
  split at h
  case isTrue hc =>
    simp only [Bool.and_eq_true, decide_eq_true_eq, quarters_le_iff, le_quarters_iff] at h
    exact ⟨h.1, h.2, fun ho => absurd (hc.symm.trans ho) nofun⟩
  case isFalse =>
    simp only [Bool.and_eq_true, decide_eq_true_eq, ← not_le, quarters_le_iff,
      le_quarters_iff] at h
    simp only [not_le] at h
    exact ⟨h.1.le, h.2.le, fun _ => ⟨h.1.ne, h.2.ne⟩⟩

theorem rounds_of_digitsAt? (h : digitsAt? x place = some d) : x.Rounds (d * 10 ^ place) :=
  rounds_of_fits (List.find?_some (digitsAt?_eq x place ▸ h))

theorem unit_pos (x : Double) (place : ℤ) : 0 < x.unit place := by
  simp only [unit, Nat.pow_eq]
  positivity

theorem quarters_mul (k : ℕ) : x.quarters place k = k * x.quarters place 1 := by
  simp only [quarters, one_mul, mul_assoc]

theorem nearest_mul_unit (x : Double) (place : ℤ) :
    2 * (x.nearest place * x.unit place) ≤ 2 * x.quarters place (4 * x.significand) + x.unit place ∧
      2 * x.quarters place (4 * x.significand) ≤
        2 * (x.nearest place * x.unit place) + x.unit place := by
  have hd := Nat.div_add_mod' (x.quarters place (4 * x.significand)) (x.unit place)
  have hr := Nat.mod_lt (x.quarters place (4 * x.significand)) (x.unit_pos place)
  unfold nearest
  dsimp only
  split
  · omega
  · rw [add_mul, one_mul]
    omega

theorem quarters_one_pos (x : Double) (place : ℤ) : 0 < x.quarters place 1 := by
  simp only [quarters, Nat.pow_eq]
  positivity

/-- Where a unit is that small beside a number, a half of it is less than half of the number's last
place, and less than a quarter of it for a power of two. -/
theorem nearest_mul_unit_within (hx : 0 < x.significand)
    (hu : 10 ^ 16 * x.unit place ≤ x.quarters place (4 * x.significand)) :
    x.quarters place x.neighbourhood.low < x.nearest place * x.unit place ∧
      x.nearest place * x.unit place < x.quarters place x.neighbourhood.high := by
  obtain ⟨hle, hge⟩ := x.nearest_mul_unit place
  have hq := x.quarters_one_pos place
  have hm : x.significand * x.quarters place 1 + x.quarters place 1 ≤
      2 ^ 53 * x.quarters place 1 := by
    rw [← Nat.succ_mul]
    exact Nat.mul_le_mul_right _ x.normal.1
  have hlow : x.neighbourhood.low = 4 * x.significand - 2 ∨
      x.neighbourhood.low = 4 * x.significand - 1 ∧ x.significand = 2 ^ 52 := by
    simp only [neighbourhood]
    split
    case isTrue h => exact Or.inr ⟨rfl, h.1⟩
    case isFalse => exact Or.inl rfl
  have hhigh : x.neighbourhood.high = 4 * x.significand + 2 := rfl
  rw [quarters_mul (4 * x.significand), mul_assoc] at hu hle hge
  rw [quarters_mul x.neighbourhood.low, quarters_mul x.neighbourhood.high, hhigh, add_mul,
    mul_assoc]
  rcases hlow with hlow | ⟨hlow, he⟩
  · rw [hlow, Nat.sub_mul, mul_assoc]
    have := Nat.le_mul_of_pos_left (x.quarters place 1) hx
    omega
  · rw [hlow, Nat.sub_mul, mul_assoc]
    rw [he] at hu hle hge ⊢
    omega

theorem fits_nearest (hx : 0 < x.significand)
    (hu : 10 ^ 16 * x.unit place ≤ x.quarters place (4 * x.significand)) :
    x.fits place (x.nearest place) = true := by
  obtain ⟨hl, hh⟩ := nearest_mul_unit_within hx hu
  unfold fits
  split
  · simp [hl.le, hh.le]
  · simp [hl, hh]

end Place

section LeadingPower

theorem lt_pow_length_toDigits (n : ℕ) : n < 10 ^ (Nat.toDigits 10 n).length :=
  (Nat.length_toDigits_le_iff (by norm_num) Nat.length_toDigits_pos).mp le_rfl

theorem pow_length_toDigits_le {n : ℕ} (h : 0 < n) : 10 ^ ((Nat.toDigits 10 n).length - 1) ≤ n := by
  by_contra hlt
  have hpos : 0 < (Nat.toDigits 10 n).length - 1 := by
    by_contra hz
    rw [Nat.eq_zero_of_not_pos hz, pow_zero] at hlt
    exact hlt h
  have hle := (Nat.length_toDigits_le_iff (by norm_num) hpos).mpr (not_le.mp hlt)
  omega

theorem leadingPower_le {num den : ℕ} (hn : 0 < num) (hd : 0 < den) :
    (10 : ℚ) ^ leadingPower num den * den ≤ num := by
  unfold leadingPower
  split
  case isTrue h =>
    have hq := pow_length_toDigits_le (Nat.div_pos h hd)
    have hl := Nat.length_toDigits_pos (b := 10) (n := num / den)
    have he : ((Nat.toDigits 10 (num / den)).length : ℤ) - 1 =
        ((Nat.toDigits 10 (num / den)).length - 1 : ℕ) := by omega
    rw [he, zpow_natCast]
    exact_mod_cast (Nat.mul_le_mul_right den hq).trans (Nat.div_mul_le_self num den)
  case isFalse h =>
    have hlt := lt_pow_length_toDigits ((den + num - 1) / num - 1)
    have hceil : den ≤ (den + num - 1) / num * num := by
      have := Nat.div_add_mod' (den + num - 1) num
      have := Nat.mod_lt (den + num - 1) hn
      omega
    rw [zpow_neg, zpow_natCast, inv_mul_le_iff₀ (by positivity)]
    exact_mod_cast hceil.trans (Nat.mul_le_mul_right num (by omega))

end LeadingPower

section Search

variable {x : Double}

def magnitude (x : Double) : ℚ := x.significand * 2 ^ x.exponent

theorem four_mul_quarter (x : Double) :
    ((4 * x.significand : ℕ) : ℚ) * x.quarter = x.magnitude := by
  have h := zpow_sub₀ (two_ne_zero (α := ℚ)) x.exponent 2
  rw [quarter, magnitude, h]
  push_cast
  ring

theorem fst_ratio (x : Double) : (x.ratio.1 : ℚ) = x.magnitude * x.ratio.2 := by
  have h := pow_toNat (b := 2) two_ne_zero x.exponent
  simp only [ratio, magnitude, Nat.pow_eq, Nat.cast_mul, Nat.cast_pow, Nat.cast_ofNat, h]
  ring

def first (x : Double) : ℤ := leadingPower x.ratio.1 x.ratio.2

theorem pow_first_le (hx : 0 < x.significand) : (10 : ℚ) ^ x.first ≤ x.magnitude := by
  have hd : 0 < x.ratio.2 := Nat.pow_pos two_pos
  have hn : 0 < x.ratio.1 := Nat.mul_pos hx (Nat.pow_pos two_pos)
  have h := leadingPower_le hn hd
  rw [fst_ratio] at h
  exact le_of_mul_le_mul_right h (Nat.cast_pos.mpr hd)

theorem exists_digitsAt? (hx : 0 < x.significand) :
    ∃ d, digitsAt? x (x.first - 16) = some d := by
  have hp : (10 : ℚ) ^ x.first = 10 ^ 16 * 10 ^ (x.first - 16) := by
    rw [← zpow_natCast, ← zpow_add₀ (by norm_num)]
    congr 1
    omega
  have hu : 10 ^ 16 * x.unit (x.first - 16) ≤
      x.quarters (x.first - 16) (4 * x.significand) := by
    rw [le_quarters_iff, four_mul_quarter, Nat.cast_pow, Nat.cast_ofNat, ← hp]
    exact pow_first_le hx
  rw [← Option.isSome_iff_exists, digitsAt?_eq, List.find?_isSome]
  exact ⟨_, List.mem_cons_self, fits_nearest hx hu⟩

theorem exists_shortest (hx : 0 < x.significand) : ∃ i d : ℕ,
    digitsAt? x (x.first - i) = some d ∧
      x.shortest = ⟨(Nat.toDigits 10 d).rdropWhile (· == '0'),
        x.first + ((Nat.toDigits 10 d).length - (i + 1 : ℕ))⟩ := by
  obtain ⟨d₀, hd₀⟩ := exists_digitsAt? hx
  have hsome : ((List.range 17).findSome? fun (i : ℕ) =>
      (digitsAt? x (x.first - i)).map fun d => (d, i + 1)).isSome := by
    rw [List.findSome?_isSome_iff]
    refine ⟨16, by decide, ?_⟩
    rw [Option.isSome_map]
    exact Option.isSome_iff_exists.mpr ⟨d₀, hd₀⟩
  obtain ⟨found, hf⟩ := Option.isSome_iff_exists.mp hsome
  obtain ⟨i, -, hi⟩ := List.exists_of_findSome?_eq_some hf
  obtain ⟨d, hd, rfl⟩ := Option.map_eq_some_iff.mp hi
  refine ⟨i, d, hd, ?_⟩
  have hs : x.shortest =
      let found := ((List.range 17).findSome? fun (i : ℕ) =>
        (digitsAt? x (x.first - i)).map fun d => (d, i + 1)).getD (x.ratio.1 / x.ratio.2, 0)
      ⟨(Nat.toDigits 10 found.1).rdropWhile (· == '0'),
        x.first + ((Nat.toDigits 10 found.1).length - found.2)⟩ := rfl
  rw [hs, hf]
  rfl

end Search

/-- The number that digits spell whose first one stands at the exponent. -/
def Digits.value (digits : Digits) : ℚ :=
  Nat.ofDigitChars 10 digits.digits 0 * 10 ^ (digits.exponent + 1 - digits.digits.length)

theorem exists_append_zeros (ds : List Char) :
    ∃ k, ds = ds.rdropWhile (· == '0') ++ List.replicate k '0' := by
  have hz : ds.rtakeWhile (· == '0') = List.replicate (ds.rtakeWhile (· == '0')).length '0' :=
    List.eq_replicate_of_mem fun c hc => by simpa using List.mem_rtakeWhile_imp hc
  refine ⟨(ds.rtakeWhile (· == '0')).length, ?_⟩
  rw [← hz]
  exact List.rdropWhile_append_rtakeWhile.symm

/-- Trailing zeros do not matter where the exponent counts the digits from the first one. -/
theorem value_strip (d : ℕ) (e : ℤ) :
    Digits.value ⟨(Nat.toDigits 10 d).rdropWhile (· == '0'),
      e + (Nat.toDigits 10 d).length - 1⟩ = d * 10 ^ e := by
  obtain ⟨k, hk⟩ := exists_append_zeros (Nat.toDigits 10 d)
  set stripped := (Nat.toDigits 10 d).rdropWhile (· == '0')
  have hd : d = 10 ^ k * Nat.ofDigitChars 10 stripped 0 := by
    rw [← Nat.ofDigitChars_replicate_zero, ← Nat.ofDigitChars_append, ← hk,
      Nat.ofDigitChars_ten_toDigits]
  have hl : (Nat.toDigits 10 d).length = stripped.length + k := by
    rw [hk, List.length_append, List.length_replicate]
  have he : e + (Nat.toDigits 10 d).length - 1 + 1 - stripped.length = k + e := by
    rw [hl]
    push_cast
    omega
  have hv : (d : ℚ) = 10 ^ k * Nat.ofDigitChars 10 stripped 0 := by exact_mod_cast hd
  rw [Digits.value, he, hv, zpow_add₀ (by norm_num), zpow_natCast]
  ring

/-- The fewest digits that the search finds are digits of a number that rounds to `x`. -/
theorem rounds_shortest {x : Double} (hx : 0 < x.significand) : x.Rounds x.shortest.value := by
  obtain ⟨i, d, hd, hs⟩ := exists_shortest hx
  have he : x.first + ((Nat.toDigits 10 d).length - (i + 1 : ℕ)) =
      (x.first - i) + (Nat.toDigits 10 d).length - 1 := by
    push_cast
    omega
  rw [hs, he, value_strip]
  exact rounds_of_digitsAt? hd

end StoryEngine.Double
