import StoryEngine.Proofs.Double.Shortest

/-! # The written form of a number

The number that a decimal notation spells can be read off it, in plain and in scientific layout.
What the written form of a binary64 number spells rounds to the number, so that different numbers
are written differently.
-/

namespace StoryEngine.Double

def spelledPower : List Char → ℤ
  | 'e' :: '-' :: ds => -(Nat.ofDigitChars 10 ds 0 : ℕ)
  | 'e' :: '+' :: ds => (Nat.ofDigitChars 10 ds 0 : ℕ)
  | _ => 0

/-- The number that is spelled by digits and what stands after them: a point with more digits, a
power of ten, both or neither. -/
def spelledAfter (whole : List Char) : List Char → ℚ
  | '.' :: rest =>
    let fraction := rest.takeWhile Char.isDigit
    Nat.ofDigitChars 10 (whole ++ fraction) 0 *
      10 ^ (spelledPower (rest.dropWhile Char.isDigit) - fraction.length)
  | rest => Nat.ofDigitChars 10 whole 0 * 10 ^ spelledPower rest

def spelled (cs : List Char) : ℚ :=
  spelledAfter (cs.takeWhile Char.isDigit) (cs.dropWhile Char.isDigit)

variable {digits whole fraction tail : List Char} {exponent : ℤ}

def powerText (exponent : ℤ) : List Char :=
  'e' :: (if exponent < 0 then '-' else '+') :: Nat.toDigits 10 exponent.natAbs

theorem spelledPower_powerText (exponent : ℤ) : spelledPower (powerText exponent) = exponent := by
  unfold powerText
  split
  · rw [spelledPower, Nat.ofDigitChars_ten_toDigits]
    omega
  · rw [spelledPower, Nat.ofDigitChars_ten_toDigits]
    omega

theorem takeWhile_of_head? {p : Char → Bool} (h : ∀ c ∈ tail.head?, p c = false) :
    tail.takeWhile p = [] := by
  cases tail with
  | nil => rfl
  | cons c cs => exact List.takeWhile_cons_of_neg (by simpa using h)

theorem dropWhile_of_head? {p : Char → Bool} (h : ∀ c ∈ tail.head?, p c = false) :
    tail.dropWhile p = tail := by
  cases tail with
  | nil => rfl
  | cons c cs => exact List.dropWhile_cons_of_neg (by simpa using h)

section Spelled

theorem spelled_append (hw : ∀ c ∈ whole, c.isDigit) (ht : ∀ c ∈ tail.head?, c.isDigit = false) :
    spelled (whole ++ tail) = spelledAfter whole tail := by
  have htake : tail.takeWhile Char.isDigit = [] := takeWhile_of_head? ht
  have hdrop : tail.dropWhile Char.isDigit = tail := dropWhile_of_head? ht
  rw [spelled, List.takeWhile_append_of_pos hw, List.dropWhile_append_of_pos hw, htake, hdrop,
    List.append_nil]

theorem spelled_point (hw : ∀ c ∈ whole, c.isDigit) (hf : ∀ c ∈ fraction, c.isDigit)
    (ht : ∀ c ∈ tail.head?, c.isDigit = false) :
    spelled (whole ++ '.' :: (fraction ++ tail)) =
      Nat.ofDigitChars 10 (whole ++ fraction) 0 * 10 ^ (spelledPower tail - fraction.length) := by
  rw [spelled_append hw (by simp), spelledAfter, List.takeWhile_append_of_pos hf,
    List.dropWhile_append_of_pos hf, takeWhile_of_head? ht, dropWhile_of_head? ht, List.append_nil]

theorem spelled_power (hw : ∀ c ∈ whole, c.isDigit) (exponent : ℤ) :
    spelled (whole ++ powerText exponent) = Nat.ofDigitChars 10 whole 0 * 10 ^ exponent := by
  rw [spelled_append hw (by simp [powerText]), spelledAfter, spelledPower_powerText]
  exact nofun

end Spelled

section Layout

theorem ofDigitChars_replicate_append (k : ℕ) (ds : List Char) :
    Nat.ofDigitChars 10 (List.replicate k '0' ++ ds) 0 = Nat.ofDigitChars 10 ds 0 := by
  rw [Nat.ofDigitChars_append, Nat.ofDigitChars_replicate_zero, mul_zero]

theorem isDigit_replicate (k : ℕ) : ∀ c ∈ List.replicate k '0', c.isDigit := by
  intro c hc
  rw [(List.mem_replicate.mp hc).2]
  rfl

theorem plain_of_neg (h : exponent < 0) : plain digits exponent =
    ['0'] ++ '.' :: ((List.replicate (-exponent - 1).toNat '0' ++ digits) ++ []) := by
  rw [plain, if_pos h, List.append_nil]
  rfl

theorem plain_of_length_le (h : 0 ≤ exponent) (hl : digits.length ≤ exponent.toNat + 1) :
    plain digits exponent =
      (digits ++ List.replicate (exponent.toNat + 1 - digits.length) '0') ++
        '.' :: (['0'] ++ []) := by
  rw [plain, if_neg (not_lt.mpr h)]
  simp only [List.drop_eq_nil_of_le hl, List.isEmpty_nil, List.take_of_length_le hl, List.rightpad,
    if_true, List.append_nil]

theorem plain_of_lt_length (h : 0 ≤ exponent) (hl : exponent.toNat + 1 < digits.length) :
    plain digits exponent = digits.take (exponent.toNat + 1) ++
      '.' :: (digits.drop (exponent.toNat + 1) ++ []) := by
  have hd : (digits.drop (exponent.toNat + 1)).isEmpty = false := by simpa using hl
  have ht : exponent.toNat + 1 - (digits.take (exponent.toNat + 1)).length = 0 := by
    rw [List.length_take]
    omega
  rw [plain, if_neg (not_lt.mpr h)]
  simp only [hd, List.rightpad, ht, List.replicate_zero, List.append_nil, Bool.false_eq_true,
    if_false]

theorem spelled_plain (hd : ∀ c ∈ digits, c.isDigit) (exponent : ℤ) :
    spelled (plain digits exponent) = Digits.value ⟨digits, exponent⟩ := by
  rcases lt_or_ge exponent 0 with hneg | hpos
  · have hf : ∀ c ∈ List.replicate (-exponent - 1).toNat '0' ++ digits, c.isDigit :=
      List.forall_mem_append.mpr ⟨isDigit_replicate _, hd⟩
    have hz : ['0'] ++ (List.replicate (-exponent - 1).toNat '0' ++ digits) =
        List.replicate ((-exponent - 1).toNat + 1) '0' ++ digits := rfl
    rw [plain_of_neg hneg, spelled_point (by simp) hf (by simp), hz,
      ofDigitChars_replicate_append, Digits.value, List.length_append, List.length_replicate]
    congr 2
    simp only [spelledPower]
    omega
  · rcases Nat.lt_or_ge (exponent.toNat + 1) digits.length with hl | hl
    · rw [plain_of_lt_length hpos hl,
        spelled_point (fun c hc => hd c (List.mem_of_mem_take hc))
          (fun c hc => hd c (List.mem_of_mem_drop hc)) (by simp),
        List.take_append_drop, Digits.value, List.length_drop]
      congr 2
      simp only [spelledPower]
      omega
    · have hw := List.forall_mem_append.mpr
        ⟨hd, isDigit_replicate (exponent.toNat + 1 - digits.length)⟩
      have he : exponent + 1 - digits.length = (exponent.toNat + 1 - digits.length : ℕ) := by
        omega
      rw [plain_of_length_le hpos hl, spelled_point hw (by simp) (by simp),
        Nat.ofDigitChars_append, Nat.ofDigitChars_append, Nat.ofDigitChars_replicate_zero,
        Digits.value, he, zpow_natCast]
      simp [spelledPower, Nat.ofDigitChars_cons]
      ring

theorem scientific_of_length_le (hl : digits.length ≤ 1) :
    scientific digits exponent = digits ++ powerText exponent := by
  simp only [scientific, List.drop_eq_nil_of_le hl, List.take_of_length_le hl, List.isEmpty_nil,
    if_true, List.append_nil, powerText]

theorem scientific_of_lt_length (hl : 1 < digits.length) : scientific digits exponent =
    digits.take 1 ++ '.' :: (digits.drop 1 ++ powerText exponent) := by
  have hd : (digits.drop 1).isEmpty = false := by
    rw [List.isEmpty_eq_false_iff, Ne, List.drop_eq_nil_iff]
    omega
  simp only [scientific, hd, Bool.false_eq_true, if_false, List.append_assoc, List.cons_append,
    powerText]

theorem spelled_scientific (hd : ∀ c ∈ digits, c.isDigit) (exponent : ℤ) :
    spelled (scientific digits exponent) = Digits.value ⟨digits, exponent⟩ := by
  rcases Nat.lt_or_ge 1 digits.length with hl | hl
  · rw [scientific_of_lt_length hl,
      spelled_point (fun c hc => hd c (List.mem_of_mem_take hc))
        (fun c hc => hd c (List.mem_of_mem_drop hc)) (by simp [powerText]),
      List.take_append_drop, Digits.value, spelledPower_powerText, List.length_drop]
    congr 2
    dsimp only
    omega
  · rw [scientific_of_length_le hl, spelled_power hd, Digits.value]
    cases digits with
    | nil => simp
    | cons c cs =>
      obtain rfl : cs = [] := List.eq_nil_of_length_eq_zero (by simpa using hl)
      congr 2
      dsimp only [List.length_singleton]
      omega

end Layout

def isNumeric (c : Char) : Bool := c.isDigit || ['-', '+', '.', 'e'].contains c

theorem isNumeric_of_isDigit {c : Char} (h : c.isDigit) : isNumeric c := by
  rw [isNumeric, h, Bool.true_or]

def signed (negative : Bool) (cs : List Char) : List Char :=
  if negative then '-' :: cs else cs

theorem subset_signed (negative : Bool) (cs : List Char) : cs ⊆ signed negative cs := by
  cases negative with
  | false => exact List.Subset.refl cs
  | true => exact List.subset_cons_self _ _

theorem isNumeric_signed {cs : List Char} (h : ∀ c ∈ cs, isNumeric c) (negative : Bool) :
    ∀ c ∈ signed negative cs, isNumeric c := by
  cases negative with
  | false => exact h
  | true => exact List.forall_mem_cons.mpr ⟨by decide, h⟩

theorem signed_inj {s s' : Bool} {cs cs' : List Char} (h : cs.head? ≠ some '-')
    (h' : cs'.head? ≠ some '-') (he : signed s cs = signed s' cs') : s = s' ∧ cs = cs' := by
  cases s <;> cases s'
  case false.false => exact ⟨rfl, he⟩
  case false.true => exact absurd (congrArg List.head? he) h
  case true.false => exact absurd (congrArg List.head? he).symm h'
  case true.true => exact ⟨rfl, (List.cons.inj he).2⟩

section Text

variable {x y : Double}

def body (x : Double) : List Char :=
  if x.isZero then ['0', '.', '0']
  else if -5 ≤ x.shortest.exponent ∧ x.shortest.exponent ≤ 15 then
    plain x.shortest.digits x.shortest.exponent
  else scientific x.shortest.digits x.shortest.exponent

theorem toList_text (x : Double) : x.text.toList = signed x.negative x.body := String.toList_ofList

theorem isDigit_shortest (x : Double) : ∀ c ∈ x.shortest.digits, c.isDigit := by
  have hs : ∃ d, x.shortest.digits = (Nat.toDigits 10 d).rdropWhile (· == '0') := ⟨_, rfl⟩
  obtain ⟨d, hd⟩ := hs
  rw [hd]
  intro c hc
  exact Nat.isDigit_of_mem_toDigits (by decide) (by decide) ((List.rdropWhile_prefix _ _).subset hc)

/-- What the written form of a number spells rounds to the number. -/
theorem rounds_spelled_body (x : Double) : x.Rounds (spelled x.body) := by
  unfold body
  split
  case isTrue hz =>
    have hm : x.significand = 0 := by simpa [isZero] using hz
    have hq := x.quarter_pos
    have hs : spelled ['0', '.', '0'] = 0 := by
      have h : spelled (['0'] ++ '.' :: (['0'] ++ [])) =
          Nat.ofDigitChars 10 (['0'] ++ ['0']) 0 * 10 ^ (spelledPower [] - 1) :=
        spelled_point (by simp) (by simp) (by simp)
      simpa [Nat.ofDigitChars_cons] using h
    rw [hs]
    constructor
    · simp [neighbourhood, hm]
    · simp [neighbourhood, hm, hq.le]
    · simp [neighbourhood, hm]
  case isFalse hz =>
    have hm : 0 < x.significand := Nat.pos_of_ne_zero (by simpa [isZero] using hz)
    split
    · rw [spelled_plain x.isDigit_shortest]
      exact rounds_shortest hm
    · rw [spelled_scientific x.isDigit_shortest]
      exact rounds_shortest hm

theorem isNumeric_powerText (exponent : ℤ) : ∀ c ∈ powerText exponent, isNumeric c := by
  intro c hc
  rcases List.mem_cons.mp hc with rfl | hc
  · decide
  · rcases List.mem_cons.mp hc with rfl | hc
    · split <;> decide
    · exact isNumeric_of_isDigit (Nat.isDigit_of_mem_toDigits (by decide) (by decide) hc)

/-- Digits, then a point or the letter of a power of ten, then more. -/
inductive Marked : List Char → Prop where
  | intro {whole rest : List Char} {mark : Char} : (∀ c ∈ whole, c.isDigit) →
      mark = '.' ∨ mark = 'e' → (∀ c ∈ rest, isNumeric c) → Marked (whole ++ mark :: rest)

theorem marked_point (hw : ∀ c ∈ whole, c.isDigit) (hf : ∀ c ∈ fraction, c.isDigit)
    (ht : ∀ c ∈ tail, isNumeric c) : Marked (whole ++ '.' :: (fraction ++ tail)) :=
  .intro hw (Or.inl rfl)
    (List.forall_mem_append.mpr ⟨fun c hc => isNumeric_of_isDigit (hf c hc), ht⟩)

theorem marked_plain (hd : ∀ c ∈ digits, c.isDigit) (exponent : ℤ) :
    Marked (plain digits exponent) := by
  rcases lt_or_ge exponent 0 with hneg | hpos
  · rw [plain_of_neg hneg]
    exact marked_point (by simp) (List.forall_mem_append.mpr ⟨isDigit_replicate _, hd⟩) nofun
  · rcases Nat.lt_or_ge (exponent.toNat + 1) digits.length with hl | hl
    · rw [plain_of_lt_length hpos hl]
      exact marked_point (fun c hc => hd c (List.mem_of_mem_take hc))
        (fun c hc => hd c (List.mem_of_mem_drop hc)) nofun
    · rw [plain_of_length_le hpos hl]
      exact marked_point (List.forall_mem_append.mpr ⟨hd, isDigit_replicate _⟩) (by simp) nofun

theorem marked_scientific (hd : ∀ c ∈ digits, c.isDigit) (exponent : ℤ) :
    Marked (scientific digits exponent) := by
  rcases Nat.lt_or_ge 1 digits.length with hl | hl
  · rw [scientific_of_lt_length hl]
    exact marked_point (fun c hc => hd c (List.mem_of_mem_take hc))
      (fun c hc => hd c (List.mem_of_mem_drop hc)) (isNumeric_powerText exponent)
  · rw [scientific_of_length_le hl]
    exact .intro hd (Or.inr rfl) fun c hc =>
      isNumeric_powerText exponent c (List.mem_cons_of_mem _ hc)

theorem marked_body (x : Double) : Marked x.body := by
  unfold body
  split
  · have hw : ∀ c ∈ ['0'], c.isDigit := by simp
    exact .intro hw (Or.inl rfl) (by simp [isNumeric])
  · split
    · exact marked_plain x.isDigit_shortest _
    · exact marked_scientific x.isDigit_shortest _

theorem Marked.head?_ne {cs : List Char} (h : Marked cs) : cs.head? ≠ some '-' := by
  obtain ⟨hw, hm, -⟩ := h
  rename_i whole rest mark
  cases whole with
  | nil => rcases hm with rfl | rfl <;> simp
  | cons c whole =>
    rintro hc
    obtain rfl : c = '-' := Option.some.inj hc
    exact absurd (hw _ List.mem_cons_self) (by decide)

theorem Marked.exists_mark {cs : List Char} (h : Marked cs) : ∃ c ∈ cs, c = '.' ∨ c = 'e' := by
  obtain ⟨-, hm, -⟩ := h
  exact ⟨_, List.mem_append_right _ List.mem_cons_self, hm⟩

theorem Marked.isNumeric {cs : List Char} (h : Marked cs) : ∀ c ∈ cs, isNumeric c := by
  obtain ⟨hw, hm, hr⟩ := h
  refine List.forall_mem_append.mpr ⟨fun c hc => isNumeric_of_isDigit (hw c hc), ?_⟩
  refine List.forall_mem_cons.mpr ⟨?_, hr⟩
  rcases hm with rfl | rfl <;> decide

/-- Different numbers have different written forms. -/
theorem text_injective : Function.Injective text := by
  intro x y h
  have hl := congrArg String.toList h
  rw [toList_text, toList_text] at hl
  obtain ⟨hs, hb⟩ := signed_inj x.marked_body.head?_ne y.marked_body.head?_ne hl
  have hx := x.rounds_spelled_body
  rw [hb] at hx
  obtain ⟨hm, he⟩ := hx.unique y.rounds_spelled_body
  cases x
  cases y
  simp_all

end Text

end StoryEngine.Double
