import Mathlib.Algebra.Group.Nat.Defs
import Applesoft.Proofs.Scanning

/-!
# Numbers read back from their text

Rounding gives back every number that it could have come from, so the text of a finite number in a
listing reads as that number. Line numbers are among the numbers that are exact.
-/
namespace Applesoft

theorem roundHalfEven_mul (n : Nat) {den : Nat} (hden : 0 < den) :
    roundHalfEven (n * den) den = n := by
  rw [roundHalfEven, Nat.mul_div_cancel _ hden, Nat.mul_mod_left]
  simp [hden]

namespace Binary64

/-- In its binade a rank beyond the first `2 ^ 52` has 53 bits and a scale. -/
theorem log2_scaled {m e : Nat} (hlow : 2 ^ 52 ≤ m) (hhigh : m < 2 ^ 53) :
    (m * 2 ^ e).log2 = 52 + e := by
  have hpos : 0 < 2 ^ e := Nat.two_pow_pos e
  rw [Nat.log2_eq_iff (Nat.mul_ne_zero (by omega) (by omega)), Nat.pow_add,
    show 52 + e + 1 = 53 + e by omega, Nat.pow_add]
  exact ⟨Nat.mul_le_mul_right _ hlow, Nat.mul_lt_mul_of_pos_right hhigh hpos⟩

theorem nearestRank_units {rank den : Nat} (hrank : rank ≤ infinityRank) (hden : 0 < den) :
    nearestRank (unitsOfRank rank * den) den = rank := by
  unfold nearestRank unitsOfRank
  rw [Nat.mul_div_cancel _ hden]
  dsimp only
  by_cases hsmall : rank < 2 ^ 52
  · have hlog : rank.log2 - 52 = 0 := by
      by_cases hzero : rank = 0
      · rw [hzero, Nat.log2_zero]
      · have := (Nat.log2_lt hzero).2 hsmall
        omega
    rw [if_pos hsmall, hlog, Nat.pow_zero, Nat.mul_one, roundHalfEven_mul rank hden]
    omega
  · have hdiv := Nat.div_add_mod rank (2 ^ 52)
    have hmod := Nat.mod_lt rank (Nat.two_pow_pos 52)
    rw [if_neg hsmall, log2_scaled (by omega) (by omega), Nat.add_sub_cancel_left, Nat.mul_assoc,
      Nat.mul_comm (2 ^ _) den, roundHalfEven_mul _ (Nat.mul_pos hden (Nat.two_pow_pos _))]
    omega

end Binary64

namespace Decimal

theorem ofDigits_eq (digits : Text) : ofDigits digits = Nat.ofDigitChars 10 digits 0 := rfl

theorem ofDigits_ofNat (n : Nat) : ofDigits (Text.ofNat n) = n :=
  Nat.ofDigitChars_ten_toDigits

theorem ofDigits_zeros_append (n : Nat) (digits : Text) :
    ofDigits (List.replicate n '0' ++ digits) = ofDigits digits := by
  simp [ofDigits_eq, Nat.ofDigitChars_append]

theorem ofDigits_append_zeros (digits : Text) (n : Nat) :
    ofDigits (digits ++ List.replicate n '0') = ofDigits digits * 10 ^ n := by
  simp [ofDigits_eq, Nat.ofDigitChars_append, Nat.mul_comm]

theorem isDigit_ofNat (n : Nat) : ∀ c ∈ Text.ofNat n, c.isDigit = true :=
  fun _ hc => Nat.isDigit_of_mem_toDigits (by decide) (by decide) hc

theorem mem_positional {digits : Nat} {exponent : Int} :
    ∀ c ∈ positional digits exponent, c.isDigit = true ∨ c = '.' := by
  have hzeros (n : Nat) : ∀ c ∈ List.replicate n '0', c.isDigit = true := by
    intro c hc
    rw [(List.mem_replicate.1 hc).2]
    rfl
  intro c hc
  unfold positional at hc
  split at hc
  · rcases List.mem_append.1 hc with hc | hc
    · exact .inl (isDigit_ofNat digits c hc)
    · exact .inl (hzeros _ c hc)
  · have hpadded {n : Nat} : ∀ c ∈ List.replicate n '0' ++ Text.ofNat digits, c.isDigit = true :=
      List.forall_mem_append.2 ⟨hzeros n, isDigit_ofNat digits⟩
    rcases List.mem_append.1 hc with hc | hc
    · exact .inl (hpadded c (List.mem_of_mem_take hc))
    · rcases List.mem_cons.1 hc with rfl | hc
      · exact .inr rfl
      · exact .inl (hpadded c (List.mem_of_mem_drop hc))

end Decimal

namespace Binary64

variable {x : Binary64}

def IsListable (x : Binary64) : Prop := x.negative = false ∧ x.isFinite = true

theorem IsListable.rank_lt (h : x.IsListable) : x.rank.val < infinityRank := by
  simpa [isFinite] using h.2

theorem IsListable.eq_ofUnits (h : x.IsListable) {num den : Nat}
    (hrank : nearestRank num den = x.rank.val) : ofUnits false num den = x := by
  obtain ⟨negative, rank⟩ := x
  obtain rfl : negative = false := h.1
  rw [ofUnits, Binary64.mk.injEq]
  exact ⟨rfl, Fin.ext hrank⟩

/-- Whichever of two neighbours is taken passes the test that it is taken by. -/
theorem hits_of_choice {hits : Nat → Bool} {near : Prop} [Decidable near] {below digits : Nat}
    (h : (if hits below && hits (below + 1) then if near then some below else some (below + 1)
      else if hits below then some below
      else if hits (below + 1) then some (below + 1) else none) = some digits) :
    hits digits = true := by
  by_cases hbelow : hits below = true <;> by_cases habove : hits (below + 1) = true
  · by_cases hnear : near <;> simp_all
  · simp_all
  · simp_all
  · simp_all

theorem rankOfDecimal_onGrid? {rank digits : Nat} {exponent : Int}
    (h : onGrid? rank exponent = some digits) : rankOfDecimal digits exponent = rank := by
  have hhits := @hits_of_choice (fun d => rankOfDecimal d exponent == rank) _ _ _ _ h
  simpa using hhits

theorem nearestRank_exact {rank : Nat} (hrank : rank ≤ infinityRank) {one : Nat} (n : Nat)
    (hone : one = 2 ^ n) : nearestRank (unitsOfRank rank * 5 ^ n * one) (10 ^ n) = rank := by
  rw [hone, Nat.mul_assoc, ← Nat.mul_pow]
  exact nearestRank_units hrank (Nat.pow_pos (by decide))

theorem rankOfDecimal_exact {rank : Nat} (hrank : rank ≤ infinityRank) :
    rankOfDecimal (unitsOfRank rank * 5 ^ 1074) (-1074) = rank := by
  rw [rankOfDecimal, if_neg (by decide)]
  exact nearestRank_exact hrank _ rfl

theorem rankOfDecimal_shortestFrom {rank : Nat} (hrank : rank ≤ infinityRank) (fuel : Nat)
    (exponent : Int) :
    rankOfDecimal (shortestFrom rank fuel exponent).1 (shortestFrom rank fuel exponent).2 =
      rank := by
  induction fuel generalizing exponent with
  | zero => exact rankOfDecimal_exact hrank
  | succ fuel ih =>
    rw [shortestFrom]
    cases hgrid : onGrid? rank exponent with
    | none => exact ih (exponent - 1)
    | some digits => exact rankOfDecimal_onGrid? hgrid

/-- A positional decimal reads as the double nearest to it. -/
theorem cutNumber_positional (h : x.IsListable) {digits : Nat} {exponent : Int} {r : Text}
    (hrank : rankOfDecimal digits exponent = x.rank.val) (hr : Stops Char.isDigit r)
    (hpoint : r.head? ≠ some '.') :
    Lexeme.cutNumber (Decimal.positional digits exponent ++ r) = (.number x, r) := by
  have hdigits := Decimal.isDigit_ofNat digits
  by_cases hexp : 0 ≤ exponent
  · rw [rankOfDecimal, if_pos hexp] at hrank
    rw [Decimal.positional, if_pos hexp, Lexeme.cutNumber_whole _ hr hpoint, ofDecimal]
    · rw [List.append_nil, Decimal.ofDigits_append_zeros, Decimal.ofDigits_ofNat]
      exact congrArg (fun y => (Lexeme.number y, r)) (h.eq_ofUnits hrank)
    · intro c hc
      rcases List.mem_append.1 hc with hc | hc
      · exact hdigits c hc
      · rw [(List.mem_replicate.1 hc).2]; rfl
  · rw [rankOfDecimal, if_neg hexp] at hrank
    rw [Decimal.positional, if_neg hexp]
    dsimp only
    generalize hpadded : List.replicate (exponent.natAbs + 1 - (Text.ofNat digits).length) '0' ++
      Text.ofNat digits = padded
    have hall : ∀ c ∈ padded, c.isDigit = true := by
      intro c hc
      rw [← hpadded] at hc
      rcases List.mem_append.1 hc with hc | hc
      · rw [(List.mem_replicate.1 hc).2]; rfl
      · exact hdigits c hc
    have hlength : exponent.natAbs ≤ padded.length := by
      rw [← hpadded, List.length_append, List.length_replicate]
      omega
    rw [List.append_assoc, List.cons_append,
      Lexeme.cutNumber_point (fun c hc => hall c (List.mem_of_mem_take hc))
        (fun c hc => hall c (List.mem_of_mem_drop hc)) hr,
      ofDecimal, List.take_append_drop, List.length_drop, ← hpadded,
      Decimal.ofDigits_zeros_append, Decimal.ofDigits_ofNat, hpadded, Nat.sub_sub_self hlength]
    exact congrArg (fun y => (Lexeme.number y, r)) (h.eq_ofUnits hrank)

theorem units_eq_of_isWhole (h : x.isWhole = true) : x.units = x.wholePart * unitsPerOne := by
  have hdiv := Nat.div_add_mod x.units unitsPerOne
  simp only [isWhole, Bool.and_eq_true, beq_iff_eq] at h
  rw [wholePart, Nat.mul_comm]
  omega

theorem ofDecimal_wholePart (h : x.IsListable) (hwhole : x.isWhole = true) :
    ofDecimal (Text.ofNat x.wholePart) [] = x := by
  rw [ofDecimal, List.append_nil, Decimal.ofDigits_ofNat]
  apply h.eq_ofUnits
  rw [← units_eq_of_isWhole hwhole]
  have := nearestRank_units (Nat.le_of_lt h.rank_lt) Nat.one_pos
  rwa [Nat.mul_one] at this

theorem cutNumber_listingText (h : x.IsListable) {r : Text} (hr : Stops Char.isDigit r)
    (hpoint : r.head? ≠ some '.') :
    Lexeme.cutNumber (x.listingText ++ r) = (.number x, r) := by
  unfold listingText
  split
  · next hsmall =>
    simp only [Bool.and_eq_true] at hsmall
    rw [h.1, Bool.false_and, if_neg (by simp), List.nil_append,
      Lexeme.cutNumber_whole (Decimal.isDigit_ofNat _) hr hpoint, ofDecimal_wholePart h hsmall.1]
  · next hlarge =>
    have hrank := h.rank_lt
    have hnan : x.isNaN = false := by simp only [isNaN, decide_eq_false_iff_not]; omega
    have hinf : x.isInfinite = false := by simp only [isInfinite, beq_eq_false_iff_ne]; omega
    have hzero : x.rank.val ≠ 0 := by
      intro hzero
      simp [isWhole, isFinite, wholePart, units, unitsOfRank, hzero, infinityRank] at hlarge
    unfold plainText
    simp only [hnan, hinf, h.1, hzero, if_false, Bool.false_eq_true, List.nil_append]
    exact cutNumber_positional h (rankOfDecimal_shortestFrom (Nat.le_of_lt hrank) _ _) hr hpoint

theorem listingText_infinite (hnegative : x.negative = false) (h : x.isInfinite = true) :
    x.listingText = ['i', 'n', 'f'] := by
  have hrank : x.rank.val = infinityRank := by simpa [isInfinite] using h
  have hfinite : x.isFinite = false := by simp [isFinite, hrank]
  have hnan : x.isNaN = false := by simp [isNaN, hrank]
  rw [listingText, isWhole, hfinite, plainText, hnan, h, hnegative]
  rfl

/-- A number that is read is listed with digits and points, or as an infinity. -/
theorem mem_listingText (hnegative : x.negative = false) (hrank : x.rank.val ≤ infinityRank) :
    ∀ c ∈ x.listingText, c.isDigit = true ∨ c ∈ ['.', 'i', 'n', 'f'] := by
  intro c hc
  by_cases hinf : x.isInfinite = true
  · rw [listingText_infinite hnegative hinf] at hc
    exact .inr (List.mem_cons_of_mem _ hc)
  · have hnan : x.isNaN = false := by simpa [isNaN] using hrank
    simp only [listingText, plainText, hnegative, hnan, hinf, Bool.false_and, if_false,
      Bool.false_eq_true, List.nil_append] at hc
    split at hc
    · exact .inl (Decimal.isDigit_ofNat _ c hc)
    · split at hc
      · obtain rfl := List.mem_singleton.1 hc
        exact .inl rfl
      · exact (Decimal.mem_positional c hc).imp_right fun h => by simp [h]

theorem ofDecimal_isListable_or_infinite (whole fraction : Text) :
    (ofDecimal whole fraction).negative = false ∧
      (ofDecimal whole fraction).rank.val ≤ infinityRank :=
  ⟨rfl, Nat.min_le_left _ _⟩

/-- Whole numbers of up to 53 bits are doubles. -/
theorem exists_rank_of_lt {n : Nat} (hn : n < 2 ^ 53) :
    ∃ rank < infinityRank, unitsOfRank rank = n * unitsPerOne := by
  by_cases hzero : n = 0
  · subst hzero
    exact ⟨0, by decide, by simp [unitsOfRank]⟩
  have hlog : n.log2 ≤ 52 := by
    have := (Nat.log2_lt hzero).2 hn
    omega
  obtain ⟨hlow, hhigh⟩ := (Nat.log2_eq_iff hzero).1 rfl
  -- the significand brought to 53 bits, and its rank in the binade of `2 ^ n.log2`
  have hscale : 2 ^ n.log2 * 2 ^ (52 - n.log2) = 2 ^ 52 := by
    rw [← Nat.pow_add]; congr 1; omega
  have hscaled_low : 2 ^ 52 ≤ n * 2 ^ (52 - n.log2) := by
    rw [← hscale]; exact Nat.mul_le_mul_right _ hlow
  have hscaled_high : n * 2 ^ (52 - n.log2) < 2 ^ 53 := by
    have := Nat.mul_lt_mul_of_pos_right hhigh (Nat.two_pow_pos (52 - n.log2))
    rwa [Nat.pow_succ, Nat.mul_right_comm, hscale] at this
  generalize hm : n * 2 ^ (52 - n.log2) = m at hscaled_low hscaled_high
  have hdiv : ((n.log2 + 1023) * 2 ^ 52 + (m - 2 ^ 52)) / 2 ^ 52 = n.log2 + 1023 := by omega
  have hmod : ((n.log2 + 1023) * 2 ^ 52 + (m - 2 ^ 52)) % 2 ^ 52 = m - 2 ^ 52 := by omega
  refine ⟨(n.log2 + 1023) * 2 ^ 52 + (m - 2 ^ 52), by unfold infinityRank; omega, ?_⟩
  have hexp : 52 - n.log2 + (n.log2 + 1023 - 1) = 1074 := by omega
  rw [unitsOfRank, if_neg (by omega), hdiv, hmod, Nat.add_sub_cancel' hscaled_low, ← hm,
    Nat.mul_assoc, ← Nat.pow_add, hexp, unitsPerOne]

theorem toInt?_ofDecimal_ofNat {n : Nat} (hn : n < 2 ^ 53) :
    (ofDecimal (Text.ofNat n) []).toInt? = some (n : Int) := by
  obtain ⟨rank, hrank, hunits⟩ := exists_rank_of_lt hn
  have hnearest : (ofDecimal (Text.ofNat n) []).rank.val = rank := by
    have := nearestRank_units (Nat.le_of_lt hrank) Nat.one_pos
    rw [hunits, Nat.mul_one] at this
    rw [ofDecimal, List.append_nil, Decimal.ofDigits_ofNat]
    exact this
  have hone : 0 < unitsPerOne := Nat.pos_of_ne_zero (by simp [unitsPerOne])
  simp only [toInt?, isWhole, isFinite, wholePart, units, hnearest, hunits, hrank,
    Nat.mul_mod_left, Nat.mul_div_cancel _ hone]
  rfl

theorem ofDecimal_ofNat (n : Nat) : ofDecimal (Text.ofNat n) [] = ofNat n := by
  rw [ofDecimal, List.append_nil, Decimal.ofDigits_ofNat]
  rfl

theorem toInt?_ofNat {n : Nat} (hn : n < 2 ^ 53) : (ofNat n).toInt? = some (n : Int) := by
  rw [← ofDecimal_ofNat, toInt?_ofDecimal_ofNat hn]

theorem isDigit_head_of_ne_nil {t : Text} (ht : t ≠ []) (h : ∀ c ∈ t, c.isDigit = true)
    (more : Text) : ∃ c ∈ (t ++ more).head?, c.isDigit = true := by
  cases t with
  | nil => exact absurd rfl ht
  | cons c rest => exact ⟨c, rfl, h c List.mem_cons_self⟩

theorem isDigit_head_ofNat (n : Nat) (more : Text) :
    ∃ c ∈ (Text.ofNat n ++ more).head?, c.isDigit = true :=
  isDigit_head_of_ne_nil Nat.toDigits_ne_nil (Decimal.isDigit_ofNat n) more

theorem isDigit_head_positional (digits : Nat) (exponent : Int) :
    ∃ c ∈ (Decimal.positional digits exponent).head?, c.isDigit = true := by
  unfold Decimal.positional
  split
  · exact isDigit_head_ofNat _ _
  · apply isDigit_head_of_ne_nil
    · rw [Ne, ← List.length_eq_zero_iff, List.length_take, List.length_append,
        List.length_replicate]
      omega
    · intro c hc
      rcases List.mem_append.1 (List.mem_of_mem_take hc) with hc | hc
      · rw [(List.mem_replicate.1 hc).2]; rfl
      · exact Decimal.isDigit_ofNat digits c hc

theorem isDigit_head_listingText (h : x.IsListable) :
    ∃ c ∈ x.listingText.head?, c.isDigit = true := by
  have hnan : x.isNaN = false := by
    have := h.rank_lt
    simp only [isNaN, decide_eq_false_iff_not]
    omega
  have hinf : x.isInfinite = false := by
    have := h.rank_lt
    simp only [isInfinite, beq_eq_false_iff_ne]
    omega
  unfold listingText plainText
  simp only [h.1, hnan, hinf, Bool.false_and, if_false, Bool.false_eq_true, List.nil_append]
  split
  · simpa using isDigit_head_ofNat x.wholePart []
  · split
    · exact ⟨'0', rfl, rfl⟩
    · exact isDigit_head_positional _ _

section Unsigned

variable {whole fraction : Text}

theorem ofRatio_zero {den : Nat} (hden : 0 < den) : ofRatio 0 den = zero := by
  have hrank := nearestRank_units (Nat.zero_le infinityRank) hden
  rw [ofRatio, ofUnits, zero, Binary64.mk.injEq]
  refine ⟨rfl, Fin.ext ?_⟩
  simpa [unitsOfRank] using hrank

/-- Digits with as many behind the point as the exponent takes off are far from either end of the range. -/
theorem ofScientific_fraction (whole fraction : Text) :
    ofScientific (whole ++ fraction) (0 - fraction.length) = ofDecimal whole fraction := by
  have hpos : 0 < 10 ^ fraction.length := Nat.pow_pos (by decide)
  unfold ofScientific ofDecimal
  by_cases hzero : Decimal.ofDigits (whole ++ fraction) = 0
  · simp only [hzero, if_true, ofRatio_zero hpos]
  · have hlength : (whole ++ fraction).length = whole.length + fraction.length := List.length_append
    have hhigh : ¬ (310 : Int) < 0 - fraction.length := by omega
    have hlow : ¬ (0 - fraction.length : Int) + (whole ++ fraction).length < -330 := by omega
    simp only [if_neg hzero, if_neg hhigh, if_neg hlow]
    by_cases hnil : fraction.length = 0
    · simp [hnil]
    · have hneg : ¬ (0 : Int) ≤ 0 - fraction.length := by omega
      have habs : (0 - fraction.length : Int).natAbs = fraction.length := by omega
      rw [if_neg hneg, habs]

/-- A text of digits and a point is neither signed nor the name of an infinity or of no number. -/
theorem ofText?_of_digits {t : Text} (h : ∀ c ∈ t.head?, c.isDigit = true ∨ c = '.') :
    ofText? t = ofUnsigned? t := by
  cases t with
  | nil => rfl
  | cons c rest =>
    have hc := h c rfl
    have hlower : c.toLower = c := by
      rcases hc with hc | rfl
      · exact toLower_of_isDigit hc
      · decide
    have hne : ∀ d : Char, d.isDigit = false → d ≠ '.' → c ≠ d := by
      rintro d hdigit hpoint rfl
      simp [hdigit, hpoint] at hc
    have hname : ∀ d rest', d.isDigit = false → d ≠ '.' →
        String.ofList ((c :: rest).map Char.toLower) ≠ String.ofList (d :: rest') := by
      intro d rest' hdigit hpoint heq
      have hcons := String.ofList_injective heq
      rw [List.map_cons, hlower] at hcons
      exact hne d hdigit hpoint (List.cons.inj hcons).1
    have hinf := hname 'i' ['n', 'f'] rfl (by decide)
    have hinfinity := hname 'i' ['n', 'f', 'i', 'n', 'i', 't', 'y'] rfl (by decide)
    have hnan := hname 'n' ['a', 'n'] rfl (by decide)
    unfold ofText?
    split
    · next heq => exact absurd (List.cons.inj heq).1 (hne '-' rfl (by decide))
    · next heq => exact absurd (List.cons.inj heq).1 (hne '+' rfl (by decide))
    · dsimp only
      rw [if_neg, if_neg hnan]
      rw [Bool.or_eq_true, decide_eq_true_eq, decide_eq_true_eq, not_or]
      exact ⟨hinf, hinfinity⟩

/-- Without any digit there is no number to read; a lone point counts as zero. -/
theorem getD_ofScientific (whole fraction : Text) :
    (if (whole ++ fraction).isEmpty then none
      else some (ofScientific (whole ++ fraction) (0 - fraction.length))).getD zero =
    ofDecimal whole fraction := by
  rw [ofScientific_fraction]
  by_cases hnil : (whole ++ fraction).isEmpty = true
  · obtain ⟨rfl, rfl⟩ := List.append_eq_nil_iff.1 (List.isEmpty_iff.1 hnil)
    exact (ofRatio_zero Nat.one_pos).symm
  · rw [if_neg hnil]
    rfl

theorem getD_ofText?_whole (hw : ∀ c ∈ whole, c.isDigit = true) :
    (ofText? whole).getD zero = ofDecimal whole [] := by
  have hhead : ∀ c ∈ whole.head?, c.isDigit = true ∨ c = '.' := fun c hc =>
    .inl (hw c (List.mem_of_mem_head? hc))
  have htake : whole.takeWhile Char.isDigit = whole := by
    simpa using takeWhile_append_of_stops hw (stops_nil _)
  have hdrop : whole.dropWhile Char.isDigit = [] := by
    simpa using dropWhile_append_of_stops hw (stops_nil _)
  rw [ofText?_of_digits hhead, ← getD_ofScientific, ofUnsigned?, htake, hdrop]
  rfl

theorem getD_ofText?_point (hw : ∀ c ∈ whole, c.isDigit = true)
    (hfraction : ∀ c ∈ fraction, c.isDigit = true) :
    (ofText? (whole ++ '.' :: fraction)).getD zero = ofDecimal whole fraction := by
  have hhead : ∀ c ∈ (whole ++ '.' :: fraction).head?, c.isDigit = true ∨ c = '.' := by
    cases whole with
    | nil => simp
    | cons d whole => simpa using .inl (hw d List.mem_cons_self)
  have hstop : Stops Char.isDigit ('.' :: fraction) := stops_cons.2 (by decide)
  have htake : fraction.takeWhile Char.isDigit = fraction := by
    simpa using takeWhile_append_of_stops hfraction (stops_nil _)
  have hdrop : fraction.dropWhile Char.isDigit = [] := by
    simpa using dropWhile_append_of_stops hfraction (stops_nil _)
  rw [ofText?_of_digits hhead, ← getD_ofScientific, ofUnsigned?, takeWhile_append_of_stops hw hstop,
    dropWhile_append_of_stops hw hstop]
  simp only [htake, hdrop]
  rfl

end Unsigned

end Binary64

end Applesoft
