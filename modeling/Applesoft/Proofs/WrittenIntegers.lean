import Mathlib.Data.List.Forall2
import Mathlib.Data.List.TakeWhile
import Mathlib.Data.Nat.Digits.Defs
import Applesoft.IntegerText
import Applesoft.Proofs.ReadableDumps

/-!
# Written integers

An integer is written by digits of its base after at most one plus sign. A text is read if and only if
what it has between blanks, after the mark of a base, is so written and the integer fits in 64 bits. An
integer that does not fit is told as soon as the digits read exceed it, whatever follows them.
-/
namespace Applesoft.IntegerText

structure TrimsTo (t w : Text) : Prop where
  around : ∃ before after, t = before ++ w ++ after ∧
    (∀ c ∈ before, Unicode.isBlank c = true) ∧ ∀ c ∈ after, Unicode.isBlank c = true
  start : Stops Unicode.isBlank w
  finish : Stops Unicode.isBlank w.reverse

def hexMarks : List Text := ["0x".toList, "0X".toList, "$".toList]

inductive Announces : Text → Nat → Text → Prop
  | hexadecimal {mark : Text} (h : mark ∈ hexMarks) (d : Text) : Announces (mark ++ d) 16 d
  | decimal {d : Text} (h : ∀ mark ∈ hexMarks, ¬ mark <+: d) : Announces d 10 d

def IsDigit (base : Nat) (c : Char) (d : Nat) : Prop :=
  d < base ∧ hexDigits[d]? = some c.toUpper

/-- An optional plus sign and one or more digits, of which the last counts ones. -/
def Writes (base : Nat) (t : Text) (n : Nat) : Prop :=
  ∃ sign digits values, t = sign ++ digits ∧ (sign = [] ∨ sign = ['+']) ∧ digits ≠ [] ∧
    List.Forall₂ (IsDigit base) digits values ∧ Nat.ofDigits base values.reverse = n

/-- The text starts with an integer that does not fit in 64 bits. -/
def Overflows (base : Nat) (t : Text) : Prop :=
  ∃ start n, start <+: t ∧ Writes base start n ∧ 2 ^ 64 ≤ n

section Trimming

variable {t w : Text}

theorem trim_eq_of_trimsTo (h : TrimsTo t w) : trim t = w := by
  obtain ⟨before, after, rfl, hbefore, hafter⟩ := h.around
  have hreversed : ∀ c ∈ after.reverse, Unicode.isBlank c = true := fun c hc =>
    hafter c (List.mem_reverse.1 hc)
  cases w with
  | nil =>
    have hall : ∀ c ∈ before ++ [] ++ after, Unicode.isBlank c = true := by
      rw [List.append_nil, List.forall_mem_append]
      exact ⟨hbefore, hafter⟩
    rw [trim, List.dropWhile_eq_nil_iff.2 hall]
    rfl
  | cons c w =>
    have hstart : Stops Unicode.isBlank (c :: w ++ after) := stops_cons.2 (stops_cons.1 h.start)
    rw [trim, List.append_assoc, dropWhile_append_of_stops hbefore hstart, List.reverse_append,
      dropWhile_append_of_stops hreversed h.finish, List.reverse_reverse]

theorem trimsTo_trim (t : Text) : TrimsTo t (trim t) := by
  set before := t.takeWhile Unicode.isBlank
  set rest := t.dropWhile Unicode.isBlank
  set after := (rest.reverse.takeWhile Unicode.isBlank).reverse
  have hrest : rest = trim t ++ after := by
    rw [← List.reverse_reverse rest, ← List.takeWhile_append_dropWhile (p := Unicode.isBlank)
      (l := rest.reverse), List.reverse_append]
    rfl
  refine ⟨⟨before, after, ?_, fun c hc => List.mem_takeWhile_imp hc, fun c hc =>
    List.mem_takeWhile_imp (List.mem_reverse.1 hc)⟩, ?_, ?_⟩
  · rw [List.append_assoc, ← hrest, List.takeWhile_append_dropWhile]
  · -- the first character left is the first of the rest, unless nothing is left
    intro c hc
    refine stops_dropWhile Unicode.isBlank t c ?_
    change c ∈ rest.head?
    rw [hrest, Option.mem_def, List.head?_append, Option.mem_def.1 hc]
    rfl
  · rw [trim, List.reverse_reverse]
    exact stops_dropWhile Unicode.isBlank _

theorem trimsTo_iff : TrimsTo t w ↔ w = trim t :=
  ⟨fun h => (trim_eq_of_trimsTo h).symm, fun h => h ▸ trimsTo_trim t⟩

end Trimming

theorem mem_hexMarks {mark : Text} :
    mark ∈ hexMarks ↔ mark = ['0', 'x'] ∨ mark = ['0', 'X'] ∨ mark = ['$'] := by
  simp [hexMarks]

theorem announces_iff {w d : Text} {b : Nat} : Announces w b d ↔ b = (base w).1 ∧ d = (base w).2 := by
  constructor
  · rintro (⟨hmark, d⟩ | hnone)
    · rcases mem_hexMarks.1 hmark with rfl | rfl | rfl <;> exact ⟨rfl, rfl⟩
    · unfold base
      split
      · next rest => exact absurd ⟨rest, rfl⟩ (hnone ['0', 'x'] (by decide))
      · next rest => exact absurd ⟨rest, rfl⟩ (hnone ['0', 'X'] (by decide))
      · next rest => exact absurd ⟨rest, rfl⟩ (hnone ['$'] (by decide))
      · exact ⟨rfl, rfl⟩
  · rintro ⟨rfl, rfl⟩
    unfold base
    split
    · next rest => exact .hexadecimal (mem_hexMarks.2 (.inl rfl)) rest
    · next rest => exact .hexadecimal (mem_hexMarks.2 (.inr (.inl rfl))) rest
    · next rest => exact .hexadecimal (mem_hexMarks.2 (.inr (.inr rfl))) rest
    · next hx hX hdollar =>
      refine .decimal fun mark hmark ⟨rest, hrest⟩ => ?_
      rcases mem_hexMarks.1 hmark with rfl | rfl | rfl
      · exact hx rest hrest.symm
      · exact hX rest hrest.symm
      · exact hdollar rest hrest.symm

theorem Announces.base_pos_le {w d : Text} {b : Nat} (h : Announces w b d) : 0 < b ∧ b ≤ 16 := by
  cases h with
  | hexadecimal => decide
  | decimal => decide

section Digits

variable {base v n : Nat} {c : Char} {t : Text}

theorem digit?_of_range (low size : Nat)
    (h : ∀ k < size, digit? 16 (Char.ofNat (low + k)) = hexDigits.idxOf? (Char.ofNat (low + k)).toUpper)
    (hle : low ≤ c.toNat) (hlt : c.toNat < low + size) : digit? 16 c = hexDigits.idxOf? c.toUpper := by
  have hself := h (c.toNat - low) (by omega)
  rwa [Nat.add_sub_cancel' hle, Char.ofNat_toNat] at hself

theorem digit?_sixteen (c : Char) : digit? 16 c = hexDigits.idxOf? c.toUpper := by
  by_cases hdigit : c.isDigit = true
  · obtain ⟨hle, hlt⟩ := isDigit_iff_toNat.1 hdigit
    exact digit?_of_range 48 10 (by decide) hle (by omega)
  by_cases halpha : c.isAlpha = true
  · rcases isAlpha_iff_toNat.1 halpha with ⟨hle, hlt⟩ | ⟨hle, hlt⟩
    · exact digit?_of_range 65 26 (by decide) hle (by omega)
    · exact digit?_of_range 97 26 (by decide) hle (by omega)
  · -- there is no other digit, and only letters have another case
    have hlower : c.isLower = false := by
      rw [Bool.eq_false_iff, Ne, isLower_iff_toNat]
      rw [isAlpha_iff_toNat] at halpha
      omega
    have hmem : c ∉ hexDigits := by
      have hall : ∀ d ∈ hexDigits, d.isDigit = true ∨ d.isAlpha = true := by decide
      exact fun hmem => (hall c hmem).elim hdigit halpha
    rw [toUpper_of_not_isLower hlower, List.idxOf?_eq_none_iff.2 hmem, digit?, if_neg hdigit, if_neg halpha]
    rfl

theorem idxOf?_hexDigits {d : Nat} : hexDigits.idxOf? c = some d ↔ hexDigits[d]? = some c := by
  have hnodup : hexDigits.Nodup := by decide
  rw [List.idxOf?_eq_some_iff, List.getElem?_eq_some_iff]
  constructor
  · rintro ⟨hd, hc, -⟩
    exact ⟨hd, hc⟩
  · rintro ⟨hd, rfl⟩
    refine ⟨hd, rfl, fun j hj hsame => absurd hj ?_⟩
    rw [(List.getElem_inj hnodup).1 hsame]
    exact Nat.lt_irrefl d

/-- A digit of a base is a hexadecimal digit below the base. -/
theorem digit?_eq_some_iff (hbase : base ≤ 16) {d : Nat} :
    digit? base c = some d ↔ IsDigit base c d := by
  have hbelow : (fun d => decide (d < 16) && decide (d < base)) = fun d => decide (d < base) := by
    funext d
    rw [← Bool.decide_and, decide_eq_decide]
    omega
  have hsixteen : digit? base c = (digit? 16 c).filter (· < base) := by
    rw [digit?, digit?, Option.filter_filter, hbelow]
  rw [hsixteen, digit?_sixteen, Option.filter_eq_some_iff, idxOf?_hexDigits, decide_eq_true_iff, and_comm]
  rfl

def Tells (base v : Nat) (t : Text) (n : Nat) : Prop :=
  ∃ values, List.Forall₂ (IsDigit base) t values ∧ Nat.ofDigits base (v :: values).reverse = n

theorem tells_nil : Tells base v [] n ↔ n = v := by
  constructor
  · rintro ⟨values, hvalues, rfl⟩
    cases hvalues
    exact Nat.ofDigits_singleton
  · rintro rfl
    exact ⟨[], .nil, Nat.ofDigits_singleton⟩

/-- The digits read so far stand for one digit in front of the others. -/
theorem ofDigits_carry (base v d : Nat) (values : List Nat) :
    Nat.ofDigits base (v :: d :: values).reverse =
      Nat.ofDigits base ((v * base + d) :: values).reverse := by
  rw [Nat.ofDigits_reverse_cons, Nat.ofDigits_reverse_cons, Nat.ofDigits_reverse_cons, List.length_cons,
    Nat.pow_succ]
  ring

theorem tells_cons : Tells base v (c :: t) n ↔ ∃ d, IsDigit base c d ∧ Tells base (v * base + d) t n := by
  constructor
  · rintro ⟨values, hvalues, hn⟩
    cases hvalues with
    | cons hd hvalues => exact ⟨_, hd, _, hvalues, (ofDigits_carry ..).symm.trans hn⟩
  · rintro ⟨d, hd, values, hvalues, hn⟩
    exact ⟨d :: values, .cons hd hvalues, (ofDigits_carry ..).trans hn⟩

theorem Tells.le (hpos : 0 < base) (h : Tells base v t n) : v ≤ n := by
  obtain ⟨values, -, rfl⟩ := h
  rw [Nat.ofDigits_reverse_cons]
  exact Nat.le_add_left_of_le (Nat.le_mul_of_pos_left v (Nat.pow_pos hpos))

theorem readDigits_nil : readDigits base v [] = .ok v := rfl

theorem readDigits_cons : readDigits base v (c :: t) =
    match digit? base c with
    | none => .error .invalidDigit
    | some d =>
      if v * base + d < 2 ^ 64 then readDigits base (v * base + d) t else .error .overflow := rfl

theorem readDigits_eq_ok_iff (hpos : 0 < base) (hbase : base ≤ 16) (hv : v < 2 ^ 64) :
    readDigits base v t = .ok n ↔ Tells base v t n ∧ n < 2 ^ 64 := by
  induction t generalizing v with
  | nil =>
    rw [readDigits_nil, tells_nil, Except.ok.injEq, eq_comm]
    exact ⟨fun h => ⟨h, h ▸ hv⟩, And.left⟩
  | cons c rest ih =>
    rw [readDigits_cons, tells_cons]
    cases hc : digit? base c with
    | none =>
      simp [← digit?_eq_some_iff hbase, hc]
    | some d =>
      simp only [← digit?_eq_some_iff hbase, hc, Option.some.injEq, exists_eq_left']
      split
      · next hfits => exact ih hfits
      · next hlarge =>
        constructor
        · rintro ⟨⟩
        · rintro ⟨htells, hn⟩
          exact absurd (Nat.lt_of_le_of_lt (htells.le hpos) hn) hlarge

def Exceeds (base v : Nat) (t : Text) : Prop :=
  ∃ start n, start <+: t ∧ Tells base v start n ∧ 2 ^ 64 ≤ n

theorem exceeds_of_le (hv : 2 ^ 64 ≤ v) : Exceeds base v t :=
  ⟨[], v, List.nil_prefix, tells_nil.2 rfl, hv⟩

theorem exceeds_nil : Exceeds base v [] ↔ 2 ^ 64 ≤ v := by
  constructor
  · rintro ⟨start, n, hstart, htells, hn⟩
    rw [List.prefix_nil.1 hstart, tells_nil] at htells
    rwa [← htells]
  · exact exceeds_of_le

theorem exceeds_cons (hv : v < 2 ^ 64) :
    Exceeds base v (c :: t) ↔ ∃ d, IsDigit base c d ∧ Exceeds base (v * base + d) t := by
  constructor
  · rintro ⟨start, n, hstart, htells, hn⟩
    rcases List.prefix_cons_iff.1 hstart with rfl | ⟨start, rfl, hrest⟩
    · rw [tells_nil] at htells
      omega
    · obtain ⟨d, hd, htells⟩ := tells_cons.1 htells
      exact ⟨d, hd, start, n, hrest, htells, hn⟩
  · rintro ⟨d, hd, start, n, hstart, htells, hn⟩
    exact ⟨c :: start, n, (List.prefix_cons_inj c).2 hstart, tells_cons.2 ⟨d, hd, htells⟩, hn⟩

theorem readDigits_eq_overflow_iff (hbase : base ≤ 16) (hv : v < 2 ^ 64) :
    readDigits base v t = .error .overflow ↔ Exceeds base v t := by
  induction t generalizing v with
  | nil =>
    rw [readDigits_nil, exceeds_nil]
    exact iff_of_false (fun h => nomatch h) (Nat.not_le.2 hv)
  | cons c rest ih =>
    rw [readDigits_cons, exceeds_cons hv]
    cases hc : digit? base c with
    | none => simp [← digit?_eq_some_iff hbase, hc]
    | some d =>
      simp only [← digit?_eq_some_iff hbase, hc, Option.some.injEq, exists_eq_left']
      split
      · next hfits => exact ih hfits
      · next hlarge => exact iff_of_true rfl (exceeds_of_le (Nat.not_lt.1 hlarge))

theorem readDigits_ne_empty : readDigits base v t ≠ .error .empty := by
  induction t generalizing v with
  | nil => exact fun h => nomatch h
  | cons c rest ih =>
    rw [readDigits_cons]
    split
    · exact fun h => nomatch h
    · split
      · exact ih
      · exact fun h => nomatch h

end Digits

section Signs

variable {base n : Nat} {t : Text}

def afterSign : Text → Text
  | '+' :: rest => rest
  | t => t

theorem exists_sign (t : Text) :
    ∃ sign, (sign = [] ∨ sign = ['+']) ∧ t = sign ++ afterSign t := by
  unfold afterSign
  split
  · exact ⟨['+'], .inr rfl, rfl⟩
  · exact ⟨[], .inl rfl, rfl⟩

/-- What starts with a digit has no sign. -/
theorem afterSign_of_tells {v : Nat} (h : Tells base v t n) : afterSign t = t := by
  unfold afterSign
  split
  · next rest =>
    obtain ⟨d, hd, -⟩ := tells_cons.1 h
    have hmem : '+' ∈ hexDigits := List.mem_of_getElem? hd.2
    exact absurd hmem (by decide)
  · rfl

theorem writes_iff : Writes base t n ↔ afterSign t ≠ [] ∧ Tells base 0 (afterSign t) n := by
  constructor
  · rintro ⟨sign, digits, values, rfl, hsign, hne, hvalues, hn⟩
    have htells : Tells base 0 digits n := ⟨values, hvalues, Nat.ofDigits_reverse_zero_cons values ▸ hn⟩
    have hafter : afterSign (sign ++ digits) = digits := by
      rcases hsign with rfl | rfl
      · exact afterSign_of_tells htells
      · rfl
    rw [hafter]
    exact ⟨hne, htells⟩
  · rintro ⟨hne, values, hvalues, hn⟩
    obtain ⟨sign, hsign, ht⟩ := exists_sign t
    exact ⟨sign, afterSign t, values, ht, hsign, hne, hvalues,
      (Nat.ofDigits_reverse_zero_cons values).symm.trans hn⟩

theorem afterSign_prefix {start : Text} (h : start <+: t) (hne : start ≠ []) :
    afterSign start <+: afterSign t := by
  obtain ⟨rest, rfl⟩ := h
  unfold afterSign
  split
  · exact List.prefix_append _ rest
  · next hsign =>
    split
    · next heq =>
      obtain ⟨c, start, rfl⟩ := List.exists_cons_of_ne_nil hne
      obtain ⟨rfl, -⟩ := List.cons.inj heq
      exact absurd rfl (hsign start)
    · exact List.prefix_append _ rest

theorem overflows_iff : Overflows base t ↔ Exceeds base 0 (afterSign t) := by
  constructor
  · rintro ⟨start, n, hstart, hwrites, hn⟩
    obtain ⟨hne, htells⟩ := writes_iff.1 hwrites
    have hstartNe : start ≠ [] := by
      rintro rfl
      exact hne rfl
    exact ⟨afterSign start, n, afterSign_prefix hstart hstartNe, htells, hn⟩
  · rintro ⟨start, n, hstart, ⟨values, hvalues, hvalue⟩, hn⟩
    have hne : start ≠ [] := by
      rintro rfl
      rw [tells_nil.1 ⟨values, hvalues, hvalue⟩] at hn
      exact absurd hn (by decide)
    obtain ⟨sign, hsign, ht⟩ := exists_sign t
    refine ⟨sign ++ start, n, ?_, ⟨sign, start, values, rfl, hsign, hne, hvalues, ?_⟩, hn⟩
    · rw [ht]
      exact (List.prefix_append_right_inj sign).2 hstart
    · exact (Nat.ofDigits_reverse_zero_cons values).symm.trans hvalue

theorem readUnsigned_eq (base : Nat) (t : Text) :
    readUnsigned base t =
      if t = [] then .error .empty
      else if afterSign t = [] then .error .invalidDigit
      else readDigits base 0 (afterSign t) := by
  unfold readUnsigned
  split
  · rfl
  · rfl
  · next rest hne =>
    have hrest : afterSign ('+' :: rest) ≠ [] := hne
    rw [if_neg (List.cons_ne_nil '+' rest), if_neg hrest]
    rfl
  · next hempty _ hsign =>
    have hafter : afterSign t = t := by
      unfold afterSign
      split
      · next rest _ => exact absurd rfl (hsign rest)
      · rfl
    rw [hafter, if_neg hempty, if_neg hempty]

theorem readUnsigned_eq_ok_iff (hpos : 0 < base) (hbase : base ≤ 16) :
    readUnsigned base t = .ok n ↔ Writes base t n ∧ n < 2 ^ 64 := by
  have hzero : 0 < 2 ^ 64 := Nat.two_pow_pos 64
  rw [readUnsigned_eq, writes_iff]
  split_ifs with hempty hnone
  · subst hempty
    exact iff_of_false (fun h => nomatch h) fun h => h.1.1 rfl
  · exact iff_of_false (fun h => nomatch h) fun h => h.1.1 hnone
  · rw [readDigits_eq_ok_iff hpos hbase hzero]
    exact and_congr_left fun _ => (and_iff_right hnone).symm

theorem readUnsigned_eq_overflow_iff (hbase : base ≤ 16) :
    readUnsigned base t = .error .overflow ↔ Overflows base t := by
  have hzero : 0 < 2 ^ 64 := Nat.two_pow_pos 64
  have hnothing : ¬ Exceeds base 0 [] := fun h => absurd (exceeds_nil.1 h) (Nat.not_le.2 hzero)
  rw [readUnsigned_eq, overflows_iff]
  split_ifs with hempty hnone
  · subst hempty
    exact iff_of_false (fun h => nomatch h) hnothing
  · rw [hnone]
    exact iff_of_false (fun h => nomatch h) hnothing
  · exact readDigits_eq_overflow_iff hbase hzero

theorem readUnsigned_eq_empty_iff : readUnsigned base t = .error .empty ↔ t = [] := by
  rw [readUnsigned_eq]
  split_ifs with hempty hnone
  · exact iff_of_true rfl hempty
  · exact iff_of_false (fun h => nomatch h) hempty
  · exact iff_of_false readDigits_ne_empty hempty

end Signs

theorem eq_invalidDigit_iff (result : Except Fault Nat) :
    result = .error .invalidDigit ↔
      ¬ (∃ n, result = .ok n) ∧ result ≠ .error .empty ∧ result ≠ .error .overflow := by
  rcases result with (_ | _ | _) | n <;> simp

/-- One grammar decides what is read: what stands between the blanks announces a base, and either writes
an integer of 64 bits, or is empty after the mark, or starts with an integer that does not fit; all else
has a character that is no digit where one is needed. -/
theorem read_outcome (t : Text) :
    ∃ w b d, (∀ w', TrimsTo t w' ↔ w' = w) ∧ (∀ b' d', Announces w b' d' ↔ b' = b ∧ d' = d) ∧
      (∀ n, read t = .ok n ↔ Writes b d n ∧ n < 2 ^ 64) ∧
      (read t = .error .empty ↔ d = []) ∧
      (read t = .error .overflow ↔ Overflows b d) ∧
      (read t = .error .invalidDigit ↔
        ¬ (∃ n, Writes b d n ∧ n < 2 ^ 64) ∧ d ≠ [] ∧ ¬ Overflows b d) := by
  obtain ⟨b, d, hannounces⟩ : ∃ b d, Announces (trim t) b d := ⟨_, _, announces_iff.2 ⟨rfl, rfl⟩⟩
  obtain ⟨hpos, hbase⟩ := hannounces.base_pos_le
  obtain ⟨hb, hd⟩ := announces_iff.1 hannounces
  have hread : read t = readUnsigned b d := by
    rw [hb, hd]
    rfl
  have hok (n : Nat) : readUnsigned b d = .ok n ↔ Writes b d n ∧ n < 2 ^ 64 :=
    readUnsigned_eq_ok_iff hpos hbase
  have hempty : readUnsigned b d = .error .empty ↔ d = [] := readUnsigned_eq_empty_iff
  have hoverflow : readUnsigned b d = .error .overflow ↔ Overflows b d :=
    readUnsigned_eq_overflow_iff hbase
  refine ⟨trim t, b, d, fun _ => trimsTo_iff, fun _ _ => ?_, ?_⟩
  · rw [announces_iff, hb, hd]
  · rw [hread]
    refine ⟨hok, hempty, hoverflow, ?_⟩
    rw [eq_invalidDigit_iff, Ne, Ne, hempty, hoverflow, exists_congr hok]

/-- Leading zeros and both letter cases are read, and a bad digit is told only before the overflow. -/
example : read " 0x+000fF\t".toList = .ok 255 ∧ read "$10000000000000000G".toList = .error .overflow ∧
    read "$1000000000000000G".toList = .error .invalidDigit := by decide

end Applesoft.IntegerText
