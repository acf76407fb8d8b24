import Applesoft.HexDump
import Applesoft.Proofs.Scanning

/-!
# Reading a dump back

A dump is read without what wrote it: each line has a label of hexadecimal digits, two digits and a blank
for each byte, and marks at fixed distances after the label. So read, a dump gives back the address of
each row and all the bytes, also where the last row is short and where the address passes `0xFFFF`.
-/
namespace Applesoft

def hexDigits : Text := "0123456789ABCDEF".toList

def hexValue (t : Text) : Nat :=
  t.foldl (fun n c => 16 * n + hexDigits.idxOf c) 0

/-- The digits of `n`, at least `width` of them, and no more than needed. -/
structure WritesHex (width n : Nat) (t : Text) : Prop where
  digits : ∀ c ∈ t, c ∈ hexDigits
  value : hexValue t = n
  wide : width ≤ t.length
  shortest : width < t.length → t.head? ≠ some '0'

namespace HexDump

def label (line : Text) : Text :=
  line.takeWhile (hexDigits.contains ·)

def afterLabel (line : Text) : Text :=
  line.dropWhile (hexDigits.contains ·)

/-- The bytes told by fields of two digits and a blank each, up to what is no such field. -/
def readFields : Text → List UInt8
  | high :: low :: ' ' :: rest =>
    if high ∈ hexDigits ∧ low ∈ hexDigits then
      UInt8.ofNat (16 * hexDigits.idxOf high + hexDigits.idxOf low) :: readFields rest
    else []
  | _ => []

def readLine (line : Text) : List UInt8 :=
  readFields ((afterLabel line).drop 3)

/-- The marks before the two columns of characters, each at its own distance after the label. -/
def IsMarked (line : Text) : Prop :=
  "|+|".toList <+: (afterLabel line).drop 51 ∧ "|-|".toList <+: (afterLabel line).drop 72

/-- Lines that tell the bytes from an address on, sixteen to a line. -/
structure ReadsBack (address : Nat) (bytes : List UInt8) (lines : List Text) : Prop where
  count : lines.length = max 1 ((bytes.length + 15) / 16)
  labels : ∀ i line, lines[i]? = some line → WritesHex 4 (address + 16 * i) (label line)
  marks : ∀ line ∈ lines, IsMarked line
  bytes : lines.flatMap readLine = bytes

end HexDump

section Digits

theorem digitChar_mem {d : Nat} (h : d < 16) :
    d.digitChar.toUpper ∈ hexDigits ∧ hexDigits.idxOf d.digitChar.toUpper = d := by
  have hall : ∀ d < 16, d.digitChar.toUpper ∈ hexDigits ∧
      hexDigits.idxOf d.digitChar.toUpper = d := by decide
  exact hall d h

theorem hexValue_append_singleton (t : Text) (c : Char) :
    hexValue (t ++ [c]) = 16 * hexValue t + hexDigits.idxOf c := by
  rw [hexValue, List.foldl_append]
  rfl

theorem toDigits_hex (n : Nat) :
    let t := (Nat.toDigits 16 n).map Char.toUpper
    (∀ c ∈ t, c ∈ hexDigits) ∧ hexValue t = n ∧ (0 < n → t.head? ≠ some '0') := by
  induction n using Nat.strongRecOn with
  | _ n ih =>
    intro t
    by_cases hn : n < 16
    · obtain ⟨hmem, hvalue⟩ := digitChar_mem hn
      have ht : t = [n.digitChar.toUpper] := by
        change (Nat.toDigits 16 n).map Char.toUpper = _
        rw [Nat.toDigits_of_lt_base hn]
        rfl
      rw [ht]
      refine ⟨List.forall_mem_singleton.2 hmem, ?_, fun hpos hhead => ?_⟩
      · rw [hexValue, List.foldl_cons, hvalue]
        simp
      · have hzero : n.digitChar.toUpper = '0' := Option.some.inj hhead
        rw [hzero] at hvalue
        have : n = 0 := hvalue.symm.trans (by decide)
        omega
    · have hlt : n % 16 < 16 := Nat.mod_lt n (by decide)
      obtain ⟨hmem, hvalue⟩ := digitChar_mem hlt
      obtain ⟨hdigits, hhigh, hhead⟩ := ih (n / 16) (Nat.div_lt_self (by omega) (by decide))
      have ht : t = (Nat.toDigits 16 (n / 16)).map Char.toUpper ++ [(n % 16).digitChar.toUpper] := by
        change (Nat.toDigits 16 n).map Char.toUpper = _
        rw [Nat.toDigits_of_base_le (by decide) (Nat.le_of_not_lt hn), List.map_append]
        rfl
      rw [ht]
      refine ⟨?_, ?_, fun _ => ?_⟩
      · rw [List.forall_mem_append]
        exact ⟨hdigits, List.forall_mem_singleton.2 hmem⟩
      · rw [hexValue_append_singleton, hhigh, hvalue]
        omega
      · have hne : (Nat.toDigits 16 (n / 16)).map Char.toUpper ≠ [] := by simp
        rw [List.head?_append_of_ne_nil _ hne]
        exact hhead (by omega)

theorem hexValue_zeros_append (n : Nat) (t : Text) :
    hexValue (List.replicate n '0' ++ t) = hexValue t := by
  induction n with
  | zero => rfl
  | succ n ih => exact ih

theorem writesHex_ofHex {width : Nat} (hwidth : 0 < width) (n : Nat) :
    WritesHex width n (Text.ofHex width n) := by
  obtain ⟨hdigits, hvalue, hhead⟩ := toDigits_hex n
  refine ⟨?_, ?_, ?_, fun hlonger => ?_⟩
  · rw [Text.ofHex, List.forall_mem_append]
    refine ⟨fun c hc => ?_, hdigits⟩
    rw [List.eq_of_mem_replicate hc]
    decide
  · rw [Text.ofHex, hexValue_zeros_append, hvalue]
  · rw [Text.ofHex, List.length_append, List.length_replicate]
    omega
  · rw [Text.ofHex, List.length_append, List.length_replicate] at hlonger
    have hpos : 0 < n := by
      by_contra hzero
      obtain rfl : n = 0 := by omega
      have hone : ((Nat.toDigits 16 0).map Char.toUpper).length = 1 := by decide
      omega
    have hpadding : width - ((Nat.toDigits 16 n).map Char.toUpper).length = 0 := by omega
    rw [Text.ofHex, hpadding]
    exact hhead hpos

theorem ofHex_byte {n : Nat} (hn : n < 256) :
    Text.ofHex 2 n = [(n / 16).digitChar.toUpper, (n % 16).digitChar.toUpper] := by
  unfold Text.ofHex
  by_cases hlow : n < 16
  · rw [Nat.toDigits_of_lt_base hlow, Nat.div_eq_of_lt hlow, Nat.mod_eq_of_lt hlow]
    rfl
  · have hhigh : n / 16 < 16 := by omega
    rw [Nat.toDigits_of_base_le (by decide) (Nat.le_of_not_lt hlow), Nat.toDigits_of_lt_base hhigh]
    rfl

end Digits

namespace HexDump

theorem readFields_byte (b : UInt8) (rest : Text) :
    readFields (Text.ofHex 2 b.toNat ++ ' ' :: rest) = b :: readFields rest := by
  have hb : b.toNat < 256 := b.toNat_lt
  obtain ⟨hhigh, hhighValue⟩ := digitChar_mem (show b.toNat / 16 < 16 by omega)
  obtain ⟨hlow, hlowValue⟩ := digitChar_mem (show b.toNat % 16 < 16 by omega)
  have hvalue : 16 * (b.toNat / 16) + b.toNat % 16 = b.toNat := Nat.div_add_mod b.toNat 16
  rw [ofHex_byte hb]
  simp only [List.cons_append, List.nil_append, readFields, if_pos (And.intro hhigh hlow), hhighValue,
    hlowValue, hvalue, UInt8.ofNat_toNat]

def fields (bytes : List UInt8) : Text :=
  bytes.flatMap fun b => Text.ofHex 2 b.toNat ++ [' ']

theorem readFields_fields (bytes : List UInt8) {rest : Text} (hrest : readFields rest = []) :
    readFields (fields bytes ++ rest) = bytes := by
  induction bytes with
  | nil => exact hrest
  | cons b bytes ih =>
    have hfield : fields (b :: bytes) ++ rest = Text.ofHex 2 b.toNat ++ ' ' :: (fields bytes ++ rest) := by
      simp [fields]
    rw [hfield, readFields_byte, ih]

theorem length_fields (bytes : List UInt8) : (fields bytes).length = 3 * bytes.length := by
  induction bytes with
  | nil => rfl
  | cons b bytes ih =>
    have hfield : (Text.ofHex 2 b.toNat).length = 2 := by rw [ofHex_byte b.toNat_lt]; rfl
    rw [fields, List.flatMap_cons, List.length_append, List.length_append, hfield, ← fields, ih]
    simp only [List.length_cons, List.length_nil]
    omega

def columns (bytes : List UInt8) : Text :=
  [' ', ':', ' '] ++ (fields bytes ++ List.replicate (3 * (rowSize - bytes.length)) ' ')

def plainColumn (bytes : List UInt8) : Text :=
  ['|', '+', '|', ' '] ++ bytes.map plain ++ ' ' :: List.replicate (rowSize - bytes.length) ' '

def negativeColumn (bytes : List UInt8) : Text :=
  ['|', '-', '|', ' '] ++ bytes.map negative

def line (address : Nat) (bytes : List UInt8) : Text :=
  Text.ofHex 4 address ++ (columns bytes ++ (plainColumn bytes ++ negativeColumn bytes))

theorem row_eq (address : Nat) (bytes : List UInt8) :
    row address bytes = line address bytes ++ ['\n'] := by
  simp [row, line, columns, plainColumn, negativeColumn, fields]

section Line

variable {address : Nat} {bytes : List UInt8}

theorem label_line_and_rest : label (line address bytes) = Text.ofHex 4 address ∧
    afterLabel (line address bytes) = columns bytes ++ (plainColumn bytes ++ negativeColumn bytes) := by
  have hdigits : ∀ c ∈ Text.ofHex 4 address, hexDigits.contains c = true := fun c hc =>
    List.contains_iff_mem.2 ((writesHex_ofHex (by decide) address).digits c hc)
  have hblank : Stops (hexDigits.contains ·) (columns bytes ++ (plainColumn bytes ++ negativeColumn bytes)) := by
    intro c hc
    obtain rfl : ' ' = c := Option.some.inj hc
    decide
  exact ⟨takeWhile_append_of_stops hdigits hblank, dropWhile_append_of_stops hdigits hblank⟩

theorem length_columns (h : bytes.length ≤ rowSize) : (columns bytes).length = 51 := by
  rw [columns, List.length_append, List.length_append, List.length_replicate, length_fields]
  simp only [rowSize, List.length_cons, List.length_nil] at h ⊢
  omega

theorem length_plainColumn (h : bytes.length ≤ rowSize) : (plainColumn bytes).length = 21 := by
  rw [plainColumn, List.length_append, List.length_append, List.length_map]
  simp only [rowSize, List.length_cons, List.length_nil, List.length_replicate] at h ⊢
  omega

theorem isMarked_line (h : bytes.length ≤ rowSize) : IsMarked (line address bytes) := by
  have hplain : "|+|".toList <+: plainColumn bytes ++ negativeColumn bytes := ⟨_, rfl⟩
  have hnegative : "|-|".toList <+: negativeColumn bytes := ⟨_, rfl⟩
  rw [IsMarked, label_line_and_rest.2]
  constructor
  · rwa [List.drop_left' (length_columns h)]
  · rwa [← List.append_assoc, List.drop_left']
    rw [List.length_append, length_columns h, length_plainColumn h]

theorem readLine_line : readLine (line address bytes) = bytes := by
  have hprefix : (columns bytes ++ (plainColumn bytes ++ negativeColumn bytes)).drop 3 =
      fields bytes ++ (List.replicate (3 * (rowSize - bytes.length)) ' ' ++
        (plainColumn bytes ++ negativeColumn bytes)) := by
    simp [columns]
  rw [readLine, label_line_and_rest.2, hprefix]
  apply readFields_fields
  -- a short row goes on with blanks, a full one with a mark
  cases hmissing : rowSize - bytes.length with
  | zero => rfl
  | succ n => rfl

theorem visible_plain (b : UInt8) : ' ' ≤ plain b := by
  have hall : ∀ n < 256, ' ' ≤ plain (UInt8.ofNat n) := by decide +kernel
  simpa using hall b.toNat b.toNat_lt

theorem visible_negative (b : UInt8) : ' ' ≤ negative b := by
  have hall : ∀ n < 256, ' ' ≤ negative (UInt8.ofNat n) := by decide +kernel
  simpa using hall b.toNat b.toNat_lt

theorem visible_ofHex {width n : Nat} (hwidth : 0 < width) : ∀ c ∈ Text.ofHex width n, ' ' ≤ c := by
  have hall : ∀ c ∈ hexDigits, ' ' ≤ c := by decide
  exact fun c hc => hall c ((writesHex_ofHex hwidth n).digits c hc)

/-- A line holds no control characters, line ends among them. -/
theorem visible_line : ∀ c ∈ line address bytes, ' ' ≤ c := by
  have hfields : ∀ c ∈ fields bytes, ' ' ≤ c := by
    intro c hc
    obtain ⟨b, -, hc⟩ := List.mem_flatMap.1 hc
    rcases List.mem_append.1 hc with hc | hc
    · exact visible_ofHex (by decide) c hc
    · exact (List.mem_singleton.1 hc).symm ▸ Char.le_refl ' '
  have hblanks (n : Nat) : ∀ c ∈ List.replicate n ' ', ' ' ≤ c := fun c hc =>
    (List.eq_of_mem_replicate hc).symm ▸ Char.le_refl ' '
  have hplain : ∀ c ∈ bytes.map plain, ' ' ≤ c := List.forall_mem_map.2 fun b _ => visible_plain b
  have hnegative : ∀ c ∈ bytes.map negative, ' ' ≤ c :=
    List.forall_mem_map.2 fun b _ => visible_negative b
  simp only [line, columns, plainColumn, negativeColumn, List.forall_mem_append]
  exact ⟨visible_ofHex (by decide), ⟨by decide, hfields, hblanks _⟩,
    ⟨⟨by decide, hplain⟩, List.forall_mem_cons.2 ⟨Char.le_refl ' ', hblanks _⟩⟩, by decide, hnegative⟩

end Line

end HexDump

theorem Text.lines_cons {l : Text} (h : ∀ c ∈ l, ' ' ≤ c) (r : Text) :
    Text.lines (l ++ '\n' :: r) = l :: r.lines := by
  have hfeed : '\n' ∉ l := fun hmem => absurd (h _ hmem) (by decide)
  have hreturn : l.getLast? ≠ some '\r' := fun hlast =>
    absurd (h _ (List.mem_of_getLast? hlast)) (by decide)
  obtain ⟨ended, last, hsplit⟩ := (List.eq_nil_or_concat (r.splitOn '\n')).resolve_left
    (List.splitOn_ne_nil _ _)
  unfold lines
  rw [List.splitOn_append_cons_self_of_not_mem hfeed, hsplit, List.concat_eq_append,
    List.reverse_cons, List.reverse_append]
  simp [hreturn]

namespace HexDump

theorem readsBack_line {address : Nat} {bytes : List UInt8} (h : bytes.length ≤ rowSize) :
    ReadsBack address bytes [line address bytes] := by
  refine ⟨?_, ?_, ?_, ?_⟩
  · rw [rowSize] at h
    rw [List.length_singleton]
    omega
  · intro i l hl
    obtain ⟨rfl, rfl⟩ : i = 0 ∧ line address bytes = l := by
      cases i with
      | zero => exact ⟨rfl, Option.some.inj hl⟩
      | succ i => cases hl
    rw [label_line_and_rest.1]
    exact writesHex_ofHex (by decide) address
  · exact List.forall_mem_singleton.2 (isMarked_line h)
  · rw [List.flatMap_singleton, readLine_line]

/-- A full row before rows that read back from the next address on. -/
theorem ReadsBack.cons {address : Nat} {bytes : List UInt8} {lines : List Text}
    (h : ReadsBack (address + rowSize) (bytes.drop rowSize) lines) (hmore : rowSize < bytes.length) :
    ReadsBack address bytes (line address (bytes.take rowSize) :: lines) := by
  have htake : (bytes.take rowSize).length ≤ rowSize := List.length_take_le _ _
  have hfirst := @readsBack_line address _ htake
  refine ⟨?_, ?_, ?_, ?_⟩
  · have hcount := h.count
    rw [List.length_drop, rowSize] at hcount
    rw [rowSize] at hmore
    rw [List.length_cons, hcount]
    omega
  · intro i l hl
    cases i with
    | zero => exact hfirst.labels 0 l hl
    | succ i =>
      have hlabel := h.labels i l hl
      have haddress : address + 16 * (i + 1) = address + rowSize + 16 * i := by
        rw [rowSize]
        omega
      rwa [haddress]
  · exact List.forall_mem_cons.2 ⟨isMarked_line htake, h.marks⟩
  · rw [List.flatMap_cons, h.bytes, readLine_line, List.take_append_drop]

end HexDump

open HexDump

/-- Whatever the bytes and the address, the lines of a dump read back. -/
theorem HexDump.readsBack_dump (address : Nat) (bytes : List UInt8) :
    (dump address bytes).lines.flatMap (· ++ ['\n']) = dump address bytes ∧
      ReadsBack address bytes (dump address bytes).lines := by
  fun_induction dump address bytes with
  | case1 address bytes h =>
    have hlines : (line address bytes ++ ['\n']).lines = [line address bytes] :=
      Text.lines_cons visible_line []
    rw [row_eq, hlines]
    exact ⟨List.flatMap_singleton _ _, readsBack_line h⟩
  | case2 address bytes h ih =>
    obtain ⟨htext, hreads⟩ := ih
    rw [row_eq, List.append_assoc, List.singleton_append, Text.lines_cons visible_line]
    constructor
    · rw [List.flatMap_cons, htext, List.append_assoc]
      rfl
    · exact hreads.cons (Nat.not_le.1 h)

/-- An address that passes the top of memory goes on with five digits. -/
example : (dump 0xFFF8 (List.replicate 17 0x41)).lines.map label =
    ["FFF8".toList, "10008".toList] := by decide +kernel

end Applesoft
