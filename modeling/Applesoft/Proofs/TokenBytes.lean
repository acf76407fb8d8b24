import Applesoft.Proofs.Grouping
import Applesoft.Proofs.ImageLayout

/-!
# The bytes of tokens

What a token is encoded to if it can be encoded, and when it can. The body of a line is the encoding
of its tokens with the colons between its statements.
-/
namespace Applesoft

open MemoryImage

def IsAscii (t : Text) : Prop := ∀ c ∈ t, c.toNat < 128

instance (t : Text) : Decidable (IsAscii t) :=
  inferInstanceAs (Decidable (∀ c ∈ t, c.toNat < 128))

theorem isAscii_toUpper_iff {t : Text} : IsAscii t.toUpper ↔ ∀ c ∈ t, IsPlain c := by
  constructor
  · exact fun h c hc u hu => h u (List.mem_flatMap.2 ⟨c, hc, hu⟩)
  · intro h u hu
    obtain ⟨c, hc, hu⟩ := List.mem_flatMap.1 hu
    exact h c hc u hu

def asciiBytes (t : Text) : List UInt8 := t.map fun c => UInt8.ofNat c.toNat

theorem map_eq_ok_iff {α β : Type} {x : Except Error α} {f : α → β} {b : β} :
    x.map f = .ok b ↔ ∃ a, x = .ok a ∧ b = f a := by
  cases x <;> simp [Except.map, eq_comm]

theorem ascii_eq_ok_iff {line : Nat} {t : Text} {b : List UInt8} :
    ascii line t = .ok b ↔ IsAscii t ∧ b = asciiBytes t := by
  induction t generalizing b with
  | nil => simp [ascii, IsAscii, asciiBytes, eq_comm]
  | cons c rest ih =>
    by_cases hc : c.toNat < 128
    · rw [ascii, if_pos hc, map_eq_ok_iff]
      simp [ih, IsAscii, asciiBytes, hc]
    · rw [ascii, if_neg hc]
      simp [IsAscii, hc]

namespace TokenKind

def bytes : TokenKind → List UInt8
  | .lineEnd => []
  | .number value => asciiBytes value.listingText
  | .keyword k => [k.code]
  | .identifier name => asciiBytes name.toUpper
  | .quoted text => quoteByte :: asciiBytes text ++ [quoteByte]
  | .directive name => asciiBytes name
  | .comment text => Keyword.rem.code :: (if text.isEmpty then [] else [spaceByte]) ++ asciiBytes text
  | .punct c => asciiBytes [c]

def rawText : TokenKind → Text
  | .quoted text | .comment text => text
  | .lineEnd | .number _ | .keyword _ | .identifier _ | .directive _ | .punct _ => []

def Encodable : TokenKind → Prop
  | .lineEnd | .keyword _ => True
  | .number value => IsAscii value.listingText
  | .identifier name => IsAscii name.toUpper
  | .quoted text | .comment text => IsAscii text
  | .directive _ => False
  | .punct c => IsAscii [c]

end TokenKind

def bytesOf (ts : List Token) : List UInt8 := (ts.map Token.kind).flatMap TokenKind.bytes

theorem bytesOf_cons (t : Token) (ts : List Token) :
    bytesOf (t :: ts) = t.kind.bytes ++ bytesOf ts := by
  simp [bytesOf]

def Line.bytes (l : Line) : List UInt8 := l.kinds.flatMap TokenKind.bytes

theorem bytesOf_append (ts us : List Token) : bytesOf (ts ++ us) = bytesOf ts ++ bytesOf us := by
  simp [bytesOf]

theorem tokenBytes_eq_ok_iff {t : Token} {b : List UInt8} :
    tokenBytes t = .ok b ↔ t.kind.Encodable ∧ b = t.kind.bytes := by
  obtain ⟨line, kind⟩ := t
  cases kind with
  | lineEnd | keyword => simp [tokenBytes, TokenKind.Encodable, TokenKind.bytes, eq_comm]
  | directive => simp [tokenBytes, TokenKind.Encodable]
  | number | identifier | punct => exact ascii_eq_ok_iff
  | quoted | comment =>
    simp only [tokenBytes, map_eq_ok_iff, ascii_eq_ok_iff]
    simp [TokenKind.Encodable, TokenKind.bytes]

theorem statementBytes_eq_ok_iff {s : Statement} {b : List UInt8} :
    statementBytes s = .ok b ↔ (∀ t ∈ s, t.kind.Encodable) ∧ b = bytesOf s := by
  induction s generalizing b with
  | nil => simp [statementBytes, bytesOf, eq_comm]
  | cons t rest ih =>
    rw [statementBytes, List.forall_mem_cons]
    cases ht : tokenBytes t with
    | error e =>
      have hno : ¬ t.kind.Encodable := fun h => by
        simpa [ht] using tokenBytes_eq_ok_iff.2 ⟨h, rfl⟩
      simp [hno]
    | ok bytes =>
      obtain ⟨hencodable, rfl⟩ := tokenBytes_eq_ok_iff.1 ht
      simp [map_eq_ok_iff, ih, hencodable, bytesOf_cons]

/-- The body of a line encodes its tokens and the colons between its statements. -/
theorem isBody_iff {l : Line} {b : List UInt8} :
    IsBody l.statements b ↔
      (∀ s ∈ l.statements, ∀ t ∈ s, t.kind.Encodable) ∧ b = l.bytes := by
  obtain ⟨number, statements, owner⟩ := l
  simp only [Line.bytes, Line.kinds]
  induction statements generalizing b with
  | nil => simp [isBody_nil, List.intercalate]
  | cons s rest ih =>
    cases rest with
    | nil => simp [isBody_singleton, statementBytes_eq_ok_iff, bytesOf, List.intercalate]
    | cons s' rest =>
      have hcolon : TokenKind.bytes .colon = [colonByte] := rfl
      rw [isBody_cons_cons, List.forall_mem_cons]
      simp only [statementBytes_eq_ok_iff, ih]
      simp [List.intercalate, hcolon, bytesOf, and_assoc]

theorem Line.mem_kinds_iff {l : Line} {k : TokenKind} (hk : k ≠ .colon) :
    k ∈ l.kinds ↔ ∃ t ∈ l.tokens, t.kind = k := by
  obtain ⟨number, statements, owner⟩ := l
  simp only [Line.kinds, Line.tokens]
  induction statements with
  | nil => simp [List.intercalate]
  | cons s rest ih =>
    cases rest with
    | nil => simp [List.intercalate]
    | cons s' rest =>
      simp only [List.intercalate, List.map_cons, List.intersperse_cons_cons, List.flatten_cons,
        List.mem_append, List.mem_singleton, hk, false_or] at ih ⊢
      rw [ih, List.mem_map]
      simp only [or_and_right, exists_or]

/-- The bytes of a line are those of its tokens and the colons between its statements. -/
theorem Line.mem_bytes_iff {l : Line} {b : UInt8} (hb : b ≠ colonByte) :
    b ∈ l.bytes ↔ ∃ t ∈ l.tokens, b ∈ t.kind.bytes := by
  have hcolon : b ∉ TokenKind.bytes .colon := fun hmem => hb (List.mem_singleton.1 hmem)
  rw [Line.bytes, List.mem_flatMap]
  constructor
  · rintro ⟨k, hk, hmem⟩
    have hne : k ≠ .colon := by
      rintro rfl
      exact hcolon hmem
    obtain ⟨t, ht, rfl⟩ := (mem_kinds_iff hne).1 hk
    exact ⟨t, ht, hmem⟩
  · rintro ⟨t, ht, hmem⟩
    have hne : t.kind ≠ .colon := fun hkind => hcolon (hkind ▸ hmem)
    exact ⟨t.kind, (mem_kinds_iff hne).2 ⟨t, ht, rfl⟩, hmem⟩

end Applesoft
