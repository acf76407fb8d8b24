import Mathlib.Algebra.GroupWithZero.Nat
import Applesoft.Proofs.TokenBytes

/-!
# The first fault of a layout

`faultsFrom` lists everything that is wrong with some lines in the order in which it is looked for:
with each line its number, its tokens and the address after it, and last the null link. A layout
reports the first of these, and there are none exactly if the numbers ascend, every token can be
encoded and the image ends within memory.
-/
namespace Applesoft

open MemoryImage

namespace TokenKind

def storedText : TokenKind → Text
  | .number value => value.listingText
  | .identifier name => name.toUpper
  | .quoted text | .comment text => text
  | .punct c => [c]
  | .lineEnd | .keyword _ | .directive _ => []

def faults : TokenKind → List Error.Kind
  | .directive _ => [.unsupportedDirective]
  | k => if IsAscii k.storedText then [] else [.notAscii]

theorem faults_eq_nil_iff {k : TokenKind} :
    k.faults = [] ↔ (∀ name, k ≠ .directive name) ∧ IsAscii k.storedText := by
  cases k <;> simp [faults]

end TokenKind

namespace MemoryImage

def faultsFrom (address : Nat) (previous : Option UInt16) : List Line → List Error.Kind
  | [] => if address + 2 ≤ memorySize then [] else [.outOfMemory]
  | l :: rest =>
    let next := address + 5 + l.bytes.length
    (if previous.all (· < l.number) then [] else [.invalidLineNumber]) ++
      l.tokens.flatMap (·.kind.faults) ++
      (if next < memorySize then [] else [.outOfMemory]) ++
      faultsFrom next (some l.number) rest

def faultKind? {α : Type} : Except Error α → Option Error.Kind
  | .ok _ => none
  | .error e => some e.kind

section Steps

variable {α β : Type} {line address current : Nat} {previous : Option UInt16}

theorem faultKind?_map (f : α → β) (x : Except Error α) : faultKind? (x.map f) = faultKind? x := by
  cases x <;> rfl

theorem faultKind?_eq_none_iff {x : Except Error α} : faultKind? x = none ↔ ∃ a, x = .ok a := by
  cases x <;> simp [faultKind?]

theorem faultKind?_ascii (line : Nat) (t : Text) :
    faultKind? (ascii line t) = (if IsAscii t then [] else [Error.Kind.notAscii]).head? := by
  induction t with
  | nil => simp [ascii, faultKind?, IsAscii]
  | cons c rest ih =>
    by_cases hc : c.toNat < 128
    · have hrest : IsAscii (c :: rest) ↔ IsAscii rest := by simp [IsAscii, hc]
      rw [ascii, if_pos hc, faultKind?_map, ih]
      simp only [hrest]
    · have hno : ¬ IsAscii (c :: rest) := fun h => hc (h c List.mem_cons_self)
      rw [ascii, if_neg hc, if_neg hno]
      rfl

theorem faultKind?_tokenBytes (t : Token) : faultKind? (tokenBytes t) = t.kind.faults.head? := by
  obtain ⟨line, kind⟩ := t
  cases kind with
  | lineEnd | keyword | directive => simp [tokenBytes, faultKind?, TokenKind.faults,
      TokenKind.storedText, IsAscii, Error.kind]
  | number | identifier | punct => exact faultKind?_ascii line _
  | quoted | comment =>
    simp only [tokenBytes, faultKind?_map]
    exact faultKind?_ascii line _

theorem faultKind?_statementBytes (s : Statement) :
    faultKind? (statementBytes s) = (s.flatMap (·.kind.faults)).head? := by
  induction s with
  | nil => rfl
  | cons t rest ih =>
    have htoken := faultKind?_tokenBytes t
    rw [statementBytes, List.flatMap_cons, List.head?_append, ← htoken]
    cases tokenBytes t with
    | error e => rfl
    | ok b =>
      dsimp only
      rw [faultKind?_map, ih]
      rfl

theorem faultKind?_bodyBytes (current : Nat) (statements : List Statement) :
    faultKind? (bodyBytes current statements).2 =
      (statements.flatten.flatMap (·.kind.faults)).head? := by
  induction statements generalizing current with
  | nil => rfl
  | cons s rest ih =>
    have hstatement := faultKind?_statementBytes s
    rw [bodyBytes, List.flatten_cons, List.flatMap_append, List.head?_append, ← hstatement]
    cases statementBytes s with
    | error e => rfl
    | ok b =>
      dsimp only
      rw [faultKind?_map, ih]
      rfl

theorem eq_bytes_of_bodyBytes {l : Line} {body : List UInt8}
    (h : (bodyBytes current l.statements).2 = .ok body) : body = l.bytes :=
  (isBody_iff.1 ((bodyBytes_eq_ok_iff current).1 h)).2

/-- A layout stops at the first thing that is wrong. -/
theorem fault_start (address : Nat) (previous : Option UInt16) (current : Nat)
    (lines : List Line) :
    (Layout.start address previous current lines).fault.map Error.kind =
      (faultsFrom address previous lines).head? := by
  induction lines generalizing address previous current with
  | nil =>
    rw [Layout.start, faultsFrom]
    by_cases hfits : address + 2 ≤ memorySize
    · rw [if_pos hfits, if_pos hfits]
      rfl
    · rw [if_neg hfits, if_neg hfits]
      rfl
  | cons l rest ih =>
    rw [Layout.start, faultsFrom]
    cases hfilter : previous.filter (l.number ≤ ·) with
    | some p =>
      have hno : ¬ previous.all (· < l.number) = true := by
        intro hlt
        rw [filter_le_eq_none_iff.2 (by simpa [Option.all_eq_true] using hlt)] at hfilter
        cases hfilter
      rw [if_neg hno]
      rfl
    | none =>
      have hlt : previous.all (· < l.number) = true := by
        simpa [Option.all_eq_true] using filter_le_eq_none_iff.1 hfilter
      have hbody := faultKind?_bodyBytes (sourceLineAt current (l.statements.headD [])) l.statements
      rw [if_pos hlt, List.nil_append]
      rcases hbytes : bodyBytes (sourceLineAt current (l.statements.headD [])) l.statements with
        ⟨reached, e | body⟩
      · rw [hbytes] at hbody
        rw [List.append_assoc, List.head?_append, Line.tokens, ← hbody]
        rfl
      · rw [hbytes] at hbody
        have hnone : l.tokens.flatMap (·.kind.faults) = [] := List.head?_eq_none_iff.1 hbody.symm
        obtain rfl := eq_bytes_of_bodyBytes (congrArg Prod.snd hbytes)
        have hnext : (⟨address, l.number, l.bytes⟩ : Record).next = address + 5 + l.bytes.length :=
          Nat.add_right_comm address l.bytes.length 5
        rw [hnone, List.nil_append]
        by_cases hfits : address + 5 + l.bytes.length < memorySize
        · rw [if_pos hfits]
          simp only [hnext, if_pos hfits]
          exact ih _ _ _
        · rw [if_neg hfits]
          simp only [hnext, if_neg hfits]
          rfl

/-- Nothing is wrong with lines exactly if their numbers ascend, every token can be encoded and the
null link fits. The addresses of the lines need no condition of their own. -/
theorem faultsFrom_eq_nil_iff (address : Nat) (previous : Option UInt16) (lines : List Line) :
    faultsFrom address previous lines = [] ↔
      (previous.toList ++ lines.map Line.number).IsChain (· < ·) ∧
      (∀ l ∈ lines, ∀ t ∈ l.tokens,
        (∀ name, t.kind ≠ .directive name) ∧ IsAscii t.kind.storedText) ∧
      address + 2 + (lines.map fun l => 5 + l.bytes.length).sum ≤ memorySize := by
  induction lines generalizing address previous with
  | nil => cases previous <;> simp [faultsFrom]
  | cons l rest ih =>
    have hnumber : (previous.toList ++ (l :: rest).map Line.number).IsChain (· < ·) ↔
        previous.all (· < l.number) = true ∧
          ((some l.number).toList ++ rest.map Line.number).IsChain (· < ·) := by
      cases previous <;> simp
    rw [hnumber]
    simp only [faultsFrom, List.append_eq_nil_iff, ite_eq_left_iff, List.cons_ne_self, imp_false,
      not_not, ih, List.forall_mem_cons, List.flatMap_eq_nil_iff, TokenKind.faults_eq_nil_iff,
      List.map_cons, List.sum_cons]
    constructor
    · rintro ⟨⟨⟨hlt, htokens⟩, -⟩, hchain, hrest, hsum⟩
      exact ⟨⟨hlt, hchain⟩, ⟨htokens, hrest⟩, by omega⟩
    · rintro ⟨⟨hlt, hchain⟩, ⟨htokens, hrest⟩, hsum⟩
      exact ⟨⟨⟨hlt, htokens⟩, by omega⟩, hchain, hrest, by omega⟩

end Steps

end MemoryImage

namespace Program

/-- Everything that is wrong with a program, in the order in which it is looked for. -/
def faults (address : UInt16) (p : Program) : List Error.Kind :=
  faultsFrom address.toNat none p.lines

theorem faultKind?_image (current : Nat) (address : UInt16) (p : Program) :
    faultKind? (p.layout current address).image = (p.faults address).head? := by
  rw [faults, ← fault_start address.toNat none current, layout, Layout.image]
  cases (Layout.start address.toNat none current p.lines).fault <;> rfl

/-- A program has an image exactly if its numbers ascend, it has no directive, what is stored of its
tokens is ASCII and the image ends within memory. Where it has none, the error is of the kind of the
first thing that is wrong. -/
theorem image_ok_iff_and_first_fault (current : Nat) (address : UInt16) (p : Program) :
    ((∃ bytes, (p.layout current address).image = .ok bytes) ↔
      p.numbers.Pairwise (· < ·) ∧
      (∀ l ∈ p.lines, ∀ t ∈ l.tokens,
        (∀ name, t.kind ≠ .directive name) ∧ IsAscii t.kind.storedText) ∧
      address.toNat + 2 + (p.lines.map fun l => 5 + l.bytes.length).sum ≤ memorySize) ∧
    faultKind? (p.layout current address).image = (p.faults address).head? := by
  refine ⟨?_, faultKind?_image current address p⟩
  have htrans : IsTrans UInt16 (· < ·) := ⟨fun _ _ _ => UInt16.lt_trans⟩
  rw [← faultKind?_eq_none_iff, faultKind?_image, List.head?_eq_none_iff, faults,
    faultsFrom_eq_nil_iff, Option.toList_none, List.nil_append, List.isChain_iff_pairwise]
  rfl

/-- Two faults in one line: the directive comes before the bound of memory. -/
example : (⟨0, [⟨10, [[⟨1, .directive ['$', 'X']⟩]], 0⟩]⟩ : Program).faults (.ofNat 0xFFFF) =
    [.unsupportedDirective, .outOfMemory, .outOfMemory] := by decide

end Program

end Applesoft
