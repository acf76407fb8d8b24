import Applesoft.Proofs.TokenizerRuns

/-!
# Tokens replaced one by one

A function of tokens that keeps lines, line ends, colons and line numbers can be applied before or after
tokens are made into a program. If it keeps the bytes of each token as well, up to the text that an error
carries, it keeps the memory image.
-/
namespace Applesoft

open MemoryImage

def Error.told (e : Error) : Error.Kind × Option Nat := (e.kind, e.line?)

section Told

variable {ε ε' α β : Type} {g : ε → ε'} {x y : Except ε α}

theorem mapError_eq_iff : x.mapError g = y.mapError g ↔
    (∃ a, x = .ok a ∧ y = .ok a) ∨ ∃ e e', x = .error e ∧ y = .error e' ∧ g e = g e' := by
  cases x <;> cases y <;> simp [Except.mapError, eq_comm]

theorem mapError_map (f : α → β) (h : x.mapError g = y.mapError g) :
    (x.map f).mapError g = (y.map f).mapError g := by
  rcases mapError_eq_iff.1 h with ⟨a, rfl, rfl⟩ | ⟨e, e', rfl, rfl, he⟩
  · rfl
  · exact congrArg Except.error he

end Told

def Line.mapTokens (f : Token → Token) (l : Line) : Line :=
  { l with statements := l.statements.map (List.map f) }

def Program.mapTokens (f : Token → Token) (p : Program) : Program :=
  { p with lines := p.lines.map (Line.mapTokens f) }

structure KeepsOutline (f : Token → Token) : Prop where
  line (t : Token) : (f t).line = t.line
  isLineEnd (t : Token) : (f t).isLineEnd = t.isLineEnd
  colon (t : Token) : (f t).kind = .punct ':' ↔ t.kind = .punct ':'
  asLineNumber (t : Token) : (f t).asLineNumber = t.asLineNumber

section Outline

variable {f : Token → Token}

namespace Program

theorem splitStatements_map (h : KeepsOutline f) (body : List Token) :
    splitStatements (body.map f) = (splitStatements body).map (List.map f) := by
  induction body with
  | nil => rfl
  | cons t rest ih =>
    rw [List.map_cons, splitStatements, splitStatements, ih]
    by_cases hcolon : t.kind = .punct ':'
    · rw [if_pos hcolon, if_pos ((h.colon t).2 hcolon)]
      rfl
    · rw [if_neg hcolon, if_neg (mt (h.colon t).1 hcolon)]
      cases splitStatements rest <;> rfl

theorem lineStatements_map (h : KeepsOutline f) (body : List Token) :
    lineStatements (body.map f) = (lineStatements body).map (List.map f) := by
  cases body with
  | nil => rfl
  | cons t rest => exact splitStatements_map h (t :: rest)

theorem linesOf_map (h : KeepsOutline f) (id : Nat) (ts : List Token) :
    linesOf id (ts.map f) = (linesOf id ts).map (List.map (Line.mapTokens f)) := by
  have hlineEnd : (fun t : Token => !t.isLineEnd) ∘ f = fun t => !t.isLineEnd :=
    funext fun t => congrArg (! ·) (h.isLineEnd t)
  fun_induction linesOf id ts with
  | case1 => rw [List.map_nil, linesOf]; rfl
  | case2 t rest ht ih => rw [List.map_cons, linesOf, if_pos ((h.isLineEnd t).trans ht), ih]
  | case3 t rest ht e he =>
    rw [List.map_cons, linesOf, if_neg (by rwa [h.isLineEnd]), h.asLineNumber, he]
    rfl
  | case4 t rest ht number hnumber e he ih =>
    rw [List.map_cons, linesOf, if_neg (by rwa [h.isLineEnd]), h.asLineNumber, hnumber,
      List.dropWhile_map, hlineEnd, ih, he]
    rfl
  | case5 t rest ht number hnumber more hmore ih =>
    rw [List.map_cons, linesOf, if_neg (by rwa [h.isLineEnd]), h.asLineNumber, hnumber,
      List.dropWhile_map, hlineEnd, ih, hmore, List.takeWhile_map, hlineEnd, lineStatements_map h]
    rfl

theorem ofTokens_map (h : KeepsOutline f) (id : Nat) (ts : List Token) :
    ofTokens id (ts.map f) = (ofTokens id ts).map (mapTokens f) := by
  rw [ofTokens, ofTokens, linesOf_map h]
  cases linesOf id ts <;> rfl

end Program

def KeepsEncoding (f : Token → Token) (t : Token) : Prop :=
  (tokenBytes (f t)).mapError Error.told = (tokenBytes t).mapError Error.told

namespace MemoryImage

theorem statementBytes_map {s : Statement} (h : ∀ t ∈ s, KeepsEncoding f t) :
    (statementBytes (s.map f)).mapError Error.told = (statementBytes s).mapError Error.told := by
  induction s with
  | nil => rfl
  | cons t rest ih =>
    rw [List.forall_mem_cons] at h
    have hrest := ih h.2
    rw [List.map_cons, statementBytes, statementBytes]
    rcases mapError_eq_iff.1 h.1 with ⟨b, hb, hb'⟩ | ⟨e, e', he, he', htold⟩
    · rw [hb, hb']
      exact mapError_map _ hrest
    · rw [he, he']
      exact congrArg Except.error htold

theorem sourceLineAt_map (h : ∀ t, (f t).line = t.line) (current : Nat) (s : Statement) :
    sourceLineAt current (s.map f) = sourceLineAt current s := by
  cases s with
  | nil => rfl
  | cons t rest => exact h t

theorem bodyBytes_map (hline : ∀ t, (f t).line = t.line) (current : Nat) {statements : List Statement}
    (h : ∀ s ∈ statements, ∀ t ∈ s, KeepsEncoding f t) :
    (bodyBytes current (statements.map (List.map f))).1 = (bodyBytes current statements).1 ∧
      (bodyBytes current (statements.map (List.map f))).2.mapError Error.told =
        (bodyBytes current statements).2.mapError Error.told := by
  induction statements generalizing current with
  | nil => exact ⟨rfl, rfl⟩
  | cons s rest ih =>
    rw [List.forall_mem_cons] at h
    obtain ⟨hreached, hmore⟩ := ih (sourceLineAt current s) h.2
    rw [List.map_cons, bodyBytes, bodyBytes, sourceLineAt_map hline, List.isEmpty_map]
    rcases mapError_eq_iff.1 (statementBytes_map h.1) with ⟨b, hb, hb'⟩ | ⟨e, e', he, he', htold⟩
    · rw [hb, hb']
      exact ⟨hreached, mapError_map _ hmore⟩
    · rw [he, he']
      exact ⟨rfl, congrArg Except.error htold⟩

structure Layout.Alike (x y : Layout) : Prop where
  records : x.records = y.records
  fault : x.fault.map Error.told = y.fault.map Error.told
  sourceLine : x.sourceLine = y.sourceLine

theorem Layout.Alike.image {x y : Layout} (h : x.Alike y) :
    x.image.mapError Error.told = y.image.mapError Error.told := by
  obtain ⟨records, fault, _⟩ := x
  obtain ⟨records', fault', _⟩ := y
  obtain rfl : records = records' := h.records
  have hfault := h.fault
  cases fault <;> cases fault' <;> simp_all [Layout.image, Except.mapError]

theorem Layout.start_cons_alike {address current owner : Nat} {previous : Option UInt16}
    {number : UInt16} {statements statements' : List Statement} {rest rest' : List Line}
    (hhere : sourceLineAt current (statements.headD []) =
      sourceLineAt current (statements'.headD []))
    (hbody : ∀ here, (bodyBytes here statements).1 = (bodyBytes here statements').1 ∧
      (bodyBytes here statements).2.mapError Error.told =
        (bodyBytes here statements').2.mapError Error.told)
    (hrest : ∀ address previous current,
      (start address previous current rest).Alike (start address previous current rest')) :
    (start address previous current (⟨number, statements, owner⟩ :: rest)).Alike
      (start address previous current (⟨number, statements', owner⟩ :: rest')) := by
  rw [start, start, hhere]
  -- from here on the two lines are looked at by their bodies alone
  generalize sourceLineAt current (statements'.headD []) = here
  obtain ⟨hreached, htold⟩ := hbody here
  cases previous.filter (number ≤ ·) with
  | some p => exact ⟨rfl, rfl, rfl⟩
  | none =>
    generalize bodyBytes here statements = x at hreached htold
    generalize bodyBytes here statements' = y at hreached htold
    obtain ⟨reached, x⟩ := x
    obtain ⟨reached', y⟩ := y
    obtain rfl : reached = reached' := hreached
    rcases mapError_eq_iff.1 htold with ⟨b, rfl, rfl⟩ | ⟨e, e', rfl, rfl, he⟩
    · dsimp only
      split
      · have hmore := hrest (⟨address, number, b⟩ : Record).next (some number) reached
        exact ⟨congrArg (⟨address, number, b⟩ :: ·) hmore.records, hmore.fault, hmore.sourceLine⟩
      · exact ⟨rfl, rfl, rfl⟩
    · exact ⟨rfl, congrArg some he, rfl⟩

theorem Layout.start_map (hline : ∀ t, (f t).line = t.line) (address : Nat) (previous : Option UInt16)
    (current : Nat) {lines : List Line} (h : ∀ l ∈ lines, ∀ t ∈ l.tokens, KeepsEncoding f t) :
    (start address previous current (lines.map (Line.mapTokens f))).Alike
      (start address previous current lines) := by
  induction lines generalizing address previous current with
  | nil => exact ⟨rfl, rfl, rfl⟩
  | cons l rest ih =>
    rw [List.forall_mem_cons] at h
    refine start_cons_alike ?_ (fun here => bodyBytes_map hline here fun s hs t ht => ?_)
      fun address previous current => ih address previous current h.2
    · cases l.statements with
      | nil => rfl
      | cons s _ => exact sourceLineAt_map hline current s
    · exact h.1 t (List.mem_flatten.2 ⟨s, hs, ht⟩)

end MemoryImage

def imageOfTokens (current : Nat) (address : UInt16) (ts : List Token) : Except Error (List UInt8) :=
  (Program.ofTokens 0 ts).bind fun p => (p.layout current address).image

theorem imageOfTokens_map (h : KeepsOutline f) (current : Nat) (address : UInt16) {ts : List Token}
    (hbytes : ∀ t ∈ ts, KeepsEncoding f t) :
    (imageOfTokens current address (ts.map f)).mapError Error.told =
      (imageOfTokens current address ts).mapError Error.told := by
  rw [imageOfTokens, imageOfTokens, Program.ofTokens_map h]
  cases hlines : Program.linesOf 0 ts with
  | error e => rw [Program.ofTokens, hlines]; rfl
  | ok lines =>
    have hkept : ∀ l ∈ lines, ∀ t ∈ l.tokens, KeepsEncoding f t := by
      intro l hl t ht
      obtain ⟨body, hbody, -, hstatements, -⟩ := Program.mem_linesOf hlines hl
      obtain ⟨s, hs, hts⟩ := List.mem_flatten.1 ht
      rw [hstatements] at hs
      exact hbytes t (hbody.subset (Program.mem_of_mem_lineStatements hs hts).1)
    rw [Program.ofTokens, hlines]
    exact (Layout.start_map h.line address.toNat none current hkept).image

end Outline

/-- A tokenizer gives the image of what its source is lexed to. -/
theorem Tokenizer.tokenizeText_eq (t : Tokenizer) (source : Text) (address : UInt16) :
    (t.tokenizeText source address).1 = (lex source).bind (imageOfTokens t.sourceLine address) := by
  rw [tokenizeText, Program.parse]
  cases lex source with
  | error e => rfl
  | ok ts =>
    change _ = imageOfTokens t.sourceLine address ts
    rw [imageOfTokens]
    dsimp only
    cases Program.ofTokens 0 ts with
    | error e => rfl
    | ok p => exact (t.tokenize_eq p address).1

end Applesoft
