import Applesoft.Proofs.FirstFault
import Applesoft.Proofs.SourceSpans
import Applesoft.Proofs.TokenGroups
import Applesoft.Proofs.TokenizerRuns

/-!
# The source line that an error names

Of source lines the tokenizer knows what the first tokens of statements tell it. An error about a line
of the program names a physical line of that line if the tokenizer has come to one of its tokens.
Otherwise it names what an earlier line or an earlier run has left behind.
-/
namespace Applesoft

open MemoryImage

namespace MemoryImage

variable {current : Nat}

theorem sourceLineAt_self (current : Nat) (s : Statement) :
    sourceLineAt (sourceLineAt current s) s = sourceLineAt current s := by
  cases s <;> rfl

theorem foldl_sourceLineAt_headD (current : Nat) (ss : List Statement) :
    ss.foldl sourceLineAt (sourceLineAt current (ss.headD [])) = ss.foldl sourceLineAt current := by
  cases ss with
  | nil => rfl
  | cons s rest => rw [List.headD_cons, List.foldl_cons, List.foldl_cons, sourceLineAt_self]

/-- After some statements the source line is that of one of their tokens, if they have any. -/
theorem foldl_sourceLineAt (current : Nat) (ss : List Statement) :
    (ss.flatten = [] ∧ ss.foldl sourceLineAt current = current) ∨
      ∃ t ∈ ss.flatten, ss.foldl sourceLineAt current = t.line := by
  induction ss generalizing current with
  | nil => exact .inl ⟨rfl, rfl⟩
  | cons s rest ih =>
    rw [List.foldl_cons, List.flatten_cons]
    rcases ih (sourceLineAt current s) with ⟨hrest, hline⟩ | ⟨t, ht, hline⟩
    · rw [hline, hrest, List.append_nil]
      cases s with
      | nil => exact .inl ⟨rfl, rfl⟩
      | cons t more => exact .inr ⟨t, List.mem_cons_self, rfl⟩
    · exact .inr ⟨t, List.mem_append_right _ ht, hline⟩

theorem bodyBytes_fst {ss : List Statement} {body : List UInt8}
    (h : (bodyBytes current ss).2 = .ok body) :
    (bodyBytes current ss).1 = ss.foldl sourceLineAt current := by
  induction ss generalizing current body with
  | nil => rfl
  | cons s rest ih =>
    rw [bodyBytes] at h ⊢
    cases hs : statementBytes s with
    | error e => simp [hs] at h
    | ok b =>
      simp only [hs] at h ⊢
      obtain ⟨more, hmore, -⟩ := map_eq_ok_iff.1 h
      exact ih hmore

end MemoryImage

namespace Error

/-- The source line that is named where a line of a program cannot be laid out as a whole. -/
def lineFault? : Error → Option Nat
  | .notAscending line _ _ | .lineBeyondMemory line => some line
  | .unexpectedLexeme .. | .openContinuation _ | .missingMark .. | .undecodable
  | .missingLineNumber _ | .badLineNumber .. | .unsupportedDirective .. | .notAscii ..
  | .endBeyondMemory .. | .numberOutOfRange .. | .numberOutOfOrder .. | .visitorStopped => none

end Error

inductive LineFault (previous : Option UInt16) (l : Line) : List Statement → Error → Prop
  | order {line : Nat} {p : UInt16} : previous = some p → l.number ≤ p →
      LineFault previous l [l.statements.headD []] (.notAscending line l.number p)
  | room {line : Nat} : LineFault previous l l.statements (.lineBeyondMemory line)

namespace MemoryImage

variable {address current line : Nat} {previous : Option UInt16} {e : Error}

/-- A fault in a token is none of its line as a whole. -/
theorem lineFault?_of_bodyBytes {ss : List Statement} (h : (bodyBytes current ss).2 = .error e) :
    e.lineFault? = none := by
  have hkind := faultKind?_bodyBytes current ss
  rw [h] at hkind
  obtain ⟨t, -, ht⟩ := List.mem_flatMap.1 (List.mem_of_head? hkind.symm)
  have htoken : e.kind = .unsupportedDirective ∨ e.kind = .notAscii := by
    cases hk : t.kind <;> simp_all [TokenKind.faults]
  cases e <;> simp_all [Error.lineFault?, Error.kind]

/-- Where a line cannot be laid out, the lines before it have been, and the source line that is named
is the one after their statements and those of the line that have been come to. -/
theorem Layout.exists_lineFault {lines : List Line}
    (h : (start address previous current lines).fault = some e) (he : e.lineFault? = some line) :
    ∃ before l after reached, lines = before ++ l :: after ∧
      (start address previous current lines).records.length = before.length ∧
      LineFault ((before.getLast?.map Line.number).or previous) l reached e ∧
      line = (before.flatMap Line.statements ++ reached).foldl sourceLineAt current := by
  induction lines generalizing address previous current with
  | nil =>
    rw [start] at h
    split at h
    · cases h
    · obtain rfl := Option.some.inj h
      cases he
  | cons l rest ih =>
    rw [start] at h ⊢
    cases hfilter : previous.filter (l.number ≤ ·) with
    | some p =>
      simp only [hfilter] at h ⊢
      obtain rfl := Option.some.inj h
      obtain ⟨hprevious, hle⟩ := Option.filter_eq_some_iff.1 hfilter
      obtain rfl := Option.some.inj he
      exact ⟨[], l, rest, _, rfl, rfl, .order hprevious (by simpa using hle), rfl⟩
    | none =>
      simp only [hfilter] at h ⊢
      rcases hbytes : bodyBytes (sourceLineAt current (l.statements.headD [])) l.statements with
        ⟨reached, e' | body⟩
      · simp only [hbytes] at h
        obtain rfl := Option.some.inj h
        have hno := lineFault?_of_bodyBytes (congrArg Prod.snd hbytes)
        rw [hno] at he
        cases he
      · have hreached := bodyBytes_fst (congrArg Prod.snd hbytes)
        rw [foldl_sourceLineAt_headD, hbytes] at hreached
        obtain rfl : reached = l.statements.foldl sourceLineAt current := hreached
        simp only [hbytes] at h ⊢
        by_cases hfits : (⟨address, l.number, body⟩ : Record).next < memorySize
        · simp only [if_pos hfits] at h ⊢
          obtain ⟨before, l', after, statements, rfl, hlength, hfault, hline⟩ := ih h
          refine ⟨l :: before, l', after, statements, rfl, by simp [hlength], ?_, ?_⟩
          · rw [List.getLast?_cons]
            cases hlast : before.getLast? with
            | none => simpa [hlast] using hfault
            | some b => simpa [hlast] using hfault
          · simp only [hline, List.flatMap_cons, List.foldl_append]
        · simp only [if_neg hfits] at h ⊢
          obtain rfl := Option.some.inj h
          obtain rfl := Option.some.inj he
          exact ⟨[], l, rest, _, rfl, rfl, .room, rfl⟩

end MemoryImage

def Reading.NoLineFault : Reading → Prop
  | .fault e _ _ => e.lineFault? = none
  | .token .. | .done _ => True

theorem Lexing.readToken_noLineFault (line : Nat) (s : Text) :
    (readToken line s).NoLineFault := by
  fun_induction readToken line s with
  | case1 | case2 | case3 | case4 => trivial
  | case5 line _ word r =>
    obtain ⟨k, r', -, hread⟩ | ⟨k, mark, r', l, hread⟩ := readWord_cases line word r
    · rw [hread]; trivial
    · rw [hread]; rfl
  | case6 _ _ _ _ _ _ _ _ ih => exact ih
  | case7 | case8 | case10 => rfl
  | case9 line _ c r =>
    obtain ⟨k, -, hread⟩ := readPunctuation_eq_token line c r
    rw [hread]
    trivial

theorem Token.lineFault?_of_asLineNumber {t : Token} {e : Error} (h : t.asLineNumber = .error e) :
    e.lineFault? = none := by
  unfold asLineNumber at h
  split at h
  · split at h
    · split at h
      · cases h
      · obtain rfl := Except.error.inj h; rfl
    · obtain rfl := Except.error.inj h; rfl
  · obtain rfl := Except.error.inj h; rfl

theorem Program.lineFault?_of_parse {id : Nat} {source : Text} {e : Error}
    (h : parse id source = .error e) : e.lineFault? = none := by
  unfold parse lex at h
  obtain ⟨l, r, -, ⟨hfault, -⟩ | ⟨e', _, _, hfault, hread⟩⟩ := Lexing.exists_reads 1 source
  · rw [Lexing.Lexed.result, hfault] at h
    simp only [ofTokens] at h
    cases hlines : linesOf id (Lexing.lexFrom 1 source).tokens with
    | ok lines => simp [hlines, Except.map] at h
    | error e' =>
      simp only [hlines, Except.map, Except.error.injEq] at h
      obtain ⟨_, t, _, _, -, -, ht⟩ := linesOf_eq_error_iff.1 hlines
      exact Token.lineFault?_of_asLineNumber (h ▸ ht)
  · rw [Lexing.Lexed.result, hfault] at h
    have hno := Lexing.readToken_noLineFault l r
    rw [hread] at hno
    rw [← Except.error.inj h]
    exact hno

theorem LineFault.mem_tokens {previous : Option UInt16} {l : Line} {reached : List Statement}
    {e : Error} (h : LineFault previous l reached e) : ∀ t ∈ reached.flatten, t ∈ l.tokens := by
  intro t ht
  cases h with
  | order =>
    rw [List.flatten_singleton] at ht
    rw [Line.tokens]
    cases hss : l.statements with
    | nil => simp [hss] at ht
    | cons s rest =>
      rw [hss, List.headD_cons] at ht
      exact List.mem_append_left _ ht
  | room => exact ht

/-- The source line after some lines and the first statements of another, against a span that holds
the tokens of these and comes after those of the lines. -/
theorem Span.has_foldl_iff {span : Span} {before : List Line} {reached : List Statement}
    (hbefore : ∀ l ∈ before, ∀ t ∈ l.tokens, t.line < span.first)
    (hreached : ∀ t ∈ reached.flatten, span.Has t.line) (current : Nat) :
    span.Has ((before.flatMap Line.statements ++ reached).foldl sourceLineAt current) ↔
      reached.flatten ≠ [] ∨ (∀ l ∈ before, l.tokens = []) ∧ span.Has current := by
  have htokens : (before.flatMap Line.statements).flatten = before.flatMap Line.tokens := by
    rw [← List.flatMap_id, List.flatMap_assoc]
    exact List.flatMap_congr fun l _ => List.flatMap_id
  rw [List.foldl_append]
  rcases foldl_sourceLineAt _ reached with ⟨hnone, hline⟩ | ⟨t, ht, hline⟩
  · rw [hline, hnone]
    rcases foldl_sourceLineAt current (before.flatMap Line.statements) with
      ⟨hempty, hline⟩ | ⟨t, ht, hline⟩
    · rw [htokens, List.flatMap_eq_nil_iff] at hempty
      rw [hline]
      exact ⟨fun hhas => .inr ⟨hempty, hhas⟩, fun h => (h.resolve_left (· rfl)).2⟩
    · -- an earlier line has a token, and that stands above the span
      rw [htokens, List.mem_flatMap] at ht
      obtain ⟨l, hl, ht⟩ := ht
      have hlt := hbefore l hl t ht
      have hno : ¬ span.Has t.line := fun hhas => Nat.not_le.2 hlt hhas.1
      have hsome : ¬ ∀ l ∈ before, l.tokens = [] := fun hall => by
        simp [hall l hl] at ht
      simp [hline, hno, hsome]
  · have hne : reached.flatten ≠ [] := List.ne_nil_of_mem ht
    simp [hline, hreached t ht, hne]

namespace Tokenizer

/-- Where a line of a program cannot be laid out after those before it, the error names one of the
physical lines of that line exactly if a token in the statements come to tells it, which are the first
one where a number is out of order and all where memory is full, or else if no token before it has
told any source line and the line from earlier runs happens to be one of them. -/
theorem namedLine_iff {t : Tokenizer} {source : Text} {address : UInt16} {e : Error} {line : Nat}
    (h : (t.tokenizeText source address).1 = .error e) (he : e.lineFault? = some line) :
    ∃ p before l after reached span,
      Program.parse 0 source = .ok p ∧ p.lines = before ++ l :: after ∧
      (p.layout t.sourceLine address).records.length = before.length ∧
      LineFault (before.getLast?.map Line.number) l reached e ∧
      (lineSpans source)[before.length]? = some span ∧
      ('\r' ∉ source → countedSpans source = lineSpans source) ∧
      (span.Has line ↔ reached.flatten ≠ [] ∨
        (∀ l' ∈ before, l'.tokens = []) ∧ span.Has t.sourceLine) := by
  unfold tokenizeText at h
  split at h
  · next p hparse =>
    rw [(t.tokenize_eq p address).1, Layout.image] at h
    split at h
    · cases h
    · next e' hfault =>
      obtain rfl := Except.error.inj h
      obtain ⟨before, l, after, reached, hlines, hlength, hlineFault, hline⟩ :=
        Layout.exists_lineFault hfault he
      rw [Option.or_none] at hlineFault
      have hspread := lineSpans_spread hparse
      rw [hlines] at hspread
      obtain ⟨span, hspan, -, htokens, hbefore⟩ := hspread.exists_span
      refine ⟨p, before, l, after, reached, span, hparse, hlines, hlength, hlineFault, hspan,
        countedSpans_eq, ?_⟩
      rw [hline]
      exact Span.has_foldl_iff hbefore (fun t' ht' => htokens t' (hlineFault.mem_tokens t' ht')) _
  · next e' hparse =>
    obtain rfl := Except.error.inj h
    rw [Program.lineFault?_of_parse hparse] at he
    cases he

/-- A continued line: the error names the second of its two physical lines. -/
theorem namedLine_continued :
    let source := "20 END\n10 \\\nHOME".toList
    let e : Error := .notAscending 3 10 20
    (new.tokenizeText source 2049).1 = .error e ∧ e.lineFault? = some 3 ∧
      lineSpans source = [⟨1, 1⟩, ⟨2, 3⟩] ∧
      ∃ p before l after reached span,
        Program.parse 0 source = .ok p ∧ p.lines = before ++ l :: after ∧
        (p.layout new.sourceLine 2049).records.length = before.length ∧
        LineFault (before.getLast?.map Line.number) l reached e ∧
        (lineSpans source)[before.length]? = some span ∧
        ('\r' ∉ source → countedSpans source = lineSpans source) ∧
        (span.Has 3 ↔ reached.flatten ≠ [] ∨
          (∀ l' ∈ before, l'.tokens = []) ∧ span.Has new.sourceLine) := by
  intro source e
  have h : (new.tokenizeText source 2049).1 = .error e := by decide +kernel
  have he : e.lineFault? = some 3 := rfl
  exact ⟨h, he, by decide +kernel, namedLine_iff h he⟩

/-- The bare number 10 stands on the second physical line, and the error names the first. -/
theorem namedLine_bare_number :
    let source := "20 END\n10\n".toList
    let p : Program := ⟨0, [⟨20, [[⟨1, .keyword .endRun⟩]], 0⟩, ⟨10, [], 0⟩]⟩
    Program.parse 0 source = .ok p ∧
      (new.tokenizeText source 2049).1 = .error (.notAscending 1 10 20) ∧
      lineSpans source = [⟨1, 1⟩, ⟨2, 2⟩] ∧ countedSpans source = [⟨1, 1⟩, ⟨2, 2⟩] ∧
      ¬ (⟨2, 2⟩ : Span).Has 1 := by
  decide +kernel

end Tokenizer

end Applesoft
