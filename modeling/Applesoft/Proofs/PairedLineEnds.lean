import Applesoft.Proofs.LineEnds

/-!
# Line ends of two characters

A carriage return and a line feed together end a line just as the line feed alone does. A comment
ends at the line feed too, and gives up the carriage return before it. So a text with such line ends
is read like the same text with line feeds.
-/
namespace Applesoft

def withReturnFeeds (s : Text) : Text := withLineEnd ['\r', '\n'] s

namespace Lexing

open Lexeme

variable {line : Nat} {s : Text}

/-- The two forms of a line end are one lexeme. -/
theorem cut_returnFeed (s : Text) : cut ('\r' :: '\n' :: s) = cut ('\n' :: s) := by
  have hclass : CharClass.ofChar '\r' = .lineEnd := by decide
  rw [cut_lineFeed]
  simp only [cut_cons, hclass]

/-- Where texts correspond with their line feeds, a carriage return before them is cut off alike. -/
theorem cut_return_alike {R : Text → Text → Prop} {s t : Text} (h : R s t)
    (hfeed : ∀ r, s = '\n' :: r → ∃ r', t = '\n' :: r' ∧ R r r')
    (hno : (∀ r, s ≠ '\n' :: r) → ∀ r, t ≠ '\n' :: r) :
    Option.Rel (fun p p' => p.1 = p'.1 ∧ R p.2 p'.2) (cut ('\r' :: s)) (cut ('\r' :: t)) := by
  by_cases hs : ∃ r, s = '\n' :: r
  · obtain ⟨r, rfl⟩ := hs
    obtain ⟨r', rfl, hr⟩ := hfeed r rfl
    rw [cut_returnFeed, cut_returnFeed, cut_lineFeed, cut_lineFeed]
    exact .some ⟨rfl, hr⟩
  · have hne {u : Text} (hu : ∀ r, u ≠ '\n' :: r) : u.head? ≠ some '\n' := fun hhead => by
      obtain ⟨r, hr⟩ := List.head?_eq_some_iff.1 hhead
      exact hu r hr
    have hs' : ∀ r, s ≠ '\n' :: r := not_exists.1 hs
    rw [cut_return (hne hs'), cut_return (hne (hno hs'))]
    exact .some ⟨rfl, h⟩

/-- The line feed that ends a comment takes the carriage return before it along. -/
theorem restOfLine_withReturnFeeds (hreturn : '\r' ∉ s) :
    trimReturn ((withReturnFeeds s).takeWhile (· != '\n')) = trimReturn (s.takeWhile (· != '\n')) ∧
      cut ((withReturnFeeds s).dropWhile (· != '\n')) =
        cut (withReturnFeeds (s.dropWhile (· != '\n'))) := by
  have hsplit : s = s.takeWhile (· != '\n') ++ s.dropWhile (· != '\n') :=
    List.takeWhile_append_dropWhile.symm
  have hfeed : ∀ c ∈ s.takeWhile (· != '\n'), (c != '\n') = true := by
    intro c hc
    exact List.mem_takeWhile_imp (p := (· != '\n')) hc
  have hplain : '\r' ∉ s.takeWhile (· != '\n') := fun hmem =>
    hreturn ((List.takeWhile_subset _) hmem)
  have hstops : Stops (· != '\n') (s.dropWhile (· != '\n')) := stops_dropWhile _ s
  generalize s.takeWhile (· != '\n') = body at hsplit hfeed hplain ⊢
  generalize s.dropWhile (· != '\n') = rest at hsplit hstops ⊢
  have hbody : '\n' ∉ body := by
    intro hmem
    simpa using hfeed '\n' hmem
  have htext : withReturnFeeds s = body ++ withReturnFeeds rest := by
    rw [hsplit, withReturnFeeds, withLineEnd_append_of_not_mem hbody]
    rfl
  rw [htext]
  cases rest with
  | nil =>
    have hnil : withReturnFeeds [] = [] := rfl
    rw [hnil, takeWhile_append_of_stops hfeed (stops_nil _),
      dropWhile_append_of_stops hfeed (stops_nil _)]
    exact ⟨rfl, rfl⟩
  | cons c rest =>
    obtain rfl : c = '\n' := by simpa using stops_cons.1 hstops
    have hends : withReturnFeeds ('\n' :: rest) = ['\r'] ++ '\n' :: withReturnFeeds rest := rfl
    have hfeed' : ∀ c ∈ body ++ ['\r'], (c != '\n') = true :=
      List.forall_mem_append.2 ⟨hfeed, by decide⟩
    have hstops' : Stops (· != '\n') ('\n' :: withReturnFeeds rest) := stops_cons.2 (by decide)
    rw [hends, ← List.append_assoc, takeWhile_append_of_stops hfeed' hstops',
      dropWhile_append_of_stops hfeed' hstops']
    constructor
    · have hlast : (body ++ ['\r']).getLast? = some '\r' := by simp
      rw [trimReturn_of_not_mem hplain, trimReturn, if_pos hlast, List.dropLast_concat]
    · exact (cut_returnFeed _).symm

/-- A comment has the same text, and what is left after it is read alike. -/
theorem commentBody_withReturnFeeds (hreturn : '\r' ∉ s) :
    (commentBody (withReturnFeeds s)).1 = (commentBody s).1 ∧
      cut (commentBody (withReturnFeeds s)).2 = cut (withReturnFeeds (commentBody s).2) := by
  by_cases hspace : ∃ r, s = ' ' :: r
  · obtain ⟨r, rfl⟩ := hspace
    have hcons : withReturnFeeds (' ' :: r) = ' ' :: withReturnFeeds r := rfl
    rw [hcons, commentBody_of_space, commentBody_of_space]
    exact restOfLine_withReturnFeeds fun hmem => hreturn (List.mem_cons_of_mem _ hmem)
  · have hhead : s.head? ≠ some ' ' := fun h => hspace (List.head?_eq_some_iff.1 h)
    have hhead' : (withReturnFeeds s).head? ≠ some ' ' := by
      intro h
      obtain ⟨r, hr⟩ := List.head?_eq_some_iff.1 h
      exact hspace (withLineEnd_eq_cons (.inr rfl) (by decide) hr)
    rw [commentBody_of_ne hhead, commentBody_of_ne hhead']
    exact restOfLine_withReturnFeeds hreturn

/-- Carriage returns before the line feeds change neither the tokens nor the fault. -/
theorem lexFrom_withReturnFeeds (hreturn : '\r' ∉ s) :
    lexFrom line (withReturnFeeds s) = lexFrom line s := by
  fun_induction lexFrom line s with
  | case1 line s l hread =>
    have h := readToken_withLineEnd (.inr rfl) line hreturn
    rw [hread] at h
    generalize hy : readToken line _ = y at h
    cases h
    exact lexFrom_done hy
  | case2 line s e r l hread =>
    have h := readToken_withLineEnd (.inr rfl) line hreturn
    rw [hread] at h
    generalize hy : readToken line _ = y at h
    cases h
    exact lexFrom_fault hy
  | case3 line s t r l hread more ih =>
    have h := readToken_withLineEnd (.inr rfl) line hreturn
    have hr : '\r' ∉ r := fun hmem => hreturn ((readToken_suffix hread).subset hmem)
    rw [hread] at h
    generalize hy : readToken line _ = y at h
    cases h with
    | token hno =>
      have hrest := ih hr
      rw [withReturnFeeds, lexFrom_token hy]
      exact congrArg (Lexed.after [t]) hrest
    | @comment _ body hbody =>
      obtain ⟨htext, hcut⟩ := commentBody_withReturnFeeds hbody
      have hrest := (lexFrom_congr (readToken_congr hcut)).trans (ih hr)
      rw [withReturnFeeds, lexFrom_token hy]
      rw [withReturnFeeds] at htext hrest
      rw [htext, hrest]
      rfl

end Lexing

/-- A text whose lines end with a carriage return and a line feed is read like the same text with line
feeds: it has the same tokens on the same lines, or the same fault. -/
theorem lex_withReturnFeeds {s : Text} (hreturn : '\r' ∉ s) : lex (withReturnFeeds s) = lex s := by
  rw [lex, lex, Lexing.lexFrom_withReturnFeeds hreturn]

/-- Line ends after a backslash, a name, an open string and a comment. -/
theorem lex_withReturnFeeds_everywhere :
    let s := "10 in\t# 1\\ \n:A\n20 ?\"HI\n30 Rem x \n.5".toList
    '\r' ∉ s ∧
      lex s = .ok [⟨1, .number (.ofNat 10)⟩, ⟨1, .keyword .inSlot⟩, ⟨1, .number (.ofNat 1)⟩,
        ⟨2, .punct ':'⟩, ⟨2, .identifier ['A']⟩, ⟨2, .lineEnd⟩, ⟨3, .number (.ofNat 20)⟩,
        ⟨3, .keyword .print⟩, ⟨3, .quoted ['H', 'I']⟩, ⟨3, .lineEnd⟩, ⟨4, .number (.ofNat 30)⟩,
        ⟨4, .comment ['x', ' ']⟩, ⟨4, .lineEnd⟩, ⟨5, .number (.ofDecimal [] ['5'])⟩] ∧
      lex (withReturnFeeds s) = lex s := by
  intro s
  have hreturn : '\r' ∉ s := by decide
  exact ⟨hreturn, by decide +kernel, lex_withReturnFeeds hreturn⟩

end Applesoft
