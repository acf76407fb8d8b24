import Applesoft.CommandLine.Run
import Applesoft.Main.Host
import Applesoft.Proofs.ReusedTools

/-!
# What the commands come to

A command succeeds exactly if all that it is given is accepted and new tools make something of it, and
then it writes that and nothing else. Otherwise it writes nothing and the last record tells an error. Each
step of a command is held against what it has to yield, and steps compose. How arguments and JSON texts
are read does not matter here; of log records only that their headers name the level.
-/
namespace Applesoft

/-- A piece of a text between line feeds is a line, but for a carriage return at its end. -/
theorem Text.exists_mem_lines {t piece : Text} (h : piece ∈ t.splitOn '\n') (hne : piece ≠ []) :
    ∃ line ∈ t.lines, piece = line ∨ piece = line ++ ['\r'] := by
  obtain ⟨ended, last, hsplit⟩ := (List.eq_nil_or_concat (t.splitOn '\n')).resolve_left
    (List.ne_nil_of_mem h)
  unfold lines
  rw [hsplit, List.concat_eq_append] at h ⊢
  rw [List.reverse_append, List.reverse_singleton, List.singleton_append]
  simp only [List.reverse_reverse]
  rcases List.mem_append.1 h with h | h
  · refine ⟨_, List.mem_append_left _ (List.mem_map_of_mem h), ?_⟩
    split
    · next hreturn => exact .inr (List.dropLast_append_getLast? _ hreturn).symm
    · exact .inl rfl
  · obtain rfl := List.mem_singleton.1 h
    refine ⟨piece, List.mem_append_right _ ?_, .inl rfl⟩
    rw [if_neg (by simpa using hne)]
    exact List.mem_singleton_self piece

namespace CommandLine

section Given

variable (readJson : Json.Reader) (values : List (String × Text))

def settings? : Option Settings :=
  match values.lookup "config" with
  | none => some .initial
  | some text => (Settings.parse readJson text).2.toOption

/-- The value of a parameter: that of its option if it is given, unless that is no number. -/
def parameter? (name : String) (default : Nat) : Option Nat :=
  match values.lookup name with
  | none => some default
  | some text => (IntegerText.read text).toOption

def source? (input : List UInt8) : Option Text :=
  (SourceBytes.decode? input).filter (· ≠ [])

/-- What new tools make of a source, where all that the command is given is accepted. -/
inductive Makes (input : List UInt8) : Command → List UInt8 → Prop
  | tokenize {settings : Settings} {address : Nat} {source : Text} {bytes : List UInt8} :
      settings? readJson values = some settings →
      parameter? values "addr" settings.address.toNat = some address →
      address ≤ 65535 →
      source? input = some source →
      (Tokenizer.new.tokenizeText source (UInt16.ofNat address)).1 = .ok bytes →
      Makes input .tokenize bytes
  | renumber {settings : Settings} {lowest bound first step : Nat} {source text : Text} {p : Program} :
      settings? readJson values = some settings →
      parameter? values "beg" 0 = some lowest →
      parameter? values "end" (2 ^ 64 - 1) = some bound →
      parameter? values "first" settings.first = some first →
      parameter? values "step" settings.step = some step →
      step ≠ 0 →
      source? input = some source →
      Program.parse 0 source = .ok p →
      (Renumberer.new.renumber ⟨lowest, bound, first, step⟩ p).fault = none →
      (Lister.list { Lister.new with letters := settings.letters }
        (Renumberer.new.renumber ⟨lowest, bound, first, step⟩ p).value).1 = .ok text →
      Makes input .renumber (bytesOf text)
  | list {settings : Settings} {source text : Text} {p : Program} :
      settings? readJson values = some settings →
      source? input = some source →
      Program.parse 0 source = .ok p →
      (Lister.list { Lister.new with letters := settings.letters } p).1 = .ok text →
      Makes input .list (bytesOf text)

end Given

def EndsInError (log : List LogEntry) : Prop :=
  ∃ before message, log = before ++ [LogEntry.error message]

theorem EndsInError.after {log : List LogEntry} (h : EndsInError log) (before : List LogEntry) :
    EndsInError (before ++ log) := by
  obtain ⟨earlier, message, rfl⟩ := h
  exact ⟨before ++ earlier, message, (List.append_assoc _ _ _).symm⟩

namespace Logged

variable {α β : Type} {x : Logged α} {f : α → Logged β} {P P' : α → Prop} {Q : α → β → Prop}

structure Yields (x : Logged α) (P : α → Prop) : Prop where
  value_iff (a : α) : x.value = .ok a ↔ P a
  told (failure : Failure) : x.value = .error failure → EndsInError x.log

theorem Yields.congr (h : x.Yields P) (hP : ∀ a, P a ↔ P' a) : x.Yields P' :=
  ⟨fun a => (h.value_iff a).trans (hP a), h.told⟩

theorem yields_fail (failure : Failure) (message : Text) :
    (fail failure message : Logged α).Yields fun _ => False :=
  ⟨fun _ => ⟨(nomatch ·), False.elim⟩, fun _ _ => ⟨[], message, rfl⟩⟩

/-- A step and then another one that begins with its result. -/
theorem Yields.bind (hx : x.Yields P) (hf : ∀ a, P a → (f a).Yields (Q a)) :
    (x >>= f).Yields fun b => ∃ a, P a ∧ Q a b := by
  obtain ⟨log, failure | a⟩ := x
  · have hnone : ∀ a, ¬ P a := fun a ha => nomatch (hx.value_iff a).2 ha
    refine ⟨fun b => ⟨(nomatch ·), ?_⟩, fun _ _ => hx.told failure rfl⟩
    intro ⟨a, ha, _⟩
    exact absurd ha (hnone a)
  · have hP : ∀ a', P a' ↔ a = a' := fun a' =>
      (hx.value_iff a').symm.trans (Except.ok.injEq a a' ▸ Iff.rfl)
    have hfa := hf a ((hP a).2 rfl)
    refine ⟨fun b => ?_, fun failure h => (hfa.told failure h).after log⟩
    have hvalue : (f a).value = .ok b ↔ Q a b := hfa.value_iff b
    refine hvalue.trans ⟨fun hb => ⟨a, (hP a).2 rfl, hb⟩, ?_⟩
    intro ⟨a', ha', hb⟩
    rwa [(hP a').1 ha']

/-- A condition without which an error is told. -/
theorem Yields.required {c : Prop} [Decidable c] (h : c → x.Yields P) (failure : Failure)
    (message : Text) : (if c then x else fail failure message).Yields fun a => c ∧ P a := by
  by_cases hc : c
  · rw [if_pos hc]
    exact (h hc).congr fun a => (and_iff_right hc).symm
  · rw [if_neg hc]
    exact (yields_fail failure message).congr fun a => by simp [hc]

end Logged

open Logged

section Steps

variable (readJson : Json.Reader) (values : List (String × Text))

theorem listed (letters : LetterCase) (p : Program) :
    (Lister.list { Lister.new with letters := letters } p).1 = .ok (p.listing letters) :=
  (Lister.list_eq _ p).1

end Steps

/-- Records are written of which the last tells an error, and after them how the run has failed. There is a
line with the header of that record, and it begins with it where the records before end in a line feed. -/
def Outcome.TellsError (host : Host) (o : Outcome) : Prop :=
  ∃ earlier message failure,
    o.messages = host.written (earlier ++ [LogEntry.error message]) ++ Failure.report failure ∧
    ∃ line ∈ o.messages.lines, LogLevel.error.name <:+: line ∧
      host.header earlier.length .error <:+: line ∧
      ((∀ c ∈ (host.written earlier).getLast?, c = '\n') →
        host.header earlier.length .error <+: line)

/-- A text is what stands after its last line feed, or begins with a line feed before that. -/
theorem exists_lastPiece (t : Text) : ∃ piece, '\n' ∉ piece ∧
    (t = piece ∨ ∃ before, t = before ++ '\n' :: piece) := by
  by_cases hmem : '\n' ∈ t
  · obtain ⟨piece, before, hreverse, hpiece⟩ := List.eq_append_cons_of_mem (List.mem_reverse.2 hmem)
    refine ⟨piece.reverse, by rwa [List.mem_reverse], .inr ⟨before.reverse, ?_⟩⟩
    rw [← List.reverse_reverse t, hreverse, List.reverse_append, List.reverse_cons, List.append_assoc,
      List.singleton_append]
  · exact ⟨t, hmem, .inl rfl⟩

section Marked

variable {mark : Text}

/-- A mark makes a marked piece, also after other text on the same line. -/
theorem exists_marked_piece {start : Text} (hstart : '\n' ∉ start) (hline : '\n' ∉ mark) (tail : Text) :
    ∃ piece ∈ (start ++ (mark ++ tail)).splitOn '\n', start ++ mark <+: piece := by
  have hnone : '\n' ∉ start ++ mark ++ tail.takeWhile (· != '\n') := by
    simp only [List.mem_append, not_or]
    exact ⟨⟨hstart, hline⟩, fun hmem => by simpa using List.mem_takeWhile_imp hmem⟩
  refine ⟨start ++ mark ++ tail.takeWhile (· != '\n'), ?_, List.prefix_append _ _⟩
  have hsplit := List.takeWhile_append_dropWhile (p := (· != '\n')) (l := tail)
  rw [← List.append_assoc]
  cases hdrop : tail.dropWhile (· != '\n') with
  | nil =>
    rw [hdrop, List.append_nil] at hsplit
    rw [hsplit] at hnone ⊢
    rw [List.splitOn_eq_singleton hnone]
    exact List.mem_singleton_self _
  | cons c rest =>
    obtain rfl : c = '\n' := by
      have hhead := List.head?_dropWhile_not (· != '\n') tail
      rw [hdrop] at hhead
      simpa using hhead
    have hrecord : start ++ mark ++ tail =
        start ++ mark ++ tail.takeWhile (· != '\n') ++ '\n' :: rest := by
      rw [List.append_assoc _ (tail.takeWhile _), ← hdrop, hsplit]
    rw [hrecord, List.splitOn_append_cons_self_of_not_mem hnone]
    exact List.mem_cons_self

/-- A mark makes a marked line, which begins with the mark where that begins a line. -/
theorem exists_marked_line (before tail : Text) (hne : mark ≠ [])
    (hchars : ∀ c ∈ mark, c ≠ '\n' ∧ c ≠ '\r') :
    ∃ line ∈ (before ++ (mark ++ tail)).lines, mark <:+: line ∧
      ((∀ c ∈ before.getLast?, c = '\n') → mark <+: line) := by
  obtain ⟨start, hstart, hbefore⟩ := exists_lastPiece before
  obtain ⟨piece, hpiece, hmark⟩ :=
    exists_marked_piece hstart (fun hmem => (hchars _ hmem).1 rfl) tail
  have hmem : piece ∈ (before ++ (mark ++ tail)).splitOn '\n' := by
    rcases hbefore with rfl | ⟨earlier, rfl⟩
    · exact hpiece
    · rw [List.append_assoc, List.cons_append, List.splitOn_append_cons_self]
      exact List.mem_append_right _ hpiece
  have hfilled : piece ≠ [] := by
    intro hnil
    rw [hnil, List.prefix_nil] at hmark
    exact hne (List.append_eq_nil_iff.1 hmark).2
  obtain ⟨line, hline, hends⟩ := Text.exists_mem_lines hmem hfilled
  have hmark : start ++ mark <+: line := by
    rcases hends with rfl | rfl
    · exact hmark
    · refine (List.prefix_concat_iff.1 hmark).resolve_left fun heq => ?_
      have hlast := congrArg List.getLast? heq
      rw [List.getLast?_concat, List.getLast?_append_of_ne_nil _ hne] at hlast
      exact (hchars _ (List.mem_of_getLast? hlast)).2 rfl
  refine ⟨line, hline, ?_, fun hend => ?_⟩
  · exact (List.suffix_append start mark).isInfix.trans hmark.isInfix
  · have hnil : start = [] := by
      rw [← List.getLast?_eq_none_iff, Option.eq_none_iff_forall_ne_some]
      intro c hc
      have hlast : before.getLast? = some c := by
        rcases hbefore with rfl | ⟨earlier, rfl⟩
        · exact hc
        · rw [List.getLast?_append, List.getLast?_cons, hc]
          rfl
      obtain rfl := hend c hlast
      exact hstart (List.mem_of_getLast? hc)
    rwa [hnil, List.nil_append] at hmark

end Marked

section Records

variable {host : Host}

theorem Host.written_concat (earlier : List LogEntry) (e : LogEntry) :
    host.written (earlier ++ [e]) = host.written earlier ++
      (host.header earlier.length e.level ++ host.body earlier.length e) := by
  simp only [written, List.mapIdx_concat, List.flatten_append, List.flatten_singleton]

theorem Host.NamesLevels.header_ne_nil (h : host.NamesLevels) (n : Nat) (level : LogLevel) :
    host.header n level ≠ [] := by
  intro hnil
  have hname := h.name n level
  rw [hnil, List.infix_nil] at hname
  cases level <;> cases hname

theorem tellsError_of_endsInError (hnames : host.NamesLevels) {log : List LogEntry}
    (h : EndsInError log) (exitCode : Nat) (output : List UInt8) (failure : Failure) :
    Outcome.TellsError host
      ⟨exitCode, output, host.messages (some .warn) log (some failure)⟩ := by
  obtain ⟨before, message, rfl⟩ := h
  let earlier := before.filter (·.isShown (some .warn))
  have hshown : (before ++ [LogEntry.error message]).filter (·.isShown (some .warn)) =
      earlier ++ [.error message] := List.filter_append _ _
  have hwritten : host.messages (some .warn) (before ++ [.error message]) (some failure) =
      host.written earlier ++ (host.header earlier.length .error ++
        (host.body earlier.length (.error message) ++ failure.report)) := by
    simp only [Host.messages, hshown, Host.written_concat, List.append_assoc]
    rfl
  obtain ⟨line, hline, hinfix, hstart⟩ := exists_marked_line (host.written earlier)
    (host.body earlier.length (.error message) ++ failure.report)
    (hnames.header_ne_nil earlier.length .error) (hnames.line earlier.length .error)
  rw [← hwritten] at hline
  refine ⟨earlier, message, failure, ?_, line, hline, ?_, hinfix, hstart⟩
  · simp only [Host.messages, hshown]
    rfl
  · exact (hnames.name earlier.length .error).trans hinfix

/-- What a command that yields results of a kind shows: the result and nothing else, or an error. -/
theorem Logged.Yields.outcome (hnames : host.NamesLevels) {x : Logged (List UInt8)}
    {P : List UInt8 → Prop} (h : x.Yields P) :
    let o := host.outcome (some .warn) x
    (o.exitCode = 0 ↔ ∃ bytes, P bytes) ∧ (∀ bytes, P bytes → o.output = bytes) ∧
      ((∀ bytes, ¬ P bytes) → o.exitCode = 1 ∧ o.output = [] ∧ o.TellsError host) := by
  obtain ⟨log, failure | result⟩ := x
  · have hnone : ∀ bytes, ¬ P bytes := fun bytes hbytes => nomatch (h.value_iff bytes).2 hbytes
    refine ⟨⟨fun hzero => absurd hzero Nat.one_ne_zero, fun ⟨bytes, hbytes⟩ => absurd hbytes (hnone bytes)⟩,
      fun bytes hbytes => absurd hbytes (hnone bytes), fun _ => ⟨rfl, rfl, ?_⟩⟩
    exact tellsError_of_endsInError hnames (h.told failure rfl) 1 [] failure
  · have hresult : P result := (h.value_iff result).1 rfl
    exact ⟨⟨fun _ => ⟨result, hresult⟩, fun _ => rfl⟩,
      fun bytes hbytes => Except.ok.inj ((h.value_iff bytes).2 hbytes),
      fun hnone => absurd hresult (hnone result)⟩

end Records

end CommandLine

end Applesoft
