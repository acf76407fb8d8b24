import Applesoft.Proofs.FirstFault
import Applesoft.Tools.Tokenizer

/-!
# Runs of the tokenizer

What the passes of a tokenizer store, token by token, is what a layout holds, whatever an earlier run has
left in the tokenizer. Only the source line that it has reached is handed on, and of that nothing shows
but the line that an error names.
-/
namespace Applesoft

namespace MemoryImage

def afterColon (rest : List Statement) (more : List UInt8) : List UInt8 :=
  if rest.isEmpty then [] else colonByte :: more

theorem bodyBytes_cons_of_ok {current : Nat} {s : Statement} {b : List UInt8}
    (h : statementBytes s = .ok b) (rest : List Statement) :
    bodyBytes current (s :: rest) =
      ((bodyBytes (sourceLineAt current s) rest).1,
        ((bodyBytes (sourceLineAt current s) rest).2.map (afterColon rest)).map (b ++ ·)) := by
  rw [bodyBytes, h]
  dsimp only
  cases (bodyBytes (sourceLineAt current s) rest).2 with
  | error e => rfl
  | ok more => cases rest <;> simp [Except.map, afterColon]

theorem Layout.image_cons (r : Record) (more : Layout) :
    ({ more with records := r :: more.records } : Layout).image = more.image.map (r.bytes ++ ·) := by
  obtain ⟨records, _ | e, sourceLine⟩ := more
  · simp [Layout.image, Except.map]
  · rfl

theorem map_map_append (a b : List UInt8) (result : Except Error (List UInt8)) :
    (result.map (b ++ ·)).map (a ++ ·) = result.map (a ++ b ++ ·) := by
  cases result with
  | error e => rfl
  | ok c => simp [Except.map]

end MemoryImage

open MemoryImage

namespace Tokenizer

variable {t : Tokenizer} {line : Nat} {result : Except Error (List UInt8)}

theorem store_nil (t : Tokenizer) : t.store [] = t := by
  simp [store]

theorem store_store (a b : List UInt8) (t : Tokenizer) :
    (t.store a).store b = t.store (a ++ b) := by
  simp [store]

/-- A step has stored the bytes of a result and reached a source line, or it has ended with the error of
the result after storing some bytes. -/
def Stored (t : Tokenizer) (line : Nat) :
    Except Error (List UInt8) → Tokenizer × Option Error → Prop
  | .ok b, outcome => outcome = ({ t.store b with sourceLine := line }, none)
  | .error e, outcome => ∃ left, outcome = ({ t.store left with sourceLine := line }, some e)

theorem stored_nothing (t : Tokenizer) : Stored t t.sourceLine (.ok []) (t, none) := by
  have hnothing : (t, none) = (t.store [], (none : Option Error)) := by rw [store_nil]
  exact hnothing

/-- Bytes stored before come before what a step stores. -/
theorem Stored.after {a : List UInt8} {here : Nat} {outcome : Tokenizer × Option Error}
    (h : Stored { t.store a with sourceLine := here } line result outcome) :
    Stored t line (result.map (a ++ ·)) outcome := by
  cases result with
  | ok b =>
    have hstored : outcome = ({ (t.store a).store b with sourceLine := line }, none) := h
    rwa [store_store] at hstored
  | error e =>
    obtain ⟨left, hstored⟩ : ∃ left,
      outcome = ({ (t.store a).store left with sourceLine := line }, some e) := h
    rw [store_store] at hstored
    exact ⟨a ++ left, hstored⟩

theorem storeText_cons_of_ascii {c : Char} (hc : c.toNat < 128) (rest : Text) (t : Tokenizer) :
    storeText line (c :: rest) t = storeText line rest (t.store [UInt8.ofNat c.toNat]) := by
  simp [storeText, hc, store_store]

theorem storeText_cons_of_not_ascii {c : Char} (hc : ¬ c.toNat < 128) (rest : Text) (t : Tokenizer) :
    storeText line (c :: rest) t = (t, some (.notAscii line c)) := by
  simp [storeText, hc, store_nil]

theorem stored_storeText (line : Nat) (text : Text) (t : Tokenizer) :
    Stored t t.sourceLine (ascii line text) (storeText line text t) := by
  induction text generalizing t with
  | nil => exact rfl
  | cons c rest ih =>
    by_cases hc : c.toNat < 128
    · rw [ascii, if_pos hc, storeText_cons_of_ascii hc]
      exact (ih (t.store [UInt8.ofNat c.toNat])).after
    · rw [ascii, if_neg hc, storeText_cons_of_not_ascii hc]
      exact ⟨[], by rw [store_nil]⟩

theorem stored_onToken (token : Token) (t : Tokenizer) :
    Stored t t.sourceLine (tokenBytes token) (onToken token t) := by
  obtain ⟨line, kind⟩ := token
  cases kind with
  | lineEnd => exact stored_nothing t
  | number value => exact stored_storeText line value.listingText t
  | keyword k => exact rfl
  | identifier name => exact stored_storeText line name.toUpper t
  | quoted text =>
    have htext := stored_storeText line text (t.store [quoteByte])
    unfold onToken tokenBytes
    dsimp only
    cases hbytes : ascii line text with
    | error e =>
      rw [hbytes] at htext
      obtain ⟨left, hleft⟩ := htext
      rw [hleft]
      exact ⟨[quoteByte] ++ left, by rw [store_store]; rfl⟩
    | ok b =>
      rw [hbytes] at htext
      have hstored : storeText line text (t.store [quoteByte]) =
        ((t.store [quoteByte]).store b, none) := htext
      rw [hstored]
      dsimp only
      rw [store_store, store_store]
      rfl
  | directive name => exact ⟨[], by rw [store_nil]; rfl⟩
  | comment text =>
    have htext := stored_storeText line text
      (t.store (Keyword.rem.code :: if text.isEmpty then [] else [spaceByte]))
    exact htext.after
  | punct c => exact stored_storeText line [c] t

/-- The tokens of a statement, one after another. -/
theorem stored_tokens (ts : List Token) (t : Tokenizer) :
    Stored t t.sourceLine (statementBytes ts) (Look.each onToken ts t) := by
  induction ts generalizing t with
  | nil => exact stored_nothing t
  | cons token rest ih =>
    have htoken := stored_onToken token t
    rw [statementBytes, Look.each]
    cases hbytes : tokenBytes token with
    | error e =>
      rw [hbytes] at htoken
      obtain ⟨left, hleft⟩ := htoken
      rw [hleft]
      exact ⟨left, rfl⟩
    | ok b =>
      rw [hbytes] at htoken
      have hstored : onToken token t = (t.store b, none) := htoken
      rw [hstored]
      exact (ih (t.store b)).after

theorem stored_onStatement (s : Statement) (t : Tokenizer) :
    Stored t (sourceLineAt t.sourceLine s) (statementBytes s) (onStatement s t) := by
  have htokens := stored_tokens s (t.reach s)
  cases hbytes : statementBytes s with
  | error e =>
    rw [hbytes] at htokens
    exact htokens
  | ok b =>
    rw [hbytes] at htokens
    exact htokens

def onLaterStatement : Look Tokenizer Error Statement := fun s t =>
  onStatement s (t.store [colonByte])

/-- A statement and those after it, where these store what they add to the body. -/
theorem stored_statement_andLater {s : Statement} {rest : List Statement}
    (hrest : ∀ t, Stored t (bodyBytes t.sourceLine rest).1
      ((bodyBytes t.sourceLine rest).2.map (afterColon rest)) (Look.each onLaterStatement rest t))
    (t : Tokenizer) :
    Stored t (bodyBytes t.sourceLine (s :: rest)).1 (bodyBytes t.sourceLine (s :: rest)).2
      (Look.firstThen onStatement onLaterStatement (s :: rest) t) := by
  have hfirst := stored_onStatement s t
  rw [Look.firstThen]
  cases hbytes : statementBytes s with
  | error e =>
    rw [hbytes] at hfirst
    obtain ⟨left, hleft⟩ := hfirst
    rw [bodyBytes, hbytes, hleft]
    exact ⟨left, rfl⟩
  | ok b =>
    rw [hbytes] at hfirst
    have hstored : onStatement s t =
      ({ t.store b with sourceLine := sourceLineAt t.sourceLine s }, none) := hfirst
    rw [bodyBytes_cons_of_ok hbytes, hstored]
    exact (hrest _).after

theorem stored_laterStatements (rest : List Statement) (t : Tokenizer) :
    Stored t (bodyBytes t.sourceLine rest).1
      ((bodyBytes t.sourceLine rest).2.map (afterColon rest))
      (Look.each onLaterStatement rest t) := by
  induction rest generalizing t with
  | nil => exact stored_nothing t
  | cons s rest ih =>
    -- after the colon the statement is stored as at the start of a line
    exact (stored_statement_andLater ih (t.store [colonByte])).after

theorem stored_statements (statements : List Statement) (t : Tokenizer) :
    Stored t (bodyBytes t.sourceLine statements).1 (bodyBytes t.sourceLine statements).2
      (Look.firstThen onStatement onLaterStatement statements t) := by
  cases statements with
  | nil => exact stored_nothing t
  | cons s rest => exact stored_statement_andLater (stored_laterStatements rest) t

section Lines

variable {l : Line} {reached : Nat}

def begun (l : Line) (t : Tokenizer) : Tokenizer :=
  { t with
    record := word l.number.toNat
    previous := some l.number
    sourceLine := sourceLineAt t.sourceLine (l.statements.headD []) }

def laid (r : Record) (reached : Nat) (t : Tokenizer) : Tokenizer :=
  ⟨t.image ++ r.bytes, [], UInt16.ofNat r.next, some r.number, reached⟩

theorem onLine_of_notAscending {p : UInt16} (h : t.previous.filter (l.number ≤ ·) = some p) :
    onLine l t = ({ t with sourceLine := (t.begun l).sourceLine },
      some (.notAscending (t.begun l).sourceLine l.number p)) := by
  simp only [onLine, reach, h]
  rfl

theorem onLine_of_ascending (h : t.previous.filter (l.number ≤ ·) = none) :
    onLine l t =
      match Look.firstThen onStatement onLaterStatement l.statements (t.begun l) with
      | (t, some e) => (t, some e)
      | (t, none) =>
        let next := t.address.toNat + t.record.length + 3
        if next < memorySize then (t.finishRecord next, none)
        else (t, some (.lineBeyondMemory t.sourceLine)) := by
  simp only [onLine, reach, h]
  rfl

theorem onLine_of_error {e : Error} (hnumber : t.previous.filter (l.number ≤ ·) = none)
    (hbody : bodyBytes (t.begun l).sourceLine l.statements = (reached, .error e)) :
    ∃ t', onLine l t = (t', some e) ∧ t'.sourceLine = reached := by
  have hstored := stored_statements l.statements (t.begun l)
  rw [hbody] at hstored
  obtain ⟨left, hleft⟩ := hstored
  rw [onLine_of_ascending hnumber, hleft]
  exact ⟨_, rfl, rfl⟩

section Body

variable {body : List UInt8}

theorem record_of_ok
    (hbody : bodyBytes (t.begun l).sourceLine l.statements = (reached, .ok body)) :
    Look.firstThen onStatement onLaterStatement l.statements (t.begun l) =
      ({ (t.begun l).store body with sourceLine := reached }, none) := by
  have hstored := stored_statements l.statements (t.begun l)
  rw [hbody] at hstored
  exact hstored

theorem length_record (l : Line) (body : List UInt8) (t : Tokenizer) :
    t.address.toNat + ((t.begun l).store body).record.length + 3 =
      (⟨t.address.toNat, l.number, body⟩ : Record).next := by
  simp only [begun, store, Record.next, word, List.cons_append, List.length_cons, List.nil_append]
  omega

theorem onLine_of_fits (hnumber : t.previous.filter (l.number ≤ ·) = none)
    (hbody : bodyBytes (t.begun l).sourceLine l.statements = (reached, .ok body))
    (hfits : (⟨t.address.toNat, l.number, body⟩ : Record).next < memorySize) :
    onLine l t = (t.laid ⟨t.address.toNat, l.number, body⟩ reached, none) := by
  have hnext := length_record l body t
  rw [onLine_of_ascending hnumber, record_of_ok hbody]
  refine (if_pos (hnext ▸ hfits)).trans ?_
  simp [finishRecord, store, begun, laid, Record.bytes, ← hnext]

theorem onLine_of_not_fits (hnumber : t.previous.filter (l.number ≤ ·) = none)
    (hbody : bodyBytes (t.begun l).sourceLine l.statements = (reached, .ok body))
    (hfits : ¬ (⟨t.address.toNat, l.number, body⟩ : Record).next < memorySize) :
    ∃ t', onLine l t = (t', some (.lineBeyondMemory reached)) ∧ t'.sourceLine = reached := by
  have hnext := length_record l body t
  rw [onLine_of_ascending hnumber, record_of_ok hbody]
  exact ⟨_, if_neg (hnext ▸ hfits), rfl⟩

end Body

theorem laid_address {r : Record} (h : r.next < memorySize) :
    (t.laid r reached).address.toNat = r.next :=
  UInt16.toNat_ofNat_of_lt' h

end Lines

/-- The rest of an image: the records of some lines and the null link. -/
theorem finish_lines (lines : List Line) (t : Tokenizer) :
    let layout := Layout.start t.address.toNat t.previous t.sourceLine lines
    let finished := finish (Look.each onLine lines t)
    finished.1 = layout.image.map (t.image ++ ·) ∧ finished.2.sourceLine = layout.sourceLine := by
  induction lines generalizing t with
  | nil =>
    rw [Look.each, Layout.start, finish]
    by_cases hfits : t.address.toNat + 2 ≤ memorySize
    · rw [if_pos hfits, if_pos hfits]
      exact ⟨rfl, rfl⟩
    · rw [if_neg hfits, if_neg hfits]
      exact ⟨rfl, rfl⟩
  | cons l rest ih =>
    have hcurrent : sourceLineAt t.sourceLine (l.statements.headD []) = (t.begun l).sourceLine := rfl
    rw [Look.each, Layout.start, hcurrent]
    cases hnumber : t.previous.filter (l.number ≤ ·) with
    | some p =>
      rw [onLine_of_notAscending hnumber]
      exact ⟨rfl, rfl⟩
    | none =>
      rcases hbody : bodyBytes (t.begun l).sourceLine l.statements with ⟨reached, e | body⟩
      · obtain ⟨t', hline, hreached⟩ := onLine_of_error hnumber hbody
        rw [hline]
        exact ⟨rfl, hreached⟩
      · dsimp only
        by_cases hfits : (⟨t.address.toNat, l.number, body⟩ : Record).next < memorySize
        · rw [onLine_of_fits hnumber hbody hfits, if_pos hfits, Layout.image_cons, map_map_append]
          -- the record fits, so the 16-bit address after it is the one of the layout
          obtain ⟨himage, hsource⟩ := ih (t.laid ⟨t.address.toNat, l.number, body⟩ reached)
          rw [laid_address hfits] at himage hsource
          exact ⟨himage, hsource⟩
        · obtain ⟨t', hline, hreached⟩ := onLine_of_not_fits hnumber hbody hfits
          rw [hline, if_neg hfits]
          exact ⟨rfl, hreached⟩

/-- What a tokenizer makes of a program is the image of its layout, whatever earlier runs have left, and
the source line that the layout has reached is left for the next run. -/
theorem tokenize_eq (t : Tokenizer) (p : Program) (address : UInt16) :
    (t.tokenize p address).1 = (p.layout t.sourceLine address).image ∧
      (t.tokenize p address).2.sourceLine = (p.layout t.sourceLine address).sourceLine := by
  obtain ⟨himage, hsource⟩ :=
    finish_lines p.lines { t with image := [], address := address, previous := none }
  have hwhole (result : Except Error (List UInt8)) : result.map ([] ++ ·) = result := by
    cases result <;> rfl
  exact ⟨himage.trans (hwhole _), hsource⟩

end Tokenizer

/-- The source line from which a layout sets out shows in nothing but the line that its error names. -/
theorem Program.image_layout_mapError_kind (p : Program) (address : UInt16) (current current' : Nat) :
    (p.layout current address).image.mapError Error.kind =
      (p.layout current' address).image.mapError Error.kind := by
  have hkind : faultKind? (p.layout current address).image =
      faultKind? (p.layout current' address).image := by
    rw [p.faultKind?_image, p.faultKind?_image]
  cases himage : (p.layout current address).image with
  | ok bytes =>
    have hsame : (p.layout current' address).image = .ok bytes :=
      Layout.image_start_eq_ok_iff.2 (Layout.image_start_eq_ok_iff.1 himage)
    rw [hsame]
  | error e =>
    cases himage' : (p.layout current' address).image with
    | ok bytes =>
      rw [himage, himage'] at hkind
      cases hkind
    | error e' =>
      rw [himage, himage'] at hkind
      exact congrArg Except.error (Option.some.inj hkind)

namespace Tokenizer

/-- A tokenizer gives the bytes of the image, or an error of the kind that the image has. -/
theorem tokenize_mapError_kind (t : Tokenizer) (p : Program) (address : UInt16) :
    (t.tokenize p address).1.mapError Error.kind = (p.image address).mapError Error.kind := by
  rw [(t.tokenize_eq p address).1]
  exact p.image_layout_mapError_kind address t.sourceLine 0

theorem tokenizeText_mapError_kind (t : Tokenizer) (source : Text) (address : UInt16) :
    (t.tokenizeText source address).1.mapError Error.kind =
      ((Program.parse 0 source).bind (Program.image address)).mapError Error.kind := by
  unfold tokenizeText
  cases Program.parse 0 source with
  | error e => rfl
  | ok p => exact t.tokenize_mapError_kind p address

end Tokenizer

end Applesoft
