import Mathlib.Data.List.Forall2
import Applesoft.MemoryImage

/-!
# Lines laid out in memory

`LaidOut` says without a run what it means that lines lie in memory as records: their numbers
ascend, each body holds the encoded statements, and every address fits. A layout without a fault is
exactly that, so an image depends on nothing but the numbers and the bodies of its lines.
-/
namespace Applesoft.MemoryImage

/-- The encoded statements of a line, with a colon between one and the next. -/
def IsBody (statements : List Statement) (body : List UInt8) : Prop :=
  ∃ encodings, List.Forall₂ (fun s b => statementBytes s = .ok b) statements encodings ∧
    body = [colonByte].intercalate encodings

theorem isBody_nil {body : List UInt8} : IsBody [] body ↔ body = [] := by
  simp [IsBody, List.intercalate]

theorem isBody_singleton {s : Statement} {body : List UInt8} :
    IsBody [s] body ↔ statementBytes s = .ok body := by
  constructor
  · rintro ⟨encodings, h, rfl⟩
    cases h with
    | cons hs htail => cases htail; simpa [List.intercalate] using hs
  · intro h
    exact ⟨[body], .cons h .nil, by simp [List.intercalate]⟩

theorem isBody_cons_cons {s s' : Statement} {rest : List Statement} {body : List UInt8} :
    IsBody (s :: s' :: rest) body ↔
      ∃ b more, statementBytes s = .ok b ∧ IsBody (s' :: rest) more ∧
        body = b ++ colonByte :: more := by
  constructor
  · rintro ⟨encodings, h, rfl⟩
    cases h with
    | @cons _ b _ _ hs htail =>
      cases htail with
      | @cons _ b' _ bs hs' hrest =>
        exact ⟨b, _, hs, ⟨b' :: bs, .cons hs' hrest, rfl⟩, by simp [List.intercalate]⟩
  · rintro ⟨b, more, hs, ⟨encodings, h, rfl⟩, rfl⟩
    refine ⟨b :: encodings, .cons hs h, ?_⟩
    cases h with
    | cons => simp [List.intercalate]

theorem bodyBytes_eq_ok_iff (current : Nat) {statements : List Statement} {body : List UInt8} :
    (bodyBytes current statements).2 = .ok body ↔ IsBody statements body := by
  induction statements generalizing current body with
  | nil => simp [bodyBytes, isBody_nil, eq_comm]
  | cons s rest ih =>
    cases hs : statementBytes s with
    | error e =>
      have hno : ¬ IsBody (s :: rest) body := by
        rintro ⟨_, h, _⟩
        cases h with
        | cons h' => simp [hs] at h'
      simp [bodyBytes, hs, hno]
    | ok b =>
      cases rest with
      | nil => simp [bodyBytes, hs, isBody_singleton, Except.map]
      | cons s' rest =>
        have hstep : (bodyBytes current (s :: s' :: rest)).2 =
            (bodyBytes (sourceLineAt current s) (s' :: rest)).2.map fun m =>
              b ++ colonByte :: m := by
          simp only [bodyBytes, hs, List.isEmpty_cons, Bool.false_eq_true, if_false]
        rw [hstep, isBody_cons_cons]
        constructor
        · intro h
          cases hmore : (bodyBytes (sourceLineAt current s) (s' :: rest)).2 with
          | error e => simp [hmore, Except.map] at h
          | ok more =>
            simp only [hmore, Except.map, Except.ok.injEq] at h
            exact ⟨b, more, hs, (ih _).1 hmore, h.symm⟩
        · rintro ⟨b', more, hb', hmore, rfl⟩
          obtain rfl : b = b' := Except.ok.inj (hs.symm.trans hb')
          rw [(ih _).2 hmore]
          rfl

theorem IsBody.unique {statements : List Statement} {body body' : List UInt8}
    (h : IsBody statements body) (h' : IsBody statements body') : body = body' := by
  rw [← bodyBytes_eq_ok_iff 0] at h h'
  exact Except.ok.inj (h.symm.trans h')

/-- Lines as records from an address on, after a line with the number `previous`. -/
inductive LaidOut : Nat → Option UInt16 → List Line → List Record → Prop
  | nil {address previous} : address + 2 ≤ memorySize → LaidOut address previous [] []
  | cons {address previous l rest body records} :
      (∀ p, previous = some p → p < l.number) →
      IsBody l.statements body →
      (⟨address, l.number, body⟩ : Record).next < memorySize →
      LaidOut (⟨address, l.number, body⟩ : Record).next (some l.number) rest records →
      LaidOut address previous (l :: rest) (⟨address, l.number, body⟩ :: records)

theorem LaidOut.exists_body {address : Nat} {previous : Option UInt16} {lines : List Line}
    {records : List Record} (h : LaidOut address previous lines records) :
    ∀ l ∈ lines, ∃ body, IsBody l.statements body := by
  induction h with
  | nil => simp
  | cons _ hbody _ _ ih => exact List.forall_mem_cons.2 ⟨⟨_, hbody⟩, ih⟩

/-- The layout depends on nothing but the numbers and the bodies. -/
theorem LaidOut.congr {address : Nat} {previous : Option UInt16} {lines lines' : List Line}
    {records : List Record} (h : LaidOut address previous lines records)
    (hlines : List.Forall₂ (fun l l' => l.number = l'.number ∧
      ∀ body, IsBody l.statements body → IsBody l'.statements body) lines lines') :
    LaidOut address previous lines' records := by
  induction h generalizing lines' with
  | nil hfits => cases hlines; exact .nil hfits
  | cons hlt hbody hnext _ ih =>
    cases hlines with
    | cons hl hrest =>
      obtain ⟨hnumber, hbodies⟩ := hl
      have htail := ih hrest
      rw [hnumber] at hlt hnext htail ⊢
      exact .cons hlt (hbodies _ hbody) hnext htail

theorem filter_le_eq_none_iff {previous : Option UInt16} {n : UInt16} :
    previous.filter (n ≤ ·) = none ↔ ∀ p, previous = some p → p < n := by
  cases previous <;> simp [Option.filter_eq_none_iff]

theorem Layout.start_eq_ok_iff {address : Nat} {previous : Option UInt16} (current : Nat)
    {lines : List Line} {records : List Record} :
    (Layout.start address previous current lines).fault = none ∧
      (Layout.start address previous current lines).records = records ↔
    LaidOut address previous lines records := by
  induction lines generalizing address previous current records with
  | nil =>
    rw [Layout.start]
    by_cases hfits : address + 2 ≤ memorySize
    · rw [if_pos hfits]
      constructor
      · rintro ⟨_, rfl⟩; exact .nil hfits
      · rintro (_ | _); exact ⟨rfl, rfl⟩
    · rw [if_neg hfits]
      constructor
      · rintro ⟨h, _⟩; cases h
      · rintro (h | _); exact absurd h hfits
  | cons l rest ih =>
    rw [Layout.start]
    cases hfilter : previous.filter (l.number ≤ ·) with
    | some p =>
      have hno : ¬ ∀ p, previous = some p → p < l.number := by
        rw [← filter_le_eq_none_iff, hfilter]; exact Option.some_ne_none p
      constructor
      · rintro ⟨h, _⟩; cases h
      · rintro (_ | ⟨hlt, _, _, _⟩); exact absurd hlt hno
    | none =>
      rw [filter_le_eq_none_iff] at hfilter
      rcases hbytes : bodyBytes (sourceLineAt current (l.statements.headD [])) l.statements with
        ⟨reached, e | body⟩
      · have hno : ∀ body, ¬ IsBody l.statements body := by
          intro body hbody
          rw [← bodyBytes_eq_ok_iff (sourceLineAt current (l.statements.headD [])),
            hbytes] at hbody
          cases hbody
        constructor
        · rintro ⟨h, _⟩; cases h
        · rintro (_ | ⟨_, hbody, _, _⟩); exact absurd hbody (hno _)
      · have hbody : IsBody l.statements body := by
          rw [← bodyBytes_eq_ok_iff (sourceLineAt current (l.statements.headD [])),
            hbytes]
        by_cases hfits : (⟨address, l.number, body⟩ : Record).next < memorySize
        · simp only [if_pos hfits]
          constructor
          · rintro ⟨hfault, rfl⟩
            exact .cons hfilter hbody hfits ((ih _).1 ⟨hfault, rfl⟩)
          · rintro (_ | ⟨_, hbody', _, hrest⟩)
            obtain rfl := hbody.unique hbody'
            obtain ⟨hfault, hrecords⟩ := (ih _).2 hrest
            exact ⟨hfault, by rw [hrecords]⟩
        · simp only [if_neg hfits]
          constructor
          · rintro ⟨h, _⟩; cases h
          · rintro (_ | ⟨_, hbody', hfits', _⟩)
            obtain rfl := hbody.unique hbody'
            exact absurd hfits' hfits

theorem Layout.image_start_eq_ok_iff {address : Nat} {previous : Option UInt16} {current : Nat}
    {lines : List Line} {bytes : List UInt8} :
    (Layout.start address previous current lines).image = .ok bytes ↔
      ∃ records, LaidOut address previous lines records ∧
        bytes = records.flatMap Record.bytes ++ [0, 0] := by
  simp only [← start_eq_ok_iff current, Layout.image]
  cases (Layout.start address previous current lines).fault with
  | none => simp [eq_comm]
  | some e => simp

end Applesoft.MemoryImage
