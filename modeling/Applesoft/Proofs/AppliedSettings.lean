import Applesoft.Settings
import Applesoft.Proofs.JsonValues

/-!
# Settings and what is told about them

Each setting has a place of its own in a value, and nothing else in the value matters to it. What is told
follows the keys of the value in order: a key that is no section, and an entry of a section that is not
of its kind. An address beyond 16 bits ends the reading where it is come upon.
-/
namespace Applesoft

namespace Json

/-- What a value holds at a path in some form, or else the default. -/
def Gives {α : Type} (v : Json) (path : List Text) (form : α → Json) (default x : α) : Prop :=
  v.Holds path (form x) ∨ (∀ y, ¬ v.Holds path (form y)) ∧ x = default

def natural? : Json → Option Nat
  | .natural n => some n
  | _ => none

def truth? : Json → Option Bool
  | .bool b => some b
  | _ => none

theorem natural?_eq_some_iff {x : Json} {n : Nat} : x.natural? = some n ↔ x = .natural n := by
  cases x <;> simp [natural?]

theorem truth?_eq_some_iff {x : Json} {b : Bool} : x.truth? = some b ↔ x = .bool b := by
  cases x <;> simp [truth?]

end Json

namespace Settings

inductive EntryKind
  | natural | truth
  deriving DecidableEq, Repr

def EntryKind.admits : EntryKind → Json → Bool
  | .natural, .natural _ => true
  | .truth, .bool _ => true
  | _, _ => false

def EntryKind.demand : EntryKind → Text
  | .natural => " should be a non-negative integer".toList
  | .truth => " should be a boolean".toList

def sections : List (Text × List (Text × EntryKind)) :=
  [("lister".toList, [("lowerCase".toList, .truth)]),
    ("renumber".toList, [("first".toList, .natural), ("step".toList, .natural)]),
    ("tokenizer".toList, [("address".toList, .natural)])]

def entryWarnings (part : Json) (entry : Text × EntryKind) : List LogEntry :=
  match part.fields.lookup entry.1 with
  | some x =>
    if entry.2.admits x then []
    else [.warn ("setting ".toList ++ entry.1 ++ entry.2.demand)]
  | none => []

def warningsAt (key : Text) (value : Json) : List LogEntry :=
  match sections.lookup key with
  | some entries => entries.flatMap (entryWarnings value)
  | none => [.warn ("unrecognized settings key ".toList ++ key)]

def warnings (fields : List (Text × Json)) : List LogEntry :=
  fields.flatMap fun field => warningsAt field.1 field.2

def addressPath : List Text := ["tokenizer".toList, "address".toList]

/-- Each setting is what the value holds at its place, if it is of the right kind there. -/
structure GivenBy (s : Settings) (v : Json) : Prop where
  address : v.Gives addressPath .natural 2049 s.address.toNat
  first : v.Gives ["renumber".toList, "first".toList] .natural 10 s.first
  step : v.Gives ["renumber".toList, "step".toList] .natural 10 s.step
  letters : v.Gives ["lister".toList, "lowerCase".toList] .bool false (s.letters = .lower)

/-- What is logged and what comes of a value: an address beyond 16 bits is refused, and nothing is told
after it; otherwise there are settings, and all is told. -/
structure FollowsFrom (result : List LogEntry × Except Fault Settings) (v : Json) : Prop where
  refused_iff : (∃ n, result.2 = .error (.addressOutOfRange n)) ↔
    ∃ n, v.Holds addressPath (.natural n) ∧ 65536 ≤ n ∧ n < 2 ^ 64
  refused : ∀ e, result.2 = .error e → ∃ n, e = .addressOutOfRange n ∧
    v.Holds addressPath (.natural n) ∧
    result.1 = warnings (v.fields.filter (·.1 < "tokenizer".toList)) ++
      [.warn ("address ".toList ++ Text.ofNat n ++ " is out of range".toList)]
  taken : ∀ s, result.2 = .ok s → s.GivenBy v ∧ result.1 = warnings v.fields

section Step

variable {s : Settings} {key : Text} {value : Json} {fields : List (Text × Json)}

theorem entry?_eq (part : Json) (key : String) : entry? part key = part.fields.lookup key.toList := by
  cases part <;> rfl

theorem naturalAt_eq (part : Json) (key : String) (current : Nat) :
    naturalAt part key current = (entryWarnings part (key.toList, .natural),
      ((part.fields.lookup key.toList).bind Json.natural?).getD current) := by
  rw [naturalAt, entryWarnings, entry?_eq]
  cases part.fields.lookup key.toList with
  | none => rfl
  | some x => cases x <;> rfl

theorem boolAt_eq (part : Json) (key : String) (current : Bool) :
    boolAt part key current = (entryWarnings part (key.toList, .truth),
      ((part.fields.lookup key.toList).bind Json.truth?).getD current) := by
  rw [boolAt, entryWarnings, entry?_eq]
  cases part.fields.lookup key.toList with
  | none => rfl
  | some x => cases x <;> rfl

def valueAt? (fields : List (Text × Json)) (part name : String) : Option Json :=
  (fields.lookup part.toList).bind (·.fields.lookup name.toList)

def changed (s : Settings) (fields : List (Text × Json)) : Settings where
  address := UInt16.ofNat
    (((valueAt? fields "tokenizer" "address").bind Json.natural?).getD s.address.toNat)
  first := ((valueAt? fields "renumber" "first").bind Json.natural?).getD s.first
  step := ((valueAt? fields "renumber" "step").bind Json.natural?).getD s.step
  letters :=
    if ((valueAt? fields "lister" "lowerCase").bind Json.truth?).getD (s.letters = .lower) then .lower
    else .upper

def OutOfRange (key : Text) (value : Json) (n : Nat) : Prop :=
  key = "tokenizer".toList ∧ value.fields.lookup "address".toList = some (.natural n) ∧ 65536 ≤ n

theorem valueAt?_cons_self (part name : String) :
    valueAt? ((part.toList, value) :: fields) part name = value.fields.lookup name.toList := by
  rw [valueAt?, List.lookup_cons_self]
  rfl

theorem valueAt?_cons_of_ne {part : String} (h : part.toList ≠ key) (name : String) :
    valueAt? ((key, value) :: fields) part name = valueAt? fields part name := by
  rw [valueAt?, List.lookup_cons, beq_false_of_ne h]
  rfl

theorem letters_kept (s : Settings) :
    (if decide (s.letters = .lower) then LetterCase.lower else .upper) = s.letters := by
  cases s.letters <;> rfl

theorem warningsAt_of_lookup {entries : List (Text × EntryKind)}
    (h : sections.lookup key = some entries) :
    warningsAt key value = entries.flatMap (entryWarnings value) := by
  rw [warningsAt, h]

theorem applySection_of_outOfRange {n : Nat} (h : OutOfRange key value n) :
    s.applySection key value =
      ([.warn ("address ".toList ++ Text.ofNat n ++ " is out of range".toList)],
        .error (.addressOutOfRange n)) := by
  obtain ⟨rfl, hentry, hn⟩ := h
  have hwarnings : entryWarnings value ("address".toList, .natural) = [] := by
    rw [entryWarnings, hentry]
    rfl
  rw [applySection, if_pos rfl, naturalAt_eq, hwarnings, hentry]
  exact if_neg (Nat.not_lt.2 hn)

theorem applySection_tokenizer (h : ∀ n, ¬ OutOfRange "tokenizer".toList value n) :
    s.applySection "tokenizer".toList value =
      (warningsAt "tokenizer".toList value, .ok (s.changed [("tokenizer".toList, value)])) := by
  have haddress : ((value.fields.lookup "address".toList).bind Json.natural?).getD s.address.toNat < 65536 := by
    cases hnatural : (value.fields.lookup "address".toList).bind Json.natural? with
    | none => exact s.address.toNat_lt
    | some n =>
      obtain ⟨x, hentry, hx⟩ := Option.bind_eq_some_iff.1 hnatural
      rw [Json.natural?_eq_some_iff.1 hx] at hentry
      exact Nat.not_le.1 fun hn => h n ⟨rfl, hentry, hn⟩
  have hrenumber (name : String) : valueAt? [("tokenizer".toList, value)] "renumber" name = none :=
    valueAt?_cons_of_ne (by decide) name
  have hlister (name : String) : valueAt? [("tokenizer".toList, value)] "lister" name = none :=
    valueAt?_cons_of_ne (by decide) name
  rw [applySection, if_pos rfl, naturalAt_eq, warningsAt_of_lookup rfl]
  dsimp only
  rw [if_pos haddress]
  simp only [changed, valueAt?_cons_self, hrenumber, hlister, Option.bind_none, Option.getD_none,
    letters_kept, List.flatMap_cons, List.flatMap_nil, List.append_nil]

theorem applySection_renumber (s : Settings) (value : Json) :
    s.applySection "renumber".toList value =
      (warningsAt "renumber".toList value, .ok (s.changed [("renumber".toList, value)])) := by
  have htokenizer (name : String) : valueAt? [("renumber".toList, value)] "tokenizer" name = none :=
    valueAt?_cons_of_ne (by decide) name
  have hlister (name : String) : valueAt? [("renumber".toList, value)] "lister" name = none :=
    valueAt?_cons_of_ne (by decide) name
  rw [applySection, if_neg (by decide), if_pos rfl, naturalAt_eq, naturalAt_eq,
    warningsAt_of_lookup rfl]
  simp only [changed, valueAt?_cons_self, htokenizer, hlister, Option.bind_none, Option.getD_none,
    letters_kept, UInt16.ofNat_toNat, List.flatMap_cons, List.flatMap_nil, List.append_nil]

theorem applySection_lister (s : Settings) (value : Json) :
    s.applySection "lister".toList value =
      (warningsAt "lister".toList value, .ok (s.changed [("lister".toList, value)])) := by
  have htokenizer (name : String) : valueAt? [("lister".toList, value)] "tokenizer" name = none :=
    valueAt?_cons_of_ne (by decide) name
  have hrenumber (name : String) : valueAt? [("lister".toList, value)] "renumber" name = none :=
    valueAt?_cons_of_ne (by decide) name
  rw [applySection, if_neg (by decide), if_neg (by decide), if_pos rfl, boolAt_eq,
    warningsAt_of_lookup rfl]
  simp only [changed, valueAt?_cons_self, htokenizer, hrenumber, Option.bind_none, Option.getD_none,
    UInt16.ofNat_toNat, List.flatMap_cons, List.flatMap_nil, List.append_nil]

theorem applySection_unrecognized (htokenizer : key ≠ "tokenizer".toList)
    (hrenumber : key ≠ "renumber".toList) (hlister : key ≠ "lister".toList) :
    s.applySection key value = (warningsAt key value, .ok (s.changed [(key, value)])) := by
  have hlookup : sections.lookup key = none := by
    rw [sections, List.lookup_cons, beq_false_of_ne hlister, List.lookup_cons, beq_false_of_ne hrenumber,
      List.lookup_cons, beq_false_of_ne htokenizer]
    rfl
  have hwarnings : warningsAt key value = [.warn ("unrecognized settings key ".toList ++ key)] := by
    rw [warningsAt, hlookup]
  have hnone (part name : String) (hkey : key ≠ part.toList) : valueAt? [(key, value)] part name = none :=
    valueAt?_cons_of_ne hkey.symm name
  rw [applySection, if_neg htokenizer, if_neg hrenumber, if_neg hlister, hwarnings]
  simp only [changed, hnone "tokenizer" _ htokenizer, hnone "renumber" _ hrenumber,
    hnone "lister" _ hlister, Option.bind_none, Option.getD_none, letters_kept, UInt16.ofNat_toNat]

theorem applySection_of_inRange (h : ∀ n, ¬ OutOfRange key value n) :
    s.applySection key value = (warningsAt key value, .ok (s.changed [(key, value)])) := by
  by_cases htokenizer : key = "tokenizer".toList
  · subst htokenizer
    exact applySection_tokenizer h
  by_cases hrenumber : key = "renumber".toList
  · rw [hrenumber]
    exact applySection_renumber s value
  by_cases hlister : key = "lister".toList
  · rw [hlister]
    exact applySection_lister s value
  exact applySection_unrecognized htokenizer hrenumber hlister

end Step

section Run

variable {s : Settings} {before after fields : List (Text × Json)} {v : Json}

/-- Sections in range are taken over one after another, and what follows them is read next. -/
theorem applySections_append (h : ∀ field ∈ before, ∀ n, ¬ OutOfRange field.1 field.2 n) :
    s.applySections (before ++ after) =
      let read := (before.foldl (fun s field => s.changed [field]) s).applySections after
      (warnings before ++ read.1, read.2) := by
  induction before generalizing s with
  | nil => rfl
  | cons first rest ih =>
    obtain ⟨hfirst, hrest⟩ := List.forall_mem_cons.1 h
    rw [List.cons_append, applySections, applySection_of_inRange hfirst]
    dsimp only
    rw [ih hrest]
    simp only [warnings, List.flatMap_cons, List.foldl_cons, List.append_assoc]

/-- Under a key that comes first in order nothing later is found. -/
theorem getD_valueAt?_cons {α : Type} (first : Text × Json) (h : ∀ field ∈ fields, first.1 < field.1)
    (part name : String) (kind : Json → Option α) (current : α) :
    ((valueAt? fields part name).bind kind).getD
        (((valueAt? [first] part name).bind kind).getD current) =
      ((valueAt? (first :: fields) part name).bind kind).getD current := by
  obtain ⟨key, value⟩ := first
  by_cases hkey : part.toList = key
  · subst hkey
    have hnone : valueAt? fields part name = none := by
      rw [valueAt?, List.lookup_eq_none_iff.2 fun field hfield => bne_iff_ne.2 (h field hfield).ne]
      rfl
    rw [hnone, valueAt?_cons_self, valueAt?_cons_self]
    rfl
  · rw [valueAt?_cons_of_ne hkey, valueAt?_cons_of_ne hkey]
    rfl

theorem ofNat_getD_toNat (found : Option Nat) (n : Nat) :
    UInt16.ofNat (found.getD (UInt16.ofNat n).toNat) = UInt16.ofNat (found.getD n) := by
  cases found with
  | none => exact UInt16.ofNat_toNat
  | some n => rfl

theorem changed_nil (s : Settings) : s.changed [] = s := by
  have hnone (part name : String) : valueAt? [] part name = none := rfl
  simp only [changed, hnone, Option.bind_none, Option.getD_none, letters_kept, UInt16.ofNat_toNat]

theorem decide_letters (lower : Bool) :
    decide ((if lower then LetterCase.lower else .upper) = .lower) = lower := by
  cases lower <;> rfl

theorem changed_cons (s : Settings) (first : Text × Json) (h : ∀ field ∈ fields, first.1 < field.1) :
    (s.changed [first]).changed fields = s.changed (first :: fields) := by
  rw [changed, changed, changed]
  simp only [ofNat_getD_toNat, decide_letters, getD_valueAt?_cons first h]

theorem foldl_changed (h : fields.Pairwise (·.1 < ·.1)) :
    fields.foldl (fun s field => s.changed [field]) s = s.changed fields := by
  induction fields generalizing s with
  | nil => exact (changed_nil s).symm
  | cons first rest ih =>
    obtain ⟨hfirst, hrest⟩ := List.pairwise_cons.1 h
    rw [List.foldl_cons, ih hrest, changed_cons s first hfirst]

end Run

section Places

variable {v x : Json} {n : Nat}

theorem valueAt?_eq_some_iff (hv : v.WellFormed) (part name : String) :
    valueAt? v.fields part name = some x ↔ v.Holds [part.toList, name.toList] x := by
  rw [valueAt?, Option.bind_eq_some_iff, Json.holds_cons]
  refine exists_congr fun value => ?_
  rw [hv.lookup_fields]
  exact and_congr_right fun hmem => (hv.of_mem_fields hmem).lookup_fields_holds

theorem gives_getD {α : Type} {form : α → Json} {kind : Json → Option α}
    (hkind : ∀ {x a}, kind x = some a ↔ x = form a) (hv : v.WellFormed) (part name : String)
    (default : α) :
    v.Gives [part.toList, name.toList] form default
      (((valueAt? v.fields part name).bind kind).getD default) := by
  cases hfound : (valueAt? v.fields part name).bind kind with
  | none =>
    refine .inr ⟨fun a hholds => ?_, rfl⟩
    rw [(valueAt?_eq_some_iff hv part name).2 hholds, Option.bind_some, hkind.2 rfl] at hfound
    cases hfound
  | some a =>
    obtain ⟨x, hx, ha⟩ := Option.bind_eq_some_iff.1 hfound
    rw [hkind.1 ha] at hx
    exact .inl ((valueAt?_eq_some_iff hv part name).1 hx)

theorem exists_outOfRange_iff (hv : v.WellFormed) :
    (∃ field ∈ v.fields, OutOfRange field.1 field.2 n) ↔
      v.Holds addressPath (.natural n) ∧ 65536 ≤ n := by
  rw [addressPath, Json.holds_cons]
  constructor
  · rintro ⟨⟨key, value⟩, hmem, rfl, hentry, hn⟩
    exact ⟨⟨value, hmem, (hv.of_mem_fields hmem).lookup_fields_holds.1 hentry⟩, hn⟩
  · rintro ⟨⟨value, hmem, hholds⟩, hn⟩
    exact ⟨_, hmem, rfl, (hv.of_mem_fields hmem).lookup_fields_holds.2 hholds, hn⟩

theorem ofJson_eq (v : Json) : ofJson v = initial.applySections v.fields := by
  cases v <;> rfl

theorem ofJson_of_outOfRange (hv : v.WellFormed) {field : Text × Json} (hmem : field ∈ v.fields)
    (h : OutOfRange field.1 field.2 n) :
    ofJson v =
      (warnings (v.fields.filter (·.1 < "tokenizer".toList)) ++
        [.warn ("address ".toList ++ Text.ofNat n ++ " is out of range".toList)],
        .error (.addressOutOfRange n)) := by
  obtain ⟨before, after, hfields⟩ := List.append_of_mem hmem
  have hkeys := hv.pairwise_fields
  rw [hfields] at hkeys
  have hfilter : v.fields.filter (·.1 < "tokenizer".toList) = before := by
    rw [hfields, ← h.1]
    exact Json.filter_keys_lt hkeys
  have hinRange : ∀ earlier ∈ before, ∀ n, ¬ OutOfRange earlier.1 earlier.2 n := by
    intro earlier hearlier n hout
    have hlt := (List.pairwise_append.1 hkeys).2.2 earlier hearlier field List.mem_cons_self
    exact hlt.ne (hout.1.trans h.1.symm)
  rw [ofJson_eq, hfilter, hfields, applySections_append hinRange, applySections,
    applySection_of_outOfRange h]

theorem ofJson_of_inRange (hv : v.WellFormed)
    (h : ∀ field ∈ v.fields, ∀ n, ¬ OutOfRange field.1 field.2 n) :
    ofJson v = (warnings v.fields, .ok (initial.changed v.fields)) := by
  rw [ofJson_eq, ← List.append_nil v.fields, applySections_append h, foldl_changed hv.pairwise_fields,
    applySections, List.append_nil]
  dsimp only
  rw [List.append_nil]

theorem givenBy_changed (hv : v.WellFormed)
    (h : ∀ n, v.Holds addressPath (.natural n) → n < 65536) : (initial.changed v.fields).GivenBy v := by
  have haddress := gives_getD Json.natural?_eq_some_iff hv "tokenizer" "address" 2049
  have hlt : ((valueAt? v.fields "tokenizer" "address").bind Json.natural?).getD 2049 < 65536 := by
    rcases haddress with hholds | ⟨-, hdefault⟩
    · exact h _ hholds
    · rw [hdefault]
      decide
  have hletters := gives_getD Json.truth?_eq_some_iff hv "lister" "lowerCase" false
  rw [← decide_letters (((valueAt? v.fields "lister" "lowerCase").bind Json.truth?).getD false)] at hletters
  refine ⟨?_, gives_getD Json.natural?_eq_some_iff hv "renumber" "first" 10,
    gives_getD Json.natural?_eq_some_iff hv "renumber" "step" 10, hletters⟩
  rwa [← UInt16.toNat_ofNat_of_lt' hlt] at haddress

theorem followsFrom_ofJson (hv : v.WellFormed) : FollowsFrom (ofJson v) v := by
  by_cases hrange : ∃ n, ∃ field ∈ v.fields, OutOfRange field.1 field.2 n
  · obtain ⟨n, field, hmem, hout⟩ := hrange
    obtain ⟨hholds, hn⟩ := (exists_outOfRange_iff hv).1 ⟨field, hmem, hout⟩
    have hword : n < 2 ^ 64 := by
      cases hholds.wellFormed hv with
      | natural h => exact h
    rw [ofJson_of_outOfRange hv hmem hout]
    refine ⟨iff_of_true ⟨n, rfl⟩ ⟨n, hholds, hn, hword⟩, ?_, ?_⟩
    · rintro e ⟨⟩
      exact ⟨n, rfl, hholds, rfl⟩
    · rintro s ⟨⟩
  · have hinRange : ∀ field ∈ v.fields, ∀ n, ¬ OutOfRange field.1 field.2 n :=
      fun field hmem n hout => hrange ⟨n, field, hmem, hout⟩
    have hsmall : ∀ n, v.Holds addressPath (.natural n) → n < 65536 := fun n hholds =>
      Nat.not_le.1 fun hn => hrange ⟨n, (exists_outOfRange_iff hv).2 ⟨hholds, hn⟩⟩
    rw [ofJson_of_inRange hv hinRange]
    refine ⟨iff_of_false (fun ⟨_, h⟩ => nomatch h) ?_, ?_, ?_⟩
    · rintro ⟨n, hholds, hn, -⟩
      exact absurd (hsmall n hholds) (Nat.not_lt.2 hn)
    · rintro e ⟨⟩
    · rintro s ⟨⟩
      exact ⟨givenBy_changed hv hsmall, rfl⟩

end Places

/-- Whatever value a text is read as, its settings and what is told about them follow from the value. -/
theorem parse_followsFrom {readJson : Json.Reader} {text : Text} {v : Json}
    (hread : readJson text = .ok v) (hv : v.WellFormed) : FollowsFrom (parse readJson text) v := by
  have hparse : parse readJson text = ofJson v := by simp only [parse, hread]
  rw [hparse]
  exact followsFrom_ofJson hv

/-- A section that is no object, a key that is no section, entries that are not of their kind and an
address beyond 16 bits, before a key that is not come to. -/
theorem parse_followsFrom_large_address :
    let v : Json := .object
      [("lister".toList, .null), ("other".toList, .null),
        ("renumber".toList, .object [("first".toList, .string []), ("step".toList, .bool true)]),
        ("tokenizer".toList, .object [("address".toList, .natural 70000)]), ("zoom".toList, .null)]
    let text := ("\x7b\"lister\":null,\"other\":null,\"renumber\":\x7b\"first\":\"\",\"step\":true\x7d," ++
      "\"tokenizer\":\x7b\"address\":70000\x7d,\"zoom\":null\x7d").toList
    let readJson : Json.Reader := fun _ => .ok v
    readJson text = .ok v ∧ v.WellFormed ∧ FollowsFrom (parse readJson text) v ∧
      (parse readJson text).2 = .error (.addressOutOfRange 70000) := by
  intro v text readJson
  have hread : readJson text = .ok v := rfl
  have hv : v.WellFormed := by
    refine .object (by decide) ?_
    simp only [List.forall_mem_cons]
    refine ⟨.null, .null, .object (by decide) ?_, .object (by decide) ?_, .null, List.forall_mem_nil _⟩
    · exact List.forall_mem_cons.2 ⟨.string [], List.forall_mem_singleton.2 (.bool true)⟩
    · exact List.forall_mem_singleton.2 (.natural (by decide))
  exact ⟨hread, hv, parse_followsFrom hread hv, rfl⟩

end Settings

end Applesoft
