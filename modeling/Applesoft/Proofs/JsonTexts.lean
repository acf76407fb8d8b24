import Applesoft.Main.JsonReader
import Applesoft.Proofs.JsonValues

/-!
# Values that are read from texts

Whatever a text says, the value read from it has whole numbers of 64 bits only, and each object has one
value for a key and its keys in order.
-/
namespace Applesoft.Json

section Fields

variable {key : Text} {value : Json} {field : Text × Json} {fields : List (Text × Json)}

theorem mem_putField (h : field ∈ putField key value fields) :
    field = (key, value) ∨ field ∈ fields := by
  fun_induction putField key value fields with
  | case1 => exact .inl (List.mem_singleton.1 h)
  | case2 => exact (List.mem_cons.1 h).imp_right (List.mem_cons_of_mem _)
  | case3 => exact List.mem_cons.1 h
  | case4 k v rest hne hlt ih =>
    rcases List.mem_cons.1 h with rfl | h
    · exact .inr List.mem_cons_self
    · exact (ih h).imp_right (List.mem_cons_of_mem _)

theorem pairwise_putField (h : fields.Pairwise (·.1 < ·.1)) :
    (putField key value fields).Pairwise (·.1 < ·.1) := by
  fun_induction putField key value fields with
  | case1 => exact List.pairwise_singleton _ _
  | case2 => exact List.pairwise_cons.2 (List.pairwise_cons.1 h)
  | case3 k v rest hne hlt =>
    refine List.pairwise_cons.2 ⟨fun field hfield => ?_, h⟩
    rcases List.mem_cons.1 hfield with rfl | hfield
    · exact hlt
    · exact lt_trans hlt ((List.pairwise_cons.1 h).1 field hfield)
  | case4 k v rest hne hlt ih =>
    obtain ⟨hfirst, hrest⟩ := List.pairwise_cons.1 h
    refine List.pairwise_cons.2 ⟨fun field hfield => ?_, ih hrest⟩
    rcases mem_putField hfield with rfl | hfield
    · exact lt_of_le_of_ne (not_lt.1 hlt) (Ne.symm hne)
    · exact hfirst field hfield

theorem wellFormed_ofFields (h : ∀ field ∈ fields, field.2.WellFormed) : (ofFields fields).WellFormed := by
  suffices hkept : ∀ kept : List (Text × Json), WellFormed (.object kept) →
      WellFormed (.object (fields.foldl (fun kept field => putField field.1 field.2 kept) kept)) from
    hkept [] (.object .nil (List.forall_mem_nil _))
  induction fields with
  | nil => exact fun _ hkept => hkept
  | cons first rest ih =>
    obtain ⟨hfirst, hrest⟩ := List.forall_mem_cons.1 h
    rintro kept ⟨⟩
    next hkeys hvalues =>
    refine ih hrest _ (.object (pairwise_putField hkeys) fun field hfield => ?_)
    rcases mem_putField hfield with rfl | hfield
    · exact hfirst
    · exact hvalues field hfield

end Fields

section Reading

def FindsOnly {α : Type} (reader : Nat → Text → Option (α × Text)) (p : α → Prop) : Prop :=
  ∀ room s a rest, reader room s = some (a, rest) → p a

theorem fitDigits_lt {n : Nat} (h : n < 2 ^ 64) (digits : Text) : (fitDigits n digits).1 < 2 ^ 64 := by
  fun_induction fitDigits n digits with
  | case1 => exact h
  | case2 _ _ _ _ hfits ih => exact ih hfits
  | case3 => exact h

theorem wellFormed_of_readNumber {s rest : Text} {v : Json} (h : readNumber s = some (v, rest)) :
    v.WellFormed := by
  simp only [readNumber, Option.bind_eq_bind, Option.bind_eq_some_iff] at h
  obtain ⟨⟨whole, _⟩, -, ⟨fraction, _⟩, -, ⟨exponent, _⟩, -, h⟩ := h
  split_ifs at h
  · cases h
    exact .natural (fitDigits_lt (Nat.two_pow_pos 64) whole)
  · cases h
    exact .number _

variable {fuel : Nat}

theorem readItems_findsOnly (hvalue : FindsOnly (readValue fuel) WellFormed)
    (hitems : FindsOnly (readItems fuel) fun items => ∀ v ∈ items, v.WellFormed) :
    FindsOnly (readItems (fuel + 1)) fun items => ∀ v ∈ items, v.WellFormed := by
  intro room s items rest h
  rw [readItems] at h
  split at h
  · cases h
  · next item afterItem hitem =>
    have hfirst := hvalue _ _ _ _ hitem
    split at h
    · obtain ⟨⟨more, _⟩, hmore, heq⟩ := Option.map_eq_some_iff.1 h
      cases heq
      exact List.forall_mem_cons.2 ⟨hfirst, hitems _ _ _ _ hmore⟩
    · cases h
      exact List.forall_mem_singleton.2 hfirst
    · cases h

theorem readFields_findsOnly (hvalue : FindsOnly (readValue fuel) WellFormed)
    (hfields : FindsOnly (readFields fuel) fun fields => ∀ field ∈ fields, field.2.WellFormed) :
    FindsOnly (readFields (fuel + 1)) fun fields => ∀ field ∈ fields, field.2.WellFormed := by
  intro room s fields rest h
  rw [readFields] at h
  split at h
  · split at h
    · cases h
    · split at h
      · split at h
        · cases h
        · next value afterValue hread =>
          have hfirst := hvalue _ _ _ _ hread
          split at h
          · obtain ⟨⟨more, _⟩, hmore, heq⟩ := Option.map_eq_some_iff.1 h
            cases heq
            exact List.forall_mem_cons.2 ⟨hfirst, hfields _ _ _ _ hmore⟩
          · cases h
            exact List.forall_mem_singleton.2 hfirst
          · cases h
      · cases h
  · cases h

theorem readValue_findsOnly
    (hitems : FindsOnly (readItems fuel) fun items => ∀ v ∈ items, v.WellFormed)
    (hfields : FindsOnly (readFields fuel) fun fields => ∀ field ∈ fields, field.2.WellFormed) :
    FindsOnly (readValue (fuel + 1)) WellFormed := by
  intro room s v rest h
  rw [readValue] at h
  split at h
  · cases h
    exact .null
  · cases h
    exact .bool true
  · cases h
    exact .bool false
  · obtain ⟨⟨t, _⟩, -, heq⟩ := Option.map_eq_some_iff.1 h
    cases heq
    exact .string t
  · split at h
    · cases h
    · split at h
      · cases h
        exact .array (List.forall_mem_nil _)
      · obtain ⟨⟨items, _⟩, hread, heq⟩ := Option.map_eq_some_iff.1 h
        cases heq
        exact .array (hitems _ _ _ _ hread)
  · split at h
    · cases h
    · split at h
      · cases h
        exact .object .nil (List.forall_mem_nil _)
      · obtain ⟨⟨fields, _⟩, hread, heq⟩ := Option.map_eq_some_iff.1 h
        cases heq
        exact wellFormed_ofFields (hfields _ _ _ _ hread)
  · exact wellFormed_of_readNumber h

/-- The induction is on the number of values in one another, which bounds all three readers. -/
theorem wellFormed_of_readValue (fuel : Nat) : FindsOnly (readValue fuel) WellFormed ∧
    (FindsOnly (readItems fuel) fun items => ∀ v ∈ items, v.WellFormed) ∧
    FindsOnly (readFields fuel) fun fields => ∀ field ∈ fields, field.2.WellFormed := by
  induction fuel with
  | zero =>
    refine ⟨fun _ _ _ _ h => ?_, fun _ _ _ _ h => ?_, fun _ _ _ _ h => ?_⟩
    · rw [readValue] at h
      cases h
    · rw [readItems] at h
      cases h
    · rw [readFields] at h
      cases h
  | succ fuel ih =>
    obtain ⟨hvalue, hitems, hfields⟩ := ih
    exact ⟨readValue_findsOnly hitems hfields, readItems_findsOnly hvalue hitems,
      readFields_findsOnly hvalue hfields⟩

theorem wellFormed_of_parse? {text : Text} {v : Json} (h : parse? text = some v) : v.WellFormed := by
  unfold parse? at h
  split at h
  · next value rest hread =>
    split at h
    · obtain rfl := Option.some.inj h
      exact (wellFormed_of_readValue _).1 _ _ _ _ hread
    · cases h
  · cases h

/-- The reader that the program runs with reads values in order only. -/
theorem wellFormed_of_read {text : Text} {v : Json} (h : read text = .ok v) : v.WellFormed := by
  unfold read at h
  split at h
  · next value hparse =>
    cases h
    exact wellFormed_of_parse? hparse
  · cases h

end Reading

end Applesoft.Json
