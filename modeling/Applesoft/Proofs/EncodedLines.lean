import Applesoft.SourceBytes

/-!
# Lines of encoded text

A line feed is one byte, which stands in the encoding of no other character. So the bytes of a text fall
into lines where the text does, and reading bytes line by line loses nothing of a text.
-/
namespace Applesoft.SourceBytes

def encode (t : Text) : List UInt8 :=
  t.flatMap String.utf8EncodeChar

theorem encode_append (t u : Text) : encode (t ++ u) = encode t ++ encode u :=
  List.flatMap_append

theorem decode?_eq_some_iff {bytes : List UInt8} {t : Text} :
    decode? bytes = some t ↔ bytes = encode t := by
  unfold decode? String.fromUTF8?
  constructor
  · intro h
    split at h
    · next hvalid =>
      obtain rfl := Option.some.inj h
      have hencode := String.utf8Encode_toList (b := String.fromUTF8 ⟨bytes.toArray⟩ hvalid)
      have hdata := congrArg (·.data.toList) hencode
      simpa [encode, List.utf8Encode, String.fromUTF8] using hdata.symm
    · cases h
  · intro h
    have hbytes : (⟨bytes.toArray⟩ : ByteArray) = t.utf8Encode := by
      rw [h]
      ext1
      simp [encode, List.utf8Encode]
    have hvalid : ByteArray.IsValidUTF8 ⟨bytes.toArray⟩ := by
      rw [hbytes, ← String.toByteArray_ofList]
      exact (String.ofList t).isValidUTF8
    have hstring : String.fromUTF8 ⟨bytes.toArray⟩ hvalid = String.ofList t := by
      apply String.toByteArray_inj.1
      rw [String.toByteArray_ofList, ← hbytes]
      rfl
    rw [dif_pos hvalid, hstring, Option.map_some, String.toList_ofList]

theorem decode?_encode (t : Text) : decode? (encode t) = some t :=
  decode?_eq_some_iff.2 rfl

/-- Where an encoding has several bytes, each is at least 128. -/
theorem lineFeed_mem_utf8EncodeChar {c : Char} : 10 ∈ String.utf8EncodeChar c ↔ c = '\n' := by
  constructor
  · intro h
    have hvalue : c.val.toNat = 10 := by
      simp only [String.utf8EncodeChar] at h
      repeat' split at h
      all_goals
        simp only [List.mem_cons, List.not_mem_nil, or_false, ← UInt8.toNat_inj, UInt8.toNat_ofNat',
          UInt8.reduceToNat] at h
        omega
    apply Char.ext
    exact UInt32.toNat_inj.1 hvalue
  · intro h
    rw [h]
    decide

theorem lineFeed_mem_encode {t : Text} : 10 ∈ encode t ↔ '\n' ∈ t := by
  simp only [encode, List.mem_flatMap, lineFeed_mem_utf8EncodeChar, exists_eq_right]

theorem encode_lineFeed (t u : Text) : encode (t ++ '\n' :: u) = encode t ++ 10 :: encode u :=
  encode_append t ('\n' :: u)

theorem encode_eq_nil {t : Text} : encode t = [] ↔ t = [] := by
  cases t with
  | nil => exact iff_of_true rfl rfl
  | cons c t =>
    have hne : String.utf8EncodeChar c ≠ [] := by
      intro hnil
      have hlength := String.length_utf8EncodeChar c
      have hpos := c.utf8Size_pos
      rw [hnil, List.length_nil] at hlength
      omega
    simp [encode, hne]

section Cut

variable {bytes line unread : List UInt8}

theorem cutLine_lineFeed (h : 10 ∉ line) (unread : List UInt8) :
    cutLine (line ++ 10 :: unread) = (line ++ [10], unread) := by
  induction line with
  | nil => rfl
  | cons b line ih =>
    rw [List.mem_cons, not_or] at h
    rw [List.cons_append, cutLine, if_neg (Ne.symm h.1), ih h.2]
    rfl

theorem cutLine_last (h : 10 ∉ line) : cutLine line = (line, []) := by
  induction line with
  | nil => rfl
  | cons b line ih =>
    rw [List.mem_cons, not_or] at h
    rw [cutLine, if_neg (Ne.symm h.1), ih h.2]

theorem eq_nil_of_cutLine (h : cutLine bytes = ([], unread)) : bytes = [] := by
  cases bytes with
  | nil => rfl
  | cons b rest =>
    rw [cutLine] at h
    split at h <;> cases (Prod.mk.inj h).1

theorem lines_of_cutLine (h : cutLine bytes = (line, unread)) (hne : line ≠ []) :
    lines bytes = line :: lines unread := by
  by_cases hmem : 10 ∈ bytes
  · obtain ⟨front, rest, rfl, hfront⟩ := List.eq_append_cons_of_mem hmem
    obtain ⟨rfl, rfl⟩ := Prod.mk.inj ((cutLine_lineFeed hfront rest).symm.trans h)
    clear h hne hmem
    induction front with
    | nil => rfl
    | cons b front ih =>
      rw [List.mem_cons, not_or] at hfront
      rw [List.cons_append, lines, if_neg (Ne.symm hfront.1), ih hfront.2]
      rfl
  · obtain ⟨rfl, rfl⟩ := Prod.mk.inj ((cutLine_last hmem).symm.trans h)
    clear h
    induction bytes with
    | nil => exact absurd rfl hne
    | cons b bytes ih =>
      rw [List.mem_cons, not_or] at hmem
      by_cases hnil : bytes = []
      · simp only [hnil, lines, if_neg (Ne.symm hmem.1)]
      · simp only [lines, if_neg (Ne.symm hmem.1), ih hmem.2 hnil]

theorem runs_of_cutLine (h : cutLine bytes = (line, unread)) (hne : line ≠ []) :
    runs bytes = match decode? line with
      | some t => (t ++ (runs unread).1, (runs unread).2)
      | none => ([], (runs unread).1 :: (runs unread).2) := by
  rw [runs, lines_of_cutLine h hne, List.foldr_cons]
  rfl

/-- The text of a line has a line feed at its end and nowhere else, unless it is the last line. -/
theorem exists_body_of_decode? {t : Text} (h : cutLine bytes = (line, unread))
    (hdecode : decode? line = some t) :
    ∃ body, '\n' ∉ body ∧ (t = body ++ ['\n'] ∨ t = body ∧ unread = []) := by
  have hline : line = encode t := decode?_eq_some_iff.1 hdecode
  by_cases hmem : 10 ∈ bytes
  · obtain ⟨front, rest, rfl, hfront⟩ := List.eq_append_cons_of_mem hmem
    obtain ⟨hends, rfl⟩ := Prod.mk.inj ((cutLine_lineFeed hfront rest).symm.trans h)
    have hfeed : '\n' ∈ t := by
      rw [← lineFeed_mem_encode, ← hline, ← hends]
      simp
    obtain ⟨body, after, rfl, hbody⟩ := List.eq_append_cons_of_mem hfeed
    -- both sides are cut at their first line feed
    have hsame : encode body ++ 10 :: encode after = front ++ 10 :: [] := by
      rw [← encode_lineFeed, ← hline, ← hends]
    have hcut := congrArg cutLine hsame
    rw [cutLine_lineFeed hfront, cutLine_lineFeed (mt lineFeed_mem_encode.1 hbody)] at hcut
    have hafter : after = [] := encode_eq_nil.1 (Prod.mk.inj hcut).2
    exact ⟨body, hbody, .inl (by rw [hafter])⟩
  · obtain ⟨rfl, rfl⟩ := Prod.mk.inj ((cutLine_last hmem).symm.trans h)
    refine ⟨t, fun hfeed => hmem ?_, .inr ⟨rfl, rfl⟩⟩
    rw [hline]
    exact lineFeed_mem_encode.2 hfeed

end Cut

/-- The bytes of a text are one run, which is the text. -/
theorem runs_encode (t : Text) : runs (encode t) = (t, []) := by
  induction hlength : t.length using Nat.strongRecOn generalizing t with
  | ind n ih =>
    by_cases hmem : '\n' ∈ t
    · obtain ⟨body, after, rfl, hbody⟩ := List.eq_append_cons_of_mem hmem
      have hcut : cutLine (encode (body ++ '\n' :: after)) =
          (encode (body ++ ['\n']), encode after) := by
        rw [encode_lineFeed, encode_lineFeed, cutLine_lineFeed (mt lineFeed_mem_encode.1 hbody)]
        rfl
      have hshorter : after.length < n := by
        rw [← hlength, List.length_append, List.length_cons]
        omega
      have hafter := ih after.length hshorter after rfl
      rw [runs_of_cutLine hcut (mt encode_eq_nil.1 (by simp)), decode?_encode, hafter]
      simp
    · by_cases hnil : t = []
      · rw [hnil]
        rfl
      · have hcut : cutLine (encode t) = (encode t, []) := cutLine_last (mt lineFeed_mem_encode.1 hmem)
        rw [runs_of_cutLine hcut (mt encode_eq_nil.1 hnil), decode?_encode]
        simp [runs, lines]

end Applesoft.SourceBytes
