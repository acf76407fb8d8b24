import Applesoft.Text

/-!
# Source text as bytes

Bytes are read line by line as UTF-8. A line that does not decode is no text at all, so the source
falls into runs of text with such a line between one and the next.
-/
namespace Applesoft.SourceBytes

def lines : List UInt8 → List (List UInt8)
  | [] => []
  | b :: rest =>
    if b = 10 then [b] :: lines rest
    else
      match lines rest with
      | l :: ls => (b :: l) :: ls
      | [] => [[b]]

def cutLine : List UInt8 → List UInt8 × List UInt8
  | [] => ([], [])
  | b :: rest =>
    if b = 10 then ([b], rest)
    else
      let (line, unread) := cutLine rest
      (b :: line, unread)

theorem cutLine_append (bytes : List UInt8) : (cutLine bytes).1 ++ (cutLine bytes).2 = bytes := by
  fun_induction cutLine bytes with
  | case1 | case2 => rfl
  | case3 b rest hne line unread heq ih =>
    rw [heq] at ih
    exact congrArg (b :: ·) ih

theorem length_cutLine {bytes line unread : List UInt8} {b : UInt8}
    (h : cutLine bytes = (b :: line, unread)) : unread.length < bytes.length := by
  have happend := congrArg List.length (cutLine_append bytes)
  simp only [h, List.length_append, List.length_cons] at happend
  omega

def decode? (bytes : List UInt8) : Option Text :=
  (String.fromUTF8? ⟨bytes.toArray⟩).map String.toList

/-- No character takes less than a byte. -/
theorem length_le_of_decode? {bytes : List UInt8} {t : Text} (h : decode? bytes = some t) :
    t.length ≤ bytes.length := by
  have hencoded (t : Text) : t.length ≤ t.utf8Encode.size := by
    induction t with
    | nil => exact Nat.zero_le _
    | cons c t ih =>
      have hbytes : [c].utf8Encode.size = c.utf8Size := by
        rw [List.utf8Encode_singleton, ByteArray.size, List.data_toByteArray]
        exact String.length_utf8EncodeChar c
      have := c.utf8Size_pos
      rw [List.utf8Encode_cons, ByteArray.size_append, List.length_cons]
      omega
  obtain ⟨string, hstring, rfl⟩ := Option.map_eq_some_iff.1 h
  have hbytes : string.toByteArray = ⟨bytes.toArray⟩ := by
    unfold String.fromUTF8? at hstring
    split at hstring
    · rw [← Option.some.inj hstring]
      rfl
    · cases hstring
  have hle := hencoded string.toList
  rw [String.utf8Encode_toList, hbytes] at hle
  exact hle

/-- The first run of text, and the runs that follow an undecodable line each. -/
def runs (bytes : List UInt8) : Text × List Text :=
  (lines bytes).foldr
    (fun line after =>
      match decode? line with
      | some t => (t ++ after.1, after.2)
      | none => ([], after.1 :: after.2))
    ([], [])

end Applesoft.SourceBytes
