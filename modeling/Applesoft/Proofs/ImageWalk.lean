import Applesoft.Proofs.ImageLayout

/-!
# Walking an image back

A loader knows nothing but the bytes and the address at which they lie. It follows links from that
address on and takes each line's number and body from between one link target and the next. On an
image it finds the lines of the program, and the null link at the very end.
-/
namespace Applesoft

structure LoadedBytes where
  base : Nat
  bytes : List UInt8

namespace LoadedBytes

variable {m : LoadedBytes} {address : Nat}

def top (m : LoadedBytes) : Nat := m.base + m.bytes.length

def byte? (m : LoadedBytes) (address : Nat) : Option UInt8 :=
  if m.base ≤ address then m.bytes[address - m.base]? else none

def word? (m : LoadedBytes) (address : Nat) : Option Nat :=
  match m.byte? address, m.byte? (address + 1) with
  | some low, some high => some (low.toNat + 256 * high.toNat)
  | _, _ => none

def span? (m : LoadedBytes) (first bound : Nat) : Option (List UInt8) :=
  if m.base ≤ first ∧ first ≤ bound ∧ bound ≤ m.top then
    some ((m.bytes.drop (first - m.base)).take (bound - first))
  else none

structure Stop where
  address : Nat
  link : Nat
  number : Nat
  body : List UInt8
  deriving DecidableEq, Repr

/-- The record at an address that links to `link`: four bytes of link and number, a body, and a zero
just before the target of the link. -/
def stop? (m : LoadedBytes) (address link : Nat) : Option Stop :=
  match m.word? (address + 2), m.span? (address + 4) (link - 1), m.byte? (link - 1) with
  | some number, some body, some terminator =>
    if terminator = 0 then some ⟨address, link, number, body⟩ else none
  | _, _, _ => none

theorem lt_top_of_byte? {b : UInt8} (h : m.byte? address = some b) : address < m.top := by
  unfold byte? at h
  split at h
  · have := (List.getElem?_eq_some_iff.mp h).1
    unfold top
    omega
  · cases h

theorem lt_top_of_word? {n : Nat} (h : m.word? address = some n) : address < m.top := by
  unfold word? at h
  split at h
  · next hlow _ => exact lt_top_of_byte? hlow
  · cases h

/-- The stops met by following links from an address on, and the address of the null link. There is
no walk if a link leads out of the bytes or not forward, or a record does not end with a zero. -/
def walk (m : LoadedBytes) (address : Nat) : Option (List Stop × Nat) :=
  match _h : m.word? address with
  | none => none
  | some 0 => some ([], address)
  | some link =>
    if address < link then
      match m.stop? address link with
      | none => none
      | some stop => (walk m link).map fun (stops, last) => (stop :: stops, last)
    else none
termination_by m.top - address
decreasing_by
  have := lt_top_of_word? _h
  omega

theorem byte?_base_add (i : Nat) : m.byte? (m.base + i) = m.bytes[i]? := by
  simp [byte?]

theorem word?_base_add {i n : Nat} (hn : n < MemoryImage.memorySize)
    (hlow : m.bytes[i]? = some (UInt8.ofNat n))
    (hhigh : m.bytes[i + 1]? = some (UInt8.ofNat (n / 256))) :
    m.word? (m.base + i) = some n := by
  unfold MemoryImage.memorySize at hn
  have hsum : n % 256 + 256 * (n / 256 % 256) = n := by omega
  rw [word?, Nat.add_assoc, byte?_base_add, byte?_base_add, hlow, hhigh]
  simpa using hsum

variable {before after : List UInt8} {r : MemoryImage.Record}

def Stop.ofRecord (r : MemoryImage.Record) : Stop :=
  ⟨r.address, r.next, r.number.toNat, r.body⟩

theorem word?_link (hbytes : m.bytes = before ++ (r.bytes ++ after))
    (haddress : m.base + before.length = r.address) (hnext : r.next < MemoryImage.memorySize) :
    m.word? r.address = some r.next := by
  rw [← haddress]
  apply word?_base_add hnext <;>
    simp [hbytes, MemoryImage.Record.bytes, MemoryImage.word]

theorem stop?_record (hbytes : m.bytes = before ++ (r.bytes ++ after))
    (haddress : m.base + before.length = r.address) :
    m.stop? r.address r.next = some (Stop.ofRecord r) := by
  have hbytes' : m.bytes = before ++ (MemoryImage.word r.next ++
      (MemoryImage.word r.number.toNat ++ (r.body ++ 0 :: after))) := by
    simp [hbytes, MemoryImage.Record.bytes]
  have hnumber : m.word? (r.address + 2) = some r.number.toNat := by
    rw [← haddress, Nat.add_assoc]
    refine word?_base_add (UInt16.toNat_lt r.number) ?_ ?_
    · rw [hbytes', List.getElem?_append_right (by omega), Nat.add_sub_cancel_left]
      rfl
    · rw [hbytes', List.getElem?_append_right (by omega), Nat.add_assoc, Nat.add_sub_cancel_left]
      rfl
  have hlast : r.next - 1 = m.base + (before.length + (4 + r.body.length)) := by
    unfold MemoryImage.Record.next
    omega
  have hbody : m.span? (r.address + 4) (r.next - 1) = some r.body := by
    have hdrop : m.bytes.drop (before.length + 4) = r.body ++ 0 :: after := by
      simp [hbytes', MemoryImage.word]
    have htop : m.top = m.base + m.bytes.length := rfl
    have hlength : m.bytes.length = before.length + (4 + (r.body.length + (1 + after.length))) := by
      simp [hbytes', MemoryImage.word]
      omega
    rw [span?, if_pos (by omega), hlast,
      show r.address + 4 - m.base = before.length + 4 by omega, hdrop,
      show m.base + (before.length + (4 + r.body.length)) - (r.address + 4) = r.body.length by omega,
      List.take_left]
  have hzero : m.byte? (r.next - 1) = some 0 := by
    rw [hlast, byte?_base_add, hbytes', List.getElem?_append_right (by omega)]
    simp [MemoryImage.word, Nat.add_comm 4]
  simp [stop?, hnumber, hbody, hzero, Stop.ofRecord]

theorem walk_record (hbytes : m.bytes = before ++ (r.bytes ++ after))
    (haddress : m.base + before.length = r.address) (hnext : r.next < MemoryImage.memorySize) :
    m.walk r.address =
      (m.walk r.next).map fun (stops, last) => (Stop.ofRecord r :: stops, last) := by
  have hlink := word?_link hbytes haddress hnext
  have hlt : r.address < r.next := by
    unfold MemoryImage.Record.next
    omega
  rw [walk]
  split
  · next h => rw [hlink] at h; cases h
  · next h =>
    rw [hlink, Option.some.injEq] at h
    omega
  · next link _ h =>
    obtain rfl : r.next = link := Option.some.inj (hlink.symm.trans h)
    rw [if_pos hlt, stop?_record hbytes haddress]

theorem walk_null (h : m.word? address = some 0) : m.walk address = some ([], address) := by
  rw [walk]
  split
  · next h' => rw [h] at h'; cases h'
  · rfl
  · next link hne h' =>
    rw [h, Option.some.injEq] at h'
    exact absurd h'.symm hne

open MemoryImage in
/-- Lines that lie as records are met one by one, and after them the null link. -/
theorem walk_laidOut {previous : Option UInt16} {lines : List Line} {records : List Record}
    (h : LaidOut address previous lines records) (before : List UInt8)
    (hbytes : m.bytes = before ++ (records.flatMap Record.bytes ++ [0, 0]))
    (haddress : m.base + before.length = address) :
    ∃ last, m.walk address = some (records.map Stop.ofRecord, last) ∧ last + 2 = m.top ∧
      m.top ≤ memorySize := by
  induction h generalizing before with
  | @nil address _ hfits =>
    have htop : m.top = address + 2 := by
      simp only [top, hbytes, List.length_append, List.flatMap_nil, List.length_cons,
        List.length_nil]
      omega
    have hnull : m.word? address = some 0 := by
      rw [← haddress]
      apply word?_base_add (by decide) <;> simp [hbytes]
    exact ⟨address, walk_null hnull, htop.symm, by omega⟩
  | @cons address _ l rest body records _ _ hnext _ ih =>
    have hbytes' : m.bytes = before ++ ((⟨address, l.number, body⟩ : Record).bytes ++
        (records.flatMap Record.bytes ++ [0, 0])) := by
      rw [hbytes, List.flatMap_cons, List.append_assoc]
    obtain ⟨last, hwalk, hlast, htop⟩ := ih
      (before ++ (⟨address, l.number, body⟩ : Record).bytes)
      (by rw [hbytes', List.append_assoc])
      (by simp [Record.bytes, Record.next, word]; omega)
    refine ⟨last, ?_, hlast, htop⟩
    have hstep := walk_record hbytes' haddress hnext
    rw [hwalk] at hstep
    exact hstep

end LoadedBytes

namespace MemoryImage

theorem LaidOut.forall₂ {address : Nat} {previous : Option UInt16} {lines : List Line}
    {records : List Record} (h : LaidOut address previous lines records) :
    List.Forall₂ (fun r l => r.number = l.number ∧ IsBody l.statements r.body) records lines := by
  induction h with
  | nil => exact .nil
  | cons _ hbody _ _ ih => exact .cons ⟨rfl, hbody⟩ ih

/-- The bytes that lie at an address determine the records. -/
theorem LaidOut.records_unique {address : Nat} {previous previous' : Option UInt16}
    {lines lines' : List Line} {records records' : List Record}
    (h : LaidOut address previous lines records) (h' : LaidOut address previous' lines' records')
    (hbytes : records.flatMap Record.bytes = records'.flatMap Record.bytes) :
    records = records' := by
  have hinj : Function.Injective LoadedBytes.Stop.ofRecord := by
    rintro ⟨a, n, b⟩ ⟨a', n', b'⟩ heq
    simp only [LoadedBytes.Stop.ofRecord, LoadedBytes.Stop.mk.injEq] at heq
    obtain ⟨rfl, -, hnumber, rfl⟩ := heq
    rw [UInt16.toNat_inj.1 hnumber]
  let m : LoadedBytes := ⟨address, records.flatMap Record.bytes ++ [0, 0]⟩
  obtain ⟨last, hwalk, -, -⟩ := LoadedBytes.walk_laidOut (m := m) h [] rfl rfl
  obtain ⟨last', hwalk', -, -⟩ := LoadedBytes.walk_laidOut (m := m) h' []
    (by rw [← hbytes]; rfl) rfl
  rw [hwalk, Option.some.injEq, Prod.mk.injEq] at hwalk'
  exact List.map_injective_iff.2 hinj hwalk'.1

end MemoryImage

open MemoryImage in
/-- A walk over an image meets each line of the program once and in order, with its number and its
encoded statements; every link leads forward, and the null link is the last word of the image, which
ends within memory. -/
theorem Program.walk_image {p : Program} {current : Nat} {address : UInt16} {bytes : List UInt8}
    (h : (p.layout current address).image = .ok bytes) :
    ∃ stops last, (⟨address.toNat, bytes⟩ : LoadedBytes).walk address.toNat = some (stops, last) ∧
      List.Forall₂ (fun stop l => stop.number = l.number.toNat ∧ IsBody l.statements stop.body)
        stops p.lines ∧
      (∀ stop ∈ stops, stop.address < stop.link) ∧
      last + 2 = address.toNat + bytes.length ∧
      address.toNat + bytes.length ≤ memorySize := by
  obtain ⟨records, hlaid, rfl⟩ := Layout.image_start_eq_ok_iff.1 h
  obtain ⟨last, hwalk, hlast, htop⟩ := LoadedBytes.walk_laidOut
    (m := ⟨address.toNat, records.flatMap Record.bytes ++ [0, 0]⟩) hlaid [] rfl rfl
  refine ⟨records.map LoadedBytes.Stop.ofRecord, last, hwalk, ?_, ?_, hlast, htop⟩
  · rw [List.forall₂_map_left_iff]
    exact hlaid.forall₂.imp fun r l ⟨hnumber, hbody⟩ =>
      ⟨congrArg UInt16.toNat hnumber, hbody⟩
  · intro stop hstop
    obtain ⟨r, _, rfl⟩ := List.mem_map.1 hstop
    simp only [LoadedBytes.Stop.ofRecord, Record.next]
    omega

open MemoryImage in
/-- Two lines, of which the second ends the program just below the top of memory. -/
theorem Program.walk_image_at_top :
    let p : Program := ⟨0, [⟨10, [[⟨1, .keyword .home⟩], [⟨1, .quoted ['A']⟩]], 0⟩, ⟨20, [], 0⟩]⟩
    let bytes : List UInt8 := [0xF9, 0xFF, 10, 0, 0x97, 0x3A, 0x22, 0x41, 0x22, 0,
      0xFE, 0xFF, 20, 0, 0, 0, 0]
    (p.layout 0 0xFFEF).image = .ok bytes ∧
      ∃ stops last, (⟨0xFFEF, bytes⟩ : LoadedBytes).walk 0xFFEF = some (stops, last) ∧
        List.Forall₂ (fun stop l => stop.number = l.number.toNat ∧ IsBody l.statements stop.body)
          stops p.lines ∧
        (∀ stop ∈ stops, stop.address < stop.link) ∧
        last + 2 = 0xFFEF + bytes.length ∧ 0xFFEF + bytes.length ≤ memorySize := by
  intro p bytes
  have h : (p.layout 0 0xFFEF).image = .ok bytes := by decide
  exact ⟨h, Program.walk_image h⟩

end Applesoft
