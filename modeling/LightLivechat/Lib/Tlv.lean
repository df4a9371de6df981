import LightLivechat.Lib.Bytes

/-! Type-length-value records with 16-bit fields, padded to a multiple of four
bytes.  A record cannot be longer than its length field can say. -/

namespace LightLivechat.Lib.Tlv

open LightLivechat.Lib.Bytes

structure Record where
  kind : U16
  value : Bytes
  padding : Bytes
  fits : value.length < 65536
  aligned : padding.length = (4 - value.length % 4) % 4
  deriving DecidableEq

namespace Record

def bytes (r : Record) : Bytes :=
  toBe16 r.kind ++ (toBe16 (BitVec.ofNat 16 r.value.length) ++ (r.value ++ r.padding))

/-- Padded with zeros, as a writer does it. -/
def zeroPadded (kind : U16) (value : Bytes) (fits : value.length < 65536) : Record where
  kind := kind
  value := value
  padding := List.replicate ((4 - value.length % 4) % 4) 0
  fits := fits
  aligned := List.length_replicate

variable (r : Record)

theorem length_bytes : r.bytes.length = 4 + (r.value.length + 3) / 4 * 4 := by
  simp only [bytes, List.length_append, length_toBe16, r.aligned]
  omega

theorem length_bytes_mod : r.bytes.length % 4 = 0 := by
  rw [length_bytes]
  omega

section

variable (a b : Bytes)

theorem kind_at : be16 (a ++ (r.bytes ++ b)) a.length = r.kind := by
  have hread := be16_append_mid a b (p := r.bytes) (i := 0) (by rw [length_bytes]; omega)
  rw [Nat.add_zero] at hread
  rw [hread, bytes, be16_append_left _ (by simp), be16_toBe16]

theorem length_at : (be16 (a ++ (r.bytes ++ b)) (a.length + 2)).toNat = r.value.length := by
  rw [be16_append_mid _ _ (by rw [length_bytes]; omega), bytes, be16_append_right _ (by simp),
    length_toBe16, Nat.sub_self, be16_append_left _ (by simp), be16_toBe16, BitVec.toNat_ofNat]
  exact Nat.mod_eq_of_lt r.fits

theorem value_at : slice (a ++ (r.bytes ++ b)) (a.length + 4) r.value.length = r.value := by
  have hsplit : a ++ (r.bytes ++ b) =
      (a ++ (toBe16 r.kind ++ toBe16 (BitVec.ofNat 16 r.value.length))) ++ r.value ++
        (r.padding ++ b) := by simp [bytes]
  have hstart : a.length + 4 =
      (a ++ (toBe16 r.kind ++ toBe16 (BitVec.ofNat 16 r.value.length))).length := by simp
  rw [hsplit, hstart, slice_append]

end

end Record

theorem length_records_mod (rs : List Record) : (rs.flatMap Record.bytes).length % 4 = 0 := by
  induction rs with
  | nil => rfl
  | cons r rs ih =>
    have := r.length_bytes_mod
    rw [List.flatMap_cons, List.length_append]
    omega

/-- No whole record starts here: the bytes end before the header or the value does. -/
def Overruns (rest : Bytes) : Prop :=
  rest.length < 4 ∨ rest.length < 4 + (be16 rest 2).toNat

theorem overruns_nil : Overruns [] := .inl (by simp)

theorem exists_record {b : Bytes} (hmod : b.length % 4 = 0) (h : ¬ Overruns b) :
    ∃ r : Record, ∃ rest, b = r.bytes ++ rest ∧ rest.length % 4 = 0 := by
  obtain ⟨h4, hvalue⟩ := not_or.mp h
  obtain ⟨n, hn⟩ : ∃ n, n = (be16 b 2).toNat := ⟨_, rfl⟩
  rw [← hn] at hvalue
  have hfit : n < 65536 := hn ▸ (be16 b 2).isLt
  have hpad : 4 + n + (4 - n % 4) % 4 ≤ b.length := by omega
  refine ⟨{
    kind := be16 b 0
    value := slice b 4 n
    padding := slice b (4 + n) ((4 - n % 4) % 4)
    fits := by rw [length_slice (by omega)]; exact hfit
    aligned := by rw [length_slice (by omega), length_slice (by omega)] },
    b.drop (4 + n + (4 - n % 4) % 4), ?_, by rw [List.length_drop]; omega⟩
  simp only [Record.bytes, length_slice (show 4 + n ≤ b.length by omega)]
  rw [show BitVec.ofNat 16 n = be16 b 2 by rw [hn, BitVec.ofNat_toNat, BitVec.setWidth_eq],
    toBe16_be16 (by omega), toBe16_be16 (by omega), slice_append_slice b 4, List.append_assoc,
    List.append_assoc, Nat.add_assoc 4, slice_append_drop b 4, slice_append_drop b 2,
    slice_append_drop b 0, List.drop_zero]

/-- Bytes in multiples of four are records and a rest in which none fits. -/
theorem exists_records (b : Bytes) (hmod : b.length % 4 = 0) :
    ∃ rs : List Record, ∃ rest, b = rs.flatMap Record.bytes ++ rest ∧ Overruns rest := by
  induction hlen : b.length using Nat.strongRecOn generalizing b with
  | ind n ih =>
    subst hlen
    by_cases hover : Overruns b
    · exact ⟨[], b, rfl, hover⟩
    · obtain ⟨r, tail, rfl, htail⟩ := exists_record hmod hover
      have hshort : tail.length < (r.bytes ++ tail).length := by
        rw [List.length_append, r.length_bytes]
        omega
      obtain ⟨rs, rest, rfl, hrest⟩ := ih _ hshort tail htail rfl
      exact ⟨r :: rs, rest, by simp, hrest⟩

end LightLivechat.Lib.Tlv
