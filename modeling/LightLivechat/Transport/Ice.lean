import LightLivechat.Lib.Bytes

/-! The credentials of a media session, built from random bytes. -/

namespace LightLivechat.Transport.Ice

open LightLivechat.Lib.Bytes

def iceChar (b : U8) : Char :=
  let r := b % 36
  if r < 10 then Char.ofNat (0x30 + r).toNat else Char.ofNat (0x61 + r - 10).toNat

/-- `bytes` are the random ones. -/
def randomIceString (bytes : Bytes) : String := String.ofList (bytes.map iceChar)

structure IceCredentials where
  ufrag : String
  pwd : String

def IceCredentials.new (ufrag : Vector U8 4) (pwd : Vector U8 22) : IceCredentials :=
  ⟨randomIceString ufrag.toList, randomIceString pwd.toList⟩

def alphabet : List Char := "0123456789abcdefghijklmnopqrstuvwxyz".toList

theorem iceChar_eq (b : U8) : iceChar b =
    Char.ofNat (if b.toNat % 36 < 10 then 48 + b.toNat % 36 else 87 + b.toNat % 36) := by
  have hr : (b % 36).toNat = b.toNat % 36 := BitVec.toNat_umod
  have hlt : b.toNat % 36 < 36 := Nat.mod_lt _ (by decide)
  unfold iceChar
  dsimp only
  rw [← hr] at hlt ⊢
  generalize b % 36 = r at hlt
  by_cases h : r < 10
  · have hnat : r.toNat < 10 := BitVec.lt_def.mp h
    rw [if_pos h, if_pos hnat]
    congr 1
    bv_omega
  · have hnat : ¬ r.toNat < 10 := fun hnat => h (BitVec.lt_def.mpr hnat)
    rw [if_neg h, if_neg hnat]
    congr 1
    bv_omega

theorem alphabet_eq : alphabet =
    (List.range 36).map fun n => Char.ofNat (if n < 10 then 48 + n else 87 + n) := by rfl

theorem iceChar_mem (b : U8) : iceChar b ∈ alphabet := by
  rw [alphabet_eq, List.mem_map]
  exact ⟨b.toNat % 36, List.mem_range.mpr (Nat.mod_lt _ (by decide)), (iceChar_eq b).symm⟩

theorem exists_iceChar {c : Char} (hc : c ∈ alphabet) : ∃ b, iceChar b = c := by
  rw [alphabet_eq, List.mem_map] at hc
  obtain ⟨n, hn, rfl⟩ := hc
  rw [List.mem_range] at hn
  have hmod : n % 256 % 36 = n := by omega
  refine ⟨BitVec.ofNat 8 n, ?_⟩
  rw [iceChar_eq, BitVec.toNat_ofNat, hmod]

theorem exists_randomIceString {u : String} (hu : ∀ c ∈ u.toList, c ∈ alphabet) :
    ∃ bytes, bytes.length = u.toList.length ∧ randomIceString bytes = u := by
  have hbytes : ∀ cs : List Char, (∀ c ∈ cs, c ∈ alphabet) → ∃ bytes : Bytes,
      bytes.map iceChar = cs := by
    intro cs
    induction cs with
    | nil => exact fun _ => ⟨[], rfl⟩
    | cons c cs ih =>
      intro h
      rw [List.forall_mem_cons] at h
      obtain ⟨b, hb⟩ := exists_iceChar h.1
      obtain ⟨bs, hbs⟩ := ih h.2
      exact ⟨b :: bs, by rw [List.map_cons, hb, hbs]⟩
  obtain ⟨bytes, hb⟩ := hbytes u.toList hu
  refine ⟨bytes, by rw [← hb, List.length_map], ?_⟩
  rw [randomIceString, hb, String.ofList_toList]

/-- The ufrags that may be drawn are the strings of four characters of the alphabet, for
every session the same. -/
theorem exists_ufrag_iff {u : String} : (∃ a b, (IceCredentials.new a b).ufrag = u) ↔
    u.toList.length = 4 ∧ ∀ c ∈ u.toList, c ∈ alphabet := by
  constructor
  · rintro ⟨a, b, rfl⟩
    simp only [IceCredentials.new, randomIceString, String.toList_ofList, List.length_map,
      Vector.length_toList, List.mem_map, true_and]
    rintro c ⟨x, -, rfl⟩
    exact iceChar_mem x
  · rintro ⟨hlen, hu⟩
    obtain ⟨bytes, hbytes, hdrawn⟩ := exists_randomIceString hu
    exact ⟨⟨bytes.toArray, by simp [hbytes, hlen]⟩, Vector.replicate 22 0, by
      simpa [IceCredentials.new, Vector.toList] using hdrawn⟩

end LightLivechat.Transport.Ice
