import LightLivechat.Transport.Udp.Rtcp

/-! How compound RTCP is cut into packets: the walkers see the packets a compound
is made of, each at its place. -/

namespace LightLivechat.Transport.Udp

open LightLivechat.Lib.Bytes LightLivechat.Lib.Walk LightLivechat.Config

/-- One RTCP packet, as long as its length field says. -/
structure Complete (p : Bytes) : Prop where
  four : 4 ≤ p.length
  length : p.length = ((be16 p 2).toNat + 1) * 4

instance (p : Bytes) : Decidable (Complete p) :=
  decidable_of_iff (4 ≤ p.length ∧ p.length = ((be16 p 2).toNat + 1) * 4)
    ⟨fun h => ⟨h.1, h.2⟩, fun h => ⟨h.four, h.length⟩⟩

/-- No complete packet starts here. -/
def Truncated (tail : Bytes) : Prop := ∀ n, ¬ Complete (tail.take n)

def located : Nat → List Bytes → List (Nat × Bytes)
  | _, [] => []
  | offset, p :: ps => (offset, p) :: located (offset + p.length) ps

/-- What the walker reads of the packet `p` of a compound. -/
def refOf (compound : Bytes) (offset : Nat) (p : Bytes) : RtcpPacketRef where
  fmt := byteAt p 0 &&& 0x1F
  pt := byteAt p 1
  block := {
    offset := offset
    length := p.length
    mediaSsrc := if offset + 12 ≤ compound.length then be32 compound (offset + 8) else 0 }

theorem rtcpPacketAt_advances (buf : Bytes) : Advances (rtcpPacketAt buf) buf.length where
  lt := by
    intro i b j h
    simp only [rtcpPacketAt] at h
    split at h
    · split at h
      · cases h
      · cases h
        omega
    · cases h
  bound := by
    intro i b j h
    simp only [rtcpPacketAt] at h
    split at h
    · omega
    · cases h

theorem truncated_nil : Truncated [] := fun n h => by simpa using h.four

section

variable {a p tail : Bytes} {ps : List Bytes}

theorem Complete.header_at (hp : Complete p) (a b : Bytes) :
    byteAt (a ++ (p ++ b)) a.length = byteAt p 0 ∧
      byteAt (a ++ (p ++ b)) (a.length + 1) = byteAt p 1 ∧
      ((be16 (a ++ (p ++ b)) (a.length + 2)).toNat + 1) * 4 = p.length := by
  have hfour := hp.four
  refine ⟨?_, byteAt_append_mid a b (by omega), ?_⟩
  · have hfmt := byteAt_append_mid a b (p := p) (i := 0) (by omega)
    rwa [Nat.add_zero] at hfmt
  · rw [be16_append_mid a b (by omega), hp.length]

theorem rtcpPacketAt_complete (hp : Complete p) (b : Bytes) :
    rtcpPacketAt (a ++ (p ++ b)) a.length =
      some (refOf (a ++ (p ++ b)) a.length p, a.length + p.length) := by
  have hfour := hp.four
  obtain ⟨hfmt, hpt, hlen⟩ := hp.header_at a b
  simp only [rtcpPacketAt, hlen, hpt, hfmt]
  rw [if_pos (by simp only [List.length_append]; omega),
    if_neg (by simp only [List.length_append]; omega)]
  rfl

theorem rtcpPacketAt_truncated (h : Truncated tail) : rtcpPacketAt (a ++ tail) a.length = none := by
  simp only [rtcpPacketAt, List.length_append]
  split
  · rename_i hfour
    split
    · rfl
    · rename_i hlen
      rw [be16_append_right _ (by omega), Nat.add_sub_cancel_left] at hlen
      have htake : (tail.take (((be16 tail 2).toNat + 1) * 4)).length =
          ((be16 tail 2).toNat + 1) * 4 := by
        rw [List.length_take]
        omega
      exact absurd ⟨by omega, by rw [htake, be16_take (by omega)]⟩
        (h (((be16 tail 2).toNat + 1) * 4))
  · rfl

theorem located_eq_layout (offset : Nat) (ps : List Bytes) :
    located offset ps = layout List.length offset ps := by
  induction ps generalizing offset with
  | nil => rfl
  | cons p ps ih => rw [located, ih, layout]

theorem items_rtcpPacketAt (hps : ∀ p ∈ ps, Complete p) (ht : Truncated tail) (a : Bytes) :
    items (rtcpPacketAt (a ++ (ps.flatten ++ tail))) (a ++ (ps.flatten ++ tail)).length a.length =
      (located a.length ps).map fun x => refOf (a ++ (ps.flatten ++ tail)) x.1 x.2 := by
  have hread : ∀ b p (qs : List Bytes), p ∈ ps →
      a ++ ((ps.flatMap fun p => p) ++ tail) = b ++ (p ++ ((qs.flatMap fun p => p) ++ tail)) →
      rtcpPacketAt (a ++ (ps.flatten ++ tail)) b.length =
        some (refOf (a ++ (ps.flatten ++ tail)) b.length p, b.length + p.length) := by
    intro b p qs hp heq
    rw [List.flatMap_id'] at heq
    rw [heq]
    exact rtcpPacketAt_complete (hps p hp) _
  have hstop : rtcpPacketAt (a ++ (ps.flatten ++ tail))
      (a.length + (ps.flatMap fun p => p).length) = none := by
    rw [List.flatMap_id', ← List.append_assoc, ← List.length_append]
    exact rtcpPacketAt_truncated ht
  rw [(rtcpPacketAt_advances _).items_flatMap (fun p => p) a tail hread, items_stop hstop,
    List.append_nil, located_eq_layout]

theorem slice_located {x : Nat × Bytes} (hx : x ∈ located a.length ps) (tail : Bytes) :
    slice (a ++ (ps.flatten ++ tail)) x.1 x.2.length = x.2 ∧ x.2 ∈ ps := by
  rw [located_eq_layout] at hx
  obtain ⟨b, rest, hb, heq⟩ := exists_split_of_mem_layout tail hx
  rw [List.flatMap_id'] at heq
  rw [heq, ← hb, ← List.append_assoc, slice_append]
  exact ⟨rfl, mem_of_mem_layout hx⟩

theorem map_located (offset : Nat) (ps : List Bytes) :
    (located offset ps).map (fun x => x.2) = ps := by
  rw [located_eq_layout, map_layout offset (fun p => p), List.map_id']

theorem located_append (offset : Nat) (ps qs : List Bytes) :
    located offset (ps ++ qs) = located offset ps ++ located (offset + ps.flatten.length) qs := by
  rw [located_eq_layout, layout_append (fun p => p), List.flatMap_id', located_eq_layout,
    located_eq_layout]

theorem located_bounds {offset : Nat} {x : Nat × Bytes} (hx : x ∈ located offset ps) :
    offset ≤ x.1 ∧ x.1 + x.2.length ≤ offset + ps.flatten.length := by
  induction ps generalizing offset with
  | nil => cases hx
  | cons p ps ih =>
    rw [List.flatten_cons, List.length_append]
    rcases List.mem_cons.mp hx with rfl | hx
    · exact ⟨Nat.le_refl _, by simp only; omega⟩
    · have := ih hx
      omega

end

end LightLivechat.Transport.Udp
