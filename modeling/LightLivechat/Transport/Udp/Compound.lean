import LightLivechat.Transport.Udp.RtcpLaws

/-! Compounds put together: what the splitter and the NACK parser make of a
concatenation, from what they make of its packets. -/

namespace LightLivechat.Transport.Udp

open LightLivechat.Lib.Bytes LightLivechat.Lib.Walk LightLivechat.Config

def isNackPacket (p : Bytes) : Bool := byteAt p 1 = rtcpPtNack ∧ byteAt p 0 &&& 0x1F = rtcpFmtNack

def isRelayedPacket (p : Bytes) : Bool := (refOf p 0 p).isRelayed

/-- The entries of a generic NACK, each with the SSRC it is about. -/
def fciEntries (p : Bytes) : List NackItem :=
  if isNackPacket p ∧ 12 ≤ p.length then
    (List.range ((p.length - 12) / 4)).map fun k =>
      ⟨be32 p 8, be16 p (12 + 4 * k), be16 p (12 + 4 * k + 2)⟩
  else []

theorem located_add (n offset : Nat) (ps : List Bytes) :
    located (n + offset) ps = (located offset ps).map fun x => (x.1 + n, x.2) := by
  induction ps generalizing offset with
  | nil => rfl
  | cons p ps ih => rw [located, Nat.add_assoc, ih, located, List.map_cons, Nat.add_comm n]

section

variable {ps qs : List Bytes}

theorem nackBlocks_flatten (hps : ∀ p ∈ ps, Complete p) :
    (splitCompoundRtcp ps.flatten).nackBlocks = ps.filter isNackPacket := by
  have hitems := items_rtcpPacketAt hps truncated_nil []
  rw [List.append_nil, List.nil_append, List.length_nil] at hitems
  have hblocks : (((located 0 ps).map fun x => refOf ps.flatten x.1 x.2).filter
      fun p => p.isNack).map (fun p => slice ps.flatten p.block.offset p.block.length) =
      ((located 0 ps).filter fun x => isNackPacket x.2).map fun x => x.2 := by
    rw [List.filter_map, List.map_map]
    refine List.map_congr_left fun x hx => ?_
    have hslice := (slice_located (a := []) (List.mem_filter.mp hx).1 []).1
    rwa [List.append_nil, List.nil_append] at hslice
  have hfilter : ((located 0 ps).filter fun x => isNackPacket x.2).map (fun x => x.2) =
      ((located 0 ps).map fun x => x.2).filter isNackPacket := by
    rw [List.filter_map]
    rfl
  simp only [splitCompoundRtcp, hitems]
  rw [hblocks, hfilter, map_located]

theorem relayBlocks_flatten (hps : ∀ p ∈ ps, Complete p) :
    (splitCompoundRtcp ps.flatten).relayBlocks =
      (((located 0 ps).map fun x => refOf ps.flatten x.1 x.2).filter fun x => x.isRelayed).map
        fun x => x.block := by
  have hitems := items_rtcpPacketAt hps truncated_nil []
  rw [List.append_nil, List.nil_append, List.length_nil] at hitems
  simp only [splitCompoundRtcp, hitems]

theorem fciAt_advances (buf : Bytes) (ssrc : U32) (fciEnd : Nat) :
    Advances (fciAt buf ssrc fciEnd) fciEnd where
  lt := by
    intro i b j h
    simp only [fciAt] at h
    split at h
    · cases h
      omega
    · cases h
  bound := by
    intro i b j h
    simp only [fciAt] at h
    split at h
    · omega
    · cases h

theorem nackItemsAt_advances (buf : Bytes) : Advances (nackItemsAt buf) buf.length where
  lt := by
    intro i b j h
    simp only [nackItemsAt] at h
    split at h
    · cases h
      omega
    · cases h
  bound := by
    intro i b j h
    simp only [nackItemsAt] at h
    split at h
    · omega
    · cases h

theorem items_fciAt (buf : Bytes) (ssrc : U32) (start fciEnd : Nat) :
    items (fciAt buf ssrc fciEnd) fciEnd start =
      (List.range ((fciEnd - start) / 4)).map fun k =>
        ⟨ssrc, be16 buf (start + 4 * k), be16 buf (start + 4 * k + 2)⟩ := by
  refine (fciAt_advances _ _ _).items_stride (d := 4) (fun k hk => ?_) ?_
  · have hfits : start + 4 * k + 4 ≤ fciEnd := by omega
    simp only [fciAt, if_pos hfits]
    rfl
  · have hover : ¬ start + 4 * ((fciEnd - start) / 4) + 4 ≤ fciEnd := by omega
    simp only [fciAt, if_neg hover]

/-- A packet of a compound gives the parser its own entries, however short it is. -/
theorem nackItemsAt_complete {a p : Bytes} (hp : Complete p) (b : Bytes) :
    nackItemsAt (a ++ (p ++ b)) a.length = some (fciEntries p, a.length + p.length) := by
  have hfour := hp.four
  obtain ⟨hfmt, hpt, hlen⟩ := hp.header_at a b
  have hroom : (a ++ (p ++ b)).length = a.length + p.length + b.length := by
    simp only [List.length_append, Nat.add_assoc]
  have hend : min (a.length + p.length) (a ++ (p ++ b)).length = a.length + p.length := by omega
  have hcount : a.length + p.length - (a.length + 12) = p.length - 12 := by omega
  simp only [nackItemsAt, hlen, hpt, hfmt, hend, items_fciAt, hcount]
  rw [if_pos (by omega), fciEntries]
  by_cases hnack : byteAt p 1 = rtcpPtNack ∧ byteAt p 0 &&& 0x1F = rtcpFmtNack
  · have hkind : isNackPacket p = true := decide_eq_true hnack
    by_cases hheader : 12 ≤ p.length
    · have hssrc : be32 (a ++ (p ++ b)) (a.length + 8) = be32 p 8 :=
        be32_append_mid a b (by omega)
      rw [if_pos ⟨hnack.1, hnack.2, by omega⟩, if_pos ⟨hkind, hheader⟩]
      have hentries : ((List.range ((p.length - 12) / 4)).map fun k => (⟨
          be32 (a ++ (p ++ b)) (a.length + 8), be16 (a ++ (p ++ b)) (a.length + 12 + 4 * k),
          be16 (a ++ (p ++ b)) (a.length + 12 + 4 * k + 2)⟩ : NackItem)) =
          (List.range ((p.length - 12) / 4)).map fun k =>
            ⟨be32 p 8, be16 p (12 + 4 * k), be16 p (12 + 4 * k + 2)⟩ := by
        refine List.map_congr_left fun k hk => ?_
        have := List.mem_range.mp hk
        rw [hssrc, Nat.add_assoc a.length, be16_append_mid a b (by omega), Nat.add_assoc a.length,
          be16_append_mid a b (by omega)]
      rw [hentries]
    · -- too short for an entry, whatever the buffer goes on with
      have hnone : (p.length - 12) / 4 = 0 := by omega
      have hshort : ¬ (isNackPacket p = true ∧ 12 ≤ p.length) := fun h => hheader h.2
      rw [hnone, if_neg hshort]
      split <;> rfl
  · have hkind : ¬ isNackPacket p = true := fun h => hnack (of_decide_eq_true h)
    rw [if_neg (fun h => hnack ⟨h.1, h.2.1⟩), if_neg (fun h => hkind h.1)]

theorem parseRtcpNack_flatten (hps : ∀ p ∈ ps, Complete p) :
    parseRtcpNack ps.flatten = ps.flatMap fciEntries := by
  have hend : items (nackItemsAt ps.flatten) ps.flatten.length
      (([] : Bytes).length + (ps.flatMap fun p => p).length) = [] := by
    refine items_stop ((nackItemsAt_advances _).stop (Nat.le_of_eq ?_))
    rw [List.length_nil, Nat.zero_add, List.flatMap_id']
  have hread := (nackItemsAt_advances ps.flatten).items_flatMap (fun p => p) [] []
    (f := fun _ p => fciEntries p) fun a p rest hp heq => by
      have hsplit : ps.flatten = a ++ (p ++ (rest.flatMap fun p => p)) := by simpa using heq
      rw [hsplit]
      exact nackItemsAt_complete (hps p hp) _
  rw [hend, List.append_nil, map_layout] at hread
  rw [parseRtcpNack, show (0 : Nat) = ([] : Bytes).length from rfl, hread, List.flatMap]

theorem parseRtcpNack_complete {p : Bytes} (hp : Complete p) : parseRtcpNack p = fciEntries p := by
  have hall : ∀ q ∈ [p], Complete q := by simpa using hp
  simpa using parseRtcpNack_flatten hall

theorem flatMap_fciEntries (ps : List Bytes) :
    (ps.filter isNackPacket).flatMap fciEntries = ps.flatMap fciEntries := by
  induction ps with
  | nil => rfl
  | cons p ps ih =>
    by_cases hp : isNackPacket p
    · rw [List.filter_cons_of_pos hp, List.flatMap_cons, List.flatMap_cons, ih]
    · rw [List.filter_cons_of_neg hp, List.flatMap_cons, ih, fciEntries, if_neg (fun h => hp h.1)]
      rfl

/-- Either walker sees the NACK entries of the packets, and no others. -/
theorem parseRtcpNack_nackBlocks (hps : ∀ p ∈ ps, Complete p) :
    ((splitCompoundRtcp ps.flatten).nackBlocks.map parseRtcpNack).flatten =
      parseRtcpNack ps.flatten := by
  have hblocks : (ps.filter isNackPacket).map parseRtcpNack =
      (ps.filter isNackPacket).map fciEntries :=
    List.map_congr_left fun p hp => parseRtcpNack_complete (hps p (List.mem_filter.mp hp).1)
  rw [nackBlocks_flatten hps, hblocks, ← List.flatMap_def, flatMap_fciEntries,
    parseRtcpNack_flatten hps]

end

section

variable (pid blp : U16)

theorem blp_bit {i : Nat} (hi : i < 16) : blp &&& (1 : U16) <<< i ≠ 0 ↔ blp.getLsbD i = true := by
  have hpow : (1 : U16) <<< i = BitVec.twoPow 16 i := rfl
  rw [hpow, BitVec.and_twoPow]
  split
  · rename_i hset
    simp only [hset, iff_true]
    intro hzero
    have := congrArg BitVec.toNat hzero
    rw [BitVec.toNat_twoPow_of_lt hi] at this
    exact absurd this (by simp)
  · simp_all

theorem mem_expandNack {pid blp n : U16} :
    n ∈ expandNack pid blp ↔
      n = pid ∨ ∃ i < 16, blp.getLsbD i = true ∧ n = pid + BitVec.ofNat 16 (i + 1) := by
  simp only [expandNack, List.mem_cons, List.mem_filterMap, List.mem_range,
    Option.ite_none_right_eq_some, Option.some.injEq]
  refine or_congr Iff.rfl (exists_congr fun i => and_congr_right fun hi => ?_)
  rw [blp_bit blp hi, eq_comm (a := n)]

theorem add_ofNat_inj {i j : Nat} (hi : i < 65536) (hj : j < 65536)
    (h : pid + BitVec.ofNat 16 i = pid + BitVec.ofNat 16 j) : i = j := by
  have := congrArg BitVec.toNat ((BitVec.add_right_inj pid).mp h)
  rwa [BitVec.toNat_ofNat, BitVec.toNat_ofNat, Nat.mod_eq_of_lt hi, Nat.mod_eq_of_lt hj] at this

theorem expandNack_nodup : (expandNack pid blp).Nodup := by
  refine List.nodup_cons.mpr ⟨fun hpid => ?_, ?_⟩
  · simp only [List.mem_filterMap, List.mem_range, Option.ite_none_right_eq_some,
      Option.some.injEq] at hpid
    obtain ⟨i, hi, -, heq⟩ := hpid
    have := add_ofNat_inj pid (j := 0) (by omega) (by omega) (heq.trans (by simp))
    omega
  · refine List.pairwise_filterMap.mpr (List.pairwise_lt_range.imp_of_mem fun hi hj hlt => ?_)
    simp only [Option.ite_none_right_eq_some, Option.some.injEq]
    rintro _ ⟨-, rfl⟩ _ ⟨-, rfl⟩ heq
    rw [List.mem_range] at hi hj
    have := add_ofNat_inj pid (by omega) (by omega) heq
    omega

end

/-- Both walkers see the entries of the NACKs a compound is made of, and an entry names
its PID and what its BLP adds, each number once. -/
structure WalkersAgree (ps : List Bytes) : Prop where
  blocks : ((splitCompoundRtcp ps.flatten).nackBlocks.map parseRtcpNack).flatten =
    parseRtcpNack ps.flatten
  entries : parseRtcpNack ps.flatten = ps.flatMap fciEntries
  once : ∀ nack ∈ parseRtcpNack ps.flatten, (expandNack nack.pid nack.blp).Nodup
  named : ∀ nack ∈ parseRtcpNack ps.flatten, ∀ n, n ∈ expandNack nack.pid nack.blp ↔
    n = nack.pid ∨ ∃ i < 16, nack.blp.getLsbD i = true ∧ n = nack.pid + BitVec.ofNat 16 (i + 1)

theorem nackWalkers_agree {ps : List Bytes} (hps : ∀ p ∈ ps, Complete p) : WalkersAgree ps where
  blocks := parseRtcpNack_nackBlocks hps
  entries := parseRtcpNack_flatten hps
  once := fun nack _ => expandNack_nodup nack.pid nack.blp
  named := fun _ _ _ => mem_expandNack

def emptyReport : Bytes := [0x80, 201, 0, 1, 0, 0, 0, 5]

def twoEntryNack : Bytes := [0x81, 205, 0, 4, 0, 0, 0, 5, 0, 0, 0, 9, 255, 255, 128, 1, 0, 7, 0, 0]

theorem nackWalkers_agree_mixed :
    WalkersAgree [twoEntryNack, emptyReport, [0x81, 205, 0, 0], twoEntryNack] :=
  nackWalkers_agree (by decide)

def RtcpBlockRef.shift (n : Nat) (b : RtcpBlockRef) : RtcpBlockRef :=
  { b with offset := b.offset + n }

/-- What `n` bytes gave, followed by what the bytes after them gave. -/
def CompoundRtcpParsed.followedBy (n : Nat) (x y : CompoundRtcpParsed) : CompoundRtcpParsed where
  nackBlocks := x.nackBlocks ++ y.nackBlocks
  relayBlocks := x.relayBlocks ++ y.relayBlocks.map (.shift n)

/-- No relayed packet of `ps` that ends before its media SSRC field has anything but
zeros there in `b`, which comes after them. -/
def NothingBorrowed (ps : List Bytes) (b : Bytes) : Prop :=
  ∀ x ∈ located 0 ps, isRelayedPacket x.2 → ∀ k, x.1 + 8 = ps.flatten.length + k →
    b.length < k + 4 ∨ be32 b k = 0

theorem length_flatten_mod {ps : List Bytes} (hps : ∀ p ∈ ps, Complete p) :
    ps.flatten.length % 4 = 0 := by
  induction ps with
  | nil => rfl
  | cons p ps ih =>
    have hp := (hps p List.mem_cons_self).length
    have hrest := ih fun q hq => hps q (List.mem_cons_of_mem p hq)
    rw [List.flatten_cons, List.length_append]
    omega

theorem located_mod {ps : List Bytes} (hps : ∀ p ∈ ps, Complete p) {offset : Nat}
    {x : Nat × Bytes} (hx : x ∈ located offset ps) : x.1 % 4 = offset % 4 := by
  induction ps generalizing offset with
  | nil => cases hx
  | cons p ps ih =>
    rcases List.mem_cons.mp hx with rfl | hx
    · rfl
    · have hp := (hps p List.mem_cons_self).length
      have hrest := ih (fun q hq => hps q (List.mem_cons_of_mem p hq)) hx
      omega

section

variable {ps qs : List Bytes}

/-- A packet's place in the first compound is read the same when another follows,
unless the SSRC field lies in the other. -/
theorem refOf_append_iff (hps : ∀ p ∈ ps, Complete p) {x : Nat × Bytes} (hx : x ∈ located 0 ps)
    (b : Bytes) :
    (refOf (ps.flatten ++ b) x.1 x.2).block = (refOf ps.flatten x.1 x.2).block ↔
      ∀ k, x.1 + 8 = ps.flatten.length + k → b.length < k + 4 ∨ be32 b k = 0 := by
  have hlength := length_flatten_mod hps
  have hoffset := located_mod hps hx
  generalize ps.flatten = a at hlength ⊢
  simp only [refOf, RtcpBlockRef.mk.injEq, true_and, List.length_append]
  by_cases hwithin : x.1 + 12 ≤ a.length
  · rw [if_pos hwithin, if_pos (by omega), be32_append_left _ (by omega)]
    exact ⟨fun _ k hk => by omega, fun _ => rfl⟩
  · obtain ⟨k, hk⟩ : ∃ k, x.1 + 8 = a.length + k := ⟨x.1 + 8 - a.length, by omega⟩
    rw [if_neg hwithin, hk, be32_append_right _ (by omega), Nat.add_sub_cancel_left]
    constructor
    · intro h k' hk'
      obtain rfl : k = k' := by omega
      by_cases hroom : b.length < k + 4
      · exact .inl hroom
      · rw [if_pos (by omega)] at h
        exact .inr h
    · intro h
      split
      · exact (h k rfl).resolve_left (by omega)
      · rfl

theorem refOf_shift {x : Nat × Bytes} (a b : Bytes) :
    (refOf (a ++ b) (x.1 + a.length) x.2).block = (refOf b x.1 x.2).block.shift a.length := by
  have hread : be32 (a ++ b) (x.1 + a.length + 8) = be32 b (x.1 + 8) := by
    rw [be32_append_right _ (by omega)]
    congr 1
    omega
  have hroom : x.1 + a.length + 12 ≤ (a ++ b).length ↔ x.1 + 12 ≤ b.length := by
    rw [List.length_append]
    omega
  simp only [refOf, RtcpBlockRef.shift, hread, hroom]

theorem relayBlocks_eq (hps : ∀ p ∈ ps, Complete p) :
    (splitCompoundRtcp ps.flatten).relayBlocks =
      ((located 0 ps).filter fun x => isRelayedPacket x.2).map
        fun x => (refOf ps.flatten x.1 x.2).block := by
  rw [relayBlocks_flatten hps, List.filter_map, List.map_map]
  rfl

theorem splitCompoundRtcp_append_iff (hps : ∀ p ∈ ps, Complete p) (hqs : ∀ p ∈ qs, Complete p) :
    splitCompoundRtcp (ps.flatten ++ qs.flatten) =
        (splitCompoundRtcp ps.flatten).followedBy ps.flatten.length
          (splitCompoundRtcp qs.flatten) ↔
      NothingBorrowed ps qs.flatten := by
  have hall : ∀ p ∈ ps ++ qs, Complete p := fun p hp =>
    (List.mem_append.mp hp).elim (hps p) (hqs p)
  have hnack : (splitCompoundRtcp (ps ++ qs).flatten).nackBlocks =
      (splitCompoundRtcp ps.flatten).nackBlocks ++ (splitCompoundRtcp qs.flatten).nackBlocks := by
    rw [nackBlocks_flatten hall, nackBlocks_flatten hps, nackBlocks_flatten hqs, List.filter_append]
  -- the packets of the second compound are moved, those of the first stay
  have hrelay : (splitCompoundRtcp (ps ++ qs).flatten).relayBlocks =
      (((located 0 ps).filter fun x => isRelayedPacket x.2).map
        fun x => (refOf (ps.flatten ++ qs.flatten) x.1 x.2).block) ++
      (splitCompoundRtcp qs.flatten).relayBlocks.map (.shift ps.flatten.length) := by
    rw [relayBlocks_eq hall, relayBlocks_eq hqs, located_append, List.flatten_append,
      Nat.add_comm 0, located_add, List.filter_append, List.map_append, List.filter_map,
      List.map_map, List.map_map]
    congr 1
    exact List.map_congr_left fun x _ => refOf_shift _ _
  rw [← List.flatten_append]
  constructor
  · intro h x hx hrelayed
    have heq := congrArg (fun y => y.relayBlocks) h
    simp only [CompoundRtcpParsed.followedBy, hrelay, List.append_cancel_right_eq,
      relayBlocks_eq hps, List.map_inj_left] at heq
    exact (refOf_append_iff hps hx _).mp (heq x (List.mem_filter.mpr ⟨hx, hrelayed⟩))
  · intro h
    have heq : (splitCompoundRtcp (ps ++ qs).flatten).relayBlocks =
        (splitCompoundRtcp ps.flatten).relayBlocks ++
          (splitCompoundRtcp qs.flatten).relayBlocks.map (.shift ps.flatten.length) := by
      rw [hrelay, relayBlocks_eq hps]
      congr 1
      refine List.map_congr_left fun x hx => ?_
      obtain ⟨hx, hrelayed⟩ := List.mem_filter.mp hx
      exact (refOf_append_iff hps hx _).mpr (h x hx hrelayed)
    rw [CompoundRtcpParsed.followedBy, ← hnack, ← heq]

end

theorem splitCompoundRtcp_append_iff_report :
    splitCompoundRtcp ([twoEntryNack, emptyReport].flatten ++ [emptyReport].flatten) =
        (splitCompoundRtcp [twoEntryNack, emptyReport].flatten).followedBy
          [twoEntryNack, emptyReport].flatten.length (splitCompoundRtcp [emptyReport].flatten) ↔
      NothingBorrowed [twoEntryNack, emptyReport] [emptyReport].flatten :=
  splitCompoundRtcp_append_iff (by decide) (by decide)

/-- The header of the next packet is taken for the report's media SSRC. -/
theorem report_reads_next_header :
    ¬ ∀ ps qs : List Bytes, (∀ p ∈ ps, Complete p) → (∀ p ∈ qs, Complete p) →
      splitCompoundRtcp (ps.flatten ++ qs.flatten) =
        (splitCompoundRtcp ps.flatten).followedBy ps.flatten.length
          (splitCompoundRtcp qs.flatten) := fun h =>
  absurd (h [emptyReport] [[0x80, 202, 0, 0]] (by decide) (by decide)) (by decide)

end LightLivechat.Transport.Udp
