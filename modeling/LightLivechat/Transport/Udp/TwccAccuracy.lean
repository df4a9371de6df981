import LightLivechat.Lib.Truncate
import LightLivechat.Transport.Udp.TwccDecoder

/-! How exact the reported arrival times are.  Every delta is rounded by itself, so
the error of a packet is the sum of the remainders up to it. -/

namespace LightLivechat.Transport.Udp

open LightLivechat.Lib LightLivechat.Lib.Bytes LightLivechat.Lib.Truncate

abbrev tick : Nat := 250000

inductive Op where
  | record (twccSeq : U16) (arrival : Instant)
  | feedback (mediaSsrc : U32)

def TwccRecorder.apply (r : TwccRecorder) : Op → TwccRecorder
  | .record twccSeq arrival => r.record twccSeq arrival
  | .feedback mediaSsrc => (buildTwccFeedback r mediaSsrc).1

def recorderOf (ops : List Op) : TwccRecorder := ops.foldl TwccRecorder.apply .new

def records (ops : List Op) : List (U16 × Instant) :=
  ops.filterMap fun
    | .record twccSeq arrival => some (twccSeq, arrival)
    | .feedback _ => none

/-- When the packet with this number arrived, the last time one did. -/
def arrivalOf (ops : List Op) (twccSeq : U16) : Option Instant :=
  (Ring.latest (fun x => x.1 = twccSeq) (records ops)).map Prod.snd

/-- The numbers of the packets reported as received. -/
def Feedback.received (f : Feedback) : List U16 :=
  ((List.range f.statuses.length).filter fun i => f.statuses.getD i .notReceived ≠ .notReceived).map
    fun i => f.baseSeq + BitVec.ofNat 16 i

/-- A receiver that adds up the deltas is less than a tick off, at every packet. -/
def Accurate (ops : List Op) (fb : Bytes) : Prop :=
  ∃ (f : Feedback) (base : Instant) (arrivals : List Instant), decodeTwccFeedback fb = some f ∧
    (records ops).head?.map Prod.snd = some base ∧
    f.received.map (arrivalOf ops) = arrivals.map some ∧ f.deltas.length = arrivals.length ∧
    ∀ k (hk : k < arrivals.length),
      ((f.referenceTime.toNat : Int) * 64000000 + (f.deltas.take (k + 1)).sum * tick -
        ((arrivals[k] : Int) - (base : Int))).natAbs < tick

def arrivalsOf (entries : List (Option ArrivalEntry)) : List Instant :=
  entries.filterMap fun e => e.map ArrivalEntry.arrival

def reportedArrivals (r : TwccRecorder) : List Instant := arrivalsOf (pendingEntries r)

/-- The differences along the arrivals, the first one to `p`. -/
def gaps (p : Instant) (arrivals : List Instant) : List Int :=
  diffs (Int.ofNat p) (arrivals.map Int.ofNat)

/-- What the roundings leave out, up to any packet, adds up to less than a tick. -/
def RemaindersBelowTick (r : TwccRecorder) : Prop :=
  ∀ base, r.baseTime = some base → ∀ k < (reportedArrivals r).length,
    ((remainders tick (gaps base (reportedArrivals r))).take (k + 1)).sum.natAbs < tick

section

variable (base : Instant)

def deltasFrom : Option Instant → List (Option ArrivalEntry) → List Int
  | _, [] => []
  | prev, none :: entries => deltasFrom prev entries
  | prev, some e :: entries => deltaTicks base prev e.arrival :: deltasFrom (some e.arrival) entries

def statusesFrom : Option Instant → List (Option ArrivalEntry) → List PacketStatus
  | _, [] => []
  | prev, none :: entries => .notReceived :: statusesFrom prev entries
  | prev, some e :: entries =>
    statusOf (deltaTicks base prev e.arrival) :: statusesFrom (some e.arrival) entries

@[simp] theorem arrivalsOf_none (entries : List (Option ArrivalEntry)) :
    arrivalsOf (none :: entries) = arrivalsOf entries := rfl

@[simp] theorem arrivalsOf_some (e : ArrivalEntry) (entries : List (Option ArrivalEntry)) :
    arrivalsOf (some e :: entries) = e.arrival :: arrivalsOf entries := rfl

@[simp] theorem gaps_cons (p a : Instant) (arrivals : List Instant) :
    gaps p (a :: arrivals) = ((a : Int) - (p : Int)) :: gaps a arrivals := rfl

theorem foldl_add (entries : List (Option ArrivalEntry)) (c : Collected) :
    (entries.foldl (Collected.add base) c).statuses =
        c.statuses ++ statusesFrom base c.prevArrival entries ∧
      (entries.foldl (Collected.add base) c).deltas =
        c.deltas ++ deltasFrom base c.prevArrival entries ∧
      (entries.foldl (Collected.add base) c).firstArrival =
        c.firstArrival.or (arrivalsOf entries).head? := by
  induction entries generalizing c with
  | nil => simp [statusesFrom, deltasFrom, arrivalsOf]
  | cons entry entries ih =>
    rw [List.foldl_cons]
    obtain ⟨hs, hd, hf⟩ := ih (c.add base entry)
    rw [hs, hd, hf]
    cases entry with
    | none => simp [Collected.add, statusesFrom, deltasFrom]
    | some e => cases h : c.firstArrival <;> simp [Collected.add, statusesFrom, deltasFrom, h]

theorem deltaTicks_next (prev arrival : Instant) :
    deltaTicks base (some prev) arrival = ((arrival : Int) - (prev : Int)).tdiv tick := by
  simp only [deltaTicks, asMicros, Nat.div_div_eq_div_mul]
  split
  · rename_i h
    rw [← Int.ofNat_sub h, Int.ofNat_tdiv]
  · rename_i h
    have hneg : (arrival : Int) - (prev : Int) = -((prev - arrival : Nat) : Int) := by
      rw [Int.ofNat_sub (Nat.le_of_lt (Nat.not_le.mp h))]
      omega
    rw [hneg, Int.neg_tdiv, Int.ofNat_tdiv]

theorem deltaTicks_first (arrival : Instant) :
    deltaTicks base none arrival =
      ((arrival - base) / tick : Nat) - ((arrival - base) / tick / 256 : Nat) * 256 := by
  simp only [deltaTicks, asMicros, Nat.div_div_eq_div_mul, tick]
  omega

theorem deltasFrom_some (prev : Instant) (entries : List (Option ArrivalEntry)) :
    deltasFrom base (some prev) entries = ticks tick (gaps prev (arrivalsOf entries)) := by
  induction entries generalizing prev with
  | nil => rfl
  | cons entry entries ih =>
    cases entry with
    | none => exact ih prev
    | some e => simp [deltasFrom, ih, deltaTicks_next, ticks]

theorem deltasFrom_none {entries : List (Option ArrivalEntry)} {first : Instant}
    {rest : List Instant} (h : arrivalsOf entries = first :: rest) :
    deltasFrom base none entries =
      deltaTicks base none first :: ticks tick (gaps first rest) := by
  induction entries with
  | nil => cases h
  | cons entry entries ih =>
    cases entry with
    | none => exact ih h
    | some e =>
      simp only [arrivalsOf_some, List.cons.injEq] at h
      obtain ⟨rfl, rfl⟩ := h
      rw [deltasFrom, deltasFrom_some]

theorem statusOf_bounds {d : Int} (lo : -8192 ≤ d) (hi : d ≤ 8191) {ss : List PacketStatus}
    {ds : List Int} (h : Matches ss ds) : Matches (statusOf d :: ss) (d :: ds) := by
  unfold statusOf
  split
  · rename_i hd
    exact .smallDelta hd.1 hd.2 h
  · exact .largeDelta lo hi h

theorem ticks_bounds {a b : Instant} (h : ((b : Int) - (a : Int)).natAbs < 2000000000) :
    -8192 ≤ ((b : Int) - (a : Int)).tdiv tick ∧ ((b : Int) - (a : Int)).tdiv tick ≤ 8191 := by
  generalize (b : Int) - (a : Int) = d at h
  have habs : (d.tdiv tick).natAbs = d.natAbs / 250000 := Int.natAbs_tdiv d tick
  omega

/-- Two arrivals are closer than two seconds. -/
abbrev Near (a b : Instant) : Prop := ((b : Int) - (a : Int)).natAbs < 2000000000

theorem matches_some {prev : Instant} {entries : List (Option ArrivalEntry)}
    (h : (prev :: arrivalsOf entries).IsChain Near) :
    Matches (statusesFrom base (some prev) entries) (deltasFrom base (some prev) entries) := by
  induction entries generalizing prev with
  | nil => exact .nil
  | cons entry entries ih =>
    cases entry with
    | none => exact .notReceived (ih h)
    | some e =>
      rw [arrivalsOf_some, List.isChain_cons_cons] at h
      obtain ⟨lo, hi⟩ := ticks_bounds h.1
      rw [statusesFrom, deltasFrom, deltaTicks_next]
      exact statusOf_bounds lo hi (ih h.2)

theorem matches_none {entries : List (Option ArrivalEntry)}
    (h : (arrivalsOf entries).IsChain Near) :
    Matches (statusesFrom base none entries) (deltasFrom base none entries) := by
  induction entries with
  | nil => exact .nil
  | cons entry entries ih =>
    cases entry with
    | none => exact .notReceived (ih h)
    | some e =>
      rw [arrivalsOf_some] at h
      rw [statusesFrom, deltasFrom]
      refine statusOf_bounds ?_ ?_ (matches_some base h) <;> rw [deltaTicks_first] <;> omega

theorem length_statusesFrom (prev : Option Instant) (entries : List (Option ArrivalEntry)) :
    (statusesFrom base prev entries).length = entries.length := by
  induction entries generalizing prev with
  | nil => rfl
  | cons entry entries ih => cases entry <;> simp [statusesFrom, ih]

theorem statusesFrom_getD (prev : Option Instant) (entries : List (Option ArrivalEntry)) (i : Nat) :
    (statusesFrom base prev entries).getD i .notReceived ≠ .notReceived ↔
      (entries.getD i none).isSome := by
  induction entries generalizing prev i with
  | nil => simp [statusesFrom]
  | cons entry entries ih =>
    cases i with
    | zero =>
      cases entry with
      | none => simp [statusesFrom]
      | some e =>
        simp only [statusesFrom, List.getD_cons_zero, statusOf, Option.isSome_some, iff_true]
        split <;> simp
    | succ i => cases entry <;> exact ih _ i

end

section

variable {r : TwccRecorder} {base : Instant} {ssrc : U32} {fb : Bytes}

theorem collect_eq (base : Instant) (entries : List (Option ArrivalEntry)) :
    (collect base entries).statuses = statusesFrom base none entries ∧
      (collect base entries).deltas = deltasFrom base none entries ∧
      (collect base entries).firstArrival = (arrivalsOf entries).head? := by
  simpa [collect, Collected.empty] using foldl_add base entries Collected.empty

theorem buildTwccFeedback_eq_some (h : (buildTwccFeedback r ssrc).2 = some fb) :
    ∃ base first rest, r.baseTime = some base ∧ reportedArrivals r = first :: rest ∧
      fb = feedbackBytes ssrc r.pendingBaseSeq r.pendingCount
        (BitVec.ofNat 32 ((first - base) / 64000000) &&& 0x00FFFFFF) r.fbPktCount
        (encodeStatusChunks (statusesFrom base none (pendingEntries r)))
        (encodeRecvDeltas (statusesFrom base none (pendingEntries r))
          (deltasFrom base none (pendingEntries r))) := by
  simp only [buildTwccFeedback] at h
  split at h
  · cases h
  split at h
  · cases h
  rename_i base hbase
  split at h
  · cases h
  split at h
  · cases h
  rename_i first hfirst
  obtain ⟨hs, hd, hf⟩ := collect_eq base (pendingEntries r)
  rw [hf] at hfirst
  obtain ⟨rest, hrest⟩ := List.head?_eq_some_iff.mp hfirst
  refine ⟨base, first, rest, hbase, hrest, ?_⟩
  simp only [hs, hd, asMicros, Nat.div_div_eq_div_mul, Option.some.injEq] at h
  exact h.symm

theorem buildTwccFeedback_of_get (ssrc : U32) (hstarted : r.started = true)
    (hbase : r.baseTime.isSome) (hcap : r.pendingCount.toNat ≤ Config.twccRecorderCapacity)
    {i : Nat} (hi : i < r.pendingCount.toNat)
    (hget : (r.get (r.pendingBaseSeq + BitVec.ofNat 16 i)).isSome) :
    ∃ fb, (buildTwccFeedback r ssrc).2 = some fb := by
  obtain ⟨base, hbase⟩ := Option.isSome_iff_exists.mp hbase
  obtain ⟨e, hget⟩ := Option.isSome_iff_exists.mp hget
  have hcount : r.pendingCount ≠ 0#16 := fun h => by simp [h] at hi
  have hmem : some e ∈ pendingEntries r :=
    List.mem_map.mpr ⟨i, List.mem_range.mpr hi, hget⟩
  have harrival : e.arrival ∈ reportedArrivals r := List.mem_filterMap.mpr ⟨some e, hmem, rfl⟩
  obtain ⟨first, hfirst⟩ := Option.isSome_iff_exists.mp
    (List.isSome_head?.mpr (List.ne_nil_of_mem harrival))
  have hcollect := (collect_eq base (pendingEntries r)).2.2.trans hfirst
  simp [buildTwccFeedback, hstarted, hcount, hbase, Nat.not_lt.mpr hcap, hcollect]

end

/-- What a recorder keeps of the history it was driven through. -/
structure Follows (ops : List Op) (r : TwccRecorder) : Prop where
  arrivals : r.arrivals = (records ops).foldl
    (fun slots x => Ring.put slots (TwccRecorder.slot x.1) ⟨x.1, x.2⟩) Ring.empty
  started : r.started = !(records ops).isEmpty
  baseTime : r.baseTime = (records ops).head?.map Prod.snd

theorem Follows.record {ops : List Op} {r : TwccRecorder} (h : Follows ops r) (twccSeq : U16)
    (arrival : Instant) :
    Follows (ops ++ [.record twccSeq arrival]) (r.record twccSeq arrival) := by
  have hrecords : records (ops ++ [.record twccSeq arrival]) =
      records ops ++ [(twccSeq, arrival)] := by simp [records]
  obtain ⟨h1, h2, h3⟩ := h
  generalize records ops = rs at *
  cases rs with
  | nil =>
    simp only [List.isEmpty_nil, Bool.not_true] at h2
    exact {
      arrivals := by simp [TwccRecorder.record, h1, h2, hrecords]
      started := by simp [TwccRecorder.record, h2, hrecords]
      baseTime := by simp [TwccRecorder.record, h2, hrecords] }
  | cons x rs =>
    simp only [List.isEmpty_cons, Bool.not_false] at h2
    constructor <;> simp only [TwccRecorder.record, h2, if_true, hrecords] <;> split <;>
      simp [h1, h3]

theorem Follows.feedback {ops : List Op} {r : TwccRecorder} (h : Follows ops r) (ssrc : U32) :
    Follows (ops ++ [.feedback ssrc]) (buildTwccFeedback r ssrc).1 := by
  have hrecords : records (ops ++ [.feedback ssrc]) = records ops := by simp [records]
  have hsame : (buildTwccFeedback r ssrc).1.arrivals = r.arrivals ∧
      (buildTwccFeedback r ssrc).1.started = r.started ∧
      (buildTwccFeedback r ssrc).1.baseTime = r.baseTime := by
    simp only [buildTwccFeedback]
    repeat' split
    all_goals exact ⟨rfl, rfl, rfl⟩
  exact {
    arrivals := by rw [hsame.1, hrecords, h.arrivals]
    started := by rw [hsame.2.1, hrecords, h.started]
    baseTime := by rw [hsame.2.2, hrecords, h.baseTime] }

theorem recorderOf_follows (ops : List Op) : Follows ops (recorderOf ops) := by
  induction ops using List.reverseRecOn with
  | nil => exact ⟨rfl, rfl, rfl⟩
  | append_singleton ops op ih =>
    rw [recorderOf, List.foldl_append]
    cases op with
    | record twccSeq arrival => exact ih.record twccSeq arrival
    | feedback ssrc => exact ih.feedback ssrc

section

variable {ops : List Op} {e : ArrivalEntry} {twccSeq : U16}

theorem arrivals_recorderOf (ops : List Op) (i : Fin Config.twccRecorderCapacity) :
    (recorderOf ops).arrivals i =
      (Ring.latest (fun x => TwccRecorder.slot x.1 = i) (records ops)).map
        fun x => ⟨x.1, x.2⟩ := by
  rw [(recorderOf_follows ops).arrivals, Ring.foldl_put (fun x : U16 × Instant =>
    TwccRecorder.slot x.1) (fun x => (⟨x.1, x.2⟩ : ArrivalEntry))]
  exact Option.or_none

/-- An entry in the ring is the latest record of its number. -/
theorem get_recorderOf (h : (recorderOf ops).get twccSeq = some e) :
    arrivalOf ops twccSeq = some e.arrival ∧ (twccSeq, e.arrival) ∈ records ops := by
  obtain ⟨hslot, hseq⟩ := Option.filter_eq_some_iff.mp h
  rw [arrivals_recorderOf] at hslot
  obtain ⟨x, hlatest, rfl⟩ := Option.map_eq_some_iff.mp hslot
  obtain rfl : x.1 = twccSeq := by simpa using hseq
  refine ⟨?_, (Ring.latest_some hlatest).1⟩
  rw [arrivalOf, Ring.latest_of_imp hlatest (by simp) (by simp +contextual)]
  rfl

theorem base_le_arrival (hmono : (records ops).Pairwise fun x y => x.2 ≤ y.2) {base : Instant}
    (hbase : (recorderOf ops).baseTime = some base) {x : U16 × Instant} (hx : x ∈ records ops) :
    base ≤ x.2 := by
  rw [(recorderOf_follows ops).baseTime] at hbase
  cases hrs : records ops with
  | nil => simp [hrs] at hx
  | cons y rs =>
    rw [hrs] at hmono hx hbase
    obtain rfl : y.2 = base := by simpa using hbase
    rcases List.mem_cons.mp hx with rfl | hx
    · exact Nat.le_refl _
    · exact (List.pairwise_cons.mp hmono).1 x hx

theorem map_filter_isSome {α β γ : Type} (e : α → Option β) (f : β → γ) (l : List α) :
    (l.filter fun i => (e i).isSome).map (fun i => (e i).map f) =
      ((l.map e).filterMap fun x => x.map f).map some := by
  induction l with
  | nil => rfl
  | cons i l ih => cases h : e i <;> simp [h, ih]

theorem received_arrivals (f : Feedback) (hbase : f.baseSeq = (recorderOf ops).pendingBaseSeq)
    {base : Instant} (hstatuses : f.statuses =
      statusesFrom base none (pendingEntries (recorderOf ops))) :
    f.received.map (arrivalOf ops) = (reportedArrivals (recorderOf ops)).map some := by
  obtain ⟨r, hr⟩ : ∃ r, r = recorderOf ops := ⟨_, rfl⟩
  rw [← hr] at hbase hstatuses ⊢
  have hentry : ∀ i < r.pendingCount.toNat, (pendingEntries r).getD i none =
      r.get (r.pendingBaseSeq + BitVec.ofNat 16 i) := by
    intro i hi
    simp [pendingEntries, List.getD_eq_getElem?_getD, hi]
  have hlen : f.statuses.length = r.pendingCount.toNat := by
    rw [hstatuses, length_statusesFrom, pendingEntries, List.length_map, List.length_range]
  rw [reportedArrivals, arrivalsOf, pendingEntries, ← map_filter_isSome, Feedback.received,
    List.map_map, hlen]
  have hfilter : ((List.range r.pendingCount.toNat).filter fun i =>
        f.statuses.getD i .notReceived ≠ .notReceived) =
      (List.range r.pendingCount.toNat).filter fun i =>
        (r.get (r.pendingBaseSeq + BitVec.ofNat 16 i)).isSome := by
    refine List.filter_congr fun i hi => ?_
    rw [hstatuses, Bool.eq_iff_iff, decide_eq_true_iff, statusesFrom_getD,
      hentry i (List.mem_range.mp hi)]
  rw [hfilter]
  refine List.map_congr_left fun i hi => ?_
  obtain ⟨e, he⟩ := Option.isSome_iff_exists.mp (List.mem_filter.mp hi).2
  have he' : (recorderOf ops).get (r.pendingBaseSeq + BitVec.ofNat 16 i) = some e := by
    rw [← hr, he]
  rw [Function.comp_apply, hbase, he, (get_recorderOf he').1]
  rfl

end

/-- The error at a packet is the sum of the remainders up to it. -/
theorem error_eq {base first : Instant} {rest : List Instant} (hle : base ≤ first) {k : Nat}
    (hk : k < (first :: rest).length) :
    (((first - base) / 64000000 : Nat) : Int) * 64000000 +
        ((deltaTicks base none first :: ticks tick (gaps first rest)).take (k + 1)).sum * tick -
        (((first :: rest)[k] : Int) - (base : Int)) =
      -((remainders tick (gaps base (first :: rest))).take (k + 1)).sum := by
  have hk' : k < ((first :: rest).map Int.ofNat).length := by simpa using hk
  have hdrift := drift tick (Int.ofNat base) hk'
  have hfirst : deltaTicks base none first + ((first - base) / 64000000 : Nat) * 256 =
      ((first : Int) - (base : Int)).tdiv tick := by
    rw [deltaTicks_first, ← Int.ofNat_sub hle, Int.ofNat_tdiv]
    simp only [tick]
    omega
  have hticks : ticks tick (gaps base (first :: rest)) =
      ((first : Int) - (base : Int)).tdiv tick :: ticks tick (gaps first rest) := rfl
  have hgaps : gaps base (first :: rest) =
      diffs (Int.ofNat base) ((first :: rest).map Int.ofNat) := rfl
  rw [← hgaps, hticks, List.take_succ_cons, List.sum_cons, ← hfirst, List.getElem_map] at hdrift
  rw [List.take_succ_cons, List.sum_cons]
  simp only [tick] at hdrift ⊢
  change _ * _ + _ - (Int.ofNat _ - Int.ofNat _) = _
  generalize (List.take k (ticks _ (gaps first rest))).sum = s at *
  rw [← hdrift]
  omega

theorem base_le_first {ops : List Op} (hmono : (records ops).Pairwise fun x y => x.2 ≤ y.2)
    {base first : Instant} {rest : List Instant} (hbase : (recorderOf ops).baseTime = some base)
    (hreported : reportedArrivals (recorderOf ops) = first :: rest) : base ≤ first := by
  have hmem : first ∈ reportedArrivals (recorderOf ops) := hreported ▸ List.mem_cons_self
  obtain ⟨entry, hentry, harrival⟩ := List.mem_filterMap.mp hmem
  obtain ⟨e, rfl, rfl⟩ := Option.map_eq_some_iff.mp harrival
  obtain ⟨i, -, hget⟩ := List.mem_map.mp hentry
  exact base_le_arrival hmono hbase (get_recorderOf hget).2

theorem referenceTime_toNat {n : Nat} (h : n < 2 ^ 24) :
    ((BitVec.ofNat 32 n &&& 0x00FFFFFF).extractLsb' 0 24).toNat = n := by
  have hmask : (0x00FFFFFF : U32).toNat = 2 ^ 24 - 1 := rfl
  rw [BitVec.extractLsb'_toNat, BitVec.toNat_and, BitVec.toNat_ofNat, hmask,
    Nat.and_two_pow_sub_one_eq_mod, Nat.shiftRight_zero]
  omega

/-- What a receiver reads from a packet, in terms of the recorder it was made from. -/
theorem decode_buildTwccFeedback {r : TwccRecorder} {base first : Instant} {rest : List Instant}
    (ssrc : U32) (hreported : reportedArrivals r = first :: rest)
    (hnear : (reportedArrivals r).IsChain Near) (hwrap : (first - base) / 64000000 < 2 ^ 24) :
    ∃ f, decodeTwccFeedback (feedbackBytes ssrc r.pendingBaseSeq r.pendingCount
          (BitVec.ofNat 32 ((first - base) / 64000000) &&& 0x00FFFFFF) r.fbPktCount
          (encodeStatusChunks (statusesFrom base none (pendingEntries r)))
          (encodeRecvDeltas (statusesFrom base none (pendingEntries r))
            (deltasFrom base none (pendingEntries r)))) = some f ∧
      f.baseSeq = r.pendingBaseSeq ∧ f.referenceTime.toNat = (first - base) / 64000000 ∧
      f.statuses = statusesFrom base none (pendingEntries r) ∧
      f.deltas = deltaTicks base none first :: ticks tick (gaps first rest) := by
  have hcount : r.pendingCount.toNat = (statusesFrom base none (pendingEntries r)).length := by
    rw [length_statusesFrom, pendingEntries, List.length_map, List.length_range]
  have hmatches := matches_none base hnear
  exact ⟨_, decode_feedbackBytes hmatches.announces ssrc r.pendingBaseSeq r.pendingCount _
    r.fbPktCount hcount, rfl, referenceTime_toNat hwrap, rfl,
    hmatches.map_sentDelta.trans (deltasFrom_none base hreported)⟩

/-- A feedback packet is exact to the tick just as long as the remainders of the
separately rounded deltas, added up to any reported packet, stay below a tick. -/
theorem feedback_accurate_iff (ops : List Op) (ssrc : U32) {fb : Bytes}
    (hmono : (records ops).Pairwise fun x y => x.2 ≤ y.2)
    (hfb : (buildTwccFeedback (recorderOf ops) ssrc).2 = some fb)
    (hnear : (reportedArrivals (recorderOf ops)).IsChain Near)
    (hwrap : ∀ base first rest, (recorderOf ops).baseTime = some base →
      reportedArrivals (recorderOf ops) = first :: rest → (first - base) / 64000000 < 2 ^ 24) :
    Accurate ops fb ↔ RemaindersBelowTick (recorderOf ops) := by
  obtain ⟨base, first, rest, hbase, hreported, rfl⟩ := buildTwccFeedback_eq_some hfb
  have hle := base_le_first hmono hbase hreported
  obtain ⟨f, hdecode, hseq, href, hstatuses, hdeltas⟩ :=
    decode_buildTwccFeedback ssrc hreported hnear (hwrap base first rest hbase hreported)
  have hreceived : f.received.map (arrivalOf ops) = (first :: rest).map some :=
    hreported ▸ received_arrivals f hseq hstatuses
  have hfirst : (records ops).head?.map Prod.snd = some base :=
    (recorderOf_follows ops).baseTime ▸ hbase
  have hlen : f.deltas.length = (first :: rest).length := by simp [hdeltas, ticks, gaps]
  have herror : ∀ k (hk : k < (first :: rest).length),
      ((f.referenceTime.toNat : Int) * 64000000 + (f.deltas.take (k + 1)).sum * tick -
          (((first :: rest)[k] : Int) - (base : Int))).natAbs =
        ((remainders tick (gaps base (first :: rest))).take (k + 1)).sum.natAbs := by
    intro k hk
    rw [href, hdeltas, error_eq hle hk, Int.natAbs_neg]
  constructor
  · rintro ⟨f', base', arrivals, hdecode', hfirst', hreceived', -, haccurate⟩ base'' hbase'' k hk
    obtain rfl : f = f' := Option.some.inj (hdecode.symm.trans hdecode')
    obtain rfl : base = base' := Option.some.inj (hfirst.symm.trans hfirst')
    obtain rfl : base = base'' := Option.some.inj (hbase.symm.trans hbase'')
    have harrivals : first :: rest = arrivals :=
      (List.map_inj_right fun _ _ h => Option.some.inj h).mp (hreceived.symm.trans hreceived')
    subst harrivals
    rw [hreported] at hk ⊢
    rw [← herror k hk]
    exact haccurate k hk
  · intro hsmall
    refine ⟨f, base, first :: rest, hdecode, hfirst, hreceived, hlen, fun k hk => ?_⟩
    have := hsmall base hbase k (hreported ▸ hk)
    rwa [hreported, ← herror k hk] at this

/-- Three packets, each a little less than a tick after the one before. -/
def closePackets : List Op := [.record 0 0, .record 1 200000, .record 2 400000]

def closeFeedback : Bytes :=
  [0xAF, 205, 0, 7, 0, 0, 0, 1, 0, 0, 0, 7, 0, 0, 0, 3, 0, 0, 0, 0,
    0xD5, 0, 0, 0, 0, 0, 0, 0, 0, 0, 0, 3]

def tickPackets : List Op := [.record 0 0, .record 1 250000, .record 2 500000]

def tickFeedback : Bytes :=
  [0xAF, 205, 0, 7, 0, 0, 0, 1, 0, 0, 0, 7, 0, 0, 0, 3, 0, 0, 0, 0,
    0xD5, 0, 0, 1, 1, 0, 0, 0, 0, 0, 0, 3]

theorem feedback_accurate_iff_close :
    Accurate tickPackets tickFeedback ∧
      ¬ Accurate closePackets closeFeedback ∧ ¬ RemaindersBelowTick (recorderOf closePackets) := by
  have hiff : Accurate closePackets closeFeedback ↔ RemaindersBelowTick (recorderOf closePackets) :=
    feedback_accurate_iff closePackets 7 (by decide) rfl (by decide)
      (by rintro base first rest ⟨⟩ ⟨⟩; decide)
  have hsum : ¬ RemaindersBelowTick (recorderOf closePackets) := fun h =>
    absurd (h 0 rfl 2 (by decide)) (by decide)
  refine ⟨(feedback_accurate_iff tickPackets 7 (by decide) rfl (by decide)
    (by rintro base first rest ⟨⟩ ⟨⟩; decide)).mpr ?_, fun h => hsum (hiff.mp h), hsum⟩
  rintro base ⟨⟩
  decide

/-- The third packet is reported 400 µs before it arrived. -/
theorem roundings_add_up :
    ¬ ∀ (ops : List Op) (ssrc : U32) (fb : Bytes),
      (records ops).Pairwise (fun x y => x.2 ≤ y.2) →
      (buildTwccFeedback (recorderOf ops) ssrc).2 = some fb →
      (reportedArrivals (recorderOf ops)).IsChain Near →
      (∀ base first rest, (recorderOf ops).baseTime = some base →
        reportedArrivals (recorderOf ops) = first :: rest → (first - base) / 64000000 < 2 ^ 24) →
      Accurate ops fb := by
  intro h
  obtain ⟨f, base, arrivals, hdecode, hbase, hreceived, -, haccurate⟩ :=
    h closePackets 7 closeFeedback (by decide) rfl (by decide)
      (by rintro base first rest ⟨⟩ ⟨⟩; decide)
  cases hdecode
  cases hbase
  obtain rfl : [0, 200000, 400000] = arrivals :=
    (List.map_inj_right fun _ _ h => Option.some.inj h).mp hreceived
  exact absurd (haccurate 2 (by decide)) (by decide)

end LightLivechat.Transport.Udp
