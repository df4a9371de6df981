import LightLivechat.Lib.Runs
import LightLivechat.Transport.Udp.TwccRoundTrip

/-! Which packets a run of feedbacks reports.  Each feedback covers the numbers from where
the one before ended up to the highest recorded, so no number is covered twice, and a
packet that comes after the feedback about its number is in none. -/

namespace LightLivechat.Transport.Udp

open LightLivechat.Lib LightLivechat.Lib.Bytes LightLivechat.Lib.Runs LightLivechat.Lib.Serial

/-- A call on the recorder; the number of a packet is the one it had before it was cut to
sixteen bits. -/
inductive Call where
  | record (n : Nat) (arrival : Instant)
  | feedback (mediaSsrc : U32)

def Call.op : Call → Op
  | .record n arrival => .record (BitVec.ofNat 16 n) arrival
  | .feedback mediaSsrc => .feedback mediaSsrc

def recorderAfter (calls : List Call) : TwccRecorder := recorderOf (calls.map Call.op)

def numbers (calls : List Call) : List Nat :=
  calls.filterMap fun
    | .record n _ => some n
    | .feedback _ => none

/-- The first number that no feedback has covered, and the highest one recorded. -/
structure Window where
  base : Nat
  high : Nat
  deriving DecidableEq

def Window.after : Option Window → Call → Option Window
  | none, .record n _ => some ⟨n, n⟩
  | some w, .record n _ => some { w with high := max w.high n }
  | none, .feedback _ => none
  | some w, .feedback _ => some { w with base := w.high + 1 }

def window (calls : List Call) : Option Window := calls.foldl Window.after none

/-- A feedback about this number has been built. -/
def Covered (calls : List Call) (n : Nat) : Prop := ∃ w ∈ window calls, n < w.base

/-- Each number is recorded once, none below the first one or too far from the highest one
so far, and no feedback is to cover more numbers than the recorder has slots. -/
def Allowed (calls : List Call) : Call → Prop
  | .record n _ => n ∉ numbers calls ∧ (∀ first ∈ (numbers calls).head?, first ≤ n) ∧
      ∀ w ∈ window calls, n ≤ w.high + 8191 ∧ w.high ≤ n + 8191
  | .feedback _ => ∀ w ∈ window calls, w.high + 1 ≤ w.base + 8192

instance (calls : List Call) : (call : Call) → Decidable (Allowed calls call)
  | .record _ _ => inferInstanceAs (Decidable (_ ∧ _ ∧ _))
  | .feedback _ => inferInstanceAs (Decidable (∀ _ ∈ window calls, _))

def after (calls : List Call) (call : Call) : Option (List Call) := some (calls ++ [call])

def Admissible (calls : List Call) : Prop := Along after Allowed [] calls

instance (calls : List Call) : Decidable (Admissible calls) :=
  inferInstanceAs (Decidable (Along after Allowed [] calls))

/-- A feedback built now has the packet with this number as received: among the numbers
with the same sixteen bits, the one next below the highest recorded. -/
def Reports (calls : List Call) (mediaSsrc : U32) (n : Nat) : Prop :=
  (∃ fb f, (buildTwccFeedback (recorderAfter calls) mediaSsrc).2 = some fb ∧
    decodeTwccFeedback fb = some f ∧ BitVec.ofNat 16 n ∈ f.received) ∧
  (∃ m ∈ numbers calls, n ≤ m) ∧ ∀ m ∈ numbers calls, m < n + 2 ^ 16

def ReportedAt (calls : List Call) (j n : Nat) : Prop :=
  ∃ mediaSsrc, calls[j]? = some (.feedback mediaSsrc) ∧ Reports (calls.take j) mediaSsrc n

/-- The packet recorded last in the slot this number belongs to. -/
def lastInSlot (calls : List Call) (n : Nat) : Option Nat :=
  Ring.latest (fun m => m % Config.twccRecorderCapacity = n % Config.twccRecorderCapacity)
    (numbers calls)

/-- The slot still holds another packet whose number has the same sixteen bits. -/
def Stale (calls : List Call) (n : Nat) : Prop :=
  ∃ m ∈ lastInSlot calls n, m ≠ n ∧ m % 2 ^ 16 = n % 2 ^ 16

section

variable (calls : List Call) (n : Nat) (arrival : Instant) (ssrc : U32)

@[simp] theorem numbers_record :
    numbers (calls ++ [.record n arrival]) = numbers calls ++ [n] := by simp [numbers]

@[simp] theorem numbers_feedback : numbers (calls ++ [.feedback ssrc]) = numbers calls := by
  simp [numbers]

theorem window_snoc (call : Call) :
    window (calls ++ [call]) = Window.after (window calls) call := by
  rw [window, List.foldl_append, List.foldl_cons, List.foldl_nil, window]

theorem recorderAfter_snoc (call : Call) :
    recorderAfter (calls ++ [call]) = (recorderAfter calls).apply call.op := by
  rw [recorderAfter, List.map_append, List.map_cons, List.map_nil, recorderOf, List.foldl_append]
  rfl

theorem records_numbers :
    (records (calls.map Call.op)).map Prod.fst = (numbers calls).map (BitVec.ofNat 16) := by
  induction calls with
  | nil => rfl
  | cons call calls ih =>
    cases call with
    | record n arrival => exact congrArg (BitVec.ofNat 16 n :: ·) ih
    | feedback ssrc => exact ih

theorem run_after (pre : List Call) : run after pre calls = some (pre ++ calls) := by
  induction calls generalizing pre with
  | nil => rw [List.append_nil]; rfl
  | cons call calls ih => rw [run_step rfl, ih, List.append_assoc]; rfl

theorem admissible_snoc (call : Call) :
    Admissible (calls ++ [call]) ↔ Admissible calls ∧ Allowed calls call := by
  rw [Admissible, along_append, Admissible]
  refine and_congr_right fun _ => ⟨fun h => (h calls (run_after calls [])).head, fun h t ht => ?_⟩
  cases (run_after calls []).symm.trans ht
  exact ⟨h, fun _ _ => trivial⟩

theorem ofNat_eq_iff (m : Nat) :
    BitVec.ofNat 16 m = BitVec.ofNat 16 n ↔ m % 2 ^ 16 = n % 2 ^ 16 := by
  rw [← BitVec.toNat_inj, BitVec.toNat_ofNat, BitVec.toNat_ofNat]

theorem slot_eq_iff (m : Nat) :
    TwccRecorder.slot (BitVec.ofNat 16 m) = TwccRecorder.slot (BitVec.ofNat 16 n) ↔
      m % Config.twccRecorderCapacity = n % Config.twccRecorderCapacity := by
  simp only [TwccRecorder.slot, Fin.mk.injEq, BitVec.toNat_ofNat, Config.twccRecorderCapacity]
  omega

theorem last_recorded : (lastInSlot calls n).map (BitVec.ofNat 16) =
    (Ring.latest (fun x => TwccRecorder.slot x.1 = TwccRecorder.slot (BitVec.ofNat 16 n))
      (records (calls.map Call.op))).map Prod.fst := by
  rw [← Ring.latest_map Prod.fst
    (fun s => TwccRecorder.slot s = TwccRecorder.slot (BitVec.ofNat 16 n)), records_numbers,
    Ring.latest_map, lastInSlot]
  simp only [slot_eq_iff]

theorem get_isSome_iff : ((recorderAfter calls).get (BitVec.ofNat 16 n)).isSome ↔
    ∃ m ∈ lastInSlot calls n, m % 2 ^ 16 = n % 2 ^ 16 := by
  have hlast := last_recorded calls n
  rw [TwccRecorder.get, recorderAfter, arrivals_recorderOf]
  cases hm : lastInSlot calls n with
  | none =>
    rw [hm] at hlast
    have hnone := Option.map_eq_none_iff.mp hlast.symm
    simp [hnone]
  | some m =>
    rw [hm] at hlast
    obtain ⟨x, hx, hseq⟩ := Option.map_eq_some_iff.mp hlast.symm
    simpa [hx, hseq] using ofNat_eq_iff n m

theorem started_recorderAfter : (recorderAfter calls).started = !(numbers calls).isEmpty := by
  rw [recorderAfter, (recorderOf_follows (calls.map Call.op)).started, ← List.isEmpty_map,
    records_numbers, List.isEmpty_map]

theorem window_eq_none_iff : window calls = none ↔ numbers calls = [] := by
  induction calls using List.reverseRecOn with
  | nil => exact ⟨fun _ => rfl, fun _ => rfl⟩
  | append_singleton calls call ih =>
    rw [window_snoc]
    cases call with
    | record n arrival => cases window calls <;> simp [Window.after]
    | feedback ssrc =>
      rw [numbers_feedback, ← ih]
      cases window calls <;> simp [Window.after]

end

/-- Where the recorder is in its run. -/
structure Tracked (calls : List Call) (w : Window) : Prop where
  maxSeq : (recorderAfter calls).maxSeq = BitVec.ofNat 16 w.high
  pendingBaseSeq : (recorderAfter calls).pendingBaseSeq = BitVec.ofNat 16 w.base
  high_mem : w.high ∈ numbers calls
  le_high : ∀ n ∈ numbers calls, n ≤ w.high
  base_le : w.base ≤ w.high + 1
  spaced : (numbers calls).Pairwise fun m n => m ≠ n ∧ m ≤ n + 8191

section

variable {calls : List Call} {w : Window} {n : Nat} {ssrc : U32}

theorem Tracked.started (h : Tracked calls w) : (recorderAfter calls).started = true := by
  rw [started_recorderAfter, List.isEmpty_eq_false_iff.mpr (List.ne_nil_of_mem h.high_mem)]
  rfl

theorem sub_ofNat {m n : Nat} (hle : n ≤ m) :
    BitVec.ofNat 16 m - BitVec.ofNat 16 n = BitVec.ofNat 16 (m - n) := by
  rw [← BitVec.toNat_inj]
  simp only [BitVec.toNat_sub, BitVec.toNat_ofNat]
  omega

theorem newer_iff {h : Nat} (hn : n ≤ h + 8191) (hh : h ≤ n + 8191) :
    Ahead (BitVec.ofNat 16 n) (BitVec.ofNat 16 h) ↔ h < n := by
  rw [← BitVec.ofInt_natCast, ← BitVec.ofInt_natCast, ahead_ofInt_iff (by omega) (by omega),
    Int.ofNat_lt]

theorem tracked_first (hnone : window calls = none) (arrival : Instant) :
    Tracked (calls ++ [.record n arrival]) ⟨n, n⟩ := by
  have hempty := (window_eq_none_iff calls).mp hnone
  have hstarted := started_recorderAfter calls
  rw [hempty] at hstarted
  constructor <;>
    simp [recorderAfter_snoc, Call.op, TwccRecorder.apply, TwccRecorder.record, hstarted, hempty]

theorem Tracked.record (h : Tracked calls w) (hw : window calls = some w) {arrival : Instant}
    (hallowed : Allowed calls (.record n arrival)) :
    Tracked (calls ++ [.record n arrival]) { w with high := max w.high n } := by
  obtain ⟨hnew, -, hclose⟩ := hallowed
  obtain ⟨hn, hh⟩ := hclose w hw
  have hrecord : recorderAfter (calls ++ [.record n arrival]) =
      (recorderAfter calls).record (BitVec.ofNat 16 n) arrival := recorderAfter_snoc ..
  have hnewer := newer_iff hn hh
  rw [← h.maxSeq] at hnewer
  obtain ⟨hmax, hpending, -⟩ := record_started h.started (BitVec.ofNat 16 n) arrival
  exact {
    maxSeq := by
      rw [hrecord, hmax]
      simp only [hnewer]
      split
      · rename_i hlt
        rw [Nat.max_eq_right (Nat.le_of_lt hlt)]
      · rename_i hle
        rw [Nat.max_eq_left (Nat.le_of_not_lt hle), ← h.maxSeq]
    pendingBaseSeq := by rw [hrecord, hpending, h.pendingBaseSeq]
    high_mem := by
      rw [numbers_record, List.mem_append, List.mem_singleton]
      rcases Nat.le_total w.high n with hle | hle
      · exact .inr (Nat.max_eq_right hle)
      · rw [Nat.max_eq_left hle]
        exact .inl h.high_mem
    le_high := by
      intro m hm
      rw [numbers_record, List.mem_append, List.mem_singleton] at hm
      rcases hm with hm | rfl
      · exact Nat.le_trans (h.le_high m hm) (Nat.le_max_left ..)
      · exact Nat.le_max_right ..
    base_le := Nat.le_trans h.base_le (Nat.succ_le_succ (Nat.le_max_left ..))
    spaced := by
      rw [numbers_record, List.pairwise_append]
      refine ⟨h.spaced, List.pairwise_singleton .., fun m hm n' hn' => ?_⟩
      obtain rfl := List.mem_singleton.mp hn'
      exact ⟨fun heq => hnew (heq ▸ hm), Nat.le_trans (h.le_high m hm) hh⟩ }

theorem Tracked.pendingCount (h : Tracked calls w) :
    (recorderAfter calls).pendingCount = BitVec.ofNat 16 (w.high + 1 - w.base) := by
  have hsucc : BitVec.ofNat 16 w.high - BitVec.ofNat 16 w.base + 1 =
      BitVec.ofNat 16 (w.high + 1) - BitVec.ofNat 16 w.base := by
    rw [BitVec.ofNat_add]
    grind
  rw [TwccRecorder.pendingCount, h.started, if_pos rfl, h.maxSeq, h.pendingBaseSeq, hsucc,
    sub_ofNat h.base_le]

theorem Tracked.pendingCount_toNat (h : Tracked calls w) (hspan : w.high + 1 ≤ w.base + 8192) :
    (recorderAfter calls).pendingCount.toNat = w.high + 1 - w.base := by
  rw [h.pendingCount, BitVec.toNat_ofNat]
  omega

/-- A number recorded since the last feedback is the last one in its slot: what comes after
it is less than a turn of the ring behind it, and what the feedback is to cover is no
more than one turn. -/
theorem Tracked.lastInSlot (h : Tracked calls w) (hspan : w.high + 1 ≤ w.base + 8192)
    (hn : n ∈ numbers calls) (hbase : w.base ≤ n) : lastInSlot calls n = some n := by
  obtain ⟨earlier, later, hsplit⟩ := List.append_of_mem hn
  have hspaced := h.spaced
  rw [Udp.lastInSlot, hsplit]
  rw [hsplit, List.pairwise_append, List.pairwise_cons] at hspaced
  refine Ring.latest_of_rest earlier (by simp) fun m hm => ?_
  obtain ⟨hne, hclose⟩ := hspaced.2.1.1 m hm
  have hhigh := h.le_high m (by simp [hsplit, hm])
  have hcapacity : Config.twccRecorderCapacity = 8192 := rfl
  simp only [decide_eq_true_eq, hcapacity]
  omega

theorem Reported.mem_received {r : TwccRecorder} {f : Feedback} (h : Reported r f)
    (twccSeq : U16) : twccSeq ∈ f.received ↔ ∃ i < r.pendingCount.toNat,
      r.pendingBaseSeq + BitVec.ofNat 16 i = twccSeq ∧ (r.get twccSeq).isSome := by
  simp only [Feedback.received, List.mem_map, List.mem_filter, List.mem_range, h.count, h.baseSeq]
  constructor
  · rintro ⟨i, ⟨hi, hstatus⟩, rfl⟩
    exact ⟨i, hi, rfl, (h.received i hi).mp (of_decide_eq_true hstatus)⟩
  · rintro ⟨i, hi, rfl, hget⟩
    exact ⟨i, ⟨hi, decide_eq_true ((h.received i hi).mpr hget)⟩, rfl⟩

theorem Tracked.baseTime (h : Tracked calls w) : (recorderAfter calls).baseTime.isSome := by
  have hne := List.ne_nil_of_mem h.high_mem
  have hrecords : records (calls.map Call.op) ≠ [] := fun hnil => by
    have := records_numbers calls
    rw [hnil] at this
    exact hne (List.map_eq_nil_iff.mp this.symm)
  rw [recorderAfter, (recorderOf_follows (calls.map Call.op)).baseTime, Option.isSome_map]
  exact List.isSome_head?.mpr hrecords

theorem Tracked.reports_iff (h : Tracked calls w) (hspan : w.high + 1 ≤ w.base + 8192) :
    Reports calls ssrc n ↔
      (w.base ≤ n ∧ n ≤ w.high) ∧ ∃ m ∈ Udp.lastInSlot calls n, m % 2 ^ 16 = n % 2 ^ 16 := by
  have hcount := h.pendingCount_toNat hspan
  rw [← get_isSome_iff]
  constructor
  · rintro ⟨⟨fb, f, hfb, hdecode, hmem⟩, ⟨m, hm, hle⟩, hlt⟩
    obtain ⟨f', -, -, hdecode', hreported, -⟩ := reported_buildTwccFeedback (Prod.ext rfl hfb)
    cases hdecode.symm.trans hdecode'
    obtain ⟨i, hi, hseq, hget⟩ := (hreported.mem_received _).mp hmem
    rw [h.pendingBaseSeq, ← BitVec.ofNat_add, ofNat_eq_iff] at hseq
    have hhigh := h.le_high m hm
    have hwrap := hlt w.high h.high_mem
    exact ⟨⟨by omega, by omega⟩, hget⟩
  · rintro ⟨⟨hbase, hhigh⟩, hget⟩
    have hi : n - w.base < (recorderAfter calls).pendingCount.toNat := by omega
    have hseq : (recorderAfter calls).pendingBaseSeq + BitVec.ofNat 16 (n - w.base) =
        BitVec.ofNat 16 n := by
      rw [h.pendingBaseSeq, ← BitVec.ofNat_add, Nat.add_sub_cancel' hbase]
    have hcapacity : Config.twccRecorderCapacity = 8192 := rfl
    obtain ⟨fb, hfb⟩ := buildTwccFeedback_of_get ssrc h.started h.baseTime (by omega) hi
      (hseq ▸ hget)
    obtain ⟨f, -, -, hdecode, hreported, -⟩ := reported_buildTwccFeedback (Prod.ext rfl hfb)
    refine ⟨⟨fb, f, hfb, hdecode, (hreported.mem_received _).mpr ⟨_, hi, hseq, hget⟩⟩,
      ⟨w.high, h.high_mem, hhigh⟩, fun m hm => ?_⟩
    have hle := h.le_high m hm
    omega

theorem Tracked.reports (h : Tracked calls w) (hspan : w.high + 1 ≤ w.base + 8192)
    (hn : n ∈ numbers calls) (hbase : w.base ≤ n) : Reports calls ssrc n :=
  (h.reports_iff hspan).mpr ⟨⟨hbase, h.le_high n hn⟩, n, h.lastInSlot hspan hn hbase, rfl⟩

theorem Tracked.feedback (h : Tracked calls w) (hspan : w.high + 1 ≤ w.base + 8192) :
    Tracked (calls ++ [.feedback ssrc]) { w with base := w.high + 1 } := by
  have hafter : recorderAfter (calls ++ [.feedback ssrc]) =
      (buildTwccFeedback (recorderAfter calls) ssrc).1 := recorderAfter_snoc ..
  have hnumbers := numbers_feedback calls ssrc
  have hbuilt : (buildTwccFeedback (recorderAfter calls) ssrc).1.maxSeq =
        (recorderAfter calls).maxSeq ∧
      (buildTwccFeedback (recorderAfter calls) ssrc).1.pendingBaseSeq =
        BitVec.ofNat 16 (w.high + 1) := by
    by_cases hbase : w.base ≤ w.high
    · have hreports : Reports calls ssrc w.high := h.reports hspan h.high_mem hbase
      obtain ⟨⟨fb, -, hfb, -⟩, -⟩ := hreports
      obtain ⟨hmax, hpending, -⟩ := buildTwccFeedback_base h.started h.baseTime ssrc
      have hcount := h.pendingCount_toNat hspan
      have hcapacity : Config.twccRecorderCapacity = 8192 := rfl
      rw [if_neg (by omega), hfb, if_pos Option.isSome_some, h.maxSeq] at hpending
      exact ⟨hmax, hpending.trans (BitVec.ofNat_add ..).symm⟩
    · have hend : w.base = w.high + 1 := Nat.le_antisymm h.base_le (Nat.lt_of_not_le hbase)
      have hnone : (recorderAfter calls).pendingCount = 0 := by
        rw [h.pendingCount, hend, Nat.sub_self]
        rfl
      rw [buildTwccFeedback, if_pos (.inr hnone), ← hend]
      exact ⟨rfl, h.pendingBaseSeq⟩
  exact {
    maxSeq := by rw [hafter, hbuilt.1, h.maxSeq]
    pendingBaseSeq := by rw [hafter, hbuilt.2]
    high_mem := hnumbers ▸ h.high_mem
    le_high := hnumbers ▸ h.le_high
    base_le := Nat.le_refl _
    spaced := hnumbers ▸ h.spaced }

theorem tracked (h : Admissible calls) (hw : window calls = some w) : Tracked calls w := by
  induction calls using List.reverseRecOn generalizing w with
  | nil => cases hw
  | append_singleton calls call ih =>
    obtain ⟨hcalls, hallowed⟩ := (admissible_snoc calls call).mp h
    rw [window_snoc] at hw
    cases hbefore : window calls with
    | none =>
      rw [hbefore] at hw
      cases call with
      | record n arrival =>
        cases hw
        exact tracked_first hbefore arrival
      | feedback ssrc => cases hw
    | some v =>
      rw [hbefore] at hw
      have hv := ih hcalls hbefore
      cases call with
      | record n arrival =>
        cases hw
        exact hv.record hbefore hallowed
      | feedback ssrc =>
        cases hw
        exact hv.feedback (hallowed v hbefore)

end

section

variable {calls : List Call} {call : Call} {n : Nat} {ssrc : U32}

theorem exists_window (hn : n ∈ numbers calls) : ∃ w, window calls = some w := by
  cases hw : window calls with
  | none => rw [(window_eq_none_iff calls).mp hw] at hn; cases hn
  | some w => exact ⟨w, rfl⟩

theorem covered_snoc (h : Admissible (calls ++ [call])) (hn : n ∈ numbers calls) :
    Covered (calls ++ [call]) n ↔
      Covered calls n ∨ ∃ ssrc, call = .feedback ssrc ∧ Reports calls ssrc n := by
  obtain ⟨hcalls, hallowed⟩ := (admissible_snoc calls call).mp h
  obtain ⟨w, hw⟩ := exists_window hn
  have htracked := tracked hcalls hw
  simp only [Covered, window_snoc, hw, Option.mem_def, Option.some.injEq, exists_eq_left']
  cases call with
  | record m arrival => simp [Window.after]
  | feedback ssrc =>
    have hspan := hallowed w hw
    have hhigh := htracked.le_high n hn
    have hbase := htracked.base_le
    simp only [Window.after, Option.some.injEq, exists_eq_left', Call.feedback.injEq]
    constructor
    · intro _
      rcases Nat.lt_or_ge n w.base with hlt | hge
      · exact .inl hlt
      · exact .inr (htracked.reports hspan hn hge)
    · intro _
      exact Nat.lt_succ_of_le hhigh

theorem not_reports_of_covered (h : Admissible (calls ++ [.feedback ssrc])) (hn : Covered calls n) :
    ¬ Reports calls ssrc n := by
  obtain ⟨hcalls, hallowed⟩ := (admissible_snoc calls _).mp h
  obtain ⟨w, hw, hlt⟩ := hn
  rw [(tracked hcalls hw).reports_iff (hallowed w hw)]
  rintro ⟨⟨hge, -⟩, -⟩
  exact absurd hlt (Nat.not_lt.mpr hge)

/-- A feedback reports no number that was not recorded, unless it is stale. -/
theorem mem_of_reports (h : Admissible (calls ++ [.feedback ssrc])) (hreports : Reports calls ssrc n)
    (hstale : ¬ Stale calls n) : n ∈ numbers calls := by
  obtain ⟨hcalls, hallowed⟩ := (admissible_snoc calls _).mp h
  obtain ⟨-, ⟨m, hm, -⟩, -⟩ := id hreports
  obtain ⟨w, hw⟩ := exists_window hm
  obtain ⟨-, last, hlast, hseq⟩ := ((tracked hcalls hw).reports_iff (hallowed w hw)).mp hreports
  by_cases heq : last = n
  · exact heq ▸ (Ring.latest_some hlast).1
  · exact absurd ⟨last, hlast, heq, hseq⟩ hstale

theorem covered_record (arrival : Instant) :
    Covered (calls ++ [.record n arrival]) n ↔ Covered calls n := by
  simp only [Covered, window_snoc]
  cases window calls <;> simp [Window.after]

theorem covered_feedback (h : Admissible (calls ++ [.feedback ssrc])) (hn : n ∈ numbers calls) :
    Covered (calls ++ [.feedback ssrc]) n := by
  obtain ⟨hcalls, -⟩ := (admissible_snoc calls _).mp h
  obtain ⟨w, hw⟩ := exists_window hn
  refine ⟨{ w with base := w.high + 1 }, ?_, Nat.lt_succ_of_le ((tracked hcalls hw).le_high n hn)⟩
  rw [window_snoc, hw]
  rfl

end

section

variable {calls : List Call} {i j n : Nat} {arrival : Instant}

theorem take_snoc {call : Call} (hj : calls[j]? = some call) :
    calls.take (j + 1) = calls.take j ++ [call] := by
  rw [List.take_add_one, hj]
  rfl

theorem Admissible.take (h : Admissible calls) (j : Nat) : Admissible (calls.take j) := by
  rw [Admissible, ← List.take_append_drop j calls] at h
  exact (along_append.mp h).1

theorem mem_numbers_take (hi : calls[i]? = some (.record n arrival)) (hj : i < j) :
    n ∈ numbers (calls.take j) := by
  have hmem : Call.record n arrival ∈ calls.take j :=
    List.mem_of_getElem? ((List.getElem?_take_of_lt hj).trans hi)
  exact List.mem_filterMap.mpr ⟨_, hmem, rfl⟩

/-- From when it is recorded on, a number is covered just when it was before or has been
reported since. -/
theorem covered_take_iff (h : Admissible calls) (hi : calls[i]? = some (.record n arrival))
    (hj : i < j) : Covered (calls.take j) n ↔
      Covered (calls.take i) n ∨ ∃ k, (i < k ∧ k < j) ∧ ReportedAt calls k n := by
  induction j, hj using Nat.le_induction with
  | base =>
    rw [take_snoc hi, covered_record]
    refine ⟨.inl, fun hor => hor.resolve_right ?_⟩
    rintro ⟨k, ⟨hlt, hgt⟩, -⟩
    omega
  | succ j hj ih =>
    have hsplit : (∃ k, (i < k ∧ k < j + 1) ∧ ReportedAt calls k n) ↔
        (∃ k, (i < k ∧ k < j) ∧ ReportedAt calls k n) ∨ ReportedAt calls j n := by
      constructor
      · rintro ⟨k, ⟨hlt, hgt⟩, hk⟩
        rcases Nat.lt_succ_iff_lt_or_eq.mp hgt with hgt | rfl
        · exact .inl ⟨k, ⟨hlt, hgt⟩, hk⟩
        · exact .inr hk
      · rintro (⟨k, ⟨hlt, hgt⟩, hk⟩ | hk)
        · exact ⟨k, ⟨hlt, Nat.lt_succ_of_lt hgt⟩, hk⟩
        · exact ⟨j, ⟨hj, Nat.lt_succ_self j⟩, hk⟩
    rw [hsplit, ← or_assoc, ← ih]
    cases hcall : calls[j]? with
    | none =>
      rw [List.take_add_one, hcall]
      simp [ReportedAt, hcall]
    | some call =>
      rw [take_snoc hcall, covered_snoc (take_snoc hcall ▸ h.take (j + 1)) (mem_numbers_take hi hj)]
      simp [ReportedAt, hcall]

theorem ReportedAt.not_covered (h : Admissible calls) (hj : ReportedAt calls j n) :
    ¬ Covered (calls.take j) n := by
  obtain ⟨ssrc, hcall, hreports⟩ := hj
  exact fun hn => not_reports_of_covered (take_snoc hcall ▸ h.take (j + 1)) hn hreports

theorem reported_once (h : Admissible calls) (hi : calls[i]? = some (.record n arrival))
    (hnew : ¬ Covered (calls.take i) n)
    (hfeedback : ∃ j ssrc, i < j ∧ calls[j]? = some (.feedback ssrc)) :
    ∃! j, i < j ∧ ReportedAt calls j n := by
  obtain ⟨j, ssrc, hj, hcall⟩ := hfeedback
  have hcovered : Covered (calls.take (j + 1)) n := by
    rw [take_snoc hcall]
    exact covered_feedback (take_snoc hcall ▸ h.take (j + 1)) (mem_numbers_take hi hj)
  obtain ⟨k, ⟨hk, -⟩, hreported⟩ :=
    ((covered_take_iff h hi (Nat.lt_succ_of_lt hj)).mp hcovered).resolve_left hnew
  -- the earlier of two reports covers the number, and the later one would not
  have hlater : ∀ {k l}, i < k → ReportedAt calls k n → ReportedAt calls l n → ¬ k < l :=
    fun {k l} hk hrk hrl hlt => hrl.not_covered h
      ((covered_take_iff h hi (Nat.lt_trans hk hlt)).mpr (.inr ⟨k, ⟨hk, hlt⟩, hrk⟩))
  refine ⟨k, ⟨hk, hreported⟩, fun l ⟨hl, hrl⟩ => ?_⟩
  exact Nat.le_antisymm (Nat.le_of_not_lt (hlater hk hreported hrl))
    (Nat.le_of_not_lt (hlater hl hrl hreported))

theorem not_reported_of_covered (h : Admissible calls)
    (hi : calls[i]? = some (.record n arrival)) (hlate : Covered (calls.take i) n) (hj : i < j) :
    ¬ ReportedAt calls j n := fun hreported =>
  hreported.not_covered h ((covered_take_iff h hi hj).mpr (.inl hlate))

end

/-- A packet is reported once if it comes before the feedback about its number, and never
if it comes after; and what is reported has been recorded, but for stale slots. -/
theorem reported_once_unless_covered (calls : List Call) (h : Admissible calls) :
    (∀ i n arrival, calls[i]? = some (.record n arrival) →
      (Covered (calls.take i) n → ∀ j, i < j → ¬ ReportedAt calls j n) ∧
      (¬ Covered (calls.take i) n →
        (∃ j ssrc, i < j ∧ calls[j]? = some (.feedback ssrc)) →
        ∃! j, i < j ∧ ReportedAt calls j n)) ∧
    ∀ j n, ReportedAt calls j n → ¬ Stale (calls.take j) n → n ∈ numbers (calls.take j) := by
  refine ⟨fun i n arrival hi => ⟨fun hlate j hj => not_reported_of_covered h hi hlate hj,
    reported_once h hi⟩, ?_⟩
  rintro j n ⟨ssrc, hcall, hreports⟩ hstale
  exact mem_of_reports (take_snoc hcall ▸ h.take (j + 1)) hreports hstale

/-- The second packet comes when the feedback about its number has been built. -/
def lateRun : List Call :=
  [.record 0 0, .record 2 0, .feedback 7, .record 1 0, .feedback 7]

theorem reported_once_unless_covered_late :
    (∃! j, 1 < j ∧ ReportedAt lateRun j 2) ∧ ∀ j, 3 < j → ¬ ReportedAt lateRun j 1 := by
  obtain ⟨hrecorded, -⟩ := reported_once_unless_covered lateRun (by decide)
  have hfresh : ¬ Covered (lateRun.take 1) 2 := by
    rintro ⟨w, hw, hlt⟩
    cases hw
    exact absurd hlt (by decide)
  exact ⟨(hrecorded 1 2 0 rfl).2 hfresh ⟨2, 7, by decide, rfl⟩,
    (hrecorded 3 1 0 rfl).1 ⟨⟨3, 2⟩, rfl, by decide⟩⟩

/-- Each packet is as far ahead of the one before as it may be, so that the slot of the
first one is passed over in the turn of the sixteen bits. -/
def staleRun : List Call :=
  ((List.range 9).flatMap fun k => [.record (8191 * k) 0, .feedback 7]) ++
    [.record 65537 0, .feedback 7]

theorem late_and_stale :
    (Admissible lateRun ∧ lateRun[3]? = some (.record 1 0) ∧ lateRun[4]? = some (.feedback 7) ∧
      ¬ ∃ j, 3 < j ∧ ReportedAt lateRun j 1) ∧
    Admissible staleRun ∧ ReportedAt staleRun 19 65536 ∧ 65536 ∉ numbers staleRun := by
  have hlate : Admissible lateRun := by decide
  have hstale : Admissible staleRun := by decide +kernel
  have hwindow : window (staleRun.take 19) = some ⟨65529, 65537⟩ := by decide +kernel
  have hlast : lastInSlot (staleRun.take 19) 65536 = some 0 := by decide +kernel
  refine ⟨⟨hlate, rfl, rfl, ?_⟩, hstale, ⟨7, by rfl, ?_⟩, by decide +kernel⟩
  · rintro ⟨j, hj, hreported⟩
    exact not_reported_of_covered hlate (i := 3) rfl ⟨⟨3, 2⟩, rfl, by decide⟩ hj hreported
  · rw [(tracked (hstale.take 19) hwindow).reports_iff (by decide)]
    exact ⟨by decide, 0, hlast, by decide⟩

end LightLivechat.Transport.Udp
