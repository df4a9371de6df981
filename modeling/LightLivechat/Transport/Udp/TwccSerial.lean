import LightLivechat.Lib.Runs
import LightLivechat.Transport.Udp.TwccRoundTrip
import Mathlib.Order.Bounds.Basic

/-! The sixteen-bit numbers of a recorder against the integers they were cut from, over
runs of any length: any number of turns of the circle, reorderings and repetitions. -/

namespace LightLivechat.Transport.Udp

open LightLivechat.Lib LightLivechat.Lib.Bytes LightLivechat.Lib.Runs LightLivechat.Lib.Serial

/-- A call on the recorder; the number of a packet is any integer, and the recorder gets its
low sixteen bits. -/
inductive UnwrappedCall where
  | record (n : Int) (arrival : Instant)
  | feedback (mediaSsrc : U32)

def UnwrappedCall.op : UnwrappedCall → Op
  | .record n arrival => .record (BitVec.ofInt 16 n) arrival
  | .feedback mediaSsrc => .feedback mediaSsrc

/-- The first number pending and the highest one recorded. -/
structure Span where
  base : Int
  high : Int

/-- A recorder and the span its numbers were cut from. -/
structure Unwrapped where
  recorder : TwccRecorder
  span : Option Span

namespace Unwrapped

def init : Unwrapped := ⟨.new, none⟩

/-- The first packet opens the span.  A feedback moves the base where the builder does: to a
hundred below the highest number when there is too much to report, and, adding the count to
the base, to one past the highest when it has reported. -/
def spanAfter (s : Unwrapped) : UnwrappedCall → Option Span
  | .record n _ => some (s.span.elim ⟨n, n⟩ fun w => { w with high := max w.high n })
  | .feedback mediaSsrc => s.span.map fun w =>
    if s.recorder.pendingCount.toNat > Config.twccRecorderCapacity then
      { w with base := w.high - 100 }
    else if (buildTwccFeedback s.recorder mediaSsrc).2.isSome then { w with base := w.high + 1 }
    else w

def step (s : Unwrapped) (call : UnwrappedCall) : Option Unwrapped :=
  some ⟨s.recorder.apply call.op, s.spanAfter call⟩

/-- A packet is less than half the circle from the highest one before it. -/
def Close (s : Unwrapped) : UnwrappedCall → Prop
  | .record n _ => ∀ w ∈ s.span, w.high - 32767 ≤ n ∧ n ≤ w.high + 32767
  | .feedback _ => True

instance (s : Unwrapped) : (call : UnwrappedCall) → Decidable (Close s call)
  | .record _ _ => inferInstanceAs (Decidable (∀ _ ∈ s.span, _))
  | .feedback _ => inferInstanceAs (Decidable True)

end Unwrapped

def unwrappedNumbers (calls : List UnwrappedCall) : List Int :=
  calls.filterMap fun
    | .record n _ => some n
    | .feedback _ => none

namespace Unwrapped

/-- The numbers of a recorder are those of its span. -/
structure Agrees (r : TwccRecorder) (w : Span) : Prop where
  started : r.started = true
  baseTime : r.baseTime.isSome
  maxSeq : r.maxSeq = BitVec.ofInt 16 w.high
  pendingBaseSeq : r.pendingBaseSeq = BitVec.ofInt 16 w.base
  base_le : w.base ≤ w.high + 1

section

variable {r : TwccRecorder} {w : Span}

theorem Agrees.first (hstarted : r.started = false) (n : Int) (arrival : Instant) :
    Agrees (r.record (BitVec.ofInt 16 n) arrival) ⟨n, n⟩ := by
  constructor <;> simp [TwccRecorder.record, hstarted]

theorem Agrees.record (h : Agrees r w) {n : Int} (arrival : Instant)
    (hlo : w.high - 32767 ≤ n) (hhi : n ≤ w.high + 32767) :
    Agrees (r.record (BitVec.ofInt 16 n) arrival) { w with high := max w.high n } := by
  obtain ⟨hmax, hpending, hstarted, hbaseTime⟩ :=
    record_started h.started (BitVec.ofInt 16 n) arrival
  have hahead := ahead_ofInt_iff (w := 16) (n := n) (m := w.high) (by omega) (by omega)
  refine ⟨hstarted, hbaseTime ▸ h.baseTime, ?_, hpending.trans h.pendingBaseSeq, ?_⟩
  · rw [hmax, h.maxSeq]
    simp only [hahead]
    split
    · rw [max_eq_right (by omega)]
    · rw [max_eq_left (by omega)]
  · have := h.base_le
    have := le_max_left w.high n
    simp only
    omega

theorem Agrees.feedback (h : Agrees r w) (mediaSsrc : U32) {base : Int}
    (hbase : base = if r.pendingCount.toNat > Config.twccRecorderCapacity then w.high - 100
      else if (buildTwccFeedback r mediaSsrc).2.isSome then w.high + 1 else w.base) :
    Agrees (buildTwccFeedback r mediaSsrc).1 { w with base := base } := by
  obtain ⟨hmax, hpending, hstarted, hbaseTime⟩ :=
    buildTwccFeedback_base h.started h.baseTime mediaSsrc
  refine ⟨hstarted.trans h.started, hbaseTime ▸ h.baseTime, hmax.trans h.maxSeq, ?_, ?_⟩
  · rw [hpending, hbase, h.maxSeq, h.pendingBaseSeq]
    split
    · exact (ofInt_sub w.high 100).symm
    split
    · exact (BitVec.ofInt_add w.high 1).symm
    · rfl
  · have := h.base_le
    simp only [hbase]
    split
    · omega
    split <;> omega

theorem Agrees.pendingCount (h : Agrees r w) (hspan : w.high - w.base < 65535) :
    (r.pendingCount.toNat : Int) = w.high - w.base + 1 := by
  have hle := h.base_le
  have hend : r.pendingCount = BitVec.ofInt 16 (w.high + 1) - BitVec.ofInt 16 w.base := by
    rw [TwccRecorder.pendingCount, if_pos h.started, h.maxSeq, h.pendingBaseSeq, BitVec.ofInt_add]
    have hone : BitVec.ofInt 16 1 = 1 := rfl
    grind
  rw [hend, toNat_ofInt_sub (by omega) (by omega)]
  omega

end

/-- Before the first packet there is no span, and after it the span ends with the highest
number recorded. -/
inductive Tracks (calls : List UnwrappedCall) : Unwrapped → Prop where
  | idle {r : TwccRecorder} (hstarted : r.started = false) (hnone : unwrappedNumbers calls = []) :
    Tracks calls ⟨r, none⟩
  | running {r : TwccRecorder} {w : Span} (hagrees : Agrees r w)
    (hhighest : IsGreatest {n | n ∈ unwrappedNumbers calls} w.high) : Tracks calls ⟨r, some w⟩

theorem isGreatest_snoc {xs : List Int} {high : Int} (h : IsGreatest {n | n ∈ xs} high) (n : Int) :
    IsGreatest {m | m ∈ xs ++ [n]} (max high n) := by
  have hinsert : {m | m ∈ xs ++ [n]} = insert n {m | m ∈ xs} := by
    ext m
    simp [or_comm]
  rw [hinsert, max_comm]
  exact h.insert n

section

variable {calls : List UnwrappedCall} {s s' : Unwrapped}

theorem Tracks.record (h : Tracks calls s) {n : Int} (arrival : Instant)
    (hclose : Close s (.record n arrival)) :
    Tracks (calls ++ [.record n arrival])
      ⟨s.recorder.record (BitVec.ofInt 16 n) arrival, s.spanAfter (.record n arrival)⟩ := by
  have hnumbers : unwrappedNumbers (calls ++ [.record n arrival]) = unwrappedNumbers calls ++ [n] :=
    List.filterMap_append
  cases h with
  | idle hstarted hnone =>
    refine .running (.first hstarted n arrival) ?_
    rw [hnumbers, hnone]
    simp [IsGreatest, upperBounds]
  | running hagrees hhighest =>
    obtain ⟨hlo, hhi⟩ := hclose _ rfl
    refine .running (hagrees.record arrival hlo hhi) ?_
    rw [hnumbers]
    exact isGreatest_snoc hhighest n

theorem Tracks.feedback (h : Tracks calls s) (mediaSsrc : U32) :
    Tracks (calls ++ [.feedback mediaSsrc])
      ⟨(buildTwccFeedback s.recorder mediaSsrc).1, s.spanAfter (.feedback mediaSsrc)⟩ := by
  have hnumbers : unwrappedNumbers (calls ++ [.feedback mediaSsrc]) = unwrappedNumbers calls :=
    List.filterMap_append.trans (List.append_nil _)
  cases h with
  | @idle r hstarted hnone =>
    have hsame : buildTwccFeedback r mediaSsrc = (r, none) := by simp [buildTwccFeedback, hstarted]
    rw [hsame]
    exact .idle hstarted (hnumbers.trans hnone)
  | @running r w hagrees hhighest =>
    obtain ⟨base, hbase⟩ : ∃ base, base =
      if r.pendingCount.toNat > Config.twccRecorderCapacity then w.high - 100
      else if (buildTwccFeedback r mediaSsrc).2.isSome then w.high + 1 else w.base := ⟨_, rfl⟩
    have hspan : spanAfter ⟨r, some w⟩ (.feedback mediaSsrc) = some { w with base := base } := by
      rw [hbase, spanAfter, Option.map_some]
      split
      · rfl
      split <;> rfl
    rw [hspan]
    exact .running (hagrees.feedback mediaSsrc hbase) (hnumbers ▸ hhighest)

theorem Tracks.step (h : Tracks calls s) {call : UnwrappedCall} (hclose : Close s call)
    (hs : step s call = some s') : Tracks (calls ++ [call]) s' := by
  cases hs
  cases call with
  | record n arrival => exact h.record arrival hclose
  | feedback mediaSsrc => exact h.feedback mediaSsrc

theorem tracks (hclose : Along step Close init calls) (hrun : run step init calls = some s) :
    Tracks calls s := by
  have h : Tracks ([] ++ calls) s :=
    run_inv_trace (P := Tracks) (fun _ _ _ _ h hG hs => h.step hG hs) (.idle rfl rfl) hclose hrun
  exact h

theorem run_recorder {t : Unwrapped} (hrun : run step t calls = some s) :
    s.recorder = (calls.map UnwrappedCall.op).foldl TwccRecorder.apply t.recorder := by
  induction calls generalizing t with
  | nil =>
    cases hrun
    rfl
  | cons call calls ih => exact ih hrun

end

/-- The highest number is never lost, and as long as fewer than 65536 numbers are pending
their count is right. -/
theorem serial_numbers_agree {calls : List UnwrappedCall} {s : Unwrapped}
    (hclose : Along step Close init calls) (hrun : run step init calls = some s) :
    s.recorder = recorderOf (calls.map UnwrappedCall.op) ∧
      ∀ high, IsGreatest {n | n ∈ unwrappedNumbers calls} high →
        s.recorder.maxSeq = BitVec.ofInt 16 high ∧
        ∃ base, s.span = some ⟨base, high⟩ ∧ s.recorder.pendingBaseSeq = BitVec.ofInt 16 base ∧
          (high - base < 65535 → (s.recorder.pendingCount.toNat : Int) = high - base + 1) := by
  refine ⟨run_recorder hrun, fun high hhigh => ?_⟩
  cases tracks hclose hrun with
  | idle hstarted hnone =>
    rw [hnone] at hhigh
    cases hhigh.1
  | @running r w hagrees hhighest =>
    obtain rfl : high = w.high := hhigh.unique hhighest
    exact ⟨hagrees.maxSeq, w.base, rfl, hagrees.pendingBaseSeq, hagrees.pendingCount⟩

/-- Out of order over the end of the circle, with a feedback in between. -/
def wrappingRun : List UnwrappedCall :=
  [.record 65534 0, .record 65537 0, .record 65535 0, .feedback 7, .record 65539 1,
    .record 65536 2]

theorem serial_numbers_agree_wrapping : ∃ s, run step init wrappingRun = some s ∧
    s.recorder.maxSeq = 3 ∧ s.recorder.pendingCount.toNat = 2 := by
  have hclose : Along step Close init wrappingRun := by decide
  obtain ⟨s, hrun, hspan⟩ : ∃ s, run step init wrappingRun = some s ∧
      s.span = some ⟨65538, 65539⟩ := ⟨_, rfl, rfl⟩
  have hbound : ∀ n ∈ unwrappedNumbers wrappingRun, n ≤ 65539 := by decide
  have hhigh : IsGreatest {n | n ∈ unwrappedNumbers wrappingRun} 65539 :=
    ⟨by decide, fun n hn => hbound n hn⟩
  obtain ⟨-, hagrees⟩ := serial_numbers_agree hclose hrun
  obtain ⟨hmax, base, hbase, -, hcount⟩ := hagrees 65539 hhigh
  cases hspan.symm.trans hbase
  have := hcount (by decide)
  exact ⟨s, hrun, hmax, by omega⟩

end Unwrapped

end LightLivechat.Transport.Udp
