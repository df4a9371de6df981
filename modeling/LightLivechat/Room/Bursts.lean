import LightLivechat.Room.PttRewriterLaws

/-! Successive bursts of a rewriter: when the packets of a burst are all ahead of
those of the burst before it. -/

namespace LightLivechat.Room.PttRewriter

open LightLivechat.Lib.Bytes LightLivechat.Lib.Serial

inductive Fresh : PttRewriter → Prop
  | audio (virtualSsrc : U32) : Fresh (newAudio virtualSsrc)
  | video (virtualSsrc : U32) : Fresh (newVideo virtualSsrc)

/-- The packets of one burst are of one stream: close together on both circles,
with timestamps that do not run against the sequence numbers. -/
abbrev OneStream (log : List Emission) : Prop :=
  ∀ e ∈ log, ∀ e' ∈ log, e.burst = e'.burst →
    (serialDiff (rtpSeq e.original) (rtpSeq e'.original)).natAbs < 2 ^ 13 ∧
    (serialDiff (rtpTs e.original) (rtpTs e'.original)).natAbs < 2 ^ 29 ∧
    (0 ≤ serialDiff (rtpSeq e.original) (rtpSeq e'.original) →
      0 ≤ serialDiff (rtpTs e.original) (rtpTs e'.original))

/-- `b` is the latest burst before `b'` among those that emitted anything. -/
abbrev Follows (log : List Emission) (b b' : Nat) : Prop :=
  b < b' ∧ ∀ e ∈ log, e.burst < b' → e.burst ≤ b

abbrev BurstsAdvance (log : List Emission) : Prop :=
  ∀ e ∈ log, ∀ e' ∈ log, Follows log e.burst e'.burst →
    Ahead (rtpSeq e'.emitted) (rtpSeq e.emitted) ∧ Ahead (rtpTs e'.emitted) (rtpTs e.emitted)

/-- Between two successive bursts: the packet that left last in the earlier one is
not older than any of it, the packet that left first in the later one not newer. -/
abbrev InOrderAtSwitches (log : List Emission) : Prop :=
  ∀ e ∈ log, ∀ e' ∈ log, Follows log e.burst e'.burst →
    (∀ l, lastOf log e.burst = some l → 0 ≤ serialDiff (rtpSeq l.original) (rtpSeq e.original)) ∧
    ∀ f, firstOf log e'.burst = some f → 0 ≤ serialDiff (rtpSeq e'.original) (rtpSeq f.original)

section

variable {log : List Emission} {e e' l : Emission} {b : Nat}

theorem lastOf_mem (h : lastOf log b = some l) : l ∈ log ∧ l.burst = b := by
  have := List.mem_filter.mp (List.mem_of_getLast? h)
  exact ⟨this.1, by simpa using this.2⟩

theorem lastBefore_mem (h : lastBefore log b = some l) : l ∈ log ∧ l.burst < b := by
  have := List.mem_filter.mp (List.mem_of_getLast? h)
  exact ⟨this.1, by simpa using this.2⟩

theorem lastBefore_ge (mono : log.Pairwise fun e e' => e.burst ≤ e'.burst)
    (h : lastBefore log b = some l) (he : e ∈ log) (hb : e.burst < b) : e.burst ≤ l.burst := by
  obtain ⟨pre, hpre⟩ := List.getLast?_eq_some_iff.mp h
  have hmono := mono.filter fun e => e.burst < b
  have hmem : e ∈ log.filter fun e => e.burst < b := List.mem_filter.mpr ⟨he, by simpa using hb⟩
  rw [hpre] at hmono hmem
  rcases List.mem_append.mp hmem with hmem | hmem
  · exact (List.pairwise_append.mp hmono).2.2 e hmem l (List.mem_singleton_self l)
  · exact Nat.le_of_eq (congrArg Emission.burst (List.mem_singleton.mp hmem))

theorem lastOf_eq_lastBefore (h : lastBefore log b = some l) : lastOf log l.burst = some l := by
  obtain ⟨-, hlt⟩ := lastBefore_mem h
  obtain ⟨pre, hpre⟩ := List.getLast?_eq_some_iff.mp h
  have hfilter : (log.filter fun e => e.burst = l.burst) =
      (log.filter fun e => e.burst < b).filter fun e => e.burst = l.burst := by
    rw [List.filter_filter]
    congr 1
    funext x
    by_cases hx : x.burst = l.burst <;> simp [hx, hlt]
  rw [lastOf, hfilter, hpre]
  simp

theorem lastBefore_of_follows (mono : log.Pairwise fun e e' => e.burst ≤ e'.burst) (he : e ∈ log)
    (hf : Follows log e.burst b) :
    ∃ l, lastBefore log b = some l ∧ lastOf log e.burst = some l := by
  cases hl : lastBefore log b with
  | none =>
    have := List.filter_eq_nil_iff.mp (List.getLast?_eq_none_iff.mp hl) e he
    simp [hf.1] at this
  | some l =>
    obtain ⟨hmem, hlt⟩ := lastBefore_mem hl
    have hburst : l.burst = e.burst :=
      Nat.le_antisymm (hf.2 l hmem hlt) (lastBefore_ge mono hl he hf.1)
    exact ⟨l, rfl, hburst ▸ lastOf_eq_lastBefore hl⟩

end

section

variable {t : Trace} {e e' : Emission}

/-- How far a packet is ahead of one of the burst before it: the distance to the
first of its own burst, the distance to the last of the other, and the gap. -/
theorem Lawful.follow (h : Lawful t) (he : e ∈ t.log) (he' : e' ∈ t.log)
    (hf : Follows t.log e.burst e'.burst) :
    ∃ l f, lastOf t.log e.burst = some l ∧ firstOf t.log e'.burst = some f ∧
      rtpSeq e'.emitted - rtpSeq e.emitted = (rtpSeq e'.original - rtpSeq f.original) +
        (rtpSeq l.original - rtpSeq e.original) + 1 ∧
      rtpTs e'.emitted - rtpTs e.emitted = (rtpTs e'.original - rtpTs f.original) +
        (rtpTs l.original - rtpTs e.original) + t.rewriter.tsGuardGap := by
  obtain ⟨l, hl, hlast⟩ := lastBefore_of_follows h.mono he hf
  obtain ⟨hlmem, hlb⟩ := lastOf_mem hlast
  obtain ⟨f, lawe'⟩ := h.law e' he'
  obtain ⟨g, lawe⟩ := h.law e he
  obtain ⟨g', lawl⟩ := h.law l hlmem
  have hg : g' = g := Option.some.inj (lawl.first.symm.trans (hlb ▸ lawe.first))
  subst hg
  refine ⟨l, f, hlast, lawe'.first, ?_, ?_⟩
  · have h1 := lawe'.seq
    have h2 := lawe.seq
    have h3 := lawl.seq
    have h4 : rtpSeq f.emitted = rtpSeq l.emitted + 1 := by
      rw [lawe'.firstSeq, hl]; rfl
    grind
  · have h1 := lawe'.ts
    have h2 := lawe.ts
    have h3 := lawl.ts
    have h4 : rtpTs f.emitted = rtpTs l.emitted + t.rewriter.tsGuardGap := by
      rw [lawe'.firstTs, hl]; rfl
    grind

/-- On the circles the distances add up, since the stream stays within its bounds. -/
theorem Lawful.ahead_iff (h : Lawful t) (hs : OneStream t.log)
    (hgap : 0 < t.rewriter.tsGuardGap.toInt ∧ t.rewriter.tsGuardGap.toInt ≤ 2 ^ 29)
    (he : e ∈ t.log) (he' : e' ∈ t.log) (hf : Follows t.log e.burst e'.burst) :
    ∃ l f, lastOf t.log e.burst = some l ∧ firstOf t.log e'.burst = some f ∧
      (Ahead (rtpSeq e'.emitted) (rtpSeq e.emitted) ↔
        0 ≤ serialDiff (rtpSeq e'.original) (rtpSeq f.original) +
          serialDiff (rtpSeq l.original) (rtpSeq e.original)) ∧
      (Ahead (rtpTs e'.emitted) (rtpTs e.emitted) ↔
        0 < serialDiff (rtpTs e'.original) (rtpTs f.original) +
          serialDiff (rtpTs l.original) (rtpTs e.original) + t.rewriter.tsGuardGap.toInt) := by
  obtain ⟨l, f, hl, hfirst, hseq, hts⟩ := h.follow he he' hf
  obtain ⟨hlmem, hlb⟩ := lastOf_mem hl
  obtain ⟨hfmem, hfb⟩ := firstOf_mem hfirst
  obtain ⟨s1, t1, -⟩ := hs e' he' f hfmem hfb.symm
  obtain ⟨s2, t2, -⟩ := hs l hlmem e he hlb
  simp only [serialDiff] at s1 t1 s2 t2
  have hone : (1 : U16).toInt = 1 := rfl
  refine ⟨l, f, hl, hfirst, ?_, ?_⟩
  · rw [ahead_iff_of_sub_eq hseq (by rw [hone]; omega) (by rw [hone]; omega), hone]
    simp only [serialDiff]
    omega
  · rw [ahead_iff_of_sub_eq hts (by omega) (by omega)]
    simp only [serialDiff]

theorem Lawful.advance_iff_inOrder (h : Lawful t) (hs : OneStream t.log)
    (hgap : 0 < t.rewriter.tsGuardGap.toInt ∧ t.rewriter.tsGuardGap.toInt ≤ 2 ^ 29) :
    BurstsAdvance t.log ↔ InOrderAtSwitches t.log := by
  constructor
  · intro hadv e he e' he' hf
    refine ⟨fun l hl => ?_, fun f hfirst => ?_⟩
    · -- against the first packet of the later burst only the earlier burst's order counts
      obtain ⟨f, lawe'⟩ := h.law e' he'
      obtain ⟨hfmem, hfb⟩ := firstOf_mem lawe'.first
      obtain ⟨l', f', hl', hf', hiff, -⟩ := h.ahead_iff hs hgap he hfmem (hfb.symm ▸ hf)
      rw [hl, Option.some.injEq] at hl'
      rw [hfb, lawe'.first, Option.some.injEq] at hf'
      subst hl' hf'
      simpa using hiff.mp (hadv e he f hfmem (hfb.symm ▸ hf)).1
    · -- and against the last packet of the earlier one only the later burst's
      obtain ⟨l, -, hl⟩ := lastBefore_of_follows h.mono he hf
      obtain ⟨hlmem, hlb⟩ := lastOf_mem hl
      obtain ⟨l', f', hl', hf', hiff, -⟩ := h.ahead_iff hs hgap hlmem he' (hlb.symm ▸ hf)
      rw [hlb, hl, Option.some.injEq] at hl'
      rw [hfirst, Option.some.injEq] at hf'
      subst hl' hf'
      simpa using hiff.mp (hadv l hlmem e' he' (hlb.symm ▸ hf)).1
  · intro hord e he e' he' hf
    obtain ⟨l, f, hl, hfirst, hseq, hts⟩ := h.ahead_iff hs hgap he he' hf
    obtain ⟨hlmem, hlb⟩ := lastOf_mem hl
    obtain ⟨hfmem, hfb⟩ := firstOf_mem hfirst
    have h1 := (hord e he e' he' hf).1 l hl
    have h2 := (hord e he e' he' hf).2 f hfirst
    have h3 := (hs l hlmem e he hlb).2.2 h1
    have h4 := (hs e' he' f hfmem hfb.symm).2.2 h2
    exact ⟨hseq.mpr (by omega), hts.mpr (by omega)⟩

end

/-- Packets of successive bursts then never share a virtual sequence number. -/
theorem BurstsAdvance.seq_ne {log : List Emission} (h : BurstsAdvance log) {e e' : Emission}
    (he : e ∈ log) (he' : e' ∈ log) (hf : Follows log e.burst e'.burst) :
    rtpSeq e'.emitted ≠ rtpSeq e.emitted := (h e he e' he' hf).1.ne

theorem traceOf_tsGuardGap (r : PttRewriter) (calls : List Call) :
    (traceOf r calls).rewriter.tsGuardGap = r.tsGuardGap := by
  refine List.foldlRecOn (motive := fun t => t.rewriter.tsGuardGap = r.tsGuardGap) calls
    Trace.step (b := ⟨r, 0, []⟩) rfl fun t ht c _ => ?_
  cases c with
  | switchSpeaker => exact ht
  | clearSpeaker => exact ht
  | rewrite p u k =>
    rcases t.rewriter.rewrite_cases p u k with ⟨hc, -⟩ | ⟨hc, -⟩ | ⟨s, -, hc, -⟩ <;>
      simpa [Trace.step, hc] using ht

theorem Fresh.lawful {r : PttRewriter} (hr : Fresh r) (calls : List Call) :
    Lawful (traceOf r calls) := by
  cases hr <;> exact traceOf_lawful _ _ _ calls

theorem Fresh.gap {r : PttRewriter} (hr : Fresh r) :
    0 < r.tsGuardGap.toInt ∧ r.tsGuardGap.toInt ≤ 2 ^ 29 := by
  cases hr <;> simp only [newAudio, newVideo, new] <;> decide

/-- For a stream within its bounds, bursts are ahead of one another exactly when
packets are reordered neither across the end of a burst nor across its start. -/
theorem burstsAdvance_iff {r : PttRewriter} (hr : Fresh r) (calls : List Call)
    (hs : OneStream (traceOf r calls).log) :
    BurstsAdvance (traceOf r calls).log ↔ InOrderAtSwitches (traceOf r calls).log :=
  (hr.lawful calls).advance_iff_inOrder hs (by rw [traceOf_tsGuardGap]; exact hr.gap)

def opusPacket (seq : U16) : Bytes :=
  [0x80, 111] ++ toBe16 seq ++ toBe32 0 ++ toBe32 0x1001

/-- Two packets of the first burst arrive out of order just before the switch. -/
def reorderedCalls : List Call :=
  [.switchSpeaker "a", .rewrite (opusPacket 10) "a" false, .rewrite (opusPacket 9) "a" false,
    .switchSpeaker "b", .rewrite (opusPacket 100) "b" false]

theorem burstsAdvance_iff_reordered :
    ¬ BurstsAdvance (traceOf (newAudio 7) reorderedCalls).log ∧
      ¬ InOrderAtSwitches (traceOf (newAudio 7) reorderedCalls).log := by
  have hiff := burstsAdvance_iff (.audio 7) reorderedCalls (by decide)
  have hord : ¬ InOrderAtSwitches (traceOf (newAudio 7) reorderedCalls).log := by decide
  exact ⟨fun h => hord (hiff.mp h), hord⟩

theorem bursts_overlap :
    ¬ ∀ r, Fresh r → ∀ calls, OneStream (traceOf r calls).log →
      BurstsAdvance (traceOf r calls).log := by
  intro h
  exact absurd (h _ (.audio 7) reorderedCalls (by decide)) (by decide)

end LightLivechat.Room.PttRewriter
