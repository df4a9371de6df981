import LightLivechat.Lib.Serial
import LightLivechat.Room.PttRewriter

/-! Whole runs of a rewriter.  The log of emitted packets obeys the offset law;
what the law says about the order of two successive bursts is settled from it. -/

namespace LightLivechat.Room.PttRewriter

open LightLivechat.Lib.Bytes LightLivechat.Lib.Serial

inductive Call where
  | switchSpeaker (userId : String)
  | clearSpeaker
  | rewrite (plaintext : Bytes) (senderUserId : String) (isKeyframe : Bool)

/-- A packet answered with `ok`: the burst it was emitted in, the bytes that
arrived and the bytes that left. -/
structure Emission where
  burst : Nat
  original : Bytes
  emitted : Bytes
  deriving DecidableEq

def rtpSeq (packet : Bytes) : U16 := be16 packet 2
def rtpTs (packet : Bytes) : U32 := be32 packet 4

/-- A rewriter with the number of `switchSpeaker` calls so far and the packets
emitted so far, oldest first. -/
structure Trace where
  rewriter : PttRewriter
  burst : Nat
  log : List Emission

def Trace.step (t : Trace) : Call → Trace
  | .switchSpeaker userId =>
    { t with rewriter := t.rewriter.switchSpeaker userId, burst := t.burst + 1 }
  | .clearSpeaker => { t with rewriter := t.rewriter.clearSpeaker }
  | .rewrite plaintext sender isKeyframe =>
    let (rewriter, out, result) := t.rewriter.rewrite plaintext sender isKeyframe
    { t with
      rewriter := rewriter
      log := if result = .ok then t.log ++ [⟨t.burst, plaintext, out⟩] else t.log }

def traceOf (r : PttRewriter) (calls : List Call) : Trace := calls.foldl Trace.step ⟨r, 0, []⟩

def firstOf (log : List Emission) (burst : Nat) : Option Emission :=
  log.find? fun e => e.burst = burst

def lastOf (log : List Emission) (burst : Nat) : Option Emission :=
  (log.filter fun e => e.burst = burst).getLast?

def lastBefore (log : List Emission) (burst : Nat) : Option Emission :=
  (log.filter fun e => e.burst < burst).getLast?

def lastSeq (e : Option Emission) : U16 := e.elim 0 fun e => rtpSeq e.emitted
def lastTs (e : Option Emission) : U32 := e.elim 0 fun e => rtpTs e.emitted

/-- The virtual numbers of `e` are its own, shifted as a whole burst is: the first
packet of the burst goes on from the packet emitted last before it. -/
structure OffsetLaw (gap : U32) (log : List Emission) (e f : Emission) : Prop where
  first : firstOf log e.burst = some f
  seq : rtpSeq e.emitted = rtpSeq e.original - rtpSeq f.original + rtpSeq f.emitted
  ts : rtpTs e.emitted = rtpTs e.original - rtpTs f.original + rtpTs f.emitted
  firstSeq : rtpSeq f.emitted = lastSeq (lastBefore log e.burst) + 1
  firstTs : rtpTs f.emitted = lastTs (lastBefore log e.burst) + gap

structure Lawful (t : Trace) : Prop where
  mono : t.log.Pairwise fun e e' => e.burst ≤ e'.burst
  bound : ∀ e ∈ t.log, e.burst ≤ t.burst
  awaiting : t.rewriter.state.awaitingFirstPacket = true → ∀ e ∈ t.log, e.burst < t.burst
  started : t.rewriter.state.speaker ≠ none → t.rewriter.state.awaitingFirstPacket = false →
    ∃ f ∈ t.log, firstOf t.log t.burst = some f ∧ f.burst = t.burst ∧
      t.rewriter.state.originBaseSeq = rtpSeq f.original ∧
      t.rewriter.state.originBaseTs = rtpTs f.original ∧
      t.rewriter.state.virtualBaseSeq = rtpSeq f.emitted ∧
      t.rewriter.state.virtualBaseTs = rtpTs f.emitted
  lastSeq : t.rewriter.state.lastVirtualSeq = lastSeq t.log.getLast?
  lastTs : t.rewriter.state.lastVirtualTs = lastTs t.log.getLast?
  law : ∀ e ∈ t.log, ∃ f, OffsetLaw t.rewriter.tsGuardGap t.log e f

section

variable {log : List Emission} {e : Emission} {burst : Nat}

theorem firstOf_mem (h : firstOf log burst = some e) : e ∈ log ∧ e.burst = burst :=
  ⟨List.mem_of_find?_eq_some h, by simpa using List.find?_some h⟩

theorem firstOf_snoc {f : Emission} (h : firstOf log burst = some f) :
    firstOf (log ++ [e]) burst = some f := by
  rw [firstOf] at h ⊢
  simp [h]

theorem firstOf_snoc_self (h : ∀ x ∈ log, x.burst < e.burst) :
    firstOf (log ++ [e]) e.burst = some e := by
  have hnone : log.find? (fun x => decide (x.burst = e.burst)) = none := by
    rw [List.find?_eq_none]
    intro x hx
    simpa using Nat.ne_of_lt (h x hx)
  simp [firstOf, List.find?_append, hnone]

theorem lastBefore_snoc (h : burst ≤ e.burst) :
    lastBefore (log ++ [e]) burst = lastBefore log burst := by
  simp [lastBefore, show ¬ e.burst < burst by omega]

theorem lastBefore_eq_getLast? (h : ∀ x ∈ log, x.burst < burst) :
    lastBefore log burst = log.getLast? := by
  rw [lastBefore, List.filter_eq_self.mpr (by simpa using h)]

theorem OffsetLaw.snoc {gap : U32} {x f : Emission} (h : OffsetLaw gap log x f)
    (hx : x.burst ≤ e.burst) : OffsetLaw gap (log ++ [e]) x f where
  first := firstOf_snoc h.first
  seq := h.seq
  ts := h.ts
  firstSeq := by rw [lastBefore_snoc hx]; exact h.firstSeq
  firstTs := by rw [lastBefore_snoc hx]; exact h.firstTs

end

theorem lawful_start (virtualSsrc gap : U32) (requireKeyframe : Bool) :
    Lawful ⟨new virtualSsrc gap requireKeyframe, 0, []⟩ where
  mono := .nil
  bound := by simp
  awaiting := by simp
  started := by simp [new]
  lastSeq := rfl
  lastTs := rfl
  law := by simp

theorem Lawful.switchSpeaker {t : Trace} (h : Lawful t) (userId : String) :
    Lawful (t.step (.switchSpeaker userId)) where
  mono := h.mono
  bound := fun e he => Nat.le_succ_of_le (h.bound e he)
  awaiting := fun _ e he => Nat.lt_succ_of_le (h.bound e he)
  started := by simp [Trace.step, PttRewriter.switchSpeaker]
  lastSeq := h.lastSeq
  lastTs := h.lastTs
  law := h.law

theorem Lawful.clearSpeaker {t : Trace} (h : Lawful t) : Lawful (t.step .clearSpeaker) where
  mono := h.mono
  bound := h.bound
  awaiting := by simp [Trace.step, PttRewriter.clearSpeaker]
  started := by simp [Trace.step]
  lastSeq := h.lastSeq
  lastTs := h.lastTs
  law := h.law

theorem Lawful.emit_law {t : Trace} (h : Lawful t) (e : Emission) (state : RewriteState)
    (hburst : e.burst = t.burst) (hspk : t.rewriter.state.speaker ≠ none)
    (hstate : state = t.rewriter.state.emit t.rewriter.tsGuardGap (rtpSeq e.original)
      (rtpTs e.original))
    (hseq : rtpSeq e.emitted = state.lastVirtualSeq) (hts : rtpTs e.emitted = state.lastVirtualTs) :
    ∃ f, OffsetLaw t.rewriter.tsGuardGap (t.log ++ [e]) e f ∧
      state.originBaseSeq = rtpSeq f.original ∧ state.originBaseTs = rtpTs f.original ∧
      state.virtualBaseSeq = rtpSeq f.emitted ∧ state.virtualBaseTs = rtpTs f.emitted := by
  subst hstate
  rcases hawait : t.rewriter.state.awaitingFirstPacket with _ | _
  · obtain ⟨f, hf, hfirst, hfb, hos, hot, hvs, hvt⟩ := h.started hspk hawait
    obtain ⟨os, ot, vs, vt, ls, lt⟩ := t.rewriter.state.emit_next t.rewriter.tsGuardGap
      (rtpSeq e.original) (rtpTs e.original) hawait
    obtain ⟨f', lawf⟩ := h.law f hf
    have hff : f' = f := Option.some.inj (lawf.first.symm.trans (hfb ▸ hfirst))
    subst hff
    refine ⟨f', ⟨hburst ▸ firstOf_snoc hfirst, ?_, ?_, ?_, ?_⟩, by rw [os, hos], by rw [ot, hot],
      by rw [vs, hvs], by rw [vt, hvt]⟩
    · rw [hseq, ls, RewriteState.virtualSeq, hos, hvs]
    · rw [hts, lt, RewriteState.virtualTs, hot, hvt]
    · rw [lastBefore_snoc (Nat.le_refl _), hburst, ← hfb]; exact lawf.firstSeq
    · rw [lastBefore_snoc (Nat.le_refl _), hburst, ← hfb]; exact lawf.firstTs
  · obtain ⟨os, ot, vs, vt, ls, lt⟩ := t.rewriter.state.emit_first t.rewriter.tsGuardGap
      (rtpSeq e.original) (rtpTs e.original) hawait
    have hlt : ∀ x ∈ t.log, x.burst < e.burst := fun x hx => hburst ▸ h.awaiting hawait x hx
    have hprev : lastBefore (t.log ++ [e]) e.burst = t.log.getLast? := by
      rw [lastBefore_snoc (Nat.le_refl _), lastBefore_eq_getLast? hlt]
    refine ⟨e, ⟨firstOf_snoc_self hlt, by simp, by simp, ?_, ?_⟩, os, ot, ?_, ?_⟩
    · rw [hprev, hseq, ls, h.lastSeq]
    · rw [hprev, hts, lt, h.lastTs]
    · rw [vs, hseq, ls]
    · rw [vt, hts, lt]

theorem Lawful.rewrite {t : Trace} (h : Lawful t) (plaintext : Bytes) (sender : String)
    (isKeyframe : Bool) : Lawful (t.step (.rewrite plaintext sender isKeyframe)) := by
  rcases t.rewriter.rewrite_cases plaintext sender isKeyframe with
    ⟨hr, -⟩ | ⟨hr, -⟩ | ⟨state, hstate, hr, hlen, hspk⟩
  · simpa [Trace.step, hr] using h
  · simpa [Trace.step, hr] using h
  · obtain ⟨e, he⟩ : ∃ e : Emission, e = ⟨t.burst, plaintext,
        stamp plaintext t.rewriter.virtualSsrc state.lastVirtualSeq state.lastVirtualTs
          t.rewriter.state.awaitingFirstPacket⟩ := ⟨_, rfl⟩
    have hstep : t.step (.rewrite plaintext sender isKeyframe) =
        ⟨{ t.rewriter with state := state }, t.burst, t.log ++ [e]⟩ := by
      simp [Trace.step, hr, he]
    have hburst : e.burst = t.burst := by rw [he]
    obtain ⟨-, hseq, hts, -⟩ := stamp_fields t.rewriter.virtualSsrc state.lastVirtualSeq
      state.lastVirtualTs t.rewriter.state.awaitingFirstPacket hlen
    have hspk' : state.speaker = t.rewriter.state.speaker := by simp [hstate]
    obtain ⟨f, lawe, hos, hot, hvs, hvt⟩ := h.emit_law e state hburst (by simp [hspk])
      (by rw [hstate, he]; rfl) (by rw [he]; exact hseq) (by rw [he]; exact hts)
    obtain ⟨hf, hfb⟩ := firstOf_mem lawe.first
    rw [hstep]
    exact {
      mono := List.pairwise_append.mpr ⟨h.mono, List.pairwise_singleton _ _, by
        simpa [hburst] using h.bound⟩
      bound := by simpa [or_imp, forall_and, hburst] using h.bound
      awaiting := by simp [hstate]
      started := fun _ _ => ⟨f, hf, hburst ▸ lawe.first, hfb.trans hburst, hos, hot, hvs, hvt⟩
      lastSeq := by simp [PttRewriter.lastSeq, he, rtpSeq, hseq]
      lastTs := by simp [PttRewriter.lastTs, he, rtpTs, hts]
      law := by
        intro x hx
        rcases List.mem_append.mp hx with hx | hx
        · obtain ⟨g, lawx⟩ := h.law x hx
          exact ⟨g, lawx.snoc (hburst ▸ h.bound x hx)⟩
        · rw [List.mem_singleton.mp hx]
          exact ⟨f, lawe⟩ }

theorem Lawful.step {t : Trace} (h : Lawful t) (c : Call) : Lawful (t.step c) := by
  cases c with
  | switchSpeaker userId => exact h.switchSpeaker userId
  | clearSpeaker => exact h.clearSpeaker
  | rewrite plaintext sender isKeyframe => exact h.rewrite plaintext sender isKeyframe

theorem traceOf_lawful (virtualSsrc gap : U32) (requireKeyframe : Bool) (calls : List Call) :
    Lawful (traceOf (new virtualSsrc gap requireKeyframe) calls) :=
  List.foldlRecOn calls Trace.step (lawful_start virtualSsrc gap requireKeyframe)
    fun _ h c _ => h.step c

end LightLivechat.Room.PttRewriter
