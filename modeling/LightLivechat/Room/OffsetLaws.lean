import LightLivechat.Lib.Histories
import LightLivechat.Room.PttRewriterLaws
import Mathlib.Data.List.Induction

/-! A rewriter against its documented law, stated on the calls made so far: which packets
are let through, what becomes of their bytes, and how the numbers are mapped back. -/

namespace LightLivechat.Room.PttRewriter

open LightLivechat.Lib.Bytes LightLivechat.Lib.Histories

def Call.Ends : Call → Prop
  | .switchSpeaker _ => True
  | .clearSpeaker => True
  | .rewrite .. => False

/-- `since` are the calls made since the floor was switched to the user, who has it still. -/
def SpeakingSince (calls : List Call) (u : String) (since : List Call) : Prop :=
  ∃ a, calls = a ++ .switchSpeaker u :: since ∧ ∀ c ∈ since, ¬ c.Ends

def KeyframeFrom (u : String) (c : Call) : Prop :=
  ∃ p, c = .rewrite p u true ∧ 12 ≤ p.length

/-- The packet is the current speaker's and, where a key frame is asked for, one has
arrived since the switch, this packet included. -/
def Admitted (requireKeyframe : Bool) (calls : List Call) (plaintext : Bytes) (sender : String)
    (isKeyframe : Bool) : Prop :=
  12 ≤ plaintext.length ∧ ∃ since, SpeakingSince calls sender since ∧
    (requireKeyframe = true →
      ∃ c ∈ since ++ [.rewrite plaintext sender isKeyframe], KeyframeFrom sender c)

def firstOfBurst (before : List Emission) (e : Emission) : Emission :=
  (firstOf before e.burst).getD e

/-- What a packet let through becomes, given those let through before it. -/
structure Emitted (virtualSsrc gap : U32) (before : List Emission) (e : Emission) : Prop where
  length : e.emitted.length = e.original.length
  ssrc : be32 e.emitted 8 = virtualSsrc
  seq : rtpSeq e.emitted = rtpSeq e.original - rtpSeq (firstOfBurst before e).original +
    lastSeq (lastBefore before e.burst) + 1
  ts : rtpTs e.emitted = rtpTs e.original - rtpTs (firstOfBurst before e).original +
    lastTs (lastBefore before e.burst) + gap
  marker : byteAt e.emitted 1 =
    if firstOf before e.burst = none then byteAt e.original 1 ||| 0x80 else byteAt e.original 1
  others : ∀ i, i = 0 ∨ 12 ≤ i → byteAt e.emitted i = byteAt e.original i

section

variable {calls since : List Call} {c : Call} {u sender : String} {p : Bytes} {k : Bool}

theorem not_speakingSince_nil : ¬ SpeakingSince [] u since := by
  rintro ⟨a, heq, -⟩
  simp at heq

theorem speakingSince_snoc : SpeakingSince (calls ++ [c]) u since ↔
    c = .switchSpeaker u ∧ since = [] ∨
      ∃ since', SpeakingSince calls u since' ∧ since = since' ++ [c] ∧ ¬ c.Ends := by
  constructor
  · rintro ⟨a, heq, hs⟩
    rcases split_snoc.mp heq with ⟨-, rfl, rfl⟩ | ⟨b, hcalls, rfl⟩
    · exact .inl ⟨rfl, rfl⟩
    · rw [List.forall_mem_append] at hs
      exact .inr ⟨b, ⟨a, hcalls, hs.1⟩, rfl, hs.2 c (List.mem_singleton_self c)⟩
  · rintro (⟨rfl, rfl⟩ | ⟨b, ⟨a, rfl, hb⟩, rfl, hc⟩)
    · exact ⟨calls, rfl, by simp⟩
    · exact ⟨a, by simp, List.forall_mem_append.mpr ⟨hb, by simpa using hc⟩⟩

theorem keyframeFrom_rewrite :
    KeyframeFrom u (.rewrite p sender k) ↔ sender = u ∧ k = true ∧ 12 ≤ p.length := by
  constructor
  · rintro ⟨_, ⟨⟩, hlen⟩
    exact ⟨rfl, rfl, hlen⟩
  · rintro ⟨rfl, rfl, hlen⟩
    exact ⟨p, rfl, hlen⟩

theorem byteAt_stamp {plaintext : Bytes} (ssrc : U32) (seq : U16) (ts : U32) (isFirst : Bool)
    (h : 12 ≤ plaintext.length) {i : Nat} (hi : i < 2 ∨ 12 ≤ i) :
    byteAt (stamp plaintext ssrc seq ts isFirst) i =
      if isFirst ∧ i = 1 then byteAt plaintext 1 ||| 0x80 else byteAt plaintext i := by
  have hkeep : ∀ {b src : Bytes} {j}, 2 ≤ j → j + src.length ≤ 12 → 12 ≤ b.length →
      ∀ {i}, i < 2 ∨ 12 ≤ i → byteAt (write b j src) i = byteAt b i := by
    intro b src j hj hsrc hb i hi
    rw [byteAt_write (by omega), if_neg (by omega)]
  have hlen : ∀ {b src : Bytes} {j}, j + src.length ≤ 12 → 12 ≤ b.length →
      12 ≤ (write b j src).length := by
    intro b src j hsrc hb
    rw [length_write (by omega)]
    exact hb
  have h1 : 12 ≤ (write plaintext 8 (toBe32 ssrc)).length := hlen (by simp) h
  have h2 : 12 ≤ (write (write plaintext 8 (toBe32 ssrc)) 2 (toBe16 seq)).length :=
    hlen (by simp) h1
  have h3 : 12 ≤ (write (write (write plaintext 8 (toBe32 ssrc)) 2 (toBe16 seq)) 4
      (toBe32 ts)).length := hlen (by simp) h2
  have hfields : ∀ {i}, i < 2 ∨ 12 ≤ i →
      byteAt (write (write (write plaintext 8 (toBe32 ssrc)) 2 (toBe16 seq)) 4 (toBe32 ts)) i =
        byteAt plaintext i := by
    intro i hi
    rw [hkeep (by omega) (by simp) h2 hi, hkeep (by omega) (by simp) h1 hi,
      hkeep (by omega) (by simp) h hi]
  unfold stamp
  cases isFirst with
  | false => simpa using hfields hi
  | true =>
    simp only [if_true, true_and]
    rw [byteAt_write (by rw [List.length_singleton]; omega), hfields (.inl (by omega)), hfields hi,
      List.length_singleton]
    by_cases h1 : i = 1
    · subst h1
      rfl
    · rw [if_neg (by omega), if_neg h1]

theorem drop_stamp {plaintext : Bytes} (ssrc : U32) (seq : U16) (ts : U32) (isFirst : Bool)
    (hlen : 12 ≤ plaintext.length) :
    (stamp plaintext ssrc seq ts isFirst).drop 12 = plaintext.drop 12 := by
  have h8 : 8 + (toBe32 ssrc).length ≤ plaintext.length := hlen
  have hl8 := length_write h8
  have h2 : 2 + (toBe16 seq).length ≤ (write plaintext 8 (toBe32 ssrc)).length := by
    rw [hl8, length_toBe16]
    omega
  have hl2 := length_write h2
  have h4 : 4 + (toBe32 ts).length ≤
      (write (write plaintext 8 (toBe32 ssrc)) 2 (toBe16 seq)).length := by
    rw [hl2, hl8, length_toBe32]
    omega
  have hl4 := length_write h4
  have hfields : (write (write (write plaintext 8 (toBe32 ssrc)) 2 (toBe16 seq)) 4
      (toBe32 ts)).drop 12 = plaintext.drop 12 := by
    rw [drop_write h4 (by simp), drop_write h2 (by simp), drop_write h8 (by simp)]
  unfold stamp
  dsimp only
  split
  · rw [drop_write (by rw [hl4, hl2, hl8]; simp; omega) (by simp), hfields]
  · exact hfields

end

theorem rewrite_eq_ok_iff (r : PttRewriter) (plaintext : Bytes) (sender : String)
    (isKeyframe : Bool) : (r.rewrite plaintext sender isKeyframe).2.2 = .ok ↔
      12 ≤ plaintext.length ∧ r.state.speaker = some sender ∧
        (r.state.pendingKeyframe = true → isKeyframe = true) := by
  unfold rewrite
  by_cases hlen : plaintext.length < 12
  · exact iff_of_false (by simp [hlen]) fun h => absurd h.1 (by omega)
  by_cases hspk : r.state.speaker = some sender
  · by_cases hkey : r.state.pendingKeyframe ∧ ¬ isKeyframe
    · simp [hlen, hspk, hkey]
    · simp only [hlen, hspk, hkey, ne_eq, not_true_eq_false, if_false, true_and, true_iff]
      exact ⟨Nat.not_lt.mp hlen, fun hp => by_contra fun hk => hkey ⟨hp, hk⟩⟩
  · simp [hlen, hspk]

theorem rewrite_of_ne_ok {r : PttRewriter} {plaintext : Bytes} {sender : String}
    {isKeyframe : Bool} (h : (r.rewrite plaintext sender isKeyframe).2.2 ≠ .ok) :
    (r.rewrite plaintext sender isKeyframe).1 = r ∧
      (r.rewrite plaintext sender isKeyframe).2.1 = plaintext := by
  rcases r.rewrite_cases plaintext sender isKeyframe with ⟨hr, -⟩ | ⟨hr, -⟩ | ⟨state, -, hr, -⟩
  · rw [hr]
    exact ⟨rfl, rfl⟩
  · rw [hr]
    exact ⟨rfl, rfl⟩
  · rw [hr] at h
    exact absurd rfl h

theorem emit_pendingKeyframe (s : RewriteState) (gap : U32) (seq : U16) (ts : U32) :
    (s.emit gap seq ts).pendingKeyframe = false := by
  simp only [RewriteState.emit, RewriteState.rebase]
  split <;> rfl

theorem firstOfBurst_eq {log : List Emission} {e f : Emission}
    (h : firstOf (log ++ [e]) e.burst = some f) : firstOfBurst log e = f := by
  unfold firstOfBurst
  cases hf : firstOf log e.burst with
  | none =>
    have hnone : log.find? (fun x => decide (x.burst = e.burst)) = none := hf
    simpa [firstOf, List.find?_append, hnone] using h
  | some g => exact Option.some.inj ((firstOf_snoc hf).symm.trans h)

/-- A rewriter's state says what the calls made so far say. -/
structure Obeys (virtualSsrc gap : U32) (requireKeyframe : Bool) (calls : List Call) (t : Trace) :
    Prop extends Lawful t where
  ssrc_eq : t.rewriter.virtualSsrc = virtualSsrc
  gap_eq : t.rewriter.tsGuardGap = gap
  gate_eq : t.rewriter.requireKeyframe = requireKeyframe
  speaker : ∀ u, t.rewriter.state.speaker = some u ↔ ∃ since, SpeakingSince calls u since
  pending : ∀ {u since}, SpeakingSince calls u since →
    (t.rewriter.state.pendingKeyframe = true ↔
      requireKeyframe = true ∧ ¬ ∃ c ∈ since, KeyframeFrom u c)
  emitted : Each (Emitted virtualSsrc gap) t.log
  bases : ∀ l, t.log.getLast? = some l → ∃ f, firstOf t.log l.burst = some f ∧
    t.rewriter.state.originBaseSeq = rtpSeq f.original ∧
    t.rewriter.state.virtualBaseSeq = rtpSeq f.emitted

section

variable {ssrc gap : U32} {kf : Bool} {calls : List Call} {t : Trace}

theorem obeys_start : Obeys ssrc gap kf [] ⟨new ssrc gap kf, 0, []⟩ where
  toLawful := lawful_start ssrc gap kf
  ssrc_eq := rfl
  gap_eq := rfl
  gate_eq := rfl
  speaker := fun u => iff_of_false (by simp [new]) fun ⟨_, h⟩ => not_speakingSince_nil h
  pending := fun h => absurd h not_speakingSince_nil
  emitted := each_nil
  bases := by simp

theorem Obeys.switchSpeaker (h : Obeys ssrc gap kf calls t) (u : String) :
    Obeys ssrc gap kf (calls ++ [.switchSpeaker u]) (t.step (.switchSpeaker u)) where
  toLawful := h.toLawful.switchSpeaker u
  ssrc_eq := h.ssrc_eq
  gap_eq := h.gap_eq
  gate_eq := h.gate_eq
  speaker := by
    intro u'
    simp only [speakingSince_snoc]
    simp [Trace.step, PttRewriter.switchSpeaker, Call.Ends]
  pending := by
    intro u' since hs
    rcases speakingSince_snoc.mp hs with ⟨-, rfl⟩ | ⟨_, -, -, hc⟩
    · simp [Trace.step, PttRewriter.switchSpeaker, h.gate_eq]
    · exact absurd trivial hc
  emitted := h.emitted
  bases := h.bases

theorem Obeys.clearSpeaker (h : Obeys ssrc gap kf calls t) :
    Obeys ssrc gap kf (calls ++ [.clearSpeaker]) (t.step .clearSpeaker) := by
  have hnobody : ∀ u since, ¬ SpeakingSince (calls ++ [.clearSpeaker]) u since := by
    intro u since hs
    rcases speakingSince_snoc.mp hs with ⟨hc, -⟩ | ⟨_, -, -, hc⟩
    · cases hc
    · exact hc trivial
  exact {
    toLawful := h.toLawful.clearSpeaker
    ssrc_eq := h.ssrc_eq
    gap_eq := h.gap_eq
    gate_eq := h.gate_eq
    speaker := fun u => iff_of_false (by simp [Trace.step]) fun ⟨_, hs⟩ => hnobody _ _ hs
    pending := fun hs => absurd hs (hnobody _ _)
    emitted := h.emitted
    bases := h.bases }

theorem speakingSince_rewrite {u sender : String} {p : Bytes} {k : Bool} {since : List Call} :
    SpeakingSince (calls ++ [.rewrite p sender k]) u since ↔
      ∃ since', SpeakingSince calls u since' ∧ since = since' ++ [.rewrite p sender k] := by
  rw [speakingSince_snoc]
  simp [Call.Ends]

/-- The key frame waited for is a packet of at least twelve bytes of the speaker's. -/
theorem Obeys.admitted_iff (h : Obeys ssrc gap kf calls t) (p : Bytes) (u : String) (k : Bool) :
    (t.rewriter.rewrite p u k).2.2 = .ok ↔ Admitted kf calls p u k := by
  rw [rewrite_eq_ok_iff, Admitted]
  refine and_congr_right fun hlen => ?_
  rw [h.speaker]
  constructor
  · rintro ⟨⟨since, hs⟩, hkey⟩
    refine ⟨since, hs, fun hkf => ?_⟩
    by_contra hno
    rw [h.pending hs] at hkey
    simp only [List.mem_append, List.mem_singleton, or_and_right, exists_or, not_or] at hno
    have hk := hkey ⟨hkf, hno.1⟩
    exact hno.2 ⟨_, rfl, keyframeFrom_rewrite.mpr ⟨rfl, hk, hlen⟩⟩
  · rintro ⟨since, hs, hkey⟩
    refine ⟨⟨since, hs⟩, fun hp => ?_⟩
    obtain ⟨hkf, hno⟩ := (h.pending hs).mp hp
    obtain ⟨c, hc, hfrom⟩ := hkey hkf
    rcases List.mem_append.mp hc with hc | hc
    · exact absurd ⟨c, hc, hfrom⟩ hno
    · rw [List.mem_singleton.mp hc] at hfrom
      exact (keyframeFrom_rewrite.mp hfrom).2.1

theorem Lawful.emitted {p : Bytes} {u : String} {k : Bool} (h : Lawful t)
    (hok : (t.rewriter.rewrite p u k).2.2 = .ok) :
    ∃ e f, e = ⟨t.burst, p, (t.rewriter.rewrite p u k).2.1⟩ ∧
      (t.step (.rewrite p u k)).log = t.log ++ [e] ∧
      Emitted t.rewriter.virtualSsrc t.rewriter.tsGuardGap t.log e ∧
      firstOf (t.log ++ [e]) e.burst = some f ∧
      (t.rewriter.rewrite p u k).1.state.originBaseSeq = rtpSeq f.original ∧
      (t.rewriter.rewrite p u k).1.state.virtualBaseSeq = rtpSeq f.emitted := by
  rcases t.rewriter.rewrite_cases p u k with ⟨hr, -⟩ | ⟨hr, -⟩ | ⟨state, hstate, hr, hlen, hspk⟩
  · simp [hr] at hok
  · simp [hr] at hok
  obtain ⟨hlength, hseq, hts, hssrc⟩ := stamp_fields t.rewriter.virtualSsrc state.lastVirtualSeq
    state.lastVirtualTs t.rewriter.state.awaitingFirstPacket hlen
  obtain ⟨e, he⟩ : ∃ e : Emission, e = ⟨t.burst, p, (t.rewriter.rewrite p u k).2.1⟩ := ⟨_, rfl⟩
  have hout : e.emitted = stamp p t.rewriter.virtualSsrc state.lastVirtualSeq
      state.lastVirtualTs t.rewriter.state.awaitingFirstPacket := by rw [he, hr]
  have horig : e.original = p := by rw [he]
  have hburst : e.burst = t.burst := by rw [he]
  obtain ⟨f, law, hos, -, hvs, -⟩ := h.emit_law e state hburst (by simp [hspk])
    (by rw [hstate, horig]; rfl) (by rw [hout]; exact hseq) (by rw [hout]; exact hts)
  have hfirst := firstOfBurst_eq law.first
  have hprev : lastBefore (t.log ++ [e]) e.burst = lastBefore t.log e.burst :=
    lastBefore_snoc (Nat.le_refl e.burst)
  have hstamp := fun {i} => byteAt_stamp (i := i) t.rewriter.virtualSsrc state.lastVirtualSeq
    state.lastVirtualTs t.rewriter.state.awaitingFirstPacket hlen
  refine ⟨e, f, he, by simp [Trace.step, hr, he], ?_, law.first, by rw [hr]; exact hos,
    by rw [hr]; exact hvs⟩
  exact {
    length := by rw [hout, horig, hlength]
    ssrc := by rw [hout, hssrc]
    seq := by rw [law.seq, law.firstSeq, hfirst, hprev, ← BitVec.add_assoc]
    ts := by rw [law.ts, law.firstTs, hfirst, hprev, ← BitVec.add_assoc]
    marker := by
      rw [hout, horig, hstamp (.inl (by omega)), hburst]
      rcases hawait : t.rewriter.state.awaitingFirstPacket with _ | _
      · obtain ⟨g, -, hg, -⟩ := h.started (by simp [hspk]) hawait
        simp [hg]
      · have hnone : firstOf t.log t.burst = none := by
          rw [firstOf, List.find?_eq_none]
          intro x hx
          simpa using Nat.ne_of_lt (h.awaiting hawait x hx)
        simp [hnone]
    others := by
      intro i hi
      rw [hout, horig, hstamp (by omega), if_neg (by omega)] }

theorem Obeys.speaker_rewrite (h : Obeys ssrc gap kf calls t) (p : Bytes) (sender : String)
    (k : Bool) (u : String) : (t.step (.rewrite p sender k)).rewriter.state.speaker = some u ↔
      ∃ since, SpeakingSince (calls ++ [.rewrite p sender k]) u since := by
  have hframe : (t.step (.rewrite p sender k)).rewriter.state.speaker =
      t.rewriter.state.speaker := (t.rewriter.rewrite_frame p sender k).1
  rw [hframe, h.speaker]
  simp only [speakingSince_rewrite]
  exact ⟨fun ⟨_, hs⟩ => ⟨_, _, hs, rfl⟩, fun ⟨_, _, hs, _⟩ => ⟨_, hs⟩⟩

theorem Obeys.pending_rewrite (h : Obeys ssrc gap kf calls t) {p : Bytes} {sender : String}
    {k : Bool} {u : String} {since : List Call}
    (hs : SpeakingSince (calls ++ [.rewrite p sender k]) u since) :
    (t.step (.rewrite p sender k)).rewriter.state.pendingKeyframe = true ↔
      kf = true ∧ ¬ ∃ c ∈ since, KeyframeFrom u c := by
  obtain ⟨before, hbefore, rfl⟩ := speakingSince_rewrite.mp hs
  have hspk : t.rewriter.state.speaker = some u := (h.speaker u).mpr ⟨before, hbefore⟩
  have hstep : (t.step (.rewrite p sender k)).rewriter = (t.rewriter.rewrite p sender k).1 := rfl
  simp only [List.mem_append, List.mem_singleton, or_and_right, exists_or, exists_eq_left, not_or,
    keyframeFrom_rewrite, hstep]
  by_cases hok : (t.rewriter.rewrite p sender k).2.2 = .ok
  · obtain ⟨hlen, hsender, hkey⟩ := (rewrite_eq_ok_iff ..).mp hok
    rw [h.pending hbefore] at hkey
    have hu : sender = u := Option.some.inj (hsender.symm.trans hspk)
    refine iff_of_false ?_ fun ⟨hkf, hno, hnot⟩ => hnot ⟨hu, hkey ⟨hkf, hno⟩, hlen⟩
    rcases t.rewriter.rewrite_cases p sender k with ⟨hr, -⟩ | ⟨hr, -⟩ | ⟨state, rfl, hr, -⟩
    · simp [hr] at hok
    · simp [hr] at hok
    · simp [hr, emit_pendingKeyframe]
  · rw [(rewrite_of_ne_ok hok).1, h.pending hbefore]
    refine and_congr_right fun _ => (and_iff_left ?_).symm
    rintro ⟨rfl, hk, hlen⟩
    exact hok ((rewrite_eq_ok_iff ..).mpr ⟨hlen, hspk, fun _ => hk⟩)

theorem rewrite_const (r : PttRewriter) (p : Bytes) (u : String) (k : Bool) :
    (r.rewrite p u k).1.virtualSsrc = r.virtualSsrc ∧
      (r.rewrite p u k).1.tsGuardGap = r.tsGuardGap ∧
      (r.rewrite p u k).1.requireKeyframe = r.requireKeyframe := by
  rcases r.rewrite_cases p u k with ⟨hr, -⟩ | ⟨hr, -⟩ | ⟨_, -, hr, -⟩ <;>
    exact hr ▸ ⟨rfl, rfl, rfl⟩

theorem Obeys.rewrite (h : Obeys ssrc gap kf calls t) (p : Bytes) (u : String) (k : Bool) :
    Obeys ssrc gap kf (calls ++ [.rewrite p u k]) (t.step (.rewrite p u k)) := by
  obtain ⟨hssrc, hgap, hgate⟩ := rewrite_const t.rewriter p u k
  have hlog : Each (Emitted ssrc gap) (t.step (.rewrite p u k)).log ∧
      ∀ l, (t.step (.rewrite p u k)).log.getLast? = some l →
        ∃ f, firstOf (t.step (.rewrite p u k)).log l.burst = some f ∧
          (t.rewriter.rewrite p u k).1.state.originBaseSeq = rtpSeq f.original ∧
          (t.rewriter.rewrite p u k).1.state.virtualBaseSeq = rtpSeq f.emitted := by
    by_cases hok : (t.rewriter.rewrite p u k).2.2 = .ok
    · obtain ⟨e, f, -, hlog, hlaw, hfirst, hos, hvs⟩ := h.toLawful.emitted hok
      rw [h.ssrc_eq, h.gap_eq] at hlaw
      rw [hlog, each_snoc, List.getLast?_concat]
      refine ⟨⟨h.emitted, hlaw⟩, ?_⟩
      rintro l ⟨⟩
      exact ⟨f, hfirst, hos, hvs⟩
    · have hsame : (t.step (.rewrite p u k)).log = t.log := if_neg hok
      rw [hsame, (rewrite_of_ne_ok hok).1]
      exact ⟨h.emitted, h.bases⟩
  exact {
    toLawful := h.toLawful.rewrite p u k
    ssrc_eq := hssrc.trans h.ssrc_eq
    gap_eq := hgap.trans h.gap_eq
    gate_eq := hgate.trans h.gate_eq
    speaker := h.speaker_rewrite p u k
    pending := h.pending_rewrite
    emitted := hlog.1
    bases := hlog.2 }

theorem Obeys.step (h : Obeys ssrc gap kf calls t) (c : Call) :
    Obeys ssrc gap kf (calls ++ [c]) (t.step c) := by
  cases c with
  | switchSpeaker u => exact h.switchSpeaker u
  | clearSpeaker => exact h.clearSpeaker
  | rewrite p u k => exact h.rewrite p u k

theorem obeys_traceOf (ssrc gap : U32) (kf : Bool) (calls : List Call) :
    Obeys ssrc gap kf calls (traceOf (new ssrc gap kf) calls) := by
  induction calls using List.reverseRecOn with
  | nil => exact obeys_start
  | append_singleton calls c ih =>
    rw [traceOf, List.foldl_append]
    exact ih.step c

/-- Until the next burst has let a packet through, the latest one is mapped back. -/
theorem Obeys.reverseSeq (h : Obeys ssrc gap kf calls t) {e l : Emission} (he : e ∈ t.log)
    (hl : t.log.getLast? = some l) (hb : e.burst = l.burst) :
    t.rewriter.reverseSeq (rtpSeq e.emitted) = rtpSeq e.original := by
  obtain ⟨f, hf, hos, hvs⟩ := h.bases l hl
  obtain ⟨f', law⟩ := h.law e he
  have hff : f' = f := Option.some.inj (law.first.symm.trans (hb ▸ hf))
  subst hff
  rw [PttRewriter.reverseSeq, law.seq, hos, hvs]
  grind

end

/-- What a rewriter does over any run of calls, by the calls alone: which packets it lets
through, what becomes of them, that it leaves the others alone, and that it maps back the
numbers of the burst that let a packet through last. -/
theorem rewriter_refines (virtualSsrc gap : U32) (requireKeyframe : Bool) (calls : List Call) :
    let t := traceOf (new virtualSsrc gap requireKeyframe) calls
    (∀ p u k, (t.rewriter.rewrite p u k).2.2 = .ok ↔ Admitted requireKeyframe calls p u k) ∧
    (∀ p u k, (t.rewriter.rewrite p u k).2.2 ≠ .ok → (t.rewriter.rewrite p u k).2.1 = p) ∧
    Each (Emitted virtualSsrc gap) t.log ∧
    ∀ l, t.log.getLast? = some l → ∀ e ∈ t.log, e.burst = l.burst →
      t.rewriter.reverseSeq (rtpSeq e.emitted) = rtpSeq e.original := by
  have h := obeys_traceOf virtualSsrc gap requireKeyframe calls
  exact ⟨h.admitted_iff, fun p u k hne => (rewrite_of_ne_ok hne).2, h.emitted,
    fun l hl e he hb => h.reverseSeq he hl hb⟩

end LightLivechat.Room.PttRewriter
