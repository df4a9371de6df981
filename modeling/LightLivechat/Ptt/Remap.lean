import LightLivechat.Ptt.Fanout
import LightLivechat.Room.OffsetLaws
import LightLivechat.Transport.Udp.Nack

/-! NACKs on the virtual video stream.  Virtual numbers are mapped back to the
speaker's own, and what is cached under those is sent again, as it was cached.  So a
number has to mean the same to the publisher, to the cache and to the subscribers. -/

namespace LightLivechat.Ptt

open LightLivechat.Lib LightLivechat.Lib.Runs LightLivechat.Lib.Bytes LightLivechat.Lib.Rtp
open LightLivechat.Config
open LightLivechat.Room (Heap Ref Participant EgressPacket TrackKind RtpCache Room PttRewriter
  stamp)
open LightLivechat.Transport.Udp

def isVideo (b : Bytes) : Bool := (parseRtpHeader b).pt = 96

/-- The packet fanned out last on the virtual video stream under the number `v`. -/
def lastForwarded (s : System) (v : U16) : Option Bytes :=
  Ring.latest (fun b => isVideo b ∧ be32 b 8 = s.room.videoRewriter.virtualSsrc ∧ be16 b 2 = v)
    s.forwarded

/-- Read as RTP, the packet retransmits `forwarded`, sent under the number `v`. -/
def Retransmits (packet : Bytes) (v : U16) (forwarded : Bytes) : Prop :=
  ∃ q f, read packet = some q ∧ read forwarded = some f ∧ q.payload = toBe16 v ++ f.payload

/-- What a NACK adds to the subscriber's queue are retransmissions of packets that were
fanned out under numbers it names. -/
def RetransmitsNamed (s : System) (subscriber : Ref) (data : Bytes) : Prop :=
  ∀ packet, EgressPacket.rtp packet ∈ ((handleNackBlock s.heap s.room subscriber data).1
      subscriber).egress.drop (s.heap subscriber).egress.length →
    ∃ v forwarded, Nacked data v ∧ lastForwarded s v = some forwarded ∧
      Retransmits packet v forwarded

/-- The packet can be read, and its extension, if it has one, repeats its number: then it
makes no difference that a retransmission has the number in front of the extension. -/
def repeatable (b : Bytes) : Bool :=
  (read b).any fun p => p.extension.all fun e =>
    e.bytes = (List.replicate (2 + 2 * e.words.toNat) (toBe16 p.seq)).flatten

def Task.packet : Task → Option Bytes
  | .handler _ => none
  | .gate _ b | .rewrite _ b | .fanOut _ b => some b

/-- A video packet with the number is on its way. -/
def System.Carries (s : System) (n : U16) : Prop :=
  ∃ t ∈ s.tasks, ∃ b, t.packet = some b ∧ isVideo b ∧ be16 b 2 = n

/-- A number of `ns` means one packet: while that is under way no other has it, and it is
let through under the number it came with, as it can be sent again. -/
def OwnNumbers (ns : List U16) (s : System) : Label → Prop
  | .srtp sender plaintext _ =>
    isVideo plaintext → be16 plaintext 2 ∈ ns → repeatable plaintext ∧
      (∀ q, q ≠ sender → (s.heap q).rtpCache.get (be16 plaintext 2) = none) ∧
      ¬ s.Carries (be16 plaintext 2)
  | .advance i =>
    match s.tasks[i]? with
    | some (.gate sender plaintext) =>
      isVideo plaintext → be16 plaintext 2 ∈ ns → allowed s.room (s.heap sender).userId
    | some (.rewrite sender plaintext) =>
      let (_, rewritten, result) := rewriteRtp s.room (s.heap sender).userId plaintext
      isVideo plaintext → be16 plaintext 2 ∈ ns ∨ be16 rewritten 2 ∈ ns →
        result = .ok ∧ be16 rewritten 2 = be16 plaintext 2
    | _ => True
  | _ => True

/-- The burst has no offset, and no video packet with a number of `ns` is on its way. -/
structure Settled (ns : List U16) (s : System) : Prop where
  offset : s.room.videoRewriter.state.virtualBaseSeq = s.room.videoRewriter.state.originBaseSeq
  arrived : ∀ n ∈ ns, ¬ s.Carries n

/-- What can be read of the one can be read of the other, with the same payload. -/
def SamePayload (b b' : Bytes) : Prop :=
  ∀ p, read b = some p → ∃ q, read b' = some q ∧ q.payload = p.payload

/-- What the caches hold under a number of `ns` is on its way or was fanned out last under it. -/
structure Kept (ns : List U16) (s : System) : Prop where
  mode : s.room.mode = .ptt
  cached : ∀ q n b, n ∈ ns → (s.heap q).rtpCache.get n = some b → repeatable b ∧
    (s.Carries n ∨ ∃ forwarded, lastForwarded s n = some forwarded ∧ SamePayload b forwarded)
  carried : ∀ t ∈ s.tasks, ∀ b, t.packet = some b → isVideo b → be16 b 2 ∈ ns →
    ∀ q original, (s.heap q).rtpCache.get (be16 b 2) = some original → SamePayload original b
  stamped : ∀ sender b, .fanOut sender b ∈ s.tasks → isVideo b → be16 b 2 ∈ ns →
    be32 b 8 = s.room.videoRewriter.virtualSsrc

theorem SamePayload.refl (b : Bytes) : SamePayload b b := fun p h => ⟨p, h, rfl⟩

theorem SamePayload.trans {b b' b'' : Bytes} (h : SamePayload b b') (h' : SamePayload b' b'') :
    SamePayload b b'' := by
  intro p hp
  obtain ⟨q, hq, hpayload⟩ := h p hp
  obtain ⟨q', hq', hpayload'⟩ := h' q hq
  exact ⟨q', hq', hpayload'.trans hpayload⟩

section

variable {plaintext payload : Bytes} {room : Room} {userId : String}

theorem parse_fields (h : 12 ≤ plaintext.length) :
    (parseRtpHeader plaintext).pt = byteAt plaintext 1 &&& 0x7F ∧
      (parseRtpHeader plaintext).seq = be16 plaintext 2 := by
  have hmin : ¬ plaintext.length < rtpHeaderMinSize := Nat.not_lt.mpr h
  rw [parseRtpHeader, if_neg hmin]
  exact ⟨rfl, rfl⟩

theorem length_of_isVideo (h : isVideo plaintext) : 12 ≤ plaintext.length :=
  length_of_pt (by rw [of_decide_eq_true h]; decide)

theorem samePayload_stamp (ssrc : U32) (seq : U16) (ts : U32) (isFirst : Bool)
    (h : 12 ≤ plaintext.length) : SamePayload plaintext (stamp plaintext ssrc seq ts isFirst) := by
  intro p hp
  have hzero := PttRewriter.byteAt_stamp ssrc seq ts isFirst h (i := 0) (by omega)
  rw [if_neg (by simp)] at hzero
  exact read_of_drop hzero (LightLivechat.Room.stamp_fields ssrc seq ts isFirst h).1
    (PttRewriter.drop_stamp ssrc seq ts isFirst h) hp

theorem isVideo_stamp (ssrc : U32) (seq : U16) (ts : U32) (isFirst : Bool)
    (h : 12 ≤ plaintext.length) :
    isVideo (stamp plaintext ssrc seq ts isFirst) = isVideo plaintext := by
  have hlen := (LightLivechat.Room.stamp_fields ssrc seq ts isFirst h).1
  have hone := PttRewriter.byteAt_stamp ssrc seq ts isFirst h (i := 1) (by omega)
  have hmask : ∀ x : U8, (x ||| 0x80) &&& 0x7F = x &&& 0x7F := by decide
  rw [isVideo, isVideo, (parse_fields h).1, (parse_fields (hlen.symm ▸ h)).1, hone]
  split
  · rw [hmask]
  · rfl

theorem rewrite_passes {r : PttRewriter} {isKeyframe : Bool}
    (h : fanoutPayload plaintext (r.rewrite plaintext userId isKeyframe).2.1
      (r.rewrite plaintext userId isKeyframe).2.2 = some payload) :
    payload = (r.rewrite plaintext userId isKeyframe).2.1 ∧
      isVideo payload = isVideo plaintext ∧ SamePayload plaintext payload ∧
      ((r.rewrite plaintext userId isKeyframe).2.2 = .ok → be32 payload 8 = r.virtualSsrc) := by
  rcases r.rewrite_cases plaintext userId isKeyframe with
    ⟨hr, -⟩ | ⟨hr, -⟩ | ⟨state, -, hr, hlen, -⟩
  · rw [hr] at h ⊢
    cases h
    exact ⟨rfl, rfl, .refl _, nofun⟩
  · rw [hr] at h
    cases h
  · rw [hr] at h ⊢
    cases h
    exact ⟨rfl, isVideo_stamp _ _ _ _ hlen, samePayload_stamp _ _ _ _ hlen,
      fun _ => (LightLivechat.Room.stamp_fields _ _ _ _ hlen).2.2.2⟩

theorem rewriteRtp_passes
    (h : fanoutPayload plaintext (rewriteRtp room userId plaintext).2.1
      (rewriteRtp room userId plaintext).2.2 = some payload) :
    payload = (rewriteRtp room userId plaintext).2.1 ∧
      isVideo payload = isVideo plaintext ∧ SamePayload plaintext payload ∧
      (isVideo plaintext → (rewriteRtp room userId plaintext).2.2 = .ok →
        be32 payload 8 = room.videoRewriter.virtualSsrc) := by
  by_cases haudio : (parseRtpHeader plaintext).pt = 111
  · simp only [rewriteRtp, haudio, if_true] at h ⊢
    obtain ⟨heq, hvideo, hsame, -⟩ := rewrite_passes h
    refine ⟨heq, hvideo, hsame, fun hv => ?_⟩
    rw [isVideo, haudio] at hv
    cases hv
  · by_cases hv : (parseRtpHeader plaintext).pt = 96
    · simp only [rewriteRtp, if_neg haudio, if_pos hv] at h ⊢
      obtain ⟨heq, hvideo, hsame, hssrc⟩ := rewrite_passes h
      exact ⟨heq, hvideo, hsame, fun _ => hssrc⟩
    · simp only [rewriteRtp, if_neg haudio, if_neg hv] at h ⊢
      cases h
      exact ⟨rfl, rfl, .refl _, fun hv' => absurd (of_decide_eq_true hv') hv⟩

theorem get_number {c : RtpCache} {n : U16} {b : Bytes} (h : c.get n = some b) :
    be16 b 2 = n := by
  obtain ⟨-, hkeep⟩ := Option.filter_eq_some_iff.mp h
  exact (of_decide_eq_true hkeep).2

theorem get_takeIn {p : Participant} {now : Instant} {n : U16} {b : Bytes}
    (h : (takeIn p plaintext now).rtpCache.get n = some b) :
    (isVideo plaintext ∧ n = be16 plaintext 2 ∧ b = plaintext) ∨
      p.rtpCache.get n = some b ∧ ¬ (isVideo plaintext ∧ n = be16 plaintext 2) := by
  rw [takeIn_rtpCache] at h
  by_cases hvideo : isVideo plaintext
  · have hlen := length_of_isVideo hvideo
    have hnumber := get_number (c := p.rtpCache.store _ _) (if_pos (of_decide_eq_true hvideo) ▸ h)
    rw [if_pos (of_decide_eq_true hvideo), (parse_fields hlen).2] at h
    simp only [RtpCache.get, RtpCache.store, Ring.put_apply] at h
    split at h
    · obtain ⟨hb, -⟩ := Option.filter_eq_some_iff.mp h
      cases hb
      exact .inl ⟨hvideo, hnumber.symm, rfl⟩
    · rename_i hslot
      exact .inr ⟨h, fun hn => hslot (congrArg RtpCache.slot hn.2)⟩
  · rw [if_neg fun h => hvideo (decide_eq_true h)] at h
    exact .inr ⟨h, fun hn => hvideo hn.1⟩

end

section

variable {s s' : System} {ns : List U16}

theorem apply_mode (c : SpeakerCall) (room : Room) : (c.apply room).mode = room.mode := by
  obtain ⟨k, u⟩ := c
  cases k <;> cases u <;> rfl

theorem rewriteRtp_mode (room : Room) (userId : String) (plaintext : Bytes) :
    (rewriteRtp room userId plaintext).1.mode = room.mode := by
  simp only [rewriteRtp]
  split
  · rfl
  · split <;> rfl

theorem lastForwarded_congr (hssrc : s'.room.videoRewriter.virtualSsrc =
      s.room.videoRewriter.virtualSsrc) (hforwarded : s'.forwarded = s.forwarded) (n : U16) :
    lastForwarded s' n = lastForwarded s n := by
  rw [lastForwarded, hssrc, hforwarded]
  rfl

/-- Nothing is cached or fanned out, and every packet that is on its way then was before. -/
theorem Kept.frame (h : Kept ns s) (hssrcs : SameSsrcs s.room s'.room)
    (hmode : s'.room.mode = s.room.mode)
    (hcaches : ∀ q, (s'.heap q).rtpCache = (s.heap q).rtpCache)
    (hforwarded : s'.forwarded = s.forwarded)
    (hcarries : ∀ n ∈ ns, s.Carries n → s'.Carries n)
    (hcarried : ∀ t ∈ s'.tasks, ∀ b, t.packet = some b → isVideo b → be16 b 2 ∈ ns →
      t ∈ s.tasks ∨ (∃ u ∈ s.tasks, ∃ a, u.packet = some a ∧ isVideo a ∧ be16 a 2 = be16 b 2 ∧
        SamePayload a b) ∧ ∀ sender, t = .fanOut sender b →
          be32 b 8 = s.room.videoRewriter.virtualSsrc) : Kept ns s' where
  mode := hmode.trans h.mode
  cached := fun q n b hn hget => by
    rw [hcaches] at hget
    rw [lastForwarded_congr hssrcs.video hforwarded]
    exact (h.cached q n b hn hget).imp_right fun hor => hor.imp_left (hcarries n hn)
  carried := fun t ht b hb hvideo hn q original hget => by
    rw [hcaches] at hget
    rcases hcarried t ht b hb hvideo hn with ht | ⟨⟨u, hu, a, ha, hvideo', hnumber, hsame⟩, -⟩
    · exact h.carried t ht b hb hvideo hn q original hget
    · rw [← hnumber] at hn hget
      exact (h.carried u hu a ha hvideo' hn q original hget).trans hsame
  stamped := fun sender b ht hvideo hn => by
    rw [hssrcs.video]
    rcases hcarried _ ht b rfl hvideo hn with ht | ⟨-, hssrc⟩
    · exact h.stamped sender b ht hvideo hn
    · exact hssrc sender rfl

theorem mem_set_of_mem {ts : List Task} {i : Nat} {t u : Task} (hu : ts[i]? = some u)
    (ht : t ∈ ts) (t' : Task) : t ∈ ts.set i t' ∨ t = u := by
  obtain ⟨j, hj⟩ := List.getElem?_of_mem ht
  by_cases hij : i = j
  · subst hij
    exact .inr (Option.some.inj (hj.symm.trans hu))
  · exact .inl (List.mem_of_getElem? ((List.getElem?_set_ne hij).trans hj))

theorem carries_set {i : Nat} {u t' : Task} (hu : s.tasks[i]? = some u)
    (hkeeps : ∀ b, u.packet = some b → isVideo b → be16 b 2 ∈ ns →
      ∃ b', t'.packet = some b' ∧ isVideo b' ∧ be16 b' 2 = be16 b 2)
    (hs' : s'.tasks = s.tasks.set i t') {n : U16} (hn : n ∈ ns) (h : s.Carries n) :
    s'.Carries n := by
  obtain ⟨t, ht, b, hb, hvideo, rfl⟩ := h
  rcases mem_set_of_mem hu ht t' with hmem | rfl
  · exact ⟨t, hs' ▸ hmem, b, hb, hvideo, rfl⟩
  · obtain ⟨b', hb', hvideo', hnumber⟩ := hkeeps b hb hvideo hn
    exact ⟨t', hs' ▸ List.mem_set (List.getElem?_eq_some_iff.mp hu).1 t', b', hb', hvideo', hnumber⟩

theorem Kept.idle (h : Kept ns s) {i : Nat} {u : Task} (hu : s.tasks[i]? = some u) {room : Room}
    (hssrcs : SameSsrcs s.room room) (hmode : room.mode = s.room.mode) {steps : List HandlerStep}
    (hother : ∀ b, u.packet = some b → isVideo b → be16 b 2 ∉ ns) :
    Kept ns { s with room := room, tasks := s.tasks.set i (.handler steps) } := by
  refine h.frame hssrcs hmode (fun _ => rfl) rfl (fun n hn => ?_) fun t ht b hb hvideo hn => ?_
  · exact carries_set hu (fun b hb hvideo hn => absurd hn (hother b hb hvideo)) rfl hn
  · rcases List.mem_or_eq_of_mem_set ht with ht | rfl
    · exact .inl ht
    · cases hb

/-- A packet that is let through goes on under its own number, if that or the one it
gets is one of the numbers. -/
theorem Kept.pass (h : Kept ns s) {i : Nat} {sender : Ref} {plaintext payload : Bytes}
    (hu : s.tasks[i]? = some (.rewrite sender plaintext))
    (hown : isVideo plaintext → be16 plaintext 2 ∈ ns ∨
        be16 (rewriteRtp s.room (s.heap sender).userId plaintext).2.1 2 ∈ ns →
      (rewriteRtp s.room (s.heap sender).userId plaintext).2.2 = .ok ∧
        be16 (rewriteRtp s.room (s.heap sender).userId plaintext).2.1 2 = be16 plaintext 2)
    (hpass : fanoutPayload plaintext (rewriteRtp s.room (s.heap sender).userId plaintext).2.1
      (rewriteRtp s.room (s.heap sender).userId plaintext).2.2 = some payload) :
    Kept ns { s with
      room := (rewriteRtp s.room (s.heap sender).userId plaintext).1
      tasks := s.tasks.set i (.fanOut sender payload) } := by
  obtain ⟨rfl, hvideo, hsame, hssrc⟩ := rewriteRtp_passes hpass
  refine h.frame (rewriteRtp_sameSsrcs _ _ _) (rewriteRtp_mode _ _ _) (fun _ => rfl) rfl
    (fun n hn => ?_) fun t ht b hb hvideo' hn => ?_
  · refine carries_set hu (fun b hb hvideo' hn => ?_) rfl hn
    cases hb
    exact ⟨_, rfl, hvideo.trans hvideo', (hown hvideo' (.inl hn)).2⟩
  · rcases List.mem_or_eq_of_mem_set ht with ht | rfl
    · exact .inl ht
    · cases hb
      rw [hvideo] at hvideo'
      obtain ⟨hok, hnumber⟩ := hown hvideo' (.inr hn)
      exact .inr ⟨⟨_, List.mem_of_getElem? hu, plaintext, rfl, hvideo', hnumber.symm, hsame⟩,
        fun _ _ => hssrc hvideo' hok⟩

theorem Kept.fanOut (h : Kept ns s) {i : Nat} {sender : Ref} {payload : Bytes}
    (hu : s.tasks[i]? = some (.fanOut sender payload)) :
    Kept ns { s with
      heap := Transport.Udp.fanOut s.heap s.room (s.heap sender).userId (.rtp payload)
      forwarded := s.forwarded ++ [payload]
      tasks := s.tasks.set i (.handler []) } := by
  have hcaches := fanOut_field s.heap s.room Participant.rtpCache Participant.trySend_rtpCache
    (s.heap sender).userId (.rtp payload)
  have hmem := List.mem_of_getElem? hu
  refine ⟨h.mode, fun q n b hn hget => ?_, fun t ht b hb => ?_, fun q b ht => ?_⟩
  · rw [hcaches] at hget
    obtain ⟨hrepeatable, hor⟩ := h.cached q n b hn hget
    refine ⟨hrepeatable, ?_⟩
    rw [lastForwarded, Ring.latest_snoc]
    by_cases hlast : isVideo payload ∧ be16 payload 2 = n
    · obtain ⟨hvideo, rfl⟩ := hlast
      rw [if_pos (by simp [hvideo, h.stamped sender payload hmem hvideo hn])]
      exact .inr ⟨payload, rfl, h.carried _ hmem payload rfl hvideo hn q b hget⟩
    · rw [if_neg (by simp only [decide_eq_true_eq]; exact fun hall => hlast ⟨hall.1, hall.2.2⟩)]
      refine hor.imp_left ?_
      rintro ⟨t, ht, x, hx, hvideo, hnumber⟩
      rcases mem_set_of_mem hu ht (.handler []) with ht | rfl
      · exact ⟨t, ht, x, hx, hvideo, hnumber⟩
      · cases hx
        exact absurd ⟨hvideo, hnumber⟩ hlast
  · rcases List.mem_or_eq_of_mem_set ht with ht | rfl
    · intro hvideo hn q original hget
      rw [hcaches] at hget
      exact h.carried t ht b hb hvideo hn q original hget
    · cases hb
  · exact h.stamped q b ((List.mem_or_eq_of_mem_set ht).resolve_right nofun)

/-- A packet that arrives with one of the numbers is the only one that has it. -/
theorem Kept.arrive (h : Kept ns s) {sender : Ref} {plaintext : Bytes} {now : Instant}
    (hown : isVideo plaintext → be16 plaintext 2 ∈ ns → repeatable plaintext ∧
      (∀ q, q ≠ sender → (s.heap q).rtpCache.get (be16 plaintext 2) = none) ∧
      ¬ s.Carries (be16 plaintext 2)) :
    Kept ns (spawn { s with heap := s.heap.update sender fun p => takeIn p plaintext now }
      (.gate sender plaintext)) := by
  have hget : ∀ q n b, ((s.heap.update sender fun p => takeIn p plaintext now) q).rtpCache.get n =
      some b → (isVideo plaintext ∧ n = be16 plaintext 2 ∧ b = plaintext) ∨
        (s.heap q).rtpCache.get n = some b ∧
          (q = sender → ¬ (isVideo plaintext ∧ n = be16 plaintext 2)) := by
    intro q n b hget
    rw [Heap.update_apply] at hget
    split at hget
    · rename_i hq
      subst hq
      exact (get_takeIn hget).imp_right fun hold => ⟨hold.1, fun _ => hold.2⟩
    · rename_i hq
      exact .inr ⟨hget, fun h => absurd h hq⟩
  refine ⟨h.mode, fun q n b hn hb => ?_, fun t ht x hx hvideo hn q original ho => ?_,
    fun q b ht => ?_⟩
  · rcases hget q n b hb with ⟨hvideo, rfl, rfl⟩ | ⟨hb, -⟩
    · exact ⟨(hown hvideo hn).1,
        .inl ⟨_, List.mem_append_right _ List.mem_cons_self, b, rfl, hvideo, rfl⟩⟩
    · refine (h.cached q n b hn hb).imp_right fun hor => hor.imp_left ?_
      rintro ⟨t, ht, x, hx⟩
      exact ⟨t, List.mem_append_left _ ht, x, hx⟩
  · rcases List.mem_append.mp ht with ht | ht
    · rcases hget q _ original ho with ⟨hvideo', hnumber, rfl⟩ | ⟨ho, -⟩
      · exact absurd ⟨t, ht, x, hx, hvideo, hnumber⟩ (hown hvideo' (hnumber ▸ hn)).2.2
      · exact h.carried t ht x hx hvideo hn q original ho
    · obtain rfl := List.mem_singleton.mp ht
      cases hx
      rcases hget q _ original ho with ⟨-, -, rfl⟩ | ⟨ho, hnot⟩
      · exact .refl _
      · have hq : q ≠ sender := fun hq => hnot hq ⟨hvideo, rfl⟩
        rw [(hown hvideo hn).2.1 q hq] at ho
        cases ho
  · exact h.stamped q b ((List.mem_append.mp ht).resolve_right fun hmem =>
      nomatch List.mem_singleton.mp hmem)

end

section

variable {s s' : System} {ns : List U16} {data : Bytes}

theorem Kept.step (h : Kept ns s) {l : Label} (hown : OwnNumbers ns s l) (hmoved : Moved s l s') :
    Kept ns s' := by
  cases hmoved with
  | roster hsame =>
    exact h.frame hsame.sameSsrcs hsame.mode (fun _ => rfl) rfl (fun _ _ hn => hn)
      fun _ ht _ _ _ _ => .inl ht
  | floor =>
    refine h.frame ⟨rfl, rfl⟩ rfl (fun _ => rfl) rfl ?_ fun t ht b hb _ _ => ?_
    · rintro n - ⟨t, ht, hx⟩
      exact ⟨t, List.mem_append_left _ ht, hx⟩
    · refine .inl ((List.mem_append.mp ht).resolve_right fun hmem => ?_)
      rw [List.mem_singleton.mp hmem] at hb
      cases hb
  | arrive => exact h.arrive hown
  | task ht hstep =>
    simp only [OwnNumbers, ht] at hown
    cases hstep with
    | call c => exact h.idle ht (apply_sameSsrcs c s.room) (apply_mode c s.room) fun _ => nofun
    | remove _ hsame => exact h.idle ht hsame.sameSsrcs hsame.mode fun _ => nofun
    | @allow sender plaintext =>
      refine h.frame ⟨rfl, rfl⟩ rfl (fun _ => rfl) rfl (fun n hn => ?_)
        fun t hmem b hb hvideo hn => ?_
      · have hkeeps : ∀ b, (Task.gate sender plaintext).packet = some b → isVideo b →
            be16 b 2 ∈ ns → ∃ b', (Task.rewrite sender plaintext).packet = some b' ∧ isVideo b' ∧
              be16 b' 2 = be16 b 2 := fun b hb hvideo _ => ⟨b, hb, hvideo, rfl⟩
        exact carries_set ht hkeeps rfl hn
      · rcases List.mem_or_eq_of_mem_set hmem with hmem | rfl
        · exact .inl hmem
        · exact .inr ⟨⟨_, List.mem_of_getElem? ht, b, hb, hvideo, rfl, .refl b⟩, fun _ => nofun⟩
    | drop _ hnot =>
      refine h.idle ht ⟨rfl, rfl⟩ rfl fun b hb hvideo hn => ?_
      cases hb
      exact hnot (hown hvideo hn)
    | hold hnone =>
      refine h.idle ht (rewriteRtp_sameSsrcs _ _ _) (rewriteRtp_mode _ _ _) fun b hb hvideo hn => ?_
      cases hb
      rw [(hown hvideo (.inl hn)).1] at hnone
      cases hnone
    | pass hpass => exact h.pass ht hown hpass
    | fanOut => exact h.fanOut ht

theorem Fresh.kept (h : Fresh s) : Kept ns s where
  mode := h.mode
  cached := fun q n b _ hget => by
    rw [h.caches] at hget
    cases hget
  carried := fun t ht => by
    rw [h.tasks] at ht
    cases ht
  stamped := fun sender b ht => by
    rw [h.tasks] at ht
    cases ht

/-- The stream a NACK on the virtual video stream is looked up under. -/
def lookupSsrc (s : System) : U32 :=
  (speakerSsrc s.heap s.room .video).getD s.room.videoRewriter.virtualSsrc

theorem lookupOf_virtual (hmode : s.room.mode = .ptt)
    (hnack : GenericNack data s.room.videoRewriter.virtualSsrc) :
    ∀ nack ∈ parseRtcpNack data, lookupOf s.heap s.room nack =
      (lookupSsrc s, (expandNack nack.pid nack.blp).map s.room.videoRewriter.reverseSeq) := by
  intro nack hmem
  rw [hnack.parse] at hmem
  obtain ⟨k, -, rfl⟩ := List.mem_map.mp hmem
  simp [lookupOf, isVideoVirtual, hmode, lookupSsrc]

/-- What is queued for a NACK on the virtual video stream is built from what some cache holds
under a mapped number. -/
theorem queued_built (hmode : s.room.mode = .ptt) {subscriber : Ref} {packet : Bytes}
    (hnack : GenericNack data s.room.videoRewriter.virtualSsrc)
    (h : EgressPacket.rtp packet ∈ ((handleNackBlock s.heap s.room subscriber data).1
      subscriber).egress.drop (s.heap subscriber).egress.length) :
    ∃ p v original rtxSsrc rtxSeq, v ∈ namedSeqs data ∧
      (s.heap p).rtpCache.get (s.room.videoRewriter.reverseSeq v) = some original ∧
      packet = buildRtxPacket original rtxSsrc rtxSeq := by
  rw [(handleNackBlock_sent s.heap s.room subscriber data).queued, List.drop_left] at h
  obtain ⟨x, hx, ⟨⟩⟩ := List.mem_map.mp (List.mem_of_mem_take h)
  by_cases hfound : ∃ p rtxSsrc, LooksUp s.heap s.room (lookupSsrc s) p rtxSsrc
  · obtain ⟨p, rtxSsrc, hl⟩ := hfound
    have hanswer : Answer (s.heap p).rtpCache rtxSsrc _
        (handleNackBlock s.heap s.room subscriber data).2 :=
      hl.block (lookupOf_virtual hmode hnack)
    rw [← List.map_flatMap] at hanswer
    obtain ⟨original, hget, hbuild⟩ := hanswer.built x hx
    obtain ⟨hlost, -⟩ := hanswer.mem_lostSeqs.mp ⟨x, hx, rfl⟩
    obtain ⟨v, hv, hmapped⟩ := List.mem_map.mp hlost
    exact ⟨p, v, original, rtxSsrc, x.rtxSeq, hv, hmapped ▸ hget, hbuild⟩
  · rw [handleNackBlock_unknown (fun p r hl => hfound ⟨p, r, hl⟩) fun nack hmem => by
      rw [lookupOf_virtual hmode hnack nack hmem]] at hx
    cases hx

theorem retransmits_build {original forwarded : Bytes} {v : U16} (hv : be16 original 2 = v)
    (hrepeatable : repeatable original) (hsame : SamePayload original forwarded) (rtxSsrc : U32)
    (rtxSeq : U16) : Retransmits (buildRtxPacket original rtxSsrc rtxSeq) v forwarded := by
  obtain ⟨p, hp, hextension⟩ := (Option.any_eq_true _ _).mp hrepeatable
  have hseq : p.seq = v := by
    rw [← hv, show p.seq = (readHeader original).seq from congrArg Header.seq (read_toHeader hp)]
    rfl
  obtain ⟨q, hq, hretransmits⟩ := retransmits_of_repeats rtxSsrc rtxSeq hp fun e he => by
    rw [he] at hextension
    exact ⟨_, of_decide_eq_true hextension⟩
  obtain ⟨f, hf, hpayload⟩ := hsame p hp
  exact ⟨q, f, hq, hf, by rw [hretransmits.payload, hseq, hpayload]⟩

theorem Kept.named (h : Kept (namedSeqs data) s) (hsettled : Settled (namedSeqs data) s)
    (subscriber : Ref) (hnack : GenericNack data s.room.videoRewriter.virtualSsrc) :
    RetransmitsNamed s subscriber data := by
  intro packet hpacket
  obtain ⟨p, v, original, rtxSsrc, rtxSeq, hv, hget, rfl⟩ := queued_built h.mode hnack hpacket
  have hmapped : s.room.videoRewriter.reverseSeq v = v := by
    rw [PttRewriter.reverseSeq, hsettled.offset, BitVec.sub_add_cancel]
  rw [hmapped] at hget
  obtain ⟨hrepeatable, hor⟩ := h.cached p v original hv hget
  obtain ⟨forwarded, hlast, hsame⟩ := hor.resolve_left (hsettled.arrived v hv)
  exact ⟨v, forwarded, hnack.mem_namedSeqs.mp hv, hlast,
    retransmits_build (get_number hget) hrepeatable hsame rtxSsrc rtxSeq⟩

end

def keyframe (n : U16) : Bytes := [0x80, 96] ++ toBe16 n ++ toBe32 0 ++ toBe32 10 ++ [0x10, 0]

/-- A key frame of the holder goes out, whatever its number, as number 1. -/
def filmed (n : U16) : List Label :=
  [.floorRequest "a" 0, .advance 0, .advance 0, .srtp 0 (keyframe n) 0, .advance 1, .advance 1,
    .advance 1]

end LightLivechat.Ptt
