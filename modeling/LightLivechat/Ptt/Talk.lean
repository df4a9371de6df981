import LightLivechat.Lib.Components
import LightLivechat.Ptt.Fanout
import LightLivechat.Room.FloorLaws
import LightLivechat.Room.OffsetLaws

/-! Push-to-talk by itself: the floor of a room and its two rewriters, the calls on the floor
and the packets that ask to pass.  What passes is one stream of either kind, whoever has
the floor. -/

namespace LightLivechat.Ptt

open LightLivechat.Lib.Histories LightLivechat.Lib.Runs LightLivechat.Lib.Bytes
open LightLivechat.Lib.Std
open LightLivechat.Room (TrackKind FloorAction FloorController PttRewriter RewriteResult Room
  isVp8Keyframe tsGuardGapAudio tsGuardGapVideo)
open LightLivechat.Room.PttRewriter (Emission Emitted Trace traceOf)
open LightLivechat.Transport.Udp (parseRtpHeader fanoutPayload)

/-- The rewriter a packet is for, by its payload type. -/
def kindOf (plaintext : Bytes) : Option TrackKind :=
  if (parseRtpHeader plaintext).pt = 111 then some .audio
  else if (parseRtpHeader plaintext).pt = 96 then some .video
  else none

def isKey : TrackKind → Bytes → Bool
  | .audio, _ => false
  | .video, plaintext => isVp8Keyframe plaintext

def gapOf : TrackKind → U32
  | .audio => tsGuardGapAudio
  | .video => tsGuardGapVideo

def callOn (r : PttRewriter) : PttRewriter.Call → PttRewriter
  | .switchSpeaker userId => r.switchSpeaker userId
  | .clearSpeaker => r.clearSpeaker
  | .rewrite plaintext sender isKeyframe => (r.rewrite plaintext sender isKeyframe).1

def speakerCalls : Option FloorAction → List PttRewriter.Call
  | some (.granted speaker) => [.switchSpeaker speaker]
  | some (.released _) => [.clearSpeaker]
  | some (.revoked ..) => [.clearSpeaker]
  | _ => []

structure Talk where
  floor : FloorController
  rewriter : TrackKind → PttRewriter

inductive TalkOp where
  | floor (call : FloorController.Call)
  | packet (userId : String) (plaintext : Bytes)

namespace Talk

def of (room : Room) : Talk where
  floor := room.floor
  rewriter
    | .audio => room.audioRewriter
    | .video => room.videoRewriter

/-- Nobody has the floor, and nothing has passed. -/
def fresh (ssrc : TrackKind → U32) : Talk where
  floor := .new
  rewriter kind := .new (ssrc kind) (gapOf kind) (kind = .video)

def calls (kind : TrackKind) (t : Talk) : TalkOp → List PttRewriter.Call
  | .floor call => speakerCalls (t.floor.apply call).2
  | .packet userId plaintext =>
    if t.floor.currentSpeaker = some userId ∧ kindOf plaintext = some kind then
      [.rewrite plaintext userId (isKey kind plaintext)]
    else []

def floorCalls : TalkOp → List FloorController.Call
  | .floor call => [call]
  | .packet .. => []

def apply (t : Talk) (op : TalkOp) : Talk where
  floor := (floorCalls op).foldl (fun c call => (c.apply call).1) t.floor
  rewriter kind := (t.calls kind op).foldl callOn (t.rewriter kind)

def payload (t : Talk) (userId : String) (plaintext : Bytes) : Option Bytes :=
  if t.floor.currentSpeaker = some userId then
    match kindOf plaintext with
    | some kind =>
      let (_, rewritten, result) :=
        (t.rewriter kind).rewrite plaintext userId (isKey kind plaintext)
      fanoutPayload plaintext rewritten result
    | none => some plaintext
  else none

/-- What passes of one kind, with what it has become. -/
def passed (kind : TrackKind) (t : Talk) : TalkOp → List (Bytes × Bytes)
  | .packet userId plaintext =>
    if kindOf plaintext = some kind then
      (t.payload userId plaintext).toList.map fun out => (plaintext, out)
    else []
  | .floor _ => []

def step (t : Talk) (op : TalkOp) : Option Talk := some (t.apply op)

/-- The rewriters have the speaker that has the floor. -/
def Agrees (t : Talk) : Prop := ∀ kind, (t.rewriter kind).state.speaker = t.floor.currentSpeaker

end Talk

/-- The speaker that the floor's answer leaves. -/
def speakerAfter (speaker : Option String) : Option FloorAction → Option String
  | some (.granted u) => some u
  | some (.released _) => none
  | some (.revoked ..) => none
  | _ => speaker

theorem apply_speaker (c : FloorController) (call : FloorController.Call) :
    (c.apply call).1.currentSpeaker = speakerAfter c.currentSpeaker (c.apply call).2 := by
  cases call with
  | request u now =>
    obtain ⟨c', h, hspeaker⟩ | ⟨reason, cur, h⟩ := c.request_cases u now <;>
      simp [FloorController.apply, speakerAfter, *]
  | release u =>
    obtain ⟨c', h, hspeaker⟩ | h := c.release_cases u <;>
      simp [FloorController.apply, speakerAfter, *]
  | ping u now =>
    obtain ⟨state⟩ := c
    cases state with
    | idle => rfl
    | taken speaker burst ping =>
      simp only [FloorController.apply, FloorController.ping]
      split <;> rfl
  | checkTimers now =>
    obtain ⟨c', prev, cause, h, hspeaker⟩ | h := c.checkTimers_cases now <;>
      simp [FloorController.apply, speakerAfter, *]
  | onParticipantLeave u =>
    obtain ⟨c', h, hspeaker⟩ | h := c.onParticipantLeave_cases u <;>
      simp [FloorController.apply, speakerAfter, *]

theorem speakerCalls_speaker (r : PttRewriter) (answer : Option FloorAction) :
    ((speakerCalls answer).foldl callOn r).state.speaker = speakerAfter r.state.speaker answer := by
  unfold speakerCalls speakerAfter
  split <;> rfl

theorem length_of_kindOf {plaintext : Bytes} {kind : TrackKind} (h : kindOf plaintext = some kind) :
    12 ≤ plaintext.length := by
  refine length_of_pt fun hpt => ?_
  simp [kindOf, hpt] at h

namespace Talk

variable {t : Talk} {kind : TrackKind} {userId : String} {plaintext : Bytes}

theorem agrees_fresh (ssrc : TrackKind → U32) : (fresh ssrc).Agrees := fun _ => rfl

theorem Agrees.apply (h : t.Agrees) (op : TalkOp) : (t.apply op).Agrees := by
  intro kind
  cases op with
  | floor call =>
    refine (speakerCalls_speaker _ _).trans ?_
    rw [h kind]
    exact (apply_speaker t.floor call).symm
  | packet userId plaintext =>
    simp only [Talk.apply, calls, floorCalls, List.foldl_nil]
    split
    · exact ((t.rewriter kind).rewrite_frame _ _ _).1.trans (h kind)
    · exact h kind

theorem trace_step (trace : Trace) (c : PttRewriter.Call) :
    (trace.step c).rewriter = callOn trace.rewriter c := by cases c <;> rfl

theorem speakerCalls_log (trace : Trace) (answer : Option FloorAction) :
    ((speakerCalls answer).foldl Trace.step trace).rewriter =
        (speakerCalls answer).foldl callOn trace.rewriter ∧
      ((speakerCalls answer).foldl Trace.step trace).log = trace.log := by
  unfold speakerCalls
  split <;> exact ⟨rfl, rfl⟩

theorem Agrees.rewrite_log (h : t.Agrees) (hspeaker : t.floor.currentSpeaker = some userId)
    (hkind : kindOf plaintext = some kind) {trace : Trace} (htrace : trace.rewriter = t.rewriter kind) :
    (trace.step (.rewrite plaintext userId (isKey kind plaintext))).log.map
        (fun e => (e.original, e.emitted)) =
      trace.log.map (fun e => (e.original, e.emitted)) ++
        (t.payload userId plaintext).toList.map fun out => (plaintext, out) := by
  have hlen := length_of_kindOf hkind
  have hsender := (h kind).trans hspeaker
  simp only [Trace.step, payload, htrace, hkind, hspeaker, if_true]
  obtain ⟨-, hskip⟩ | ⟨hr, -⟩ | ⟨state, -, hr, -⟩ :=
    (t.rewriter kind).rewrite_cases plaintext userId (isKey kind plaintext)
  · rcases hskip with hshort | hother
    · omega
    · exact absurd hsender hother
  · rw [hr]
    simp [fanoutPayload]
  · rw [hr]
    simp [fanoutPayload]

theorem Agrees.step_log (h : t.Agrees) (op : TalkOp) {trace : Trace}
    (htrace : trace.rewriter = t.rewriter kind) :
    ((t.calls kind op).foldl Trace.step trace).rewriter = (t.apply op).rewriter kind ∧
      ((t.calls kind op).foldl Trace.step trace).log.map (fun e => (e.original, e.emitted)) =
        trace.log.map (fun e => (e.original, e.emitted)) ++ t.passed kind op := by
  cases op with
  | floor call =>
    obtain ⟨hrewriter, hlog⟩ := speakerCalls_log trace (t.floor.apply call).2
    refine ⟨hrewriter.trans (by rw [htrace]; rfl), ?_⟩
    simp only [calls, passed, hlog, List.append_nil]
  | packet userId plaintext =>
    simp only [Talk.apply, calls, passed]
    by_cases hkind : kindOf plaintext = some kind
    · by_cases hspeaker : t.floor.currentSpeaker = some userId
      · rw [if_pos ⟨hspeaker, hkind⟩, if_pos hkind]
        refine ⟨?_, h.rewrite_log hspeaker hkind htrace⟩
        rw [← htrace]
        exact trace_step trace (.rewrite plaintext userId (isKey kind plaintext))
      · rw [if_neg fun h => hspeaker h.1, if_pos hkind]
        simp [payload, hspeaker, htrace]
    · rw [if_neg fun h => hkind h.2, if_neg hkind]
      simp [htrace]

theorem run_foldl (t : Talk) (ops : List TalkOp) : run step t ops = some (ops.foldl apply t) := by
  induction ops generalizing t with
  | nil => rfl
  | cons op ops ih => exact (run_cons ..).trans (ih (t.apply op))

theorem outputs_floor (t : Talk) (calls : List FloorController.Call) (kind : TrackKind) :
    outputs step (passed kind) t (calls.map .floor) = [] := by
  induction calls generalizing t with
  | nil => rfl
  | cons call calls ih => exact (outputs_step rfl _).trans (ih (t.apply (.floor call)))

theorem callOn_ssrc (r : PttRewriter) (c : PttRewriter.Call) :
    (callOn r c).virtualSsrc = r.virtualSsrc := by
  cases c with
  | rewrite plaintext sender isKeyframe => exact (r.rewrite_frame plaintext sender isKeyframe).2
  | _ => rfl

theorem run_ssrc {t₀ : Talk} {ops : List TalkOp} (h : run step t₀ ops = some t) (kind : TrackKind) :
    (t.rewriter kind).virtualSsrc = (t₀.rewriter kind).virtualSsrc := by
  refine run_induction (P := fun _ t =>
    (t.rewriter kind).virtualSsrc = (t₀.rewriter kind).virtualSsrc) rfl
    (fun _ t op t' _ hP hstep => ?_) h
  cases hstep
  refine Eq.trans ?_ hP
  exact List.foldlRecOn (motive := fun r : PttRewriter =>
    r.virtualSsrc = (t.rewriter kind).virtualSsrc) _ _ rfl fun r hr c _ => (callOn_ssrc r c).trans hr

/-- What the calls on a rewriter since the room was made have emitted, burst by burst. -/
def log (kind : TrackKind) (ssrc : TrackKind → U32) (ops : List TalkOp) : List Emission :=
  (traceOf ((fresh ssrc).rewriter kind) (outputs step (calls kind) (fresh ssrc) ops)).log

/-- What passes of one kind is a lawful stream: each packet numbered on from the ones before
it, through every change of speaker. -/
theorem stream {ssrc : TrackKind → U32} {ops : List TalkOp}
    (h : run step (fresh ssrc) ops = some t) (kind : TrackKind) :
    (log kind ssrc ops).map (fun e => (e.original, e.emitted)) =
        outputs step (passed kind) (fresh ssrc) ops ∧
      Each (Emitted (ssrc kind) (gapOf kind)) (log kind ssrc ops) := by
  have htrace := run_induction (P := fun ops t => t.Agrees ∧
    (traceOf ((fresh ssrc).rewriter kind) (outputs step (calls kind) (fresh ssrc) ops)).rewriter =
      t.rewriter kind ∧
    (log kind ssrc ops).map (fun e => (e.original, e.emitted)) =
      outputs step (passed kind) (fresh ssrc) ops)
    ⟨agrees_fresh ssrc, rfl, rfl⟩ (fun ops t op t' hrun hP hstep => ?_) h
  · exact ⟨htrace.2.2, (Room.PttRewriter.obeys_traceOf ..).emitted⟩
  · obtain ⟨hagrees, hrewriter, hlog⟩ := hP
    cases hstep
    obtain ⟨hrewriter', hlog'⟩ := hagrees.step_log op hrewriter
    rw [log, outputs_snoc hrun, outputs_snoc hrun, traceOf, List.foldl_append, ← hlog]
    exact ⟨hagrees.apply op, hrewriter', hlog'⟩

/-- The floor is the history of its calls. -/
theorem floor_history {ssrc : TrackKind → U32} {ops : List TalkOp}
    (h : run step (fresh ssrc) ops = some t) :
    t.floor = (FloorController.historyOf (ops.flatMap floorCalls)).1 := by
  refine run_induction (P := fun ops t =>
    t.floor = (FloorController.historyOf (ops.flatMap floorCalls)).1) rfl
    (fun ops t op t' _ hP hstep => ?_) h
  cases hstep
  rw [List.flatMap_append, List.flatMap_singleton]
  cases op with
  | floor call =>
    rw [floorCalls, FloorController.historyOf_snoc]
    exact congrArg (fun c => (c.apply call).1) hP
  | packet => rwa [floorCalls, List.append_nil]

end Talk

end LightLivechat.Ptt
