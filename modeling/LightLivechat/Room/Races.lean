import LightLivechat.Lib.Histories
import LightLivechat.Lib.Runs
import LightLivechat.Room.Sound

/-! Joins and leaves of one room on several connections at once.  Each operation on a
map of the room is atomic; between two of them other connections go on. -/

set_option linter.dupNamespace false

namespace LightLivechat.Room.Races

open LightLivechat.Config LightLivechat.Lib.Bytes LightLivechat.Lib.Std LightLivechat.Lib.Runs
open LightLivechat.Lib.Histories

inductive JoinOp where
  | len
  | containsKey
  | insertPublish
  | insertSubscribe
  | insertUser

/-- The map operations of `remove_participant` once it has the participant. -/
inductive LeaveOp where
  | removePublish
  | removeSubscribe
  | removePublishAddr
  | removeSubscribeAddr

inductive Task where
  | join (p : Ref) (op : JoinOp)
  | leave (userId : String)
  | leaving (p : Ref) (op : LeaveOp)

/-- A join that returns `Ok`, and a removal, at the operation that brings it about. -/
inductive Event where
  | joined (userId : String)
  | removed (userId : String)
  deriving DecidableEq

structure Race where
  heap : Heap
  /-- The first reference not yet allocated. -/
  next : Ref
  room : Room
  tasks : Nat → Option Task
  /-- Oldest first. -/
  log : List Event

inductive Act where
  | join (conn : Nat) (userId ownRoom pubUfrag pubPwd subUfrag subPwd : String) (joinedAt : Nat)
  | leave (conn : Nat) (userId : String)
  | advance (conn : Nat)

namespace Race

def start (id name : String) (capacity : Option Nat) (mode : RoomMode) (createdAt : Nat)
    (audioSsrc videoSsrc : U32) : Race where
  heap := fun _ => .new "" "" "" "" "" "" 0
  next := 0
  room := .new id name capacity mode createdAt audioSsrc videoSsrc
  tasks := fun _ => none
  log := []

def setTask (s : Race) (conn : Nat) (task : Option Task) : Race :=
  { s with tasks := Function.update s.tasks conn task }

def setUfrag (s : Race) (u : String) (p : Ref) (pc : PcType) : Race :=
  { s with room := { s.room with byUfrag := s.room.byUfrag.insert u (p, pc) } }

def dropUfrag (s : Race) (u : String) : Race :=
  { s with room := { s.room with byUfrag := s.room.byUfrag.erase u } }

def dropAddr (s : Race) (addr : Option SocketAddr) : Race :=
  { s with room := { s.room with byAddr := Room.eraseAddr s.room.byAddr addr } }

def setUser (s : Race) (u : String) (p : Ref) : Race :=
  { s with
    room := { s.room with participants := s.room.participants.insert u p }
    log := s.log ++ [.joined u] }

def dropUser (s : Race) (u : String) : Race :=
  { s with
    room := { s.room with participants := s.room.participants.erase u }
    log := s.log ++ [.removed u] }

def advance (s : Race) (conn : Nat) : Task → Race
  | .join p .len =>
    if s.room.capacity ≤ s.room.participants.entries.length then s.setTask conn none
    else s.setTask conn (some (.join p .containsKey))
  | .join p .containsKey =>
    if (s.heap p).userId ∈ s.room.participants then s.setTask conn none
    else s.setTask conn (some (.join p .insertPublish))
  | .join p .insertPublish =>
    (s.setUfrag (s.heap p).publish.ufrag p .publish).setTask conn (some (.join p .insertSubscribe))
  | .join p .insertSubscribe =>
    (s.setUfrag (s.heap p).subscribe.ufrag p .subscribe).setTask conn (some (.join p .insertUser))
  | .join p .insertUser => (s.setUser (s.heap p).userId p).setTask conn none
  | .leave userId =>
    match s.room.participants.lookup userId with
    | none => s.setTask conn none
    | some p => (s.dropUser userId).setTask conn (some (.leaving p .removePublish))
  | .leaving p .removePublish =>
    (s.dropUfrag (s.heap p).publish.ufrag).setTask conn (some (.leaving p .removeSubscribe))
  | .leaving p .removeSubscribe =>
    (s.dropUfrag (s.heap p).subscribe.ufrag).setTask conn (some (.leaving p .removePublishAddr))
  | .leaving p .removePublishAddr =>
    (s.dropAddr (s.heap p).publish.address).setTask conn (some (.leaving p .removeSubscribeAddr))
  | .leaving p .removeSubscribeAddr =>
    (s.dropAddr (s.heap p).subscribe.address).setTask conn none

/-- A connection begins an operation only when it is through with the last. -/
def step (s : Race) : Act → Option Race
  | .join conn userId ownRoom pubUfrag pubPwd subUfrag subPwd joinedAt =>
    if (s.tasks conn).isSome then none
    else
      let p := Participant.new userId ownRoom pubUfrag pubPwd subUfrag subPwd joinedAt
      some ({ s with heap := s.heap.alloc s.next p, next := s.next + 1 }.setTask conn
        (some (.join s.next .len)))
  | .leave conn userId =>
    if (s.tasks conn).isSome then none else some (s.setTask conn (some (.leave userId)))
  | .advance conn => (s.tasks conn).map (s.advance conn)

/-- Between two joins of a user that return `Ok` the user was removed. -/
def OnceEach (log : List Event) : Prop :=
  ∀ u a b c, log = a ++ .joined u :: b ++ .joined u :: c → .removed u ∈ b

/-- A current participant has the ufrag. -/
def Held (s : Race) (k : String) : Prop :=
  ∃ u p, s.room.participants.lookup u = some p ∧ (s.heap p).HasUfrag k

structure Safe (s : Race) : Prop where
  capacity : s.room.participants.entries.length ≤ s.room.capacity
  once : OnceEach s.log
  clean : (∀ conn, s.tasks conn = none) → ∀ k e, s.room.byUfrag.lookup k = some e → s.Held k

/-- A join about to enter its participant would pass both its tests again. -/
def Fits (s : Race) : Task → Prop
  | .join p .insertUser => s.room.participants.entries.length < s.room.capacity ∧
    (s.heap p).userId ∉ s.room.participants
  | _ => True

def StillFits (s : Race) : Act → Prop
  | .advance conn => ∀ t ∈ s.tasks conn, s.Fits t
  | _ => True

instance (s : Race) : (t : Task) → Decidable (s.Fits t)
  | .join _ .insertUser => instDecidableAnd
  | .join _ .len | .join _ .containsKey | .join _ .insertPublish | .join _ .insertSubscribe =>
    isTrue trivial
  | .leave _ | .leaving _ _ => isTrue trivial

instance (s : Race) : (a : Act) → Decidable (s.StillFits a)
  | .advance conn => inferInstanceAs (Decidable (∀ t ∈ s.tasks conn, s.Fits t))
  | .join .. | .leave .. => isTrue trivial

end Race

/-- The latest event about the user is a join. -/
def Inside (log : List Event) (u : String) : Prop :=
  Since (fun e => e = .joined u) (fun e => e = .removed u) log

theorem onceEach_iff {log : List Event} :
    Race.OnceEach log ↔ Each (fun before e => ∀ u, e = .joined u → ¬ Inside before u) log := by
  constructor
  · rintro h a x c rfl u rfl ⟨a', y, b, rfl, rfl, hb⟩
    exact hb _ (h u a' b c rfl) rfl
  · rintro h u a b c rfl
    by_contra hb
    exact h _ _ c rfl u rfl ⟨a, _, b, rfl, rfl, fun y hy hc => hb (hc ▸ hy)⟩

theorem onceEach_snoc {log : List Event} {e : Event} : Race.OnceEach (log ++ [e]) ↔
    Race.OnceEach log ∧ ∀ u, e = .joined u → ¬ Inside log u := by
  rw [onceEach_iff, onceEach_iff, each_snoc]

/-- Ufrags the task has entered and not yet dropped, and whose participant is not in the
room: not yet, or no longer. -/
def Task.Holds (heap : Heap) (k : String) : Task → Prop
  | .join p .insertSubscribe => k = (heap p).publish.ufrag
  | .join p .insertUser => (heap p).HasUfrag k
  | .leaving p .removePublish => (heap p).HasUfrag k
  | .leaving p .removeSubscribe => k = (heap p).subscribe.ufrag
  | _ => False

def Task.Allocated (next : Ref) : Task → Prop
  | .join p _ => p < next
  | .leave _ => True
  | .leaving p _ => p < next

namespace Race

/-- Somebody answers for the ufrag: a participant, or a task under way. -/
def Accounts (s : Race) (k : String) : Prop :=
  s.Held k ∨ ∃ conn t, s.tasks conn = some t ∧ t.Holds s.heap k

structure Inv (s : Race) : Prop where
  allocated : ∀ {u p}, s.room.participants.lookup u = some p → p < s.next
  tasks : ∀ {conn t}, s.tasks conn = some t → t.Allocated s.next
  inside : ∀ u, u ∈ s.room.participants ↔ Inside s.log u
  accounted : OnceEach s.log → ∀ {k e}, s.room.byUfrag.lookup k = some e → s.Accounts k

variable {s s' : Race} {conn : Nat} {t : Task} {task : Option Task} {k : String} {a : Act}

theorem setTask_of_ne {conn' : Nat} (h : conn' ≠ conn) :
    (s.setTask conn task).tasks conn' = s.tasks conn' := Function.update_of_ne h ..

@[simp] theorem setTask_room : (s.setTask conn task).room = s.room := rfl

@[simp] theorem setTask_heap : (s.setTask conn task).heap = s.heap := rfl

@[simp] theorem setTask_same : (s.setTask conn task).tasks conn = task := Function.update_self ..

theorem Accounts.setTask (h : s.Accounts k) (hc : s.tasks conn = some t)
    (hold : t.Holds s.heap k → (s.setTask conn task).Accounts k) :
    (s.setTask conn task).Accounts k := by
  obtain h | ⟨conn', t', ht', hk⟩ := h
  · exact .inl h
  · by_cases heq : conn' = conn
    · subst heq
      cases hc.symm.trans ht'
      exact hold hk
    · exact .inr ⟨conn', t', (setTask_of_ne heq).trans ht', hk⟩

theorem tasks_setTask (h : ∀ {conn t}, s.tasks conn = some t → t.Allocated s.next)
    (hnext : ∀ t', task = some t' → t'.Allocated s.next) {conn' : Nat} {t' : Task}
    (ht' : (s.setTask conn task).tasks conn' = some t') : t'.Allocated s.next := by
  by_cases heq : conn' = conn
  · subst heq
    exact hnext t' (setTask_same.symm.trans ht')
  · exact h ((setTask_of_ne heq).symm.trans ht')

/-- A step that leaves the participants alone: every ufrag entered after it is held by
the task, or was entered before and not held by it. -/
theorem Inv.exchange {room' : Room} (h : s.Inv) (hc : s.tasks conn = some t)
    (hparts : room'.participants = s.room.participants)
    (hnext : ∀ t', task = some t' → t'.Allocated s.next)
    (hold : ∀ k e, room'.byUfrag.lookup k = some e →
      (∃ t', task = some t' ∧ t'.Holds s.heap k) ∨
        (∃ e, s.room.byUfrag.lookup k = some e) ∧ ¬ t.Holds s.heap k) :
    ({ s with room := room' }.setTask conn task).Inv where
  allocated := fun hu => h.allocated (hparts ▸ hu)
  tasks := tasks_setTask (s := { s with room := room' }) h.tasks hnext
  inside := by
    intro u
    have hu := h.inside u
    rw [← hparts] at hu
    exact hu
  accounted := by
    intro honce k e he
    obtain ⟨t', rfl, ht'⟩ | ⟨⟨e', he'⟩, hnot⟩ := hold k e he
    · exact .inr ⟨conn, t', setTask_same, ht'⟩
    · refine Accounts.setTask (s := { s with room := room' }) ?_ hc fun hk => absurd hk hnot
      refine (h.accounted honce he').imp_left ?_
      rintro ⟨u, p, hu, hk⟩
      exact ⟨u, p, hparts ▸ hu, hk⟩

theorem Inv.setUser {p : Ref} (h : s.Inv) (hc : s.tasks conn = some (.join p .insertUser)) :
    ((s.setUser (s.heap p).userId p).setTask conn none).Inv where
  allocated := by
    intro u q hu
    change (s.room.participants.insert (s.heap p).userId p).lookup u = some q at hu
    rw [DashMap.lookup_insert'] at hu
    split at hu
    · cases hu
      exact h.tasks hc
    · exact h.allocated hu
  tasks := tasks_setTask (s := s.setUser (s.heap p).userId p) h.tasks (by simp)
  inside := by
    intro u
    change u ∈ s.room.participants.insert (s.heap p).userId p ↔
      Inside (s.log ++ [.joined (s.heap p).userId]) u
    rw [AList.mem_insert, h.inside, Inside, Inside, since_snoc]
    simp [eq_comm (a := u)]
  accounted := by
    intro honce k e he
    obtain ⟨honce, hnew⟩ := onceEach_snoc.mp honce
    have hout : (s.heap p).userId ∉ s.room.participants :=
      fun hin => hnew _ rfl ((h.inside _).mp hin)
    refine Accounts.setTask (s := s.setUser (s.heap p).userId p) ?_ hc
      fun hk => .inl ⟨_, p, AList.lookup_insert _, hk⟩
    refine (h.accounted honce he).imp_left ?_
    rintro ⟨u, q, hu, hk⟩
    refine ⟨u, q, (AList.lookup_insert_ne ?_).trans hu, hk⟩
    rintro rfl
    exact hout (DashMap.mem_iff_lookup.mpr ⟨q, hu⟩)

theorem Inv.dropUser {u : String} {p : Ref} (h : s.Inv) (hc : s.tasks conn = some (.leave u))
    (hp : s.room.participants.lookup u = some p) :
    ((s.dropUser u).setTask conn (some (.leaving p .removePublish))).Inv where
  allocated := fun hq => h.allocated (DashMap.lookup_erase_some hq)
  tasks := tasks_setTask (s := s.dropUser u) h.tasks (by
    rintro t' ⟨⟩
    exact h.allocated hp)
  inside := by
    intro u'
    change u' ∈ s.room.participants.erase u ↔ Inside (s.log ++ [.removed u]) u'
    rw [AList.mem_erase, h.inside, Inside, Inside, since_snoc]
    simp [eq_comm (a := u), and_comm]
  accounted := by
    intro honce k e he
    obtain hk | ⟨conn', t', ht', hk⟩ := h.accounted (onceEach_snoc.mp honce).1 he
    · obtain ⟨u', q, hq, hk⟩ := hk
      by_cases heq : u' = u
      · subst heq
        cases hp.symm.trans hq
        exact .inr ⟨conn, _, setTask_same, hk⟩
      · exact .inl ⟨u', q, (AList.lookup_erase_ne heq).trans hq, hk⟩
    · refine .inr ⟨conn', t', (setTask_of_ne (s := s.dropUser u) ?_).trans ht', hk⟩
      rintro rfl
      cases hc.symm.trans ht'
      exact hk

theorem Inv.advance (h : s.Inv) (hc : s.tasks conn = some t) : (s.advance conn t).Inv := by
  have hnext := h.tasks hc
  cases t with
  | join p op =>
    cases op with
    | len =>
      rw [Race.advance]
      split
      · exact h.exchange hc rfl (by simp) fun k e he => .inr ⟨⟨e, he⟩, id⟩
      · exact h.exchange hc rfl (by rintro _ ⟨⟩; exact hnext) fun k e he => .inr ⟨⟨e, he⟩, id⟩
    | containsKey =>
      rw [Race.advance]
      split
      · exact h.exchange hc rfl (by simp) fun k e he => .inr ⟨⟨e, he⟩, id⟩
      · exact h.exchange hc rfl (by rintro _ ⟨⟩; exact hnext) fun k e he => .inr ⟨⟨e, he⟩, id⟩
    | insertPublish =>
      refine h.exchange hc rfl (by rintro _ ⟨⟩; exact hnext) fun k e he => ?_
      rw [DashMap.lookup_insert'] at he
      split at he
      · exact .inl ⟨_, rfl, ‹k = _›⟩
      · exact .inr ⟨⟨e, he⟩, id⟩
    | insertSubscribe =>
      refine h.exchange hc rfl (by rintro _ ⟨⟩; exact hnext) fun k e he => ?_
      rw [DashMap.lookup_insert'] at he
      split at he
      · exact .inl ⟨_, rfl, Participant.hasUfrag_iff.mpr (.inr ‹k = _›)⟩
      · by_cases hk : k = (s.heap p).publish.ufrag
        · exact .inl ⟨_, rfl, Participant.hasUfrag_iff.mpr (.inl hk)⟩
        · exact .inr ⟨⟨e, he⟩, hk⟩
    | insertUser => exact h.setUser hc
  | leave u =>
    rw [Race.advance]
    split
    · exact h.exchange hc rfl (by simp) fun k e he => .inr ⟨⟨e, he⟩, id⟩
    · exact h.dropUser hc ‹_›
  | leaving p op =>
    cases op with
    | removePublish =>
      refine h.exchange hc rfl (by rintro _ ⟨⟩; exact hnext) fun k e he => ?_
      obtain ⟨he, hk⟩ := DashMap.lookup_erase_eq_some.mp he
      by_cases hsub : k = (s.heap p).subscribe.ufrag
      · exact .inl ⟨_, rfl, hsub⟩
      · exact .inr ⟨⟨e, he⟩, fun hhas => (Participant.hasUfrag_iff.mp hhas).elim hk hsub⟩
    | removeSubscribe =>
      refine h.exchange hc rfl (by rintro _ ⟨⟩; exact hnext) fun k e he => ?_
      obtain ⟨he, hk⟩ := DashMap.lookup_erase_eq_some.mp he
      exact .inr ⟨⟨e, he⟩, hk⟩
    | removePublishAddr =>
      exact h.exchange hc rfl (by rintro _ ⟨⟩; exact hnext) fun k e he => .inr ⟨⟨e, he⟩, id⟩
    | removeSubscribeAddr =>
      exact h.exchange hc rfl (by simp) fun k e he => .inr ⟨⟨e, he⟩, id⟩

theorem holds_alloc {x : Participant} (ht : t.Allocated s.next) :
    t.Holds (s.heap.alloc s.next x) k ↔ t.Holds s.heap k := by
  cases t with
  | join p op => cases op <;> simp only [Task.Holds, Heap.alloc_of_lt ht]
  | leave u => exact Iff.rfl
  | leaving p op => cases op <;> simp only [Task.Holds, Heap.alloc_of_lt ht]

theorem allocated_succ {next : Ref} (ht : t.Allocated next) : t.Allocated (next + 1) := by
  cases t with
  | join p op => exact Nat.lt_succ_of_lt ht
  | leave u => exact ht
  | leaving p op => exact Nat.lt_succ_of_lt ht

theorem Inv.alloc (h : s.Inv) (x : Participant) :
    Inv { s with heap := s.heap.alloc s.next x, next := s.next + 1 } where
  allocated := fun hu => Nat.lt_succ_of_lt (h.allocated hu)
  tasks := fun ht => allocated_succ (h.tasks ht)
  inside := h.inside
  accounted := by
    intro honce k e he
    obtain ⟨u, p, hu, hk⟩ | ⟨conn, t, ht, hk⟩ := h.accounted honce he
    · refine .inl ⟨u, p, hu, ?_⟩
      simpa only [Heap.alloc_of_lt (h.allocated hu)] using hk
    · exact .inr ⟨conn, t, ht, (holds_alloc (h.tasks ht)).mpr hk⟩

theorem Inv.begin (h : s.Inv) (hfree : s.tasks conn = none) (ht : t.Allocated s.next) :
    (s.setTask conn (some t)).Inv where
  allocated := h.allocated
  tasks := tasks_setTask h.tasks (by rintro _ ⟨⟩; exact ht)
  inside := h.inside
  accounted := by
    intro honce k e he
    refine (h.accounted honce he).imp_right ?_
    rintro ⟨conn', t', ht', hk⟩
    refine ⟨conn', t', (setTask_of_ne ?_).trans ht', hk⟩
    rintro rfl
    cases hfree.symm.trans ht'

theorem inv_start (id name : String) (capacity : Option Nat) (mode : RoomMode) (createdAt : Nat)
    (audioSsrc videoSsrc : U32) :
    (start id name capacity mode createdAt audioSsrc videoSsrc).Inv where
  allocated := fun hu => by cases hu
  tasks := fun ht => by cases ht
  inside := fun u => iff_of_false (AList.notMem_empty u) not_since_nil
  accounted := fun _ _ _ he => by cases he

theorem inv_step (h : s.Inv) (hstep : s.step a = some s') : s'.Inv := by
  cases a with
  | join conn =>
    simp only [step] at hstep
    split at hstep
    · cases hstep
    · cases hstep
      exact (h.alloc _).begin (Option.not_isSome_iff_eq_none.mp ‹_›) (Nat.lt_succ_self _)
  | leave conn u =>
    simp only [step] at hstep
    split at hstep
    · cases hstep
    · cases hstep
      exact h.begin (Option.not_isSome_iff_eq_none.mp ‹_›) trivial
  | advance conn =>
    obtain ⟨t, ht, rfl⟩ := Option.map_eq_some_iff.mp hstep
    exact h.advance ht

theorem Inv.safe_iff (h : s.Inv) :
    s.Safe ↔ s.room.participants.entries.length ≤ s.room.capacity ∧ OnceEach s.log := by
  refine ⟨fun hs => ⟨hs.capacity, hs.once⟩, fun hs => ⟨hs.1, hs.2, fun hidle k e he => ?_⟩⟩
  refine (h.accounted hs.2 he).resolve_right ?_
  rintro ⟨conn, t, ht, -⟩
  cases (hidle conn).symm.trans ht

theorem advance_quiet (ht : ∀ p, t ≠ .join p .insertUser)
    (hs : s.room.participants.entries.length ≤ s.room.capacity ∧ OnceEach s.log) :
    (s.advance conn t).room.participants.entries.length ≤ (s.advance conn t).room.capacity ∧
      OnceEach (s.advance conn t).log := by
  cases t with
  | join p op =>
    cases op with
    | insertUser => exact absurd rfl (ht p)
    | _ =>
      simp only [advance]
      try split
      all_goals exact hs
  | leave u =>
    rw [advance]
    split
    · exact hs
    · refine ⟨Nat.le_trans ?_ hs.1, onceEach_snoc.mpr ⟨hs.2, by simp⟩⟩
      exact (List.kerase_sublist u _).length_le
  | leaving p op => cases op <;> exact hs

theorem fits_of_ne (ht : ∀ p, t ≠ .join p .insertUser) : s.Fits t := by
  cases t with
  | join p op =>
    cases op with
    | insertUser => exact absurd rfl (ht p)
    | _ => trivial
  | _ => trivial

theorem safe_step (h : s.Inv) (hs : s.Safe) (hstep : s.step a = some s') :
    s'.Safe ↔ s.StillFits a := by
  have h' := inv_step h hstep
  rw [h'.safe_iff]
  have hs := h.safe_iff.mp hs
  cases a with
  | join conn =>
    simp only [step] at hstep
    split at hstep
    · cases hstep
    · cases hstep
      exact iff_of_true hs trivial
  | leave conn u =>
    simp only [step] at hstep
    split at hstep
    · cases hstep
    · cases hstep
      exact iff_of_true hs trivial
  | advance conn =>
    obtain ⟨t, ht, rfl⟩ := Option.map_eq_some_iff.mp hstep
    by_cases hlast : ∃ p, t = .join p .insertUser
    · obtain ⟨p, rfl⟩ := hlast
      have hfits : s.StillFits (.advance conn) ↔
          s.room.participants.entries.length < s.room.capacity ∧
            (s.heap p).userId ∉ s.room.participants := by
        refine ⟨fun hf => hf _ ht, fun hf t ht' => ?_⟩
        cases ht.symm.trans ht'
        exact hf
      rw [hfits, h.inside]
      change (s.room.participants.insert _ p).entries.length ≤ s.room.capacity ∧
        OnceEach (s.log ++ [.joined (s.heap p).userId]) ↔ _
      rw [onceEach_snoc]
      by_cases hin : Inside s.log (s.heap p).userId
      · exact iff_of_false (fun hc => hc.2.2 _ rfl hin) fun hc => hc.2 hin
      · rw [AList.entries_insert_of_notMem fun hc => hin ((h.inside _).mp hc)]
        simp only [List.length_cons, Nat.succ_le_iff, hs.2, true_and, hin, not_false_iff]
        refine and_congr_right fun _ => iff_of_true ?_ trivial
        rintro u ⟨⟩
        exact hin
    · refine iff_of_true (advance_quiet (fun p hp => hlast ⟨p, hp⟩) hs) fun t' ht' => ?_
      cases ht.symm.trans ht'
      exact fits_of_ne fun p hp => hlast ⟨p, hp⟩

theorem setTask_setTask {task' : Option Task} :
    (s.setTask conn task).setTask conn task' = s.setTask conn task' := by
  simp [setTask]

theorem run_advance (ht : s.tasks conn = some t) (acts : List Act) :
    run step s (.advance conn :: acts) = run step (s.advance conn t) acts :=
  run_step (by rw [step, ht, Option.map_some]) acts

/-- A join nobody comes between is `add_participant`. -/
theorem join_alone {p : Ref} (ht : s.tasks conn = some (.join p .len)) :
    ∃ n, run step s (List.replicate n (.advance conn)) =
      some ((match s.room.addParticipant s.heap p with
        | .ok room => { s with room := room, log := s.log ++ [.joined (s.heap p).userId] }
        | .error _ => s : Race).setTask conn none) := by
  unfold Room.addParticipant
  by_cases hfull : s.room.capacity ≤ s.room.participants.entries.length
  · refine ⟨1, ?_⟩
    rw [List.replicate_succ, run_advance ht, advance, if_pos hfull, if_pos hfull]
    rfl
  · have hlen : ∀ acts, run step s (.advance conn :: acts) =
        run step (s.setTask conn (some (.join p .containsKey))) acts := by
      intro acts
      rw [run_advance ht, advance, if_neg hfull]
    rw [if_neg hfull]
    by_cases hin : (s.heap p).userId ∈ s.room.participants
    · refine ⟨2, ?_⟩
      rw [List.replicate_succ, hlen, List.replicate_succ, run_advance setTask_same, advance,
        setTask_heap, setTask_room, if_pos hin, if_pos hin, setTask_setTask]
      rfl
    · refine ⟨5, ?_⟩
      rw [List.replicate_succ, hlen, List.replicate_succ, run_advance setTask_same, advance,
        setTask_heap, setTask_room, if_neg hin, if_neg hin, setTask_setTask]
      simp only [List.replicate_succ, List.replicate_zero, run_advance setTask_same, advance]
      simp only [run, setTask, setUfrag, setUser, Function.update_idem]

/-- A leave nobody comes between is `remove_participant`. -/
theorem leave_alone {u : String} (ht : s.tasks conn = some (.leave u)) :
    ∃ n, run step s (List.replicate n (.advance conn)) =
      some ((match s.room.removeParticipant s.heap u with
        | .ok (room, _) => { s with room := room, log := s.log ++ [.removed u] }
        | .error _ => s : Race).setTask conn none) := by
  unfold Room.removeParticipant
  cases hp : s.room.participants.lookup u with
  | none =>
    refine ⟨1, ?_⟩
    rw [List.replicate_succ, run_advance ht, advance, hp]
    rfl
  | some p =>
    refine ⟨5, ?_⟩
    rw [List.replicate_succ, run_advance ht, advance, hp]
    simp only [List.replicate_succ, List.replicate_zero, run_advance setTask_same, advance]
    simp only [run, setTask, dropUfrag, dropAddr, dropUser, Function.update_idem]

/-- The room keeps to its capacity, takes nobody in twice and leaves no ufrag behind, all
along a run, just when each join still passes both its tests as it enters its participant. -/
theorem safe_iff_stillFits {id name : String} {capacity : Option Nat} {mode : RoomMode}
    {createdAt : Nat} {audioSsrc videoSsrc : U32} {acts : List Act}
    (hrun : run step (start id name capacity mode createdAt audioSsrc videoSsrc) acts = some s) :
    Always step Safe (start id name capacity mode createdAt audioSsrc videoSsrc) acts ↔
      Along step StillFits (start id name capacity mode createdAt audioSsrc videoSsrc) acts := by
  have hinv := inv_start id name capacity mode createdAt audioSsrc videoSsrc
  refine always_iff_along (I := Inv)
    (fun _ _ _ h hs hstep => ⟨inv_step h hstep, safe_step h hs hstep⟩) hinv ?_ hrun
  exact hinv.safe_iff.mpr ⟨Nat.zero_le _, onceEach_iff.mpr each_nil⟩

def joinAs (conn : Nat) (userId pubUfrag subUfrag : String) : Act :=
  .join conn userId "r" pubUfrag "" subUfrag "" 1

/-- Two connections join together, each testing before the other enters its participant. -/
def together (first second : Act) : List Act :=
  [first, second, .advance 0, .advance 0, .advance 1, .advance 1] ++
    List.replicate 3 (.advance 0) ++ List.replicate 3 (.advance 1)

/-- Alice and bob both get the last seat; alice gets in twice, and two ufrags are left
behind. -/
theorem unsafe_together :
    (∃ s, run step (start "r" "" (some 1) .conference 0 0 0)
        (together (joinAs 0 "alice" "a1" "a2") (joinAs 1 "bob" "b1" "b2")) = some s ∧
      s.room.capacity < s.room.participants.entries.length) ∧
    ∃ s, run step (start "r" "" none .conference 0 0 0)
        (together (joinAs 0 "alice" "a1" "a2") (joinAs 1 "alice" "a3" "a4")) = some s ∧
      s.log = [.joined "alice", .joined "alice"] ∧ (∀ conn, s.tasks conn = none) ∧
      s.room.byUfrag.lookup "a1" = some (0, .publish) ∧ ¬ s.Held "a1" := by
  refine ⟨⟨_, rfl, by decide⟩, ⟨_, rfl, rfl, ?_, rfl, ?_⟩⟩
  · rintro (_ | _ | conn) <;> rfl
  · rintro ⟨u, p, hu, hk⟩
    obtain rfl : p = 1 := List.mem_singleton.mp (DashMap.mem_values hu)
    exact absurd (Participant.hasUfrag_iff.mp hk) (by decide)

/-- Alice and bob join together, and carol while alice is on her way out. -/
def roomyTogether : List Act :=
  together (joinAs 0 "alice" "a1" "a2") (joinAs 1 "bob" "b1" "b2") ++
    [.leave 0 "alice", joinAs 2 "carol" "c1" "c2", .advance 0, .advance 2, .advance 0,
      .advance 2] ++ List.replicate 3 (.advance 0) ++ List.replicate 3 (.advance 2)

theorem safe_joined :
    (∃ s, run step (start "r" "" (some 2) .conference 0 0 0) roomyTogether = some s ∧
      s.log = [.joined "alice", .joined "bob", .removed "alice", .joined "carol"]) ∧
    Always step Safe (start "r" "" (some 2) .conference 0 0 0) roomyTogether :=
  ⟨⟨_, rfl, rfl⟩, (safe_iff_stillFits rfl).mpr (by decide)⟩

end Race

end LightLivechat.Room.Races
