import Oproxy.Engine.Recorders
import Oproxy.Lib.Run
import Oproxy.Session.Operations

/-!
# Tags of the user and tags of the response

A user annotates a session while its response is recorded.  Both write the whole list of tags through the queue of
the writer task.  A recorder that puts its tags to those of the session has read the session some time before, and
the observer of a streamed response writes its own tags only.
-/

namespace Oproxy

open Machine

/-- An operation neither writes the tags of a session nor puts another exchange in its place. -/
def WriteOp.LeavesTags (id : Str) (op : WriteOp) : Prop := op.tagsFor id = none ∧ ¬ op.Inserts id

/-- A recorder puts no exchange in. -/
theorem ResponseRecorder.not_inserts_of_mem_ops {recorder : ResponseRecorder} {view : StoreView} {id : Str} :
    ∀ op ∈ recorder.ops view, ¬ op.Inserts id := by
  have hannotated : ∀ {sessionId sessionId' : Str} {response : ResponseContext} {metrics : InspectionMetrics}
    {empty : Bool}
      {tags : Option (List Str)}, ∀ op ∈ WriteOp.recordResponseWithMetrics sessionId response metrics ::
        (if empty = true then [] else [.annotate sessionId' none tags]), ¬ op.Inserts id := by
    intro sessionId sessionId' response metrics empty tags op hop hinserts
    rcases List.mem_cons.1 hop with rfl | hop
    · exact hinserts
    · cases empty with
      | true => cases hop
      | false =>
        rw [if_neg Bool.false_ne_true, List.mem_singleton] at hop
        rw [hop] at hinserts
        exact hinserts
  intro op hop
  cases recorder with
  | engine response sizeOverride =>
    unfold ResponseRecorder.ops ProxyEngine.recordResponseWithOptionalSize at hop
    dsimp only at hop
    split at hop
    · cases hop
    · split at hop
      · rw [List.mem_singleton.1 hop]
        exact fun hinserts => hinserts
      · split at hop
        · cases hop
        · exact hannotated op hop
  | inspection response =>
    unfold ResponseRecorder.ops Inspection.onResponse at hop
    dsimp only at hop
    split at hop
    · cases hop
    · split at hop
      · cases hop
      · split at hop
        · cases hop
        · exact hannotated op hop
  | observer obs latencyMs =>
    unfold ResponseRecorder.ops InspectionObserver.finish at hop
    dsimp only at hop
    split at hop
    · cases hop
    · exact hannotated op hop

/-- A user's annotation of a session, and the recorder of its response. -/
structure AnnotationTask where
  id : Str
  note : Option Str
  tags : List Str
  recorder : ResponseRecorder

inductive RecorderPhase where
  | waiting
  /-- The session has been read; some operations are not enqueued yet. -/
  | recording (snapshot : Option Exchange) (left : List WriteOp)

/-- The store, the queue of the writer task (the oldest operation first) and how far both sides are; `sent` are the
lists of tags which they have enqueued for the session. -/
structure Annotating where
  store : SessionStore
  queue : List WriteOp
  annotated : Bool
  recorder : RecorderPhase
  sent : List (List Str)

inductive AnnotationStep (id : Str) where
  | annotate
  | read (now : Timestamp)
  | enqueue
  | write (clock : Nat → Timestamp)
  | other (op : WriteOp) (h : op.LeavesTags id)

namespace AnnotationTask

variable (task : AnnotationTask)

/-- Nothing is sent yet; the queue may hold anything, the request of the session for example. -/
def start (store : SessionStore) (queue : List WriteOp) : Annotating := ⟨store, queue, false, .waiting, []⟩

def view (s : Annotating) (now : Timestamp) : StoreView := ⟨s.store.exchanges.get?, now⟩

def step (s : Annotating) : AnnotationStep task.id → Annotating
  | .annotate =>
    if s.annotated then s
    else
      { s with
        annotated := true
        queue := s.queue ++ [.annotate task.id task.note (some task.tags)]
        sent := s.sent ++ [task.tags] }
  | .read now =>
    match s.recorder with
    | .waiting =>
      { s with recorder := .recording (task.recorder.snapshot (view s now)) (task.recorder.ops (view s now)) }
    | .recording _ _ => s
  | .enqueue =>
    match s.recorder with
    | .recording snapshot (op :: left) =>
      { s with
        recorder := .recording snapshot left
        queue := s.queue ++ [op]
        sent := s.sent ++ (op.tagsFor task.id).toList }
    | _ => s
  | .write clock =>
    match s.queue with
    | op :: queue => { s with store := s.store.step ⟨clock, op⟩, queue := queue }
    | [] => s
  | .other op _ => { s with queue := s.queue ++ [op] }

/-- Both sides have enqueued all they have to. -/
def Through (s : Annotating) : Prop := s.annotated = true ∧ ∃ snapshot, s.recorder = .recording snapshot []

/-- Both sides are through, and the writer task with them. -/
def Completed (s : Annotating) : Prop := Through s ∧ ∀ op ∈ s.queue, op.tagsFor task.id = none

/-- A step which ends the part of the second of the two sides does not lose the tags of the first: where the user is
second, or the recorder writes no tags, the user gives the tags of the response as well; where the recorder is second
with tags, those of the user are among its own, or it has read them. -/
def KeepsBoth (s : Annotating) : AnnotationStep task.id → Prop
  | .annotate => s.annotated = false → (∃ snapshot, s.recorder = .recording snapshot []) →
      ∀ tag ∈ task.recorder.tags, tag ∈ task.tags
  | .read now => s.annotated = true → s.recorder = .waiting → task.recorder.ops (view s now) = [] →
      ∀ tag ∈ task.recorder.tags, tag ∈ task.tags
  | .enqueue => s.annotated = true → ∀ snapshot op, s.recorder = .recording snapshot [op] →
      if (op.tagsFor task.id).isSome then
        ∀ tag ∈ task.tags, tag ∈ task.recorder.tags ∨ ∃ session, snapshot = some session ∧ tag ∈ session.tags
      else ∀ tag ∈ task.recorder.tags, tag ∈ task.tags
  | _ => True

/-! ### The tags in the store follow those in the queue -/

/-- The tags which a stored exchange has after an operation. -/
theorem tags_step {s : SessionStore} {t : TimedOp} {id : Str} {after : Exchange}
    (h : (s.step t).exchanges.get? id = some after) (hinserts : ¬ t.op.Inserts id) :
    ∃ before, s.exchanges.get? id = some before ∧ after.tags = (t.op.tagsFor id).getD before.tags := by
  rw [SessionStore.get?_step, Option.map_eq_some_iff] at h
  obtain ⟨exchange, hget, rfl⟩ := h
  obtain ⟨before, hbefore, rfl⟩ := SessionStore.get?_unbudgeted s t id hget hinserts
  refine ⟨before, hbefore, ?_⟩
  have htouch : (SessionStore.touch t id before).tags = (t.op.tagsFor id).getD before.tags := by
    obtain ⟨clock, op⟩ := t
    cases op with
    | annotate id' note tags =>
      simp only [SessionStore.touch, WriteOp.tagsFor]
      by_cases heq : id = id'
      · rw [if_pos heq, if_pos heq.symm]
        rfl
      · rw [if_neg heq, if_neg (Ne.symm heq)]
        rfl
    | _ =>
      simp only [SessionStore.touch, WriteOp.tagsFor]
      first | rfl | (split <;> rfl)
  split
  · exact htouch
  · exact htouch

/-- The queue is what was in it at the start, and behind that what has come since.  The tags which have been sent are
those written, and those in the new part. -/
structure Follows (id : Str) (s : Annotating) (old new : List WriteOp) (written : List (List Str)) : Prop where
  queue : s.queue = old ++ new
  sent : s.sent = written ++ new.filterMap (WriteOp.tagsFor id)
  keeps : ∀ op ∈ new, ¬ op.Inserts id
  stored : ∀ tags, written.getLast? = some tags →
    old = [] ∧ ∀ session, s.store.exchanges.get? id = some session → session.tags = tags

variable {task} {s : Annotating} {old new : List WriteOp} {written : List (List Str)} {id : Str}

theorem Follows.enqueue (h : Follows id s old new written) {s' : Annotating} {op : WriteOp}
    (hstore : s'.store = s.store) (hqueue : s'.queue = s.queue ++ [op])
    (hsent : s'.sent = s.sent ++ (op.tagsFor id).toList) (hinserts : ¬ op.Inserts id) :
    Follows id s' old (new ++ [op]) written := by
  refine ⟨?_, ?_, ?_, ?_⟩
  · rw [hqueue, h.queue, List.append_assoc]
  · rw [hsent, h.sent, List.filterMap_append, List.append_assoc]
    cases htags : op.tagsFor id <;> simp [htags]
  · intro op' hop'
    rcases List.mem_append.1 hop' with hop' | hop'
    · exact h.keeps op' hop'
    · rw [List.mem_singleton.1 hop']
      exact hinserts
  · rw [hstore]
    exact h.stored

theorem Follows.write (h : Follows id s old new written) {clock : Nat → Timestamp} {op : WriteOp} {queue : List WriteOp}
    (hqueue : s.queue = op :: queue) : ∃ old' new' written',
      Follows id { s with store := s.store.step ⟨clock, op⟩, queue := queue } old' new' written' := by
  have hsplit := h.queue.symm.trans hqueue
  cases old with
  | cons first rest =>
    -- what was in the queue at the start comes before all that is sent
    obtain ⟨rfl, rfl⟩ := List.cons.inj hsplit
    refine ⟨rest, new, written, rfl, h.sent, h.keeps, ?_⟩
    intro tags htags
    have hnone := (h.stored tags htags).1
    cases hnone
  | nil =>
    rw [List.nil_append] at hsplit
    subst hsplit
    have hinserts := h.keeps op List.mem_cons_self
    have hkeeps : ∀ op' ∈ queue, ¬ op'.Inserts id := fun op' hop' => h.keeps op' (List.mem_cons_of_mem _ hop')
    cases htags : op.tagsFor id with
    | some tags =>
      refine ⟨[], queue, written ++ [tags], rfl, ?_, hkeeps, ?_⟩
      · have hsent := h.sent
        rw [List.filterMap_cons_some htags] at hsent
        rw [List.append_assoc]
        exact hsent
      · intro tags' hlast
        rw [List.getLast?_concat, Option.some.injEq] at hlast
        refine ⟨rfl, ?_⟩
        intro session hget
        obtain ⟨before, -, hafter⟩ := tags_step hget hinserts
        rw [hafter, ← hlast]
        simp [htags]
    | none =>
      refine ⟨[], queue, written, rfl, ?_, hkeeps, ?_⟩
      · have hsent := h.sent
        rw [List.filterMap_cons_none htags] at hsent
        exact hsent
      · intro tags' hlast
        refine ⟨rfl, ?_⟩
        intro session hget
        obtain ⟨before, hbefore, hafter⟩ := tags_step hget hinserts
        rw [hafter, htags]
        exact (h.stored tags' hlast).2 before hbefore

/-! ### What each side has sent -/

/-- What holds in every state of every run. -/
structure Sound (task : AnnotationTask) (s : Annotating) : Prop where
  follows : ∃ old new written, Follows task.id s old new written
  heard : s.annotated = true → s.sent ≠ []
  /-- Only the last operation of the recorder sends tags. -/
  unsent : (s.recorder = .waiting ∨ ∃ snapshot op left, s.recorder = .recording snapshot (op :: left)) →
    s.sent = if s.annotated then [task.tags] else []
  left : ∀ snapshot left, s.recorder = .recording snapshot left → left = [] ∨ ∃ before last, left = before ++ [last] ∧
    (∀ op ∈ before, op.tagsFor task.id = none) ∧ (∀ tags, last.tagsFor task.id = some tags →
      ∀ tag, tag ∈ tags ↔ tag ∈ task.recorder.tags ∨ ∃ session, snapshot = some session ∧ tag ∈ session.tags)
  keeps : ∀ snapshot left, s.recorder = .recording snapshot left → ∀ op ∈ left, ¬ op.Inserts task.id

/-- Once both sides are through, what was sent last has the tags of both. -/
def LastHasBoth (task : AnnotationTask) (s : Annotating) : Prop :=
  Through s → ∃ tags, s.sent.getLast? = some tags ∧ (∀ tag ∈ task.tags, tag ∈ tags) ∧
    ∀ tag ∈ task.recorder.tags, tag ∈ tags

theorem sound_start (task : AnnotationTask) (store : SessionStore) (queue : List WriteOp) :
    task.Sound (start store queue) where
  follows := by
    refine ⟨queue, [], [], ⟨(List.append_nil queue).symm, rfl, by simp, ?_⟩⟩
    intro tags htags
    cases htags
  heard := by
    intro h
    cases h
  unsent := by
    intro _
    rfl
  left := by
    intro snapshot left h
    cases h
  keeps := by
    intro snapshot left h
    cases h

theorem sound_step (s : Annotating) (a : AnnotationStep task.id) (h : task.Sound s) : task.Sound (task.step s a) := by
  obtain ⟨old, new, written, hfollows⟩ := h.follows
  cases a with
  | annotate =>
    unfold step
    by_cases hannotated : s.annotated = true
    · rw [if_pos hannotated]
      exact h
    · rw [if_neg hannotated]
      -- the tags are queued behind all that is queued already
      refine ⟨⟨old, _, written, hfollows.enqueue rfl rfl ?_ (by intro hin; cases hin)⟩, ?_, ?_, h.left, h.keeps⟩
      · simp [WriteOp.tagsFor]
      · intro _
        exact List.concat_ne_nil _ _
      · intro hunsent
        have hnone := h.unsent hunsent
        rw [if_neg hannotated] at hnone
        simp [hnone]
  | read now =>
    unfold step
    cases hrecorder : s.recorder with
    | recording snapshot left => exact h
    | waiting =>
      -- the recorder reads the tags now and queues them later: only its plan changes
      refine ⟨⟨old, new, written, ⟨hfollows.queue, hfollows.sent, hfollows.keeps, hfollows.stored⟩⟩, h.heard, ?_, ?_,
        ?_⟩
      · intro _
        exact h.unsent (Or.inl hrecorder)
      · intro snapshot left heq
        obtain ⟨rfl, rfl⟩ := RecorderPhase.recording.inj heq
        exact task.recorder.ops_shape (view s now) task.id
      · intro snapshot left heq
        obtain ⟨rfl, rfl⟩ := RecorderPhase.recording.inj heq
        exact task.recorder.not_inserts_of_mem_ops
  | enqueue =>
    unfold step
    cases hrecorder : s.recorder with
    | waiting => exact h
    | recording snapshot ops =>
      obtain - | ⟨op, left⟩ := ops
      · exact h
      have hinserts := h.keeps snapshot _ hrecorder op List.mem_cons_self
      -- all but the last operation of the plan leave the tags alone
      obtain ⟨before, last, hshape, hbefore, hlast⟩ := (h.left snapshot _ hrecorder).resolve_left (List.cons_ne_nil _ _)
      refine ⟨⟨old, _, written, hfollows.enqueue rfl rfl rfl hinserts⟩, ?_, ?_, ?_, ?_⟩
      · intro hannotated
        exact List.append_ne_nil_of_left_ne_nil (h.heard hannotated) _
      · rintro (hwaiting | ⟨snapshot', op', left', heq⟩)
        · cases hwaiting
        · obtain ⟨rfl, rfl⟩ := RecorderPhase.recording.inj heq
          have hnone : op.tagsFor task.id = none := by
            cases before with
            | nil => simp at hshape
            | cons first rest =>
              rw [List.cons_append, List.cons.injEq] at hshape
              exact hbefore op (by rw [hshape.1]; exact List.mem_cons_self)
          have hunsent := h.unsent (Or.inr ⟨snapshot, op, _, hrecorder⟩)
          simpa [hnone] using hunsent
      · intro snapshot' left' heq
        obtain ⟨rfl, rfl⟩ := RecorderPhase.recording.inj heq
        cases before with
        | nil =>
          rw [List.nil_append, List.cons.injEq] at hshape
          exact Or.inl hshape.2
        | cons first rest =>
          rw [List.cons_append, List.cons.injEq] at hshape
          exact Or.inr ⟨rest, last, hshape.2, fun op' hop' => hbefore op' (List.mem_cons_of_mem _ hop'), hlast⟩
      · intro snapshot' left' heq
        obtain ⟨rfl, rfl⟩ := RecorderPhase.recording.inj heq
        exact fun op' hop' => h.keeps snapshot _ hrecorder op' (List.mem_cons_of_mem _ hop')
  | write clock =>
    unfold step
    cases hqueue : s.queue with
    | nil => exact h
    | cons op queue => exact ⟨hfollows.write hqueue, h.heard, h.unsent, h.left, h.keeps⟩
  | other op hop =>
    refine ⟨⟨old, _, written, hfollows.enqueue rfl rfl ?_ hop.2⟩, h.heard, h.unsent, h.left, h.keeps⟩
    rw [hop.1]
    simp [step]

/-- What was sent last has the tags of both after a step exactly where the step loses none. -/
theorem lastHasBoth_step_iff (h : task.Sound s) (hboth : task.LastHasBoth s) (a : AnnotationStep task.id) :
    task.LastHasBoth (task.step s a) ↔ task.KeepsBoth s a := by
  cases a with
  | annotate =>
    by_cases hannotated : s.annotated = true
    · have hstep : task.step s .annotate = s := if_pos hannotated
      rw [hstep]
      refine iff_of_true hboth ?_
      intro hnot
      rw [hannotated] at hnot
      cases hnot
    · have hstep : task.step s .annotate =
          { s with
            annotated := true
            queue := s.queue ++ [.annotate task.id task.note (some task.tags)]
            sent := s.sent ++ [task.tags] } := if_neg hannotated
      rw [hstep]
      unfold LastHasBoth Through KeepsBoth
      simp only [List.getLast?_concat, Option.some.injEq, true_and]
      constructor
      · rintro hlast - hthrough
        obtain ⟨tags, rfl, -, hresponse⟩ := hlast hthrough
        exact hresponse
      · intro hkeeps hthrough
        exact ⟨_, rfl, fun tag htag => htag, hkeeps (by simpa using hannotated) hthrough⟩
  | read now =>
    cases hrecorder : s.recorder with
    | recording snapshot left =>
      have hstep : task.step s (.read now) = s := by
        simp only [step, hrecorder]
      rw [hstep]
      refine iff_of_true hboth ?_
      intro _ hwaiting
      rw [hrecorder] at hwaiting
      cases hwaiting
    | waiting =>
      have hstep : task.step s (.read now) =
          { s with recorder := .recording (task.recorder.snapshot (view s now)) (task.recorder.ops (view s now)) } := by
        simp only [step, hrecorder]
      have hunsent := h.unsent (Or.inl hrecorder)
      rw [hstep]
      unfold LastHasBoth Through KeepsBoth
      simp only [RecorderPhase.recording.injEq]
      constructor
      · intro hlast hannotated _ hnone
        obtain ⟨tags, htags, -, hresponse⟩ := hlast ⟨hannotated, _, rfl, hnone⟩
        rw [hunsent, if_pos hannotated, List.getLast?_singleton, Option.some.injEq] at htags
        rw [htags]
        exact hresponse
      · rintro hkeeps ⟨hannotated, snapshot, -, hnone⟩
        rw [hunsent, if_pos hannotated]
        exact ⟨task.tags, rfl, fun tag htag => htag, hkeeps hannotated hrecorder hnone⟩
  | enqueue =>
    match hrecorder : s.recorder with
    | .waiting =>
      have hstep : task.step s .enqueue = s := by
        simp only [step, hrecorder]
      rw [hstep]
      refine iff_of_true hboth ?_
      intro _ snapshot op heq
      rw [hrecorder] at heq
      cases heq
    | .recording snapshot [] =>
      have hstep : task.step s .enqueue = s := by
        simp only [step, hrecorder]
      rw [hstep]
      refine iff_of_true hboth ?_
      intro _ snapshot op heq
      rw [hrecorder] at heq
      cases heq
    | .recording snapshot (op :: left) =>
      have hstep : task.step s .enqueue =
          { s with
            recorder := .recording snapshot left
            queue := s.queue ++ [op]
            sent := s.sent ++ (op.tagsFor task.id).toList } := by
        simp only [step, hrecorder]
      rw [hstep]
      cases left with
      | cons next rest =>
        -- the recorder has more to enqueue
        refine iff_of_true ?_ ?_
        · rintro ⟨-, snapshot', heq⟩
          cases heq
        · intro _ snapshot' op' heq
          rw [hrecorder] at heq
          cases heq
      | nil =>
        have hunsent := h.unsent (Or.inr ⟨snapshot, op, [], hrecorder⟩)
        obtain ⟨before, last, hshape, -, hlast⟩ := (h.left snapshot _ hrecorder).resolve_left (List.cons_ne_nil _ _)
        obtain ⟨-, hop⟩ := List.append_inj' (show [] ++ [op] = before ++ [last] from hshape) rfl
        obtain ⟨rfl, -⟩ := List.cons.inj hop
        unfold LastHasBoth Through KeepsBoth
        simp only [hrecorder, RecorderPhase.recording.injEq]
        constructor
        · rintro hthrough hannotated snapshot' op' ⟨rfl, hop'⟩
          obtain ⟨rfl, -⟩ := List.cons.inj hop'
          obtain ⟨tags, htags, huser, hresponse⟩ := hthrough ⟨hannotated, snapshot, rfl, trivial⟩
          cases hsets : op.tagsFor task.id with
          | none =>
            rw [hsets, hunsent, if_pos hannotated] at htags
            simp at htags
            rw [← htags] at hresponse
            simpa using hresponse
          | some merged =>
            rw [hsets, Option.toList_some, List.getLast?_concat, Option.some.injEq] at htags
            rw [← htags] at huser
            simp only [Option.isSome_some, if_true]
            intro tag htag
            exact (hlast merged hsets tag).1 (huser tag htag)
        · rintro hkeeps ⟨hannotated, -⟩
          have hkept := hkeeps hannotated snapshot op ⟨rfl, rfl⟩
          cases hsets : op.tagsFor task.id with
          | none =>
            rw [hsets] at hkept
            rw [hunsent, if_pos hannotated]
            exact ⟨task.tags, rfl, fun tag htag => htag, by simpa using hkept⟩
          | some merged =>
            rw [hsets] at hkept
            simp only [Option.isSome_some, if_true] at hkept
            rw [Option.toList_some, List.getLast?_concat]
            exact ⟨merged, rfl, fun tag htag => (hlast merged hsets tag).2 (hkept tag htag),
              fun tag htag => (hlast merged hsets tag).2 (Or.inl htag)⟩
  | write clock =>
    refine iff_of_true ?_ trivial
    unfold step
    cases hqueue : s.queue with
    | nil => exact hboth
    | cons op queue => exact hboth
  | other op hop => exact iff_of_true hboth trivial

/-- Once both sides are through, nothing more is sent. -/
theorem through_step (h : Through s) (a : AnnotationStep task.id) :
    Through (task.step s a) ∧ (task.step s a).sent = s.sent := by
  obtain ⟨hannotated, snapshot, hrecorder⟩ := h
  unfold step
  cases a with
  | annotate =>
    rw [if_pos hannotated]
    exact ⟨⟨hannotated, snapshot, hrecorder⟩, rfl⟩
  | read now =>
    rw [hrecorder]
    exact ⟨⟨hannotated, snapshot, hrecorder⟩, rfl⟩
  | enqueue =>
    rw [hrecorder]
    exact ⟨⟨hannotated, snapshot, hrecorder⟩, rfl⟩
  | write clock =>
    cases hqueue : s.queue with
    | nil => exact ⟨⟨hannotated, snapshot, hrecorder⟩, rfl⟩
    | cons op queue => exact ⟨⟨hannotated, snapshot, hrecorder⟩, rfl⟩
  | other op hop => exact ⟨⟨hannotated, snapshot, hrecorder⟩, rfl⟩

theorem through_run (h : Through s) (steps : List (AnnotationStep task.id)) :
    Through (run task.step s steps) ∧ (run task.step s steps).sent = s.sent := by
  induction steps generalizing s with
  | nil => exact ⟨h, rfl⟩
  | cons a steps ih =>
    obtain ⟨hstep, hsent⟩ := through_step h a
    obtain ⟨hrun, hrest⟩ := ih hstep
    exact ⟨hrun, hrest.trans hsent⟩

/-- At the end of a run, what was sent last has the tags of both exactly where it has in every state of the run. -/
private theorem lastHasBoth_everyState (steps : List (AnnotationStep task.id)) :
    task.LastHasBoth (run task.step s steps) ↔ EveryState task.step task.LastHasBoth s steps := by
  constructor
  · intro h pre hpre hthrough
    obtain ⟨post, rfl⟩ := hpre
    obtain ⟨hlast, hsent⟩ := through_run hthrough post
    rw [run_append] at h
    rw [← hsent]
    exact h hlast
  · exact EveryState.last

/-- When both sides are through and the writer task with them, the session has the tags which were sent last. -/
theorem tags_of_completed (h : task.Sound s) (hcompleted : task.Completed s) {session : Exchange}
    (hsession : s.store.exchanges.get? task.id = some session) : s.sent.getLast? = some session.tags := by
  obtain ⟨old, new, written, hfollows⟩ := h.follows
  have hnone : new.filterMap (WriteOp.tagsFor task.id) = [] := by
    rw [List.filterMap_eq_nil_iff]
    intro op hop
    refine hcompleted.2 op ?_
    rw [hfollows.queue]
    exact List.mem_append_right _ hop
  have hsent : s.sent = written := by rw [hfollows.sent, hnone, List.append_nil]
  have hheard := h.heard hcompleted.1.1
  rw [hsent] at hheard ⊢
  have hlast := List.getLast?_eq_some_getLast hheard
  rw [hlast, (hfollows.stored _ hlast).2 session hsession]

/-- When a user's annotation and the recording of the response are completed, the session has the tags of both exactly
where no step of the run loses those of one side. -/
theorem tags_run_iff (store : SessionStore) (queue : List WriteOp) (steps : List (AnnotationStep task.id))
    (hcompleted : task.Completed (run task.step (start store queue) steps)) {session : Exchange}
    (hsession : (run task.step (start store queue) steps).store.exchanges.get? task.id = some session) :
    ((∀ tag ∈ task.tags, tag ∈ session.tags) ∧ ∀ tag ∈ task.recorder.tags, tag ∈ session.tags) ↔
      EveryStep task.step task.KeepsBoth (start store queue) steps := by
  have hsound : task.Sound (run task.step (start store queue) steps) :=
    (everyState_of_step sound_step (sound_start task store queue) steps).last
  have hlast := tags_of_completed hsound hcompleted hsession
  have hstart : task.LastHasBoth (start store queue) := by
    rintro ⟨hannotated, -⟩
    cases hannotated
  rw [← everyState_iff_everyStep sound_step (fun _ a hs hb => lastHasBoth_step_iff hs hb a)
    (sound_start task store queue) hstart steps, ← lastHasBoth_everyState]
  constructor
  · intro hboth _
    exact ⟨session.tags, hlast, hboth⟩
  · intro hboth
    obtain ⟨tags, htags, huser⟩ := hboth hcompleted.1
    rw [hlast, Option.some.injEq] at htags
    rw [htags]
    exact huser

/-! ### An annotation between the reading and the writing -/

private def waitingExchange : Exchange := SessionStore.recordedExchange 0 "s1" RequestContext.default .proxy

private def oneSession : SessionStore := ⟨IndexMap.empty.insert "s1" waitingExchange, 10, 1000, 0⟩

private def rewrittenResponse : ResponseContext :=
  { ResponseContext.default with
    sessionId := some "s1"
    tags := [("rewrite" : Str)] }

private def overwritten : AnnotationTask := ⟨"s1", none, [("todo" : Str)], .engine rewrittenResponse none⟩

private def overwritingRun : List (AnnotationStep "s1") :=
  [.read 1, .annotate, .enqueue, .enqueue, .write fun _ => 2, .write fun _ => 3, .write fun _ => 4]

private theorem completed_overwritingRun :
    overwritten.Completed (run overwritten.step (start oneSession []) overwritingRun) := by
  refine ⟨⟨rfl, _, rfl⟩, ?_⟩
  intro op hop
  cases hop

theorem tags_run_overwritten : ∃ session,
    (run overwritten.step (start oneSession []) overwritingRun).store.exchanges.get? "s1" = some session ∧
      (((∀ tag ∈ overwritten.tags, tag ∈ session.tags) ∧ ∀ tag ∈ overwritten.recorder.tags, tag ∈ session.tags) ↔
        EveryStep overwritten.step overwritten.KeepsBoth (start oneSession []) overwritingRun) := by
  obtain ⟨session, hsession⟩ : ∃ session,
      (run overwritten.step (start oneSession []) overwritingRun).store.exchanges.get? "s1" = some session := ⟨_, rfl⟩
  exact ⟨session, hsession, @tags_run_iff overwritten oneSession [] overwritingRun completed_overwritingRun session
    hsession⟩

/-- The annotation which the user makes between the two is overwritten. -/
theorem not_tags_run : ¬ ∀ (task : AnnotationTask) (store : SessionStore) (queue : List WriteOp)
    (steps : List (AnnotationStep task.id)), task.Completed (run task.step (start store queue) steps) →
      ∀ session, (run task.step (start store queue) steps).store.exchanges.get? task.id = some session →
        (∀ tag ∈ task.tags, tag ∈ session.tags) ∧ ∀ tag ∈ task.recorder.tags, tag ∈ session.tags := by
  intro h
  obtain ⟨session, hsession⟩ : ∃ session,
      (run overwritten.step (start oneSession []) overwritingRun).store.exchanges.get? "s1" = some session := ⟨_, rfl⟩
  have hkept := (h overwritten oneSession [] overwritingRun completed_overwritingRun session hsession).1 "todo"
    List.mem_cons_self
  have htags : session.tags = [("rewrite" : Str)] := by
    cases hsession
    rfl
  rw [htags] at hkept
  revert hkept
  decide

end AnnotationTask

end Oproxy
