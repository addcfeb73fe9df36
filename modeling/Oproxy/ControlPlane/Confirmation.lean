import Oproxy.ControlPlane.AssistantActions
import Oproxy.Lib.Run
import Oproxy.Lib.Utf8

/-!
# Confirmed actions (`control_plane/assistant.rs`)

An action which the assistant proposes waits in a map until the operator executes it or cancels it with its token, it
expires, or it has to make room.  Each request works on the map under its lock, so that the requests come one after
another in any order; the payload of an action is carried out when its request has left the lock.  The history of what
has become of the actions is kept beside the map.
-/

namespace Oproxy

namespace Assistant

open Machine History

/-- `ASSISTANT_ACTION_TTL` in seconds. -/
def assistantActionTtl : Nat := 10 * 60

def maxPendingActions : Nat := 50

structure PendingAssistantAction where
  action : AssistantAction
  confirmationToken : Str
  expiresAt : Nat

/-- What becomes of an action. -/
inductive Event where
  | registered (id token : Str) (proposed : AssistantAction) (expiresAt : Nat)
  /-- The action is given to `execute_action_payload`. -/
  | executed (id token : Str) (now : Nat) (action : AssistantAction)
  | cancelled (id token : Str) (now : Nat)
  | expired (id : Str) (now : Nat)
  | evicted (id : Str)

/-- The pending actions with their ids, the one which was put in first at the front; the map itself iterates over them
in an order of its own. -/
structure AssistantState where
  pending : List (Str × PendingAssistantAction)
  log : List Event

/-- A request to the map, with the clock.  A registration reads the clock before it waits for the lock as well; `first`
tells with which of the entries the map happens to start where it is full. -/
inductive Request where
  | register (action : AssistantAction) (id token : Str) (readAt now first : Nat)
  | execute (id token : Str) (now : Nat)
  | cancel (id token : Str) (now : Nat)

def constantTimeEq (left right : Str) : Bool :=
  let left := left.toUtf8
  let right := right.toUtf8
  if left.length ≠ right.length then false
  else (left.zip right).foldl (fun diff p => diff ||| (p.1 ^^^ p.2)) 0 == 0

namespace AssistantState

def start : AssistantState := ⟨[], []⟩

def get? (s : AssistantState) (id : Str) : Option PendingAssistantAction :=
  (s.pending.find? fun p => p.1 = id).map Prod.snd

/-- Take an action out of the map. -/
def remove (s : AssistantState) (id : Str) (e : Event) : AssistantState :=
  ⟨s.pending.filter fun p => p.1 ≠ id, s.log ++ [e]⟩

def pruneExpiredActions (now : Nat) (s : AssistantState) : AssistantState :=
  ⟨s.pending.filter fun p => p.2.expiresAt > now,
    s.log ++ (s.pending.filter fun p => ¬ p.2.expiresAt > now).map fun p => .expired p.1 now⟩

/-- The entry with which a full map happens to start makes room. -/
def makeRoom (first : Nat) (s : AssistantState) : AssistantState :=
  if s.pending.length ≥ maxPendingActions then
    match s.pending[first % s.pending.length]? with
    | some (key, _) => s.remove key (.evicted key)
    | none => s
  else s

def insert (s : AssistantState) (id : Str) (pending : PendingAssistantAction) (e : Event) : AssistantState :=
  ⟨(s.pending.filter fun p => p.1 ≠ id) ++ [(id, pending)], s.log ++ [e]⟩

end AssistantState

/-- The proposed action as it is registered. -/
def AssistantAction.stamped (action : AssistantAction) (id token : Str) : AssistantAction :=
  { action with actionId := id, confirmationToken := token }

/-- The copy of the action which the operator is shown has its payload redacted; that in the map has not. -/
def registerPendingAction (s : AssistantState) (action : AssistantAction) (id token : Str) (readAt now first : Nat) :
    AssistantState :=
  let expiresAt := readAt + assistantActionTtl
  ((s.pruneExpiredActions now).makeRoom first).insert id ⟨action.stamped id token, token, expiresAt⟩
    (.registered id token action expiresAt)

/-- The critical section of `execute_assistant_action` and of `cancel_assistant_action`: an unknown action is answered
with 404 and a wrong token with 403. -/
def takeConfirmed (s : AssistantState) (id token : Str) (now : Nat) (e : PendingAssistantAction → Event) :
    AssistantState :=
  let s := s.pruneExpiredActions now
  match s.get? id with
  | none => s
  | some pending => if constantTimeEq pending.confirmationToken token then s.remove id (e pending) else s

def executeAssistantAction (s : AssistantState) (id token : Str) (now : Nat) : AssistantState :=
  takeConfirmed s id token now fun pending => .executed id token now pending.action

def cancelAssistantAction (s : AssistantState) (id token : Str) (now : Nat) : AssistantState :=
  takeConfirmed s id token now fun _ => .cancelled id token now

def confirmationStep (s : AssistantState) : Request → AssistantState
  | .register action id token readAt now first => registerPendingAction s action id token readAt now first
  | .execute id token now => executeAssistantAction s id token now
  | .cancel id token now => cancelAssistantAction s id token now

/-- What is carried out of an action which has been executed. -/
def carriedOut (action : AssistantAction) : Except Str Json :=
  normalizeActionPayload action.method action.endpoint action.payload action.summary

/-! ### What a history may say -/

namespace Event

def registers : Event → Option Str
  | registered id _ _ _ => some id
  | _ => none

/-- The action which leaves the map. -/
def ends : Event → Option Str
  | registered _ _ _ _ => none
  | executed id _ _ _ => some id
  | cancelled id _ _ => some id
  | expired id _ => some id
  | evicted id => some id

def executes : Event → Option Str
  | executed id _ _ _ => some id
  | _ => none

end Event

def Request.draws : Request → Option Str
  | .register _ id _ _ _ _ => some id
  | _ => none

/-- The ids which have been registered and not taken out since, in the order of their registration. -/
def openIds (log : List Event) : List Str :=
  log.foldl (fun ids e =>
    match e.registers, e.ends with
    | some id, _ => ids ++ [id]
    | none, some id => ids.filter (· ≠ id)
    | none, none => ids) []

/-- An execution is one of an action which has been registered under its own token, has not expired and has not left the
map; what is executed is what was proposed, and what is carried out of it is the proposed payload, normalised. -/
def Confirmed (before : List Event) (e : Event) : Prop :=
  ∀ id token now action, e = .executed id token now action →
    (∃ proposed expiresAt, .registered id token proposed expiresAt ∈ before ∧ now < expiresAt ∧
      action = proposed.stamped id token ∧
      carriedOut action = normalizeActionPayload proposed.method proposed.endpoint proposed.payload proposed.summary) ∧
    ∀ e' ∈ before, e'.ends ≠ some id

/-- What makes room is the action which was registered first of those which are still pending. -/
def EvictsEarliest (before : List Event) (e : Event) : Prop := ∀ id, e = .evicted id → (openIds before).head? = some id

/-- The protocol, in the words of a history and of the map. -/
structure Protocol (s : AssistantState) : Prop where
  confirmed : EveryEvent Confirmed s.log
  once : (s.log.filterMap Event.executes).Nodup
  bounded : s.pending.length ≤ maxPendingActions
  evicts : EveryEvent EvictsEarliest s.log

/-- Where the map is full, it happens to start with the entry which was put in first. -/
def StartsWithEarliest (s : AssistantState) : Request → Prop
  | .register _ _ _ _ now first =>
    let pending := (s.pruneExpiredActions now).pending
    pending.length ≥ maxPendingActions → first % pending.length = 0
  | _ => True

/-! ### Tokens -/

private theorem foldl_or_eq_zero (pairs : List (UInt8 × UInt8)) (acc : UInt8) :
    pairs.foldl (fun diff p => diff ||| (p.1 ^^^ p.2)) acc = 0 ↔ acc = 0 ∧ ∀ p ∈ pairs, p.1 = p.2 := by
  induction pairs generalizing acc with
  | nil => simp
  | cons p pairs ih =>
    rw [List.foldl_cons, ih, UInt8.or_eq_zero_iff, UInt8.xor_eq_zero_iff, List.forall_mem_cons, and_assoc]

/-- The comparison which looks at every byte is equality. -/
theorem constantTimeEq_iff {left right : Str} : constantTimeEq left right = true ↔ left = right := by
  unfold constantTimeEq
  dsimp only
  rw [← Utf8.toUtf8_inj]
  generalize left.toUtf8 = a, right.toUtf8 = b
  by_cases hlength : a.length = b.length
  · rw [if_neg (not_not.2 hlength), beq_iff_eq, foldl_or_eq_zero]
    constructor
    · rintro ⟨-, hpairs⟩
      refine List.ext_getElem hlength fun i hi hi' => ?_
      have hmem : (a[i], b[i]) ∈ a.zip b := by
        have hzip : i < (a.zip b).length := by
          rw [List.length_zip]
          omega
        have hget := List.getElem_mem hzip
        rwa [List.getElem_zip] at hget
      exact hpairs _ hmem
    · rintro rfl
      refine ⟨rfl, fun p hp => ?_⟩
      obtain ⟨i, hi, rfl⟩ := List.getElem_of_mem hp
      rw [List.getElem_zip]
  · rw [if_pos hlength]
    constructor
    · intro h
      cases h
    · rintro rfl
      exact absurd rfl hlength

/-! ### The map against its history -/

/-- The invariant of the map and of its history. -/
structure Inv (s : AssistantState) : Prop where
  keys : s.pending.map Prod.fst = openIds s.log
  nodup : (s.pending.map Prod.fst).Nodup
  known : ∀ p ∈ s.pending, ∃ proposed, .registered p.1 p.2.confirmationToken proposed p.2.expiresAt ∈ s.log ∧
    p.2.action = proposed.stamped p.1 p.2.confirmationToken
  notEnded : ∀ p ∈ s.pending, ∀ e ∈ s.log, e.ends ≠ some p.1
  endedRegistered : ∀ e ∈ s.log, ∀ id, e.ends = some id → id ∈ s.log.filterMap Event.registers
  confirmed : EveryEvent Confirmed s.log
  once : (s.log.filterMap Event.executes).Nodup
  bounded : s.pending.length ≤ maxPendingActions

theorem Inv.start : Inv AssistantState.start where
  keys := rfl
  nodup := List.nodup_nil
  known := fun p hp => by cases hp
  notEnded := fun p hp => by cases hp
  endedRegistered := fun e he => by cases he
  confirmed := everyEvent_nil
  once := List.nodup_nil
  bounded := Nat.zero_le _

theorem openIds_concat (log : List Event) (e : Event) :
    openIds (log ++ [e]) =
      match e.registers, e.ends with
      | some id, _ => openIds log ++ [id]
      | none, some id => (openIds log).filter (· ≠ id)
      | none, none => openIds log := by
  unfold openIds
  rw [List.foldl_append]
  rfl

/-- An event which ends an action registers none. -/
private theorem registers_of_ends {e : Event} {id : Str} (h : e.ends = some id) : e.registers = none := by
  cases e with
  | registered _ _ _ _ => cases h
  | executed _ _ _ _ => rfl
  | cancelled _ _ _ => rfl
  | expired _ _ => rfl
  | evicted _ => rfl

private theorem ends_of_executes {e : Event} {id : Str} (h : e.executes = some id) : e.ends = some id := by
  cases e with
  | executed _ _ _ _ => exact h
  | registered _ _ _ _ => cases h
  | cancelled _ _ _ => cases h
  | expired _ _ => cases h
  | evicted _ => cases h

/-- The ids which are open after some actions have ended. -/
private theorem openIds_append_ends {es : List Event} (h : ∀ e ∈ es, ∃ id, e.ends = some id) (log : List Event) :
    openIds (log ++ es) = (openIds log).filter fun id => es.all fun e => e.ends ≠ some id := by
  induction es using List.reverseRecOn with
  | nil => simp
  | append_singleton es e ih =>
    obtain ⟨id, hid⟩ := h e (by simp)
    rw [← List.append_assoc, openIds_concat, registers_of_ends hid, hid]
    dsimp only
    rw [ih fun e' he' => h e' (List.mem_append_left _ he'), List.filter_filter]
    refine List.filter_congr fun other _ => ?_
    have hone : decide (other ≠ id) = decide (some id ≠ some other) := by
      rw [decide_eq_decide, ne_eq, ne_eq, Option.some.injEq, eq_comm]
    simp only [List.all_append, List.all_cons, List.all_nil, Bool.and_true, hid]
    rw [Bool.and_comm, hone]

/-- One entry for each key. -/
private theorem eq_of_key {pending : List (Str × PendingAssistantAction)} (h : (pending.map Prod.fst).Nodup)
    {p q : Str × PendingAssistantAction} (hp : p ∈ pending) (hq : q ∈ pending) (heq : p.1 = q.1) : p = q :=
  List.inj_on_of_nodup_map h hp hq heq

private theorem Inv.key_registered {s : AssistantState} (h : Inv s) {p : Str × PendingAssistantAction}
    (hp : p ∈ s.pending) : p.1 ∈ s.log.filterMap Event.registers := by
  obtain ⟨proposed, hregistered, -⟩ := h.known p hp
  exact List.mem_filterMap.2 ⟨_, hregistered, rfl⟩

theorem Inv.prune {s : AssistantState} (h : Inv s) (now : Nat) : Inv (s.pruneExpiredActions now) := by
  -- the events are the expiries of what is taken out
  have hends : ∀ e ∈ (s.pending.filter fun p => ¬ p.2.expiresAt > now).map fun p => Event.expired p.1 now,
      ∃ p ∈ s.pending, ¬ p.2.expiresAt > now ∧ e = .expired p.1 now := by
    intro e he
    obtain ⟨p, hp, rfl⟩ := List.mem_map.1 he
    obtain ⟨hp, hexpired⟩ := List.mem_filter.1 hp
    exact ⟨p, hp, of_decide_eq_true hexpired, rfl⟩
  unfold AssistantState.pruneExpiredActions
  refine ⟨?_, ?_, ?_, ?_, ?_, ?_, ?_, ?_⟩
  · dsimp only
    rw [openIds_append_ends, ← h.keys, List.filter_map]
    · refine congrArg (List.map Prod.fst) (List.filter_congr fun p hp => ?_)
      rw [Bool.eq_iff_iff, decide_eq_true_iff, Function.comp, List.all_eq_true]
      constructor
      · intro halive e he
        obtain ⟨q, hq, hexpired, rfl⟩ := hends e he
        refine decide_eq_true fun heq => ?_
        have hsame := eq_of_key h.nodup hq hp (Option.some.inj heq)
        subst hsame
        exact hexpired halive
      · intro hall
        by_contra hexpired
        have hmem : Event.expired p.1 now ∈
            (s.pending.filter fun p => ¬ p.2.expiresAt > now).map fun p => Event.expired p.1 now :=
          List.mem_map_of_mem (List.mem_filter.2 ⟨hp, decide_eq_true hexpired⟩)
        exact of_decide_eq_true (hall _ hmem) rfl
    · intro e he
      obtain ⟨p, -, -, rfl⟩ := hends e he
      exact ⟨p.1, rfl⟩
  · exact h.nodup.sublist (List.filter_sublist.map _)
  · intro p hp
    obtain ⟨proposed, hregistered, haction⟩ := h.known p (List.mem_of_mem_filter hp)
    exact ⟨proposed, List.mem_append_left _ hregistered, haction⟩
  · intro p hp e he
    obtain ⟨hp, halive⟩ := List.mem_filter.1 hp
    rcases List.mem_append.1 he with he | he
    · exact h.notEnded p hp e he
    · obtain ⟨q, hq, hexpired, rfl⟩ := hends e he
      intro heq
      have hsame := eq_of_key h.nodup hq hp (Option.some.inj heq)
      subst hsame
      exact hexpired (of_decide_eq_true halive)
  · intro e he id hid
    rw [List.filterMap_append]
    rcases List.mem_append.1 he with he | he
    · exact List.mem_append_left _ (h.endedRegistered e he id hid)
    · obtain ⟨q, hq, -, rfl⟩ := hends e he
      cases hid
      exact List.mem_append_left _ (h.key_registered hq)
  · refine (everyEvent_append fun e he pre => ?_).2 h.confirmed
    obtain ⟨q, -, -, rfl⟩ := hends e he
    intro id token now' action heq
    cases heq
  · -- an expiry executes nothing
    have hnone : ((s.pending.filter fun p => ¬ p.2.expiresAt > now).map fun p => Event.expired p.1 now).filterMap
        Event.executes = [] := by
      refine List.filterMap_eq_nil_iff.2 fun e he => ?_
      obtain ⟨q, -, -, rfl⟩ := hends e he
      rfl
    rw [List.filterMap_append, hnone, List.append_nil]
    exact h.once
  · exact Nat.le_trans (List.length_filter_le _ _) h.bounded

theorem Inv.remove {s : AssistantState} (h : Inv s) {p : Str × PendingAssistantAction} (hp : p ∈ s.pending) {e : Event}
    (hends : e.ends = some p.1) (hconfirmed : Confirmed s.log e) : Inv (s.remove p.1 e) := by
  unfold AssistantState.remove
  refine ⟨?_, ?_, ?_, ?_, ?_, ?_, ?_, ?_⟩
  · dsimp only
    rw [openIds_concat, registers_of_ends hends, hends]
    dsimp only
    rw [← h.keys, List.filter_map]
    rfl
  · exact h.nodup.sublist (List.filter_sublist.map _)
  · intro q hq
    obtain ⟨proposed, hregistered, haction⟩ := h.known q (List.mem_of_mem_filter hq)
    exact ⟨proposed, List.mem_append_left _ hregistered, haction⟩
  · intro q hq e' he'
    obtain ⟨hq, hne⟩ := List.mem_filter.1 hq
    rcases List.mem_append.1 he' with he' | he'
    · exact h.notEnded q hq e' he'
    · rw [List.mem_singleton.1 he', hends]
      intro heq
      exact of_decide_eq_true hne (Option.some.inj heq).symm
  · intro e' he' id hid
    rw [List.filterMap_append]
    rcases List.mem_append.1 he' with he' | he'
    · exact List.mem_append_left _ (h.endedRegistered e' he' id hid)
    · rw [List.mem_singleton.1 he', hends] at hid
      cases hid
      exact List.mem_append_left _ (h.key_registered hp)
  · exact everyEvent_concat.2 ⟨h.confirmed, hconfirmed⟩
  · rw [List.filterMap_append, List.nodup_append]
    refine ⟨h.once, ?_, ?_⟩
    · rw [List.filterMap_cons]
      cases e.executes <;> simp
    intro id hid id' hid' heq
    subst heq
    obtain ⟨e₁, he₁, hexecutes₁⟩ := List.mem_filterMap.1 hid
    obtain ⟨e₂, he₂, hexecutes₂⟩ := List.mem_filterMap.1 hid'
    rw [List.mem_singleton.1 he₂] at hexecutes₂
    have hsame := (ends_of_executes hexecutes₂).symm.trans hends
    exact h.notEnded p hp e₁ he₁ ((ends_of_executes hexecutes₁).trans hsame)
  · exact Nat.le_trans (List.length_filter_le _ _) h.bounded

theorem Inv.insert {s : AssistantState} (h : Inv s) {id token : Str} {proposed : AssistantAction} {expiresAt : Nat}
    (hfresh : id ∉ s.log.filterMap Event.registers) (hroom : s.pending.length < maxPendingActions) :
    Inv (s.insert id ⟨proposed.stamped id token, token, expiresAt⟩ (.registered id token proposed expiresAt)) := by
  have hnew : ∀ p ∈ s.pending, p.1 ≠ id := by
    rintro p hp rfl
    exact hfresh (h.key_registered hp)
  have hkept : (s.pending.filter fun p => p.1 ≠ id) = s.pending :=
    List.filter_eq_self.2 fun p hp => decide_eq_true (hnew p hp)
  unfold AssistantState.insert
  rw [hkept]
  refine ⟨?_, ?_, ?_, ?_, ?_, ?_, ?_, ?_⟩
  · dsimp only
    rw [openIds_concat, List.map_append, h.keys]
    rfl
  · dsimp only
    rw [List.map_append, List.nodup_append]
    refine ⟨h.nodup, List.nodup_singleton _, ?_⟩
    intro other hother id' hid' heq
    obtain ⟨p, hp, rfl⟩ := List.mem_map.1 hother
    exact hnew p hp (heq.trans (List.mem_singleton.1 hid'))
  · intro p hp
    rcases List.mem_append.1 hp with hp | hp
    · obtain ⟨proposed', hregistered, haction⟩ := h.known p hp
      exact ⟨proposed', List.mem_append_left _ hregistered, haction⟩
    · rw [List.mem_singleton.1 hp]
      exact ⟨proposed, List.mem_append_right _ (List.mem_singleton.2 rfl), rfl⟩
  · intro p hp e he
    rcases List.mem_append.1 he with he | he
    · rcases List.mem_append.1 hp with hp | hp
      · exact h.notEnded p hp e he
      · rw [List.mem_singleton.1 hp]
        exact fun hends => hfresh (h.endedRegistered e he id hends)
    · rw [List.mem_singleton.1 he]
      intro hends
      cases hends
  · intro e he other hends
    rw [List.filterMap_append]
    rcases List.mem_append.1 he with he | he
    · exact List.mem_append_left _ (h.endedRegistered e he other hends)
    · rw [List.mem_singleton.1 he] at hends
      cases hends
  · refine everyEvent_concat.2 ⟨h.confirmed, ?_⟩
    intro _ _ _ _ heq
    cases heq
  · rw [List.filterMap_append]
    show (s.log.filterMap Event.executes ++ []).Nodup
    rw [List.append_nil]
    exact h.once
  · dsimp only
    rw [List.length_append, List.length_singleton]
    omega

/-- What the map evicts where it is full is one of its entries. -/
private theorem makeRoom_cases (s : AssistantState) (first : Nat) :
    (s.pending.length < maxPendingActions ∧ s.makeRoom first = s) ∨
      ∃ p, s.pending[first % s.pending.length]? = some p ∧ maxPendingActions ≤ s.pending.length ∧
        s.makeRoom first = s.remove p.1 (.evicted p.1) := by
  unfold AssistantState.makeRoom
  by_cases hfull : s.pending.length ≥ maxPendingActions
  · have hpos : 0 < s.pending.length := Nat.lt_of_lt_of_le (by decide) hfull
    have hlt := Nat.mod_lt first hpos
    rw [if_pos hfull, List.getElem?_eq_getElem hlt]
    exact Or.inr ⟨_, rfl, hfull, rfl⟩
  · rw [if_neg hfull]
    exact Or.inl ⟨Nat.lt_of_not_le hfull, rfl⟩

private theorem confirmed_evicted (log : List Event) (id : Str) : Confirmed log (.evicted id) := by
  intro _ _ _ _ heq
  cases heq

theorem Inv.makeRoom {s : AssistantState} (h : Inv s) (first : Nat) :
    Inv (s.makeRoom first) ∧ (s.makeRoom first).pending.length < maxPendingActions := by
  obtain ⟨hroom, heq⟩ | ⟨p, hp, -, heq⟩ := makeRoom_cases s first
  · rw [heq]
    exact ⟨h, hroom⟩
  · have hmem := List.mem_of_getElem? hp
    rw [heq]
    refine ⟨h.remove hmem rfl (confirmed_evicted _ _), Nat.lt_of_lt_of_le ?_ h.bounded⟩
    exact List.length_filter_lt_length_iff_exists.2 ⟨p, hmem, by simp⟩

theorem registered_prune (s : AssistantState) (now : Nat) :
    (s.pruneExpiredActions now).log.filterMap Event.registers = s.log.filterMap Event.registers := by
  have hnone : ((s.pending.filter fun p => ¬ p.2.expiresAt > now).map fun p => Event.expired p.1 now).filterMap
      Event.registers = [] := by
    refine List.filterMap_eq_nil_iff.2 fun e he => ?_
    obtain ⟨p, -, rfl⟩ := List.mem_map.1 he
    rfl
  unfold AssistantState.pruneExpiredActions
  rw [List.filterMap_append, hnone, List.append_nil]

theorem registered_remove (s : AssistantState) {id : Str} {e : Event} (h : e.ends = some id) :
    (s.remove id e).log.filterMap Event.registers = s.log.filterMap Event.registers := by
  unfold AssistantState.remove
  rw [List.filterMap_append]
  simp [registers_of_ends h]

theorem registered_makeRoom (s : AssistantState) (first : Nat) :
    (s.makeRoom first).log.filterMap Event.registers = s.log.filterMap Event.registers := by
  obtain ⟨-, heq⟩ | ⟨p, -, -, heq⟩ := makeRoom_cases s first
  · rw [heq]
  · rw [heq]
    exact registered_remove s rfl

/-- What a request with a token does: nothing but to drop what has expired, or to take the action with this id and this
token out of the map. -/
theorem takeConfirmed_cases (s : AssistantState) (id token : Str) (now : Nat) (e : PendingAssistantAction → Event) :
    takeConfirmed s id token now e = s.pruneExpiredActions now ∨
      ∃ pending, (id, pending) ∈ (s.pruneExpiredActions now).pending ∧ pending.confirmationToken = token ∧
        now < pending.expiresAt ∧ takeConfirmed s id token now e =
          (s.pruneExpiredActions now).remove id (e pending) := by
  unfold takeConfirmed
  dsimp only
  cases hget : (s.pruneExpiredActions now).get? id with
  | none => exact Or.inl rfl
  | some pending =>
    dsimp only
    by_cases htoken : constantTimeEq pending.confirmationToken token = true
    · rw [if_pos htoken]
      obtain ⟨p, hfind, rfl⟩ := Option.map_eq_some_iff.1 hget
      have hkey : p.1 = id := by simpa using List.find?_some hfind
      have hmem := List.mem_of_find?_eq_some hfind
      subst hkey
      obtain ⟨-, halive⟩ := List.mem_filter.1 hmem
      exact Or.inr ⟨p.2, hmem, constantTimeEq_iff.1 htoken, of_decide_eq_true halive, rfl⟩
    · rw [if_neg htoken]
      exact Or.inl rfl

/-- An action which is taken out of the map to be executed is one that may be executed. -/
private theorem Inv.confirmed_executed {s : AssistantState} (h : Inv s) {id : Str} {pending : PendingAssistantAction}
    (hmem : (id, pending) ∈ s.pending) {token : Str} (htoken : pending.confirmationToken = token) {now : Nat}
    (halive : now < pending.expiresAt) : Confirmed s.log (.executed id token now pending.action) := by
  rintro _ _ _ _ heq
  cases heq
  obtain ⟨proposed, hregistered, haction⟩ := h.known _ hmem
  subst htoken
  refine ⟨⟨proposed, _, hregistered, halive, haction, ?_⟩, h.notEnded _ hmem⟩
  rw [haction]
  rfl

/-- An id which a request draws has not been registered before. -/
def DrawsFresh (s : AssistantState) (request : Request) : Prop :=
  ∀ id, request.draws = some id → id ∉ s.log.filterMap Event.registers

theorem Inv.step {s : AssistantState} (h : Inv s) {request : Request} (hfresh : DrawsFresh s request) :
    Inv (confirmationStep s request) := by
  cases request with
  | register action id token readAt now first =>
    obtain ⟨hinv, hroom⟩ := (h.prune now).makeRoom first
    refine hinv.insert ?_ hroom
    rw [registered_makeRoom, registered_prune]
    exact hfresh id rfl
  | execute id token now =>
    show Inv (takeConfirmed s id token now _)
    obtain heq | ⟨pending, hmem, htoken, halive, heq⟩ := takeConfirmed_cases s id token now
      fun pending => .executed id token now pending.action
    · rw [heq]
      exact h.prune now
    · rw [heq]
      exact (h.prune now).remove hmem rfl ((h.prune now).confirmed_executed hmem htoken halive)
  | cancel id token now =>
    show Inv (takeConfirmed s id token now _)
    obtain heq | ⟨pending, hmem, htoken, halive, heq⟩ := takeConfirmed_cases s id token now
      fun _ => .cancelled id token now
    · rw [heq]
      exact h.prune now
    · rw [heq]
      refine (h.prune now).remove hmem rfl ?_
      rintro _ _ _ _ heq
      cases heq

/-! ### What makes room -/

private theorem evicts_concat_other {log : List Event} {e : Event} (h : ∀ id, e ≠ .evicted id) :
    EveryEvent EvictsEarliest (log ++ [e]) ↔ EveryEvent EvictsEarliest log :=
  everyEvent_append fun e' he' _ id heq => absurd heq (by rw [List.mem_singleton.1 he']; exact h id)

private theorem evicts_prune (s : AssistantState) (now : Nat) :
    EveryEvent EvictsEarliest (s.pruneExpiredActions now).log ↔ EveryEvent EvictsEarliest s.log := by
  refine everyEvent_append fun e he _ id heq => ?_
  obtain ⟨p, -, rfl⟩ := List.mem_map.1 he
  cases heq

/-- The map drops its earliest entry exactly where it starts with it. -/
private theorem evicts_makeRoom {s : AssistantState} (h : Inv s) (first : Nat) :
    EveryEvent EvictsEarliest (s.makeRoom first).log ↔
      EveryEvent EvictsEarliest s.log ∧ (s.pending.length ≥ maxPendingActions → first % s.pending.length = 0) := by
  obtain ⟨hroom, heq⟩ | ⟨p, hp, hfull, heq⟩ := makeRoom_cases s first
  · rw [heq]
    exact ⟨fun hevicts => ⟨hevicts, fun hfull => absurd hfull (Nat.not_le.2 hroom)⟩, And.left⟩
  · have hearliest : EvictsEarliest s.log (.evicted p.1) ↔ first % s.pending.length = 0 := by
      have hpos : 0 < s.pending.length := Nat.lt_of_lt_of_le (by decide) hfull
      obtain ⟨hlt, hget⟩ := List.getElem?_eq_some_iff.1 hp
      have hhead : (openIds s.log).head? = some (s.pending[0].1) := by
        rw [← h.keys, List.head?_map, List.head?_eq_getElem?, List.getElem?_eq_getElem hpos]
        rfl
      constructor
      · intro hevicts
        have hsame := hevicts p.1 rfl
        rw [hhead] at hsame
        have hlength : (s.pending.map Prod.fst).length = s.pending.length := List.length_map _
        have hkeys : (s.pending.map Prod.fst).get ⟨0, by omega⟩ =
            (s.pending.map Prod.fst).get ⟨first % s.pending.length, by omega⟩ := by
          rw [List.get_eq_getElem, List.get_eq_getElem, List.getElem_map, List.getElem_map, hget]
          exact Option.some.inj hsame
        exact (Fin.mk.inj (h.nodup.get_inj_iff.1 hkeys)).symm
      · intro hzero id hid
        cases hid
        have hfirst : p = s.pending[0] := by
          rw [← hget]
          simp only [hzero]
        rw [hhead, hfirst]
    rw [heq]
    unfold AssistantState.remove
    rw [everyEvent_concat, hearliest]
    exact and_congr_right fun _ => ⟨fun hzero _ => hzero, fun hzero => hzero hfull⟩

theorem evicts_step {s : AssistantState} (h : Inv s) (request : Request) :
    EveryEvent EvictsEarliest (confirmationStep s request).log ↔
      EveryEvent EvictsEarliest s.log ∧ StartsWithEarliest s request := by
  cases request with
  | register action id token readAt now first =>
    show EveryEvent EvictsEarliest (((s.pruneExpiredActions now).makeRoom first).log ++ [_]) ↔ _
    rw [evicts_concat_other (by intro _ heq; cases heq), evicts_makeRoom (h.prune now), evicts_prune]
    rfl
  | execute id token now =>
    show EveryEvent EvictsEarliest (takeConfirmed s id token now _).log ↔ _
    obtain heq | ⟨pending, -, -, -, heq⟩ := takeConfirmed_cases s id token now
      fun pending => .executed id token now pending.action
    · rw [heq, evicts_prune]
      exact ⟨fun hevicts => ⟨hevicts, trivial⟩, And.left⟩
    · rw [heq]
      unfold AssistantState.remove
      rw [evicts_concat_other (by intro _ heq; cases heq), evicts_prune]
      exact ⟨fun hevicts => ⟨hevicts, trivial⟩, And.left⟩
  | cancel id token now =>
    show EveryEvent EvictsEarliest (takeConfirmed s id token now _).log ↔ _
    obtain heq | ⟨pending, -, -, -, heq⟩ := takeConfirmed_cases s id token now fun _ => .cancelled id token now
    · rw [heq, evicts_prune]
      exact ⟨fun hevicts => ⟨hevicts, trivial⟩, And.left⟩
    · rw [heq]
      unfold AssistantState.remove
      rw [evicts_concat_other (by intro _ heq; cases heq), evicts_prune]
      exact ⟨fun hevicts => ⟨hevicts, trivial⟩, And.left⟩

/-! ### Whole runs -/

private theorem registered_step (s : AssistantState) (request : Request) :
    (confirmationStep s request).log.filterMap Event.registers =
      s.log.filterMap Event.registers ++ request.draws.toList := by
  cases request with
  | register action id token readAt now first =>
    show (((s.pruneExpiredActions now).makeRoom first).log ++ [_]).filterMap Event.registers = _
    rw [List.filterMap_append, registered_makeRoom, registered_prune]
    rfl
  | execute id token now =>
    show (takeConfirmed s id token now _).log.filterMap Event.registers = _
    obtain heq | ⟨pending, -, -, -, heq⟩ := takeConfirmed_cases s id token now
      fun pending => .executed id token now pending.action
    · rw [heq, registered_prune]
      exact (List.append_nil _).symm
    · rw [heq, registered_remove _ rfl, registered_prune]
      exact (List.append_nil _).symm
  | cancel id token now =>
    show (takeConfirmed s id token now _).log.filterMap Event.registers = _
    obtain heq | ⟨pending, -, -, -, heq⟩ := takeConfirmed_cases s id token now fun _ => .cancelled id token now
    · rw [heq, registered_prune]
      exact (List.append_nil _).symm
    · rw [heq, registered_remove _ rfl, registered_prune]
      exact (List.append_nil _).symm

/-- Ids which are all different are drawn fresh by every request. -/
theorem drawsFresh_of_nodup {requests : List Request} {s : AssistantState}
    (h : (s.log.filterMap Event.registers ++ requests.filterMap Request.draws).Nodup) :
    EveryStep confirmationStep DrawsFresh s requests := by
  induction requests generalizing s with
  | nil => exact everyStep_nil
  | cons request requests ih =>
    refine everyStep_cons.2 ⟨?_, ih ?_⟩
    · intro id hid hmem
      have hdrawn : id ∈ (request :: requests).filterMap Request.draws :=
        List.mem_filterMap.2 ⟨request, List.mem_cons_self, hid⟩
      exact (List.nodup_append.1 h).2.2 id hmem id hdrawn rfl
    · rw [registered_step, List.append_assoc]
      cases hdraws : request.draws with
      | none =>
        rw [List.filterMap_cons_none hdraws] at h
        exact h
      | some id =>
        rw [List.filterMap_cons_some hdraws] at h
        exact h

private theorem evicts_iff {requests : List Request} (hids : (requests.filterMap Request.draws).Nodup) :
    EveryState confirmationStep (fun s => EveryEvent EvictsEarliest s.log) AssistantState.start requests ↔
      EveryStep confirmationStep StartsWithEarliest AssistantState.start requests :=
  everyState_iff_everyStep_of (I := Inv) (P := fun s => EveryEvent EvictsEarliest s.log)
    (fun _ _ hinv hfresh => hinv.step hfresh)
    (fun _ request hinv _ hevicts => (evicts_step hinv request).trans (and_iff_right hevicts)) Inv.start everyEvent_nil
    (drawsFresh_of_nodup (s := AssistantState.start) hids)

/-- Whatever requests come in whatever order and at whatever time, an action is executed at most once, only under its
own token, after its registration, before it expires and before anything else has become of it, as it was proposed,
and the map stays within its bound.  What makes room is the earliest action exactly where the map happens to start
with it. -/
theorem protocol_iff (requests : List Request) (hids : (requests.filterMap Request.draws).Nodup) :
    EveryState confirmationStep Protocol AssistantState.start requests ↔
      EveryStep confirmationStep StartsWithEarliest AssistantState.start requests := by
  have hinv : EveryState confirmationStep Inv AssistantState.start requests :=
    everyState_of_everyStep (P := Inv) (fun _ _ h hfresh => h.step hfresh) Inv.start
      (drawsFresh_of_nodup (s := AssistantState.start) hids)
  rw [← evicts_iff hids]
  constructor
  · intro h
    exact h.imp fun s hs => hs.evicts
  · intro h pre hpre
    exact ⟨(hinv pre hpre).confirmed, (hinv pre hpre).once, (hinv pre hpre).bounded, h pre hpre⟩

private def resetThrottling : AssistantAction :=
  { actionId := [], confirmationToken := [], kind := "throttling", summary := "Reset", risk := .mutate
    endpoint := "/admin/throttling", method := "POST", payload := .obj [], requiresConfirmation := true
    preconditions := [] }

/-- An action which is executed with its token. -/
theorem protocol_executed :
    EveryState confirmationStep Protocol AssistantState.start
      [.register resetThrottling "a" "t" 0 0 0, .execute "a" "t" 5, .execute "a" "t" 6] := by
  refine (protocol_iff _ (by decide)).2 (everyStep_cons.2 ⟨?_, ?_⟩)
  · intro hfull
    exact absurd hfull (by decide)
  · exact everyStep_cons.2 ⟨trivial, everyStep_cons.2 ⟨trivial, everyStep_nil⟩⟩

/-- As many registrations as there is room for, and one more for which the map starts with the second entry. -/
private def registrations (n : Nat) : List Request :=
  (List.range n).map fun i => .register resetThrottling (List.replicate i 'a') "t" 0 0 1

/-- The second action makes room, while the first one is still pending. -/
theorem not_protocol :
    ¬ ∀ requests : List Request, (requests.filterMap Request.draws).Nodup →
      EveryState confirmationStep Protocol AssistantState.start requests := by
  intro h
  have hids : ((registrations 51).filterMap Request.draws).Nodup := by decide +kernel
  have hsteps := (evicts_iff hids).1 ((h _ hids).imp fun s hs => hs.evicts)
  have hlast : StartsWithEarliest (run confirmationStep AssistantState.start (registrations 50))
      (.register resetThrottling (List.replicate 50 'a') "t" 0 0 1) := hsteps _ _ (List.prefix_refl _)
  have hfull : ((run confirmationStep AssistantState.start (registrations 50)).pruneExpiredActions 0).pending.length =
      50 := by
    decide +kernel
  have hzero := hlast (by rw [hfull]; decide)
  rw [hfull] at hzero
  exact absurd hzero (by decide)

end Assistant

end Oproxy
