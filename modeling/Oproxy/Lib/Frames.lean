import Mathlib.Algebra.GroupWithZero.Nat
import Mathlib.Data.List.Basic

/-!
# Incremental framing

A framer takes the first frame off a buffer, where the buffer has a whole one.  Taking all the frames off a stream
which arrives in chunks, with what is left over kept for the next chunk, gives the frames of the whole stream.
-/

/-- How to take one frame off a buffer.  A frame that is there does not depend on what comes after it. -/
structure Framer (α β : Type) where
  next : List α → Option (β × List α)
  shorter : ∀ {a x r}, next a = some (x, r) → r.length < a.length
  extend : ∀ {a x r}, next a = some (x, r) → ∀ b, next (a ++ b) = some (x, r ++ b)

namespace Framer

variable {α β : Type} (F : Framer α β)

private def drainFuel : Nat → List α → List β × List α
  | 0, a => ([], a)
  | fuel + 1, a =>
    match F.next a with
    | none => ([], a)
    | some (x, r) => (x :: (drainFuel fuel r).1, (drainFuel fuel r).2)

/-- The whole frames of a buffer, and the rest.  A frame takes up at least one element, which bounds the turns. -/
def drain (a : List α) : List β × List α := F.drainFuel a.length a

variable {F}

private theorem next_nil : F.next [] = none := by
  cases h : F.next [] with
  | none => rfl
  | some p => exact absurd (F.shorter h) (Nat.not_lt_zero _)

private theorem drainFuel_eq {n m : Nat} {a : List α} (hn : a.length ≤ n) (hm : a.length ≤ m) :
    F.drainFuel n a = F.drainFuel m a := by
  induction n generalizing m a with
  | zero =>
    have hnil : a = [] := List.length_eq_zero_iff.1 (by omega)
    subst hnil
    cases m with
    | zero => rfl
    | succ m => simp [drainFuel, next_nil]
  | succ n ih =>
    cases m with
    | zero =>
      have hnil : a = [] := List.length_eq_zero_iff.1 (by omega)
      subst hnil
      simp [drainFuel, next_nil]
    | succ m =>
      unfold drainFuel
      cases hnext : F.next a with
      | none => rfl
      | some p =>
        have hshorter := F.shorter hnext
        have hrest := @ih m p.2 (by omega) (by omega)
        simp only [hrest]

theorem drain_of_none {a : List α} (h : F.next a = none) : F.drain a = ([], a) := by
  unfold drain
  cases hlength : a.length with
  | zero => rfl
  | succ n =>
    unfold drainFuel
    rw [h]

theorem drain_of_some {a r : List α} {x : β} (h : F.next a = some (x, r)) :
    F.drain a = (x :: (F.drain r).1, (F.drain r).2) := by
  have hshorter := F.shorter h
  obtain ⟨n, hn⟩ : ∃ n, a.length = n + 1 := ⟨a.length - 1, by omega⟩
  have hrest : F.drainFuel n r = F.drain r := drainFuel_eq (by omega) (Nat.le_refl _)
  have hfuel : F.drain a = F.drainFuel (n + 1) a := by
    unfold drain
    rw [hn]
  rw [hfuel]
  simp only [drainFuel, h, hrest]

/-- What has been drained is drained of a longer stream too. -/
theorem drain_append (a b : List α) :
    F.drain (a ++ b) = ((F.drain a).1 ++ (F.drain ((F.drain a).2 ++ b)).1, (F.drain ((F.drain a).2 ++ b)).2) := by
  induction hn : a.length using Nat.strongRecOn generalizing a with
  | ind n ih =>
    cases hnext : F.next a with
    | none => rw [drain_of_none hnext, List.nil_append]
    | some p =>
      have hshorter := F.shorter hnext
      rw [drain_of_some (F.extend hnext b), ih p.2.length (by omega) p.2 rfl, drain_of_some hnext, List.cons_append]

/-- Take the frames off a stream of chunks, with the rest of each chunk kept for the next. -/
def run : List α → List (List α) → List (List β) × List α
  | buf, [] => ([], buf)
  | buf, chunk :: chunks =>
    ((F.drain (buf ++ chunk)).1 :: (run (F.drain (buf ++ chunk)).2 chunks).1,
      (run (F.drain (buf ++ chunk)).2 chunks).2)

theorem drain_drained (a : List α) : F.drain (F.drain a).2 = ([], (F.drain a).2) := by
  induction hn : a.length using Nat.strongRecOn generalizing a with
  | ind n ih =>
    cases hnext : F.next a with
    | none =>
      rw [drain_of_none hnext]
      exact drain_of_none hnext
    | some p =>
      have hshorter := F.shorter hnext
      rw [drain_of_some hnext]
      exact ih p.2.length (by omega) p.2 rfl

/-- The chunks make no difference. -/
theorem run_eq {buf : List α} (hbuf : F.next buf = none) (chunks : List (List α)) :
    ((F.run buf chunks).1.flatten, (F.run buf chunks).2) = F.drain (buf ++ chunks.flatten) := by
  have key : ∀ (chunks : List (List α)) (buf : List α), F.drain buf = ([], buf) →
      ((F.run buf chunks).1.flatten, (F.run buf chunks).2) = F.drain (buf ++ chunks.flatten) := by
    intro chunks
    induction chunks with
    | nil =>
      intro buf hdrained
      rw [List.flatten_nil, List.append_nil, hdrained]
      rfl
    | cons chunk chunks ih =>
      intro buf _
      have hrest := ih (F.drain (buf ++ chunk)).2 (drain_drained _)
      rw [List.flatten_cons, ← List.append_assoc, drain_append (buf ++ chunk), ← hrest]
      rfl
  exact key chunks buf (drain_of_none hbuf)

/-- Encoded frames are drained, and what comes after them. -/
theorem drain_encoded_append {encode : β → List α} {frames : List β}
    (h : ∀ x ∈ frames, ∀ r, F.next (encode x ++ r) = some (x, r)) (a : List α) :
    F.drain (frames.flatMap encode ++ a) = (frames ++ (F.drain a).1, (F.drain a).2) := by
  induction frames with
  | nil => rfl
  | cons x frames ih =>
    have hrest := ih fun y hy => h y (List.mem_cons_of_mem _ hy)
    rw [List.flatMap_cons, List.append_assoc, drain_of_some (h x List.mem_cons_self _), hrest]
    rfl

/-- A stream of encoded frames is drained to the last element. -/
theorem drain_encoded {encode : β → List α} {frames : List β}
    (h : ∀ x ∈ frames, ∀ r, F.next (encode x ++ r) = some (x, r)) : F.drain (frames.flatMap encode) = (frames, []) := by
  have hdrain := drain_encoded_append h []
  rw [List.append_nil, drain_of_none next_nil, List.append_nil] at hdrain
  exact hdrain

/-- Every drained frame has been taken off some buffer. -/
theorem mem_drain {P : β → Prop} (h : ∀ a x r, F.next a = some (x, r) → P x) (a : List α) :
    ∀ x ∈ (F.drain a).1, P x := by
  induction hn : a.length using Nat.strongRecOn generalizing a with
  | ind n ih =>
    cases hnext : F.next a with
    | none =>
      rw [drain_of_none hnext]
      intro x hx
      cases hx
    | some p =>
      have hshorter := F.shorter hnext
      rw [drain_of_some hnext]
      intro x hx
      rcases List.mem_cons.1 hx with rfl | hx
      · exact h a _ _ hnext
      · exact ih p.2.length (by omega) p.2 rfl x hx

/-! ### When a frame is taken off -/

theorem run_take (buf : List α) (chunks : List (List α)) (i : Nat) :
    (F.run buf (chunks.take i)).1 = (F.run buf chunks).1.take i := by
  induction chunks generalizing buf i with
  | nil => simp [run]
  | cons chunk chunks ih =>
    cases i with
    | zero => rfl
    | succ i => simp [run, ih]

theorem length_run (buf : List α) (chunks : List (List α)) : (F.run buf chunks).1.length = chunks.length := by
  induction chunks generalizing buf with
  | nil => rfl
  | cons chunk chunks ih => simp [run, ih]

/-- The frames of a buffer and the rest take up the whole buffer. -/
theorem length_drain {size : β → Nat} (h : ∀ a x r, F.next a = some (x, r) → a.length = size x + r.length)
    (a : List α) : ((F.drain a).1.map size).sum + (F.drain a).2.length = a.length := by
  induction hn : a.length using Nat.strongRecOn generalizing a with
  | ind n ih =>
    cases hnext : F.next a with
    | none =>
      rw [drain_of_none hnext]
      simp [hn]
    | some p =>
      have hshorter := F.shorter hnext
      have hsize := h a p.1 p.2 hnext
      have hrest := ih p.2.length (by omega) p.2 rfl
      rw [drain_of_some hnext, List.map_cons, List.sum_cons]
      dsimp only
      omega

/-- A part of a stream from its beginning has the first frames exactly where it is long enough for them. -/
theorem le_length_drain_iff {size : β → Nat} (hsize : ∀ a x r, F.next a = some (x, r) → a.length = size x + r.length)
    {encode : β → List α} {frames : List β} (h : ∀ x ∈ frames, ∀ r, F.next (encode x ++ r) = some (x, r))
    {a b rest : List α} (hrest : F.next rest = none) (hstream : a ++ b = frames.flatMap encode ++ rest) {k : Nat}
    (hk : k ≤ frames.length) :
    k ≤ (F.drain a).1.length ↔ ((frames.take k).flatMap encode).length ≤ a.length := by
  have hall : F.drain (a ++ b) = (frames, rest) := by
    rw [hstream, drain_encoded_append h, drain_of_none hrest, List.append_nil]
  have htake : ∀ x ∈ frames.take k, ∀ r, F.next (encode x ++ r) = some (x, r) :=
    fun x hx => h x (List.mem_of_mem_take hx)
  have hlengths : ((frames.take k).flatMap encode).length = ((frames.take k).map size).sum := by
    rw [List.length_flatMap]
    refine congrArg List.sum (List.map_congr_left fun x hx => ?_)
    have hone := hsize _ x [] (htake x hx [])
    simpa using hone
  constructor
  · intro hle
    -- the frames drained of the part are the first of the stream
    have hfirst : (F.drain a).1 <+: frames := by
      rw [drain_append] at hall
      exact ⟨_, congrArg Prod.fst hall⟩
    have hsub : frames.take k <+: (F.drain a).1 :=
      List.prefix_of_prefix_length_le (List.take_prefix k frames) hfirst (by rw [List.length_take]; omega)
    have htotal := length_drain hsize a
    have hsum : ((frames.take k).map size).sum ≤ ((F.drain a).1.map size).sum := by
      obtain ⟨more, hmore⟩ := hsub
      rw [← hmore, List.map_append, List.sum_append]
      omega
    omega
  · intro hle
    have hsub : (frames.take k).flatMap encode <+: a := by
      have hwhole : (frames.take k).flatMap encode <+: a ++ b := by
        rw [hstream]
        refine ⟨(frames.drop k).flatMap encode ++ rest, ?_⟩
        rw [← List.append_assoc, ← List.flatMap_append, List.take_append_drop]
      exact List.prefix_of_prefix_length_le hwhole (List.prefix_append a b) hle
    obtain ⟨more, hmore⟩ := hsub
    rw [← hmore, drain_encoded_append htake, List.length_append, List.length_take]
    omega

end Framer
