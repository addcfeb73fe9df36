import Oproxy.Lib.Loop
import Oproxy.Middleware.Plugins.GrpcInspector

/-!
# The frame splitter over its pushes (`middleware/plugins/grpc_inspector.rs`)

The loop of `GrpcFrameSplitter::push` takes the whole frames off the buffer, so that over all its pushes a splitter
takes apart what the encoder has put together, however the bytes are cut into chunks.
-/

namespace Oproxy

namespace GrpcInspector

/-- The bytes of a frame which is not there as a whole. -/
structure GrpcFrameSplitter where
  buf : Bytes

namespace GrpcFrameSplitter

def new : GrpcFrameSplitter := ⟨[]⟩

/-- One turn of the loop of `push`, over the buffer and the frames which have been taken off. -/
def pushTurn (s : Bytes × List Frame) : Turn (Bytes × List Frame) (Bytes × List Frame) :=
  match s.1 with
  | flag :: b0 :: b1 :: b2 :: b3 :: _ =>
    let frameLen := 5 + readBe b0 b1 b2 b3
    if s.1.length < frameLen then .leave s
    else .again (s.1.drop frameLen, s.2 ++ [(decide (flag ≠ 0), (s.1.take frameLen).drop 5)])
  | _ => .leave s

/-- Take the whole frames off the buffer with a chunk put to its end; each takes up five bytes at least, which bounds
the turns. -/
def push (s : GrpcFrameSplitter) (chunk : Bytes) : GrpcFrameSplitter × List Frame :=
  let buf := s.buf ++ chunk
  let (rest, out) := (Loop.run pushTurn (buf.length + 1) (buf, [])).getD (buf, [])
  (⟨rest⟩, out)

/-- The number of bytes of a frame which is not there as a whole. -/
def pending (s : GrpcFrameSplitter) : Nat := s.buf.length

/-- A push for each chunk, with what each returns. -/
def pushes : GrpcFrameSplitter → List Bytes → GrpcFrameSplitter × List (List Frame)
  | s, [] => (s, [])
  | s, chunk :: chunks =>
    let (s', frames) := s.push chunk
    let (last, rest) := pushes s' chunks
    (last, frames :: rest)

/-! ### The loop of a push -/

private theorem pushTurn_eq (buf : Bytes) (out : List Frame) :
    pushTurn (buf, out) =
      match splitter.next buf with
      | some (frame, rest) => .again (rest, out ++ [frame])
      | none => .leave (buf, out) := by
  show _ = match nextFrame buf with
    | some (frame, rest) => Turn.again (rest, out ++ [frame])
    | none => Turn.leave (buf, out)
  unfold pushTurn
  split
  · rename_i flag b0 b1 b2 b3 rest hbuf
    dsimp only at hbuf
    subst hbuf
    unfold nextFrame
    have hlength : (flag :: b0 :: b1 :: b2 :: b3 :: rest).length = 5 + rest.length := by
      simp only [List.length_cons]
      omega
    by_cases hshort : rest.length < readBe b0 b1 b2 b3
    · have hshort' : (flag :: b0 :: b1 :: b2 :: b3 :: rest).length < 5 + readBe b0 b1 b2 b3 := by omega
      dsimp only
      rw [if_pos hshort, if_pos hshort']
    · have hshort' : ¬ (flag :: b0 :: b1 :: b2 :: b3 :: rest).length < 5 + readBe b0 b1 b2 b3 := by omega
      have hdrop : (flag :: b0 :: b1 :: b2 :: b3 :: rest).drop (5 + readBe b0 b1 b2 b3) =
          rest.drop (readBe b0 b1 b2 b3) := by
        rw [← List.drop_drop]
        rfl
      have htake : ((flag :: b0 :: b1 :: b2 :: b3 :: rest).take (5 + readBe b0 b1 b2 b3)).drop 5 =
          rest.take (readBe b0 b1 b2 b3) := by
        rw [List.drop_take, Nat.add_sub_cancel_left]
        rfl
      dsimp only
      rw [if_neg hshort, if_neg hshort', hdrop, htake]
  · rename_i hbuf
    have hnone : nextFrame buf = none := by
      unfold nextFrame
      split
      · rename_i flag b0 b1 b2 b3 rest
        exact absurd rfl (hbuf flag b0 b1 b2 b3 rest)
      · rfl
    rw [hnone]

private theorem run_pushTurn {turns : Nat} (buf : Bytes) (out : List Frame) (henough : buf.length < turns) :
    Loop.run pushTurn turns (buf, out) = some ((splitter.drain buf).2, out ++ (splitter.drain buf).1) := by
  induction turns generalizing buf out with
  | zero => omega
  | succ turns ih =>
    have hturn := pushTurn_eq buf out
    cases hnext : splitter.next buf with
    | none =>
      rw [hnext] at hturn
      rw [Loop.run_leave hturn, Framer.drain_of_none hnext, List.append_nil]
    | some p =>
      have hshorter := splitter.shorter hnext
      rw [hnext] at hturn
      rw [Loop.run_again hturn, ih p.2 _ (by omega), Framer.drain_of_some hnext, List.append_assoc]
      rfl

theorem push_eq (s : GrpcFrameSplitter) (chunk : Bytes) :
    s.push chunk = (⟨(splitter.drain (s.buf ++ chunk)).2⟩, (splitter.drain (s.buf ++ chunk)).1) := by
  unfold push
  dsimp only
  rw [run_pushTurn _ _ (Nat.lt_succ_self _)]
  rfl

theorem pushes_eq (s : GrpcFrameSplitter) (chunks : List Bytes) :
    s.pushes chunks = (⟨(splitter.run s.buf chunks).2⟩, (splitter.run s.buf chunks).1) := by
  induction chunks generalizing s with
  | nil => rfl
  | cons chunk chunks ih =>
    unfold pushes
    rw [push_eq]
    dsimp only
    rw [ih]
    rfl

/-! ### The frames of all pushes -/

/-- The bytes of a frame on the wire: a flag, the length of the message, and the message. -/
def WireFrame (bytes : Bytes) : Prop :=
  ∃ flag b0 b1 b2 b3 payload, bytes = flag :: b0 :: b1 :: b2 :: b3 :: payload ∧ payload.length = readBe b0 b1 b2 b3

theorem wireFrame_encodeFrame {frame : Frame} (h : frame.2.length < 2 ^ 32) : WireFrame (encodeFrame frame) := by
  refine ⟨_, _, _, _, _, frame.2, rfl, ?_⟩
  rw [Nat.mod_eq_of_lt h]
  exact (readBe_beBytes h).symm

/-- A frame which is not there as a whole is not taken off. -/
theorem next_of_proper_prefix {tail more : Bytes} (h : WireFrame (tail ++ more)) (hmore : more ≠ []) :
    splitter.next tail = none := by
  obtain ⟨flag, b0, b1, b2, b3, payload, hbytes, hlength⟩ := h
  show nextFrame tail = none
  unfold nextFrame
  split
  · rename_i flag' b0' b1' b2' b3' rest
    simp only [List.cons_append, List.cons.injEq] at hbytes
    obtain ⟨rfl, rfl, rfl, rfl, rfl, rfl⟩ := hbytes
    have hpos := List.length_pos_of_ne_nil hmore
    rw [List.length_append] at hlength
    rw [if_pos (by omega)]
  · rfl

/-- However a stream of encoded messages is cut into chunks, the pushes return the messages in order, each by the push
that completes it, and the bytes of a frame which is cut off stay in the buffer. -/
theorem pushes_encoded (messages : List Frame) (hmessages : ∀ m ∈ messages, m.2.length < 2 ^ 32) (tail : Bytes)
    (htail : ∃ more, more ≠ [] ∧ WireFrame (tail ++ more)) (chunks : List Bytes)
    (hchunks : chunks.flatten = messages.flatMap encodeFrame ++ tail) :
    (new.pushes chunks).2.flatten = messages ∧ (new.pushes chunks).1.buf = tail ∧
      (new.pushes chunks).1.pending = tail.length ∧ (new.pushes chunks).2.length = chunks.length ∧
      ∀ i k, k ≤ messages.length →
        (k ≤ ((new.pushes chunks).2.take i).flatten.length ↔
          ((messages.take k).flatMap encodeFrame).length ≤ (chunks.take i).flatten.length) := by
  have hnext : ∀ m ∈ messages, ∀ r, splitter.next (encodeFrame m ++ r) = some (m, r) :=
    fun m hm => nextFrame_encodeFrame (hmessages m hm)
  have hcut : splitter.next tail = none := by
    obtain ⟨more, hmore, hframe⟩ := htail
    exact next_of_proper_prefix hframe hmore
  -- the pushes take the frames off the whole stream
  have hrun := @Framer.run_eq _ _ splitter [] rfl chunks
  rw [List.nil_append, hchunks, Framer.drain_encoded_append hnext, Framer.drain_of_none hcut, List.append_nil] at hrun
  obtain ⟨hout, hbuf⟩ := Prod.mk.inj hrun
  rw [pushes_eq]
  refine ⟨hout, hbuf, congrArg List.length hbuf, Framer.length_run _ _, fun i k hk => ?_⟩
  -- and those up to some chunk take them off the stream up to there
  have hpart := @Framer.run_eq _ _ splitter [] rfl (chunks.take i)
  rw [Framer.run_take, List.nil_append] at hpart
  have hfirst : ((splitter.run [] chunks).1.take i).flatten = (splitter.drain (chunks.take i).flatten).1 :=
    congrArg Prod.fst hpart
  have hstream : (chunks.take i).flatten ++ (chunks.drop i).flatten = messages.flatMap encodeFrame ++ tail := by
    rw [← List.flatten_append, List.take_append_drop, hchunks]
  show k ≤ ((splitter.run [] chunks).1.take i).flatten.length ↔ _
  rw [hfirst]
  exact Framer.le_length_drain_iff length_of_next_eq hnext hcut hstream hk

/-- Two messages and the beginning of a third one, cut within the headers. -/
theorem pushes_encoded_cut :
    (new.pushes [[0, 0, 0], [], [0, 1, 42, 1], [0, 0, 0, 0, 0, 0, 0]]).2 = [[], [], [(false, [42])], [(true, [])]] ∧
      (new.pushes [[0, 0, 0], [], [0, 1, 42, 1], [0, 0, 0, 0, 0, 0, 0]]).1.buf = [0, 0, 0] := by
  have hstream := pushes_encoded [(false, [42]), (true, [])] (by decide) [0, 0, 0]
    ⟨[0, 0], by decide, 0, 0, 0, 0, 0, [], rfl, rfl⟩ [[0, 0, 0], [], [0, 1, 42, 1], [0, 0, 0, 0, 0, 0, 0]] (by decide)
  exact ⟨by decide, hstream.2.1⟩

end GrpcFrameSplitter

end GrpcInspector

end Oproxy
