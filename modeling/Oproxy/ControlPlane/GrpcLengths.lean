import Oproxy.ControlPlane.Forward
import Oproxy.Middleware.Plugins.GrpcSplitter

/-!
# The lengths of gRPC messages (`control_plane/forward.rs`)

`decode_grpc_message_lengths` scans the body of a gRPC response for the lengths of its messages.  It goes by an index
of type `usize`, and the splitter of the relay drains a buffer; they find the same messages.
-/

namespace Oproxy

open Forward

/-! ### The scan -/

/-- `usize::saturating_add`. -/
def usizeSaturatingAdd (a b : Nat) : Nat := min (a + b) usizeMax

/-- One turn of the loop of `decode_grpc_message_lengths`, over the index and the messages which were found. -/
def scanTurn (bytes : Bytes) (s : Nat × List (Bool × Nat)) : Turn (Nat × List (Bool × Nat)) (List (Bool × Nat)) :=
  let (i, out) := s
  if (i + 5) % 2 ^ 64 ≤ bytes.length then
    let compressed := bytes.getD i 0 ≠ 0
    let len := readBe (bytes.getD (i + 1) 0) (bytes.getD (i + 2) 0) (bytes.getD (i + 3) 0) (bytes.getD (i + 4) 0)
    let stop := usizeSaturatingAdd ((i + 5) % 2 ^ 64) len
    if stop > bytes.length then .leave out else .again (stop, out ++ [(decide compressed, len)])
  else .leave out

/-- The messages of a body by the scan; each takes up five bytes at least, which bounds the turns. -/
def scanGrpcMessageLengths (bytes : Bytes) : Option (List (Bool × Nat)) :=
  Loop.run (scanTurn bytes) (bytes.length + 1) (0, [])

/-! ### One message -/

private theorem drop_five {bytes : Bytes} {i : Nat} (h : i + 5 ≤ bytes.length) :
    bytes.drop i = bytes.getD i 0 :: bytes.getD (i + 1) 0 :: bytes.getD (i + 2) 0 :: bytes.getD (i + 3) 0 ::
      bytes.getD (i + 4) 0 :: bytes.drop (i + 5) := by
  have hone : ∀ j, j < bytes.length → bytes.drop j = bytes.getD j 0 :: bytes.drop (j + 1) := by
    intro j hj
    rw [List.drop_eq_getElem_cons hj, List.getD_eq_getElem?_getD, List.getElem?_eq_getElem hj, Option.getD_some]
  rw [hone i (by omega), hone (i + 1) (by omega), hone (i + 2) (by omega), hone (i + 3) (by omega),
    hone (i + 4) (by omega)]

private theorem decode_short {bytes : Bytes} (h : bytes.length < 5) : decodeGrpcMessageLengths bytes = [] := by
  unfold decodeGrpcMessageLengths
  split
  · simp only [List.length_cons] at h
    omega
  · rfl

/-- The turn at an index looks at the bytes from there on. -/
theorem scanTurn_eq {bytes : Bytes} (hlength : bytes.length < 2 ^ 63) {i : Nat} (hi : i ≤ bytes.length)
    (out : List (Bool × Nat)) :
    (∃ i', i < i' ∧ i' ≤ bytes.length ∧ ∃ message, scanTurn bytes (i, out) = .again (i', out ++ [message]) ∧
        decodeGrpcMessageLengths (bytes.drop i) = message :: decodeGrpcMessageLengths (bytes.drop i')) ∨
      (scanTurn bytes (i, out) = .leave out ∧ decodeGrpcMessageLengths (bytes.drop i) = []) := by
  have hmod : (i + 5) % 2 ^ 64 = i + 5 := Nat.mod_eq_of_lt (by omega)
  unfold scanTurn
  dsimp only
  rw [hmod]
  by_cases hheader : i + 5 ≤ bytes.length
  · rw [if_pos hheader]
    have hdrop := drop_five hheader
    generalize bytes.getD i 0 = flag, bytes.getD (i + 1) 0 = b0, bytes.getD (i + 2) 0 = b1, bytes.getD (i + 3) 0 = b2,
      bytes.getD (i + 4) 0 = b3 at hdrop ⊢
    have hlen := readBe_lt b0 b1 b2 b3
    have hstop : usizeSaturatingAdd (i + 5) (readBe b0 b1 b2 b3) = i + 5 + readBe b0 b1 b2 b3 := by
      unfold usizeSaturatingAdd usizeMax
      omega
    rw [hstop, hdrop, decodeGrpcMessageLengths, List.length_drop]
    by_cases hshort : i + 5 + readBe b0 b1 b2 b3 > bytes.length
    · rw [if_pos hshort, if_pos (by omega)]
      exact Or.inr ⟨rfl, rfl⟩
    · rw [if_neg hshort, if_neg (by omega), List.drop_drop]
      exact Or.inl ⟨_, by omega, by omega, _, rfl, rfl⟩
  · rw [if_neg hheader]
    refine Or.inr ⟨rfl, decode_short ?_⟩
    rw [List.length_drop]
    omega

/-- The scan from an index finds the messages of the bytes from there on. -/
theorem run_scanTurn {bytes : Bytes} (hlength : bytes.length < 2 ^ 63) {turns i : Nat} (hi : i ≤ bytes.length)
    (henough : bytes.length - i < turns) (out : List (Bool × Nat)) :
    Loop.run (scanTurn bytes) turns (i, out) = some (out ++ decodeGrpcMessageLengths (bytes.drop i)) := by
  induction turns generalizing i out with
  | zero => omega
  | succ turns ih =>
    rcases scanTurn_eq hlength hi out with ⟨i', hlt, hle, message, hturn, hdecode⟩ | ⟨hturn, hdecode⟩
    · rw [Loop.run_again hturn, ih hle (by omega), hdecode, List.append_assoc]
      rfl
    · rw [Loop.run_leave hturn, hdecode, List.append_nil]

theorem scanGrpcMessageLengths_eq {bytes : Bytes} (hlength : bytes.length < 2 ^ 63) :
    scanGrpcMessageLengths bytes = some (decodeGrpcMessageLengths bytes) := by
  unfold scanGrpcMessageLengths
  rw [run_scanTurn hlength (Nat.zero_le _) (Nat.lt_succ_of_le (Nat.sub_le _ _)), List.nil_append, List.drop_zero]

/-! ### The scan and the splitter -/

namespace GrpcInspector

private theorem nextFrame_short {bytes : Bytes} (h : bytes.length < 5) : nextFrame bytes = none := by
  unfold nextFrame
  split
  · simp only [List.length_cons] at h
    omega
  · rfl

/-- The lengths are those of the messages which the splitter takes off the bytes. -/
theorem decodeGrpcMessageLengths_eq_drain (bytes : Bytes) :
    decodeGrpcMessageLengths bytes = (splitter.drain bytes).1.map fun m => (m.1, m.2.length) := by
  induction hn : bytes.length using Nat.strongRecOn generalizing bytes with
  | ind n ih =>
    by_cases hheader : 5 ≤ bytes.length
    · obtain ⟨flag, b0, b1, b2, b3, rest, rfl⟩ : ∃ flag b0 b1 b2 b3 rest, bytes =
          flag :: b0 :: b1 :: b2 :: b3 :: rest :=
        ⟨_, _, _, _, _, _, List.drop_zero.symm.trans (@drop_five bytes 0 (by omega))⟩
      have hnext : splitter.next (flag :: b0 :: b1 :: b2 :: b3 :: rest) =
          if rest.length < readBe b0 b1 b2 b3 then none
          else some ((decide (flag ≠ 0), rest.take (readBe b0 b1 b2 b3)), rest.drop (readBe b0 b1 b2 b3)) := rfl
      rw [decodeGrpcMessageLengths]
      by_cases hshort : rest.length < readBe b0 b1 b2 b3
      · rw [if_pos hshort] at hnext
        rw [if_pos hshort, Framer.drain_of_none hnext]
        rfl
      · rw [if_neg hshort] at hnext
        have hshorter := splitter.shorter hnext
        have hpayload : (rest.take (readBe b0 b1 b2 b3)).length = readBe b0 b1 b2 b3 :=
          List.length_take_of_le (by omega)
        rw [if_neg (by omega), ih _ (by omega) _ rfl, Framer.drain_of_some hnext, List.map_cons, hpayload]
    · have hshort : bytes.length < 5 := by omega
      rw [decode_short hshort, Framer.drain_of_none (show splitter.next bytes = none from nextFrame_short hshort)]
      rfl

/-- However the bytes of a body are cut into chunks, the scan of the body returns the flags and the lengths of the
messages which a splitter returns for the chunks. -/
theorem scan_eq_pushes {bytes : Bytes} (hlength : bytes.length < 2 ^ 63) {chunks : List Bytes}
    (hchunks : chunks.flatten = bytes) :
    scanGrpcMessageLengths bytes =
      some ((GrpcFrameSplitter.new.pushes chunks).2.flatten.map fun m => (m.1, m.2.length)) := by
  have hrun := @Framer.run_eq _ _ splitter [] rfl chunks
  rw [List.nil_append, hchunks] at hrun
  have hframes := congrArg Prod.fst hrun
  rw [scanGrpcMessageLengths_eq hlength, decodeGrpcMessageLengths_eq_drain, ← hframes, GrpcFrameSplitter.pushes_eq]
  rfl

/-- A message, one of no bytes, and a frame which is cut off, in three chunks. -/
theorem scan_eq_pushes_cut :
    scanGrpcMessageLengths [0, 0, 0, 0, 1, 42, 1, 0, 0, 0, 0, 0, 0, 0, 0, 9, 7] = some [(false, 1), (true, 0)] := by
  rw [@scan_eq_pushes [0, 0, 0, 0, 1, 42, 1, 0, 0, 0, 0, 0, 0, 0, 0, 9, 7] (by decide)
    [[0, 0, 0], [0, 1, 42, 1, 0, 0], [0, 0, 0, 0, 0, 0, 9, 7]] rfl]
  decide

end GrpcInspector

end Oproxy
