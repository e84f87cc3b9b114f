import OpenLander.Theory.Utf8
import Mathlib.Algebra.Group.Nat.Defs

/-! # Docker log streams

`stripDockerStreamHeaders` (`src/pipeline/docker/helpers.ts`). A frame of a log stream has a header of
eight bytes, with the number of the stream in the first one and the size of the payload in the last four,
big endian. Each payload is decoded on its own. -/

namespace OpenLander.DockerStream
open Theory.Utf8

def HEADER_SIZE : Nat := 8

/-- `buffer.readUInt32BE(offset)` -/
def readUInt32BE (buffer : List UInt8) (offset : Nat) : Nat :=
  ((buffer.drop offset).take 4).foldl (fun n b => n * 256 + b.toNat) 0

/-- The chunks of what is left of the buffer. The rest gets shorter by a header at least. -/
def chunks (buffer : List UInt8) : List (List Char) :=
  if _h : buffer = [] then []
  else if buffer.length < HEADER_SIZE then [decode buffer]
  else
    let payloadEnd := HEADER_SIZE + readUInt32BE buffer 4
    if buffer.length < payloadEnd then [decode (buffer.drop HEADER_SIZE)]
    else
      decode ((buffer.take payloadEnd).drop HEADER_SIZE) :: chunks (buffer.drop payloadEnd)
termination_by buffer.length
decreasing_by
  rw [List.length_drop, HEADER_SIZE]
  have := List.length_pos_iff.mpr _h
  omega

def stripDockerStreamHeaders (buffer : List UInt8) : List Char :=
  match buffer with
  | [] => []
  | firstByte :: _ =>
    if firstByte ≠ 0 ∧ firstByte ≠ 1 ∧ firstByte ≠ 2 then decode buffer
    else (chunks buffer).flatten

structure Frame where
  stream : UInt8
  payload : List UInt8
  stream_le : stream ≤ 2
  size_lt : payload.length < 2 ^ 32

/-- Four bytes, big endian. -/
def uint32BE (n : Nat) : List UInt8 :=
  [.ofNat (n / 16777216), .ofNat (n / 65536 % 256), .ofNat (n / 256 % 256), .ofNat (n % 256)]

def Frame.bytes (frame : Frame) : List UInt8 :=
  [frame.stream, 0, 0, 0] ++ uint32BE frame.payload.length ++ frame.payload

/-- One chunk for each turn of the loop, and no more turns than bytes. -/
theorem length_chunks_le (buffer : List UInt8) : (chunks buffer).length ≤ buffer.length := by
  fun_induction chunks buffer with
  | case1 => exact Nat.le_refl _
  | case2 buffer hne _ => exact List.length_pos_iff.mpr hne
  | case3 buffer hne _ _ _ => exact List.length_pos_iff.mpr hne
  | case4 buffer hne hheader payloadEnd hpayload ih =>
    rw [List.length_drop] at ih
    rw [List.length_cons]
    have hpos := List.length_pos_iff.mpr hne
    have hend : HEADER_SIZE ≤ payloadEnd := Nat.le_add_right _ _
    unfold HEADER_SIZE at hend
    omega

theorem readUInt32BE_bytes (frame : Frame) (rest : List UInt8) :
    readUInt32BE (frame.bytes ++ rest) 4 = frame.payload.length := by
  have hlt := frame.size_lt
  show (((0 * 256 + (UInt8.ofNat (frame.payload.length / 16777216)).toNat) * 256 +
    (UInt8.ofNat (frame.payload.length / 65536 % 256)).toNat) * 256 +
    (UInt8.ofNat (frame.payload.length / 256 % 256)).toNat) * 256 +
    (UInt8.ofNat (frame.payload.length % 256)).toNat = _
  rw [UInt8.toNat_ofNat_of_lt' (by simp only [UInt8.size]; omega),
    UInt8.toNat_ofNat_of_lt' (by simp only [UInt8.size]; omega),
    UInt8.toNat_ofNat_of_lt' (by simp only [UInt8.size]; omega),
    UInt8.toNat_ofNat_of_lt' (by simp only [UInt8.size]; omega)]
  omega

theorem chunks_frame (frame : Frame) (rest : List UInt8) :
    chunks (frame.bytes ++ rest) = decode frame.payload :: chunks rest := by
  have hlength : frame.bytes.length = HEADER_SIZE + frame.payload.length := by
    rw [Frame.bytes, List.length_append]
    rfl
  have hne : frame.bytes ++ rest ≠ [] := nofun
  rw [chunks, dif_neg hne, List.length_append, hlength, if_neg (by omega)]
  dsimp only
  rw [readUInt32BE_bytes, if_neg (by omega), ← hlength, List.take_left, List.drop_left]
  rfl

theorem chunks_frames (frames : List Frame) :
    chunks (frames.flatMap Frame.bytes) = frames.map fun frame => decode frame.payload := by
  induction frames with
  | nil =>
    rw [List.flatMap_nil, chunks]
    rfl
  | cons frame frames ih => rw [List.flatMap_cons, chunks_frame, ih, List.map_cons]

theorem strip_frames (frames : List Frame) : stripDockerStreamHeaders (frames.flatMap Frame.bytes) =
    (frames.map Frame.payload).flatMap decode := by
  have hstrip : stripDockerStreamHeaders (frames.flatMap Frame.bytes) =
      (chunks (frames.flatMap Frame.bytes)).flatten := by
    cases frames with
    | nil => rw [List.flatMap_nil, chunks]; rfl
    | cons frame frames =>
      have hle : frame.stream.toNat ≤ 2 := UInt8.le_iff_toNat_le.mp frame.stream_le
      refine if_neg fun h => ?_
      have hzero := mt (@UInt8.toNat_inj frame.stream 0).mp h.1
      have hone := mt (@UInt8.toNat_inj frame.stream 1).mp h.2.1
      have htwo := mt (@UInt8.toNat_inj frame.stream 2).mp h.2.2
      change frame.stream.toNat ≠ 0 at hzero
      change frame.stream.toNat ≠ 1 at hone
      change frame.stream.toNat ≠ 2 at htwo
      omega
  rw [hstrip, chunks_frames, List.flatMap_map, List.flatMap_def]

/-- The result is the decoded log exactly if no character is split between two frames. -/
theorem strip_eq_decode_iff (frames : List Frame) :
    stripDockerStreamHeaders (frames.flatMap Frame.bytes) = decode (frames.flatMap Frame.payload) ↔
      splitsCharacter (frames.map Frame.payload) = false := by
  rw [strip_frames, List.flatMap_def (f := Frame.payload)]
  exact decode_flatten_eq_iff _

/-- An accented letter in two frames of one stream. -/
def accented : List Frame := [⟨1, [0xC3], by decide, by decide⟩, ⟨1, [0xA9], by decide, by decide⟩]

theorem not_forall_strip_eq_decode : ¬∀ frames : List Frame,
    stripDockerStreamHeaders (frames.flatMap Frame.bytes) = decode (frames.flatMap Frame.payload) := by
  intro h
  have hlog := h accented
  rw [strip_frames] at hlog
  exact absurd hlog (by decide)

end OpenLander.DockerStream
