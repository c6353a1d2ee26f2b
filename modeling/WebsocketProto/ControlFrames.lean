import Mathlib.Algebra.Order.BigOperators.Group.List
import Mathlib.Data.List.Flatten
import WebsocketProto.Segmentation

/-! PING and PONG frames between the fragments of a message. Only the first header of a read is
dispatched; behind it the loop takes every frame for a fragment. -/
namespace WebsocketProto
open Rfc6455 (Key Frame Opcode encodeAll)
open Outcome

/-- What a read queues through `send_without_frame`. -/
def answers (received : Received) : List Bytes :=
  received.calls.filterMap fun call => match call with
    | .sendWithoutFrame output => some output.bytes
    | _ => none

def dataFrames (frames : List Frame) : List Frame := frames.filter fun f => !f.opcode.isControl

/-- A message in two or more masked fragments, with masked PING and PONG frames between them, cut
into reads at frame boundaries. -/
structure Interleaved (reads : List (List Frame)) : Prop where
  cut : ∀ read ∈ reads, read ≠ []
  masked : ∀ f ∈ reads.flatten, f.key.isSome = true
  control : ∀ f ∈ reads.flatten, f.opcode.isControl = true →
    (f.opcode = .ping ∨ f.opcode = .pong) ∧ f.fin = true ∧ f.payload.length ≤ 125
  fragments : ∃ first inner last, reads.flatten = first :: (inner ++ [last]) ∧
    ((first.opcode = .text ∨ first.opcode = .binary) ∧ first.fin = false) ∧
    (∀ f ∈ inner, f.opcode.isControl = false → f.opcode = .continuation ∧ f.fin = false) ∧
    last.opcode = .continuation ∧ last.fin = true

def pings (frames : List Frame) : List Frame := frames.filter fun f => f.opcode = .ping

def upToFinal : List Frame → List Frame
  | [] => []
  | f :: more => if f.fin then [f] else f :: upToFinal more

def taken : List Frame → List Frame
  | [] => []
  | f :: more => if f.opcode.isControl then [] else upToFinal (f :: more)

/-- What makes the frames of a read legible to the loop. -/
structure Smooth (f : Frame) : Prop where
  control : f.opcode.isControl = true → (f.opcode = .ping ∨ f.opcode = .pong) ∧ f.fin = true
  plain : Plain f
  text : f.opcode = .text → f.fin = false

theorem Smooth.accepted {f : Frame} (smooth : Smooth f) (decodeBuffer : Bytes) :
    verdict f decodeBuffer = .success := by
  apply if_neg
  rintro ⟨text, fin, _⟩
  rw [smooth.text text] at fin
  contradiction

/-- The length bytes of the fragments are such as the decoder reads as they are. -/
def LengthsRead (frames : List Frame) : Prop :=
  ∀ f ∈ frames, Unsigned (Rfc6455.lengthBytes f.payload.length)

theorem Collected.length {visited : List Visited} {bytes : Bytes}
    (collected : Collected visited bytes) :
    bytes.length = (visited.flatMap Visited.payload).length := by
  obtain ⟨pieces, rfl, all⟩ := collected
  induction all with
  | nil => rfl
  | cons yields _ ih =>
    rw [List.flatten_cons, List.flatMap_cons, List.length_append, List.length_append, ih, yields.1,
      Visited.payload_length]

namespace Interleaved
variable {reads : List (List Frame)}

theorem data (inter : Interleaved reads) : ∃ front last, dataFrames reads.flatten = front ++ [last] ∧
    (∀ f ∈ front, f.fin = false) ∧ last.fin = true := by
  obtain ⟨first, inner, last, whole, ⟨opens, unfinished⟩, continues, ends, fin⟩ := inter.fragments
  have head : first.opcode.isControl = false := by
    rcases opens with text | binary
    · rw [text]
      rfl
    · rw [binary]
      rfl
  have tail : last.opcode.isControl = false := by
    rw [ends]
    rfl
  refine ⟨first :: dataFrames inner, last, ?_, ?_, fin⟩
  · rw [whole, dataFrames, List.filter_cons, List.filter_append]
    simp [head, tail, dataFrames]
  · refine List.forall_mem_cons.mpr ⟨unfinished, fun f member => ?_⟩
    obtain ⟨member, kind⟩ := List.mem_filter.mp member
    exact (continues f member (by simpa using kind)).2

theorem smooth (inter : Interleaved reads) (legible : LengthsRead reads.flatten)
    (counted : ∀ f ∈ reads.flatten, f.payload.length < 2 ^ 31) : ∀ f ∈ reads.flatten, Smooth f := by
  intro f member
  refine ⟨fun control => ⟨(inter.control f member control).1, (inter.control f member control).2.1⟩,
    ⟨legible f member, counted f member⟩, fun text => ?_⟩
  · obtain ⟨first, inner, last, whole, ⟨_, unfinished⟩, continues, ends, _⟩ := inter.fragments
    rw [whole, List.mem_cons, List.mem_append, List.mem_singleton] at member
    rcases member with rfl | member | rfl
    · exact unfinished
    · exact (continues f member (by rw [text]; rfl)).2
    · rw [ends] at text
      contradiction

end Interleaved

end WebsocketProto
