/-
  File:      SteadQ/Lib/Pieces.lean
  Subject:   LISTS THAT ARE MOVED IN PIECES.

  Nothing in this file refers to the queue. A transfer that may stop at any element moves a list
  as pieces, each with the offset it goes to or comes from.
-/
import Mathlib.Data.List.Basic

namespace Pieces

variable {α : Type}

/-- Every piece starts where the one before it ends, the first one at `offset`. -/
def Adjoin : (offset : Nat) → List (Nat × List α) → Prop
  | _, [] => True
  | offset, piece :: rest => piece.1 = offset ∧ Adjoin (offset + piece.2.length) rest

/-- The elements of the pieces. -/
def content (pieces : List (Nat × List α)) : List α := (pieces.map Prod.snd).flatten

@[simp] theorem content_nil : content ([] : List (Nat × List α)) = [] := rfl

@[simp] theorem content_cons (piece : Nat × List α) (rest : List (Nat × List α)) :
    content (piece :: rest) = piece.2 ++ content rest := rfl

/-- The piece stands in the place of as many elements from `offset` on. -/
def splice (data : List α) (offset : Nat) (piece : List α) : List α :=
  data.take offset ++ piece ++ data.drop (offset + piece.length)

theorem splice_end (data piece : List α) : splice data data.length piece = data ++ piece := by
  rw [splice, List.take_length, List.drop_eq_nil_of_le (Nat.le_add_right ..), List.append_nil]

theorem length_splice_ge {data : List α} {offset : Nat} (h : offset ≤ data.length)
    (piece : List α) : offset + piece.length ≤ (splice data offset piece).length := by
  simp only [splice, List.length_append, List.length_take, Nat.min_eq_left h]
  exact Nat.le_add_right ..

/-- Two pieces that adjoin are one. -/
theorem splice_splice {data : List α} {offset : Nat} (h : offset ≤ data.length)
    (first second : List α) :
    splice (splice data offset first) (offset + first.length) second =
      splice data offset (first ++ second) := by
  have hlength : (data.take offset ++ first).length = offset + first.length := by
    rw [List.length_append, List.length_take, Nat.min_eq_left h]
  have hdrop : (data.take offset ++ first ++ data.drop (offset + first.length)).drop
      (offset + first.length + second.length) =
      data.drop (offset + (first.length + second.length)) := by
    rw [← hlength, List.drop_length_add_append, List.drop_drop, hlength, Nat.add_assoc]
  rw [splice, splice, splice, hdrop, ← hlength, List.take_left, List.length_append,
    List.append_assoc (data.take offset)]

/-- **Adjoining pieces are one piece.** -/
theorem foldl_splice {pieces : List (Nat × List α)} {data : List α} {offset : Nat}
    (hadjoin : Adjoin offset pieces) (h : offset ≤ data.length) :
    pieces.foldl (fun d piece => splice d piece.1 piece.2) data =
      splice data offset (content pieces) := by
  induction pieces generalizing data offset with
  | nil => simp [splice]
  | cons piece rest ih =>
    obtain ⟨rfl, hrest⟩ := hadjoin
    rw [List.foldl_cons, ih hrest (length_splice_ge h _), splice_splice h, content_cons]

end Pieces
