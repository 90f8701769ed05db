/-
  File:      SteadQ/Lib/Codec.lean
  Subject:   BYTE CODES FOR STRUCTURED DATA: what is written in front of any bytes reads back.

  A `Coder` writes a value in front of what follows and reads it off again. Coders of pairs,
  lists and options are built from those of their parts, so a record is coded as the tuple of its
  fields.
-/
import SteadQ.Lib.Bytes

namespace Octet

variable {α β : Type}

structure Coder (α : Type) where
  put : α → Bytes → Bytes
  get : Bytes → Option (α × Bytes)
  get_put : ∀ a rest, get (put a rest) = some (a, rest)

namespace Coder

def byte : Coder UInt8 where
  put := List.cons
  get
    | [] => none
    | b :: rest => some (b, rest)
  get_put := fun _ _ => rfl

/-- As many ones as the number says, then a zero. -/
def putNat : Nat → Bytes → Bytes
  | 0, rest => 0 :: rest
  | n + 1, rest => 1 :: putNat n rest

def getNat : Bytes → Option (Nat × Bytes)
  | [] => none
  | b :: rest => if b = 0 then some (0, rest) else (getNat rest).map fun x => (x.1 + 1, x.2)

theorem getNat_putNat (n : Nat) (rest : Bytes) : getNat (putNat n rest) = some (n, rest) := by
  induction n with
  | zero => rfl
  | succ n ih =>
    show (getNat (putNat n rest)).map _ = _
    rw [ih]
    rfl

def nat : Coder Nat := ⟨putNat, getNat, getNat_putNat⟩

/-- The code of another type, through a map that has an inverse on its right. -/
def via (A : Coder α) (there : β → α) (back : α → β) (h : ∀ b, back (there b) = b) : Coder β where
  put := fun b rest => A.put (there b) rest
  get := fun bytes => (A.get bytes).map fun x => (back x.1, x.2)
  get_put := fun b rest => by rw [A.get_put, Option.map_some, h]

def pair (A : Coder α) (B : Coder β) : Coder (α × β) where
  put := fun p rest => A.put p.1 (B.put p.2 rest)
  get := fun bytes => (A.get bytes).bind fun x => (B.get x.2).map fun y => ((x.1, y.1), y.2)
  get_put := fun p rest => by rw [A.get_put, Option.bind_some, B.get_put, Option.map_some]

def getMany (A : Coder α) : Nat → Bytes → Option (List α × Bytes)
  | 0, bytes => some ([], bytes)
  | n + 1, bytes =>
    (A.get bytes).bind fun x => (getMany A n x.2).map fun y => (x.1 :: y.1, y.2)

theorem getMany_foldr (A : Coder α) (l : List α) (rest : Bytes) :
    getMany A l.length (l.foldr A.put rest) = some (l, rest) := by
  induction l with
  | nil => rfl
  | cons a l ih =>
    rw [List.length_cons, getMany, List.foldr_cons, A.get_put, Option.bind_some, ih]
    rfl

/-- The length, then the elements. -/
def list (A : Coder α) : Coder (List α) where
  put := fun l rest => putNat l.length (l.foldr A.put rest)
  get := fun bytes => (getNat bytes).bind fun x => getMany A x.1 x.2
  get_put := fun l rest => by rw [getNat_putNat, Option.bind_some, getMany_foldr]

def option (A : Coder α) : Coder (Option α) :=
  A.list.via Option.toList List.head? fun o => by cases o <;> rfl

def bytes : Coder Bytes := byte.list

end Coder

end Octet
