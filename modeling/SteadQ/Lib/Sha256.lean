/-
  File:      SteadQ/Lib/Sha256.lean
  Subject:   SHA-256 over byte strings, as an executable function with a 32-byte result.

  Words are natural numbers below `2 ^ 32`; every sum is reduced. Nothing is proved about the
  function beyond its output length: proofs treat it as an unknown function, and only concrete
  evaluations compute it.
-/
import SteadQ.Lib.Bytes

namespace Octet

namespace Sha256

def word (n : Nat) : Nat := n % 4294967296

def rotr (x k : Nat) : Nat := (x >>> k) ||| word (x <<< (32 - k))

/-- The round constants. -/
def constants : List Nat :=
  [0x428a2f98, 0x71374491, 0xb5c0fbcf, 0xe9b5dba5, 0x3956c25b, 0x59f111f1, 0x923f82a4, 0xab1c5ed5,
   0xd807aa98, 0x12835b01, 0x243185be, 0x550c7dc3, 0x72be5d74, 0x80deb1fe, 0x9bdc06a7, 0xc19bf174,
   0xe49b69c1, 0xefbe4786, 0x0fc19dc6, 0x240ca1cc, 0x2de92c6f, 0x4a7484aa, 0x5cb0a9dc, 0x76f988da,
   0x983e5152, 0xa831c66d, 0xb00327c8, 0xbf597fc7, 0xc6e00bf3, 0xd5a79147, 0x06ca6351, 0x14292967,
   0x27b70a85, 0x2e1b2138, 0x4d2c6dfc, 0x53380d13, 0x650a7354, 0x766a0abb, 0x81c2c92e, 0x92722c85,
   0xa2bfe8a1, 0xa81a664b, 0xc24b8b70, 0xc76c51a3, 0xd192e819, 0xd6990624, 0xf40e3585, 0x106aa070,
   0x19a4c116, 0x1e376c08, 0x2748774c, 0x34b0bcb5, 0x391c0cb3, 0x4ed8aa4a, 0x5b9cca4f, 0x682e6ff3,
   0x748f82ee, 0x78a5636f, 0x84c87814, 0x8cc70208, 0x90befffa, 0xa4506ceb, 0xbef9a3f7, 0xc67178f2]

structure Digest8 where
  (a b c d e f g h : Nat)

def initial : Digest8 :=
  ⟨0x6a09e667, 0xbb67ae85, 0x3c6ef372, 0xa54ff53a, 0x510e527f, 0x9b05688c, 0x1f83d9ab, 0x5be0cd19⟩

/-- One round: `k` is the round constant and `w` the schedule word. -/
def Digest8.round (s : Digest8) (k w : Nat) : Digest8 :=
  let s1 := (rotr s.e 6 ^^^ rotr s.e 11) ^^^ rotr s.e 25
  let ch := (s.e &&& s.f) ^^^ ((4294967295 - s.e) &&& s.g)
  let t1 := s.h + s1 + ch + k + w
  let s0 := (rotr s.a 2 ^^^ rotr s.a 13) ^^^ rotr s.a 22
  let maj := ((s.a &&& s.b) ^^^ (s.a &&& s.c)) ^^^ (s.b &&& s.c)
  ⟨word (t1 + s0 + maj), s.a, s.b, s.c, word (s.d + t1), s.e, s.f, s.g⟩

/-- The next word of the message schedule, from the last sixteen (oldest first). -/
def nextWord (ws : List Nat) : Nat :=
  let w1 := ws.getD 1 0
  let w14 := ws.getD 14 0
  let s0 := (rotr w1 7 ^^^ rotr w1 18) ^^^ (w1 >>> 3)
  let s1 := (rotr w14 17 ^^^ rotr w14 19) ^^^ (w14 >>> 10)
  word (ws.getD 0 0 + s0 + ws.getD 9 0 + s1)

/-- The rounds of one block; `ws` is the sliding window of sixteen schedule words. -/
def rounds : List Nat → List Nat → Digest8 → Digest8
  | [], _, s => s
  | k :: ks, ws, s => rounds ks (ws.tail ++ [nextWord ws]) (s.round k (ws.headD 0))

def Digest8.add (x y : Digest8) : Digest8 :=
  ⟨word (x.a + y.a), word (x.b + y.b), word (x.c + y.c), word (x.d + y.d),
   word (x.e + y.e), word (x.f + y.f), word (x.g + y.g), word (x.h + y.h)⟩

def words : Bytes → List Nat
  | a :: b :: c :: d :: rest => beNat [a, b, c, d] :: words rest
  | _ => []

def pad (m : Bytes) : Bytes :=
  m ++ [128] ++ List.replicate ((119 - m.length % 64) % 64) 0 ++ beBytes 8 (8 * m.length)

/-- Fold the blocks of sixteen words into the state; `n` blocks are left. -/
def blocks : Nat → List Nat → Digest8 → Digest8
  | 0, _, s => s
  | n + 1, ws, s => blocks n (ws.drop 16) (s.add (rounds constants (ws.take 16) s))

def Digest8.bytes (s : Digest8) : Bytes :=
  beBytes 4 s.a ++ beBytes 4 s.b ++ beBytes 4 s.c ++ beBytes 4 s.d ++
  beBytes 4 s.e ++ beBytes 4 s.f ++ beBytes 4 s.g ++ beBytes 4 s.h

end Sha256

open Sha256 in
/-- SHA-256. -/
def sha256 (m : Bytes) : Octets 32 :=
  let p := pad m
  ⟨(blocks (p.length / 64) (words p) initial).bytes, by simp [Digest8.bytes]⟩

example : hexEncode (sha256 (ascii "abc")).1 =
    ascii "ba7816bf8f01cfea414140de5dae2223b00361a396177a9cb410ff61f20015ad" := by
  decide +kernel

end Octet
