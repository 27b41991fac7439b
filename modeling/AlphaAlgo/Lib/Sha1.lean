import AlphaAlgo.Lib.Sha256

/-!
# Sha1 — the hash function of name-based identifiers

SHA-1 over bytes.  The message is padded and cut into words as for SHA-256 (`Sha256.pad`, `Sha256.pieces`).
-/

namespace AlphaAlgo

namespace Sha1

open Sha256 (Word pieces bigEndian pad)

/-- The five working words. -/
structure Words where
  a : Word
  b : Word
  c : Word
  d : Word
  e : Word

def Words.initial : Words := ⟨0x67452301, 0xefcdab89, 0x98badcfe, 0x10325476, 0xc3d2e1f0⟩

def Words.add (x y : Words) : Words := ⟨x.a + y.a, x.b + y.b, x.c + y.c, x.d + y.d, x.e + y.e⟩

def Words.toList (x : Words) : List Word := [x.a, x.b, x.c, x.d, x.e]

/-- The function and the constant of round `t`. -/
def roundFunction (t : ℕ) (b c d : Word) : Word × Word :=
  if t < 20 then ((b &&& c) ||| (~~~b &&& d), 0x5a827999)
  else if t < 40 then (b ^^^ c ^^^ d, 0x6ed9eba1)
  else if t < 60 then ((b &&& c) ||| (b &&& d) ||| (c &&& d), 0x8f1bbcdc)
  else (b ^^^ c ^^^ d, 0xca62c1d6)

def Words.round (x : Words) (t : ℕ) (w : Word) : Words :=
  let f := roundFunction t x.b x.c x.d
  ⟨x.a.rotateLeft 5 + f.1 + x.e + f.2 + w, x.a, x.b.rotateLeft 30, x.c, x.d⟩

/-- The message word after a window of sixteen. -/
def nextWord (w : List Word) : Word :=
  (w.getD 13 0 ^^^ w.getD 8 0 ^^^ w.getD 2 0 ^^^ w.getD 0 0).rotateLeft 1

def rounds : List ℕ → List Word → Words → Words
  | [], _, x => x
  | t :: ts, w, x => rounds ts (w.drop 1 ++ [nextWord w]) (x.round t (w.getD 0 0))

def compress (x : Words) (w : List Word) : Words := x.add (rounds (List.range 80) w x)

def digest (l : List ℕ) : Words :=
  let p := pad l
  (pieces 64 (p.length / 64) p).foldl (fun x b => compress x ((pieces 4 16 b).map bigEndian)) Words.initial

end Sha1

/-- `hashlib.sha1(bytes).digest()`, as a number of 160 bits. -/
@[irreducible] def sha1 (bytes : List ℕ) : ℕ :=
  (Sha1.digest bytes).toList.foldl (fun n w => n * 2 ^ 32 + w.toNat) 0

example : sha1 [0x61, 0x62, 0x63] = 0xa9993e364706816aba3e25717850c26c9cd0d89d := by decide +kernel

end AlphaAlgo
