import AlphaAlgo.Lib.Json

/-!
# Sha256 — the hash function

SHA-256 over the UTF-8 bytes of a text, with the digest in lower-case hexadecimal (`hexdigest`).  The definition
runs in the kernel, so identities can be evaluated.
-/

namespace AlphaAlgo

namespace Sha256

abbrev Word := BitVec 32

/-- The round constants. -/
def roundConstants : List Word :=
  [0x428a2f98, 0x71374491, 0xb5c0fbcf, 0xe9b5dba5, 0x3956c25b, 0x59f111f1, 0x923f82a4, 0xab1c5ed5,
    0xd807aa98, 0x12835b01, 0x243185be, 0x550c7dc3, 0x72be5d74, 0x80deb1fe, 0x9bdc06a7, 0xc19bf174,
    0xe49b69c1, 0xefbe4786, 0x0fc19dc6, 0x240ca1cc, 0x2de92c6f, 0x4a7484aa, 0x5cb0a9dc, 0x76f988da,
    0x983e5152, 0xa831c66d, 0xb00327c8, 0xbf597fc7, 0xc6e00bf3, 0xd5a79147, 0x06ca6351, 0x14292967,
    0x27b70a85, 0x2e1b2138, 0x4d2c6dfc, 0x53380d13, 0x650a7354, 0x766a0abb, 0x81c2c92e, 0x92722c85,
    0xa2bfe8a1, 0xa81a664b, 0xc24b8b70, 0xc76c51a3, 0xd192e819, 0xd6990624, 0xf40e3585, 0x106aa070,
    0x19a4c116, 0x1e376c08, 0x2748774c, 0x34b0bcb5, 0x391c0cb3, 0x4ed8aa4a, 0x5b9cca4f, 0x682e6ff3,
    0x748f82ee, 0x78a5636f, 0x84c87814, 0x8cc70208, 0x90befffa, 0xa4506ceb, 0xbef9a3f7, 0xc67178f2]

/-- The eight working words. -/
structure Words where
  a : Word
  b : Word
  c : Word
  d : Word
  e : Word
  f : Word
  g : Word
  h : Word

def Words.initial : Words :=
  ⟨0x6a09e667, 0xbb67ae85, 0x3c6ef372, 0xa54ff53a, 0x510e527f, 0x9b05688c, 0x1f83d9ab, 0x5be0cd19⟩

def Words.add (x y : Words) : Words :=
  ⟨x.a + y.a, x.b + y.b, x.c + y.c, x.d + y.d, x.e + y.e, x.f + y.f, x.g + y.g, x.h + y.h⟩

def Words.toList (x : Words) : List Word := [x.a, x.b, x.c, x.d, x.e, x.f, x.g, x.h]

/-- Exclusive or of three rotations. -/
def bigSigma (i j k : ℕ) (x : Word) : Word := x.rotateRight i ^^^ x.rotateRight j ^^^ x.rotateRight k

/-- Exclusive or of two rotations and a shift. -/
def smallSigma (i j k : ℕ) (x : Word) : Word := x.rotateRight i ^^^ x.rotateRight j ^^^ (x >>> k)

/-- One round; `kw` is the round constant plus the message word. -/
def Words.round (x : Words) (kw : Word) : Words :=
  let t1 := x.h + bigSigma 6 11 25 x.e + ((x.e &&& x.f) ^^^ (~~~x.e &&& x.g)) + kw
  let t2 := bigSigma 2 13 22 x.a + ((x.a &&& x.b) ^^^ (x.a &&& x.c) ^^^ (x.b &&& x.c))
  ⟨t1 + t2, x.a, x.b, x.c, x.d + t1, x.e, x.f, x.g⟩

/-- The message word after a window of sixteen. -/
def nextWord (w : List Word) : Word :=
  w.getD 0 0 + smallSigma 7 18 3 (w.getD 1 0) + w.getD 9 0 + smallSigma 17 19 10 (w.getD 14 0)

def rounds : List Word → List Word → Words → Words
  | [], _, x => x
  | k :: ks, w, x => rounds ks (w.drop 1 ++ [nextWord w]) (x.round (k + w.getD 0 0))

def compress (x : Words) (w : List Word) : Words := x.add (rounds roundConstants w x)

/-- `m` pieces of length `n`. -/
def pieces {α : Type*} (n : ℕ) : ℕ → List α → List (List α)
  | 0, _ => []
  | m + 1, l => l.take n :: pieces n m (l.drop n)

def bigEndian (l : List ℕ) : Word := BitVec.ofNat 32 (l.foldl (fun a b => 256 * a + b) 0)

/-- The message, a set bit, zeros and the length in bits, to a multiple of 64 bytes. -/
def pad (l : List ℕ) : List ℕ :=
  l ++ 0x80 :: List.replicate ((119 - l.length % 64) % 64) 0 ++
    (List.range 8).map fun i => (8 * l.length) >>> (8 * (7 - i)) % 256

def digest (l : List ℕ) : Words :=
  let p := pad l
  (pieces 64 (p.length / 64) p).foldl (fun x b => compress x ((pieces 4 16 b).map bigEndian)) Words.initial

end Sha256

/-- `hashlib.sha256(s.encode("utf-8")).hexdigest()`. -/
@[irreducible] def sha256 (s : String) : String :=
  let bytes := (s.toList.flatMap String.utf8EncodeChar).map UInt8.toNat
  String.ofList ((Sha256.digest bytes).toList.flatMap fun w =>
    (List.range 8).map fun i => hexDigit (w.toNat >>> (4 * (7 - i))))

/-- A digest is written with hexadecimal digits. -/
theorem colon_notMem_sha256 (s : String) : ':' ∉ (sha256 s).toList := by
  have key : ∀ d < 16, ':' ≠ Nat.digitChar d := by decide
  unfold sha256
  simp only [String.toList_ofList, List.mem_flatMap, List.mem_map, not_exists, not_and]
  rintro w - i - h
  exact key _ (Nat.mod_lt _ (by omega)) h.symm

theorem length_sha256 (s : String) : (sha256 s).length = 64 := by
  have h : ∀ l : List Sha256.Word, (l.flatMap fun w => (List.range 8).map fun i =>
      hexDigit (w.toNat >>> (4 * (7 - i)))).length = 8 * l.length := by
    intro l
    induction l with
    | nil => rfl
    | cons w l ih => rw [List.flatMap_cons, List.length_append, ih, List.length_cons]; simp; omega
  unfold sha256
  rw [String.length_ofList, h]
  rfl

example : sha256 "abc" = "ba7816bf8f01cfea414140de5dae2223b00361a396177a9cb410ff61f20015ad" := by decide +kernel

end AlphaAlgo
