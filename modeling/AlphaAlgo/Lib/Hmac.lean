import AlphaAlgo.Lib.Sha256

/-!
# Hmac — keyed digests

HMAC over SHA-256.  The key enters as a block of 64 bytes: a longer key by its digest, a shorter one with zeros after it.
Keys with one block have one digest.

* `utf8_ascii`: the bytes of a text of ASCII.
* `Hmac.lt_of_mem_digest`: a digest is bytes.
* `Hmac.keyBlock_append_zero`: a key and the key with a zero after it have one block.
-/

namespace AlphaAlgo

/-- `hashlib.sha256(l).digest()`. -/
def Sha256.bytes (l : List ℕ) : List ℕ :=
  (Sha256.digest l).toList.flatMap fun w => (List.range 4).map fun i => w.toNat >>> (8 * (3 - i)) % 256

/-- `s.encode("utf-8")`. -/
def utf8 (s : String) : List ℕ := (s.toList.flatMap String.utf8EncodeChar).map UInt8.toNat

theorem utf8_ascii {s : List Char} (h : ∀ c ∈ s, c.toNat < 128) : utf8 (String.ofList s) = s.map Char.toNat := by
  rw [utf8, String.toList_ofList]
  induction s with
  | nil => rfl
  | cons c s ih =>
    have hc := h c List.mem_cons_self
    have hsize : c.utf8Size = 1 := Char.utf8Size_eq_one_iff.mpr (UInt32.le_iff_toNat_le.mpr (show c.toNat ≤ 127 by omega))
    have hbyte : c.val.toUInt8.toNat = c.toNat := by
      show c.toNat % 256 = c.toNat
      exact Nat.mod_eq_of_lt (by omega)
    rw [List.flatMap_cons, String.utf8EncodeChar_eq_singleton hsize, List.singleton_append, List.map_cons, hbyte,
      ih fun d hd => h d (List.mem_cons_of_mem c hd), List.map_cons]

namespace Hmac

/-- The key as a block. -/
def keyBlock (key : List ℕ) : List ℕ :=
  let short := if 64 < key.length then Sha256.bytes key else key
  short ++ List.replicate (64 - short.length) 0

/-- The digest of a message under the block of a key. -/
def digestOf (block message : List ℕ) : List ℕ :=
  Sha256.bytes (block.map (· ^^^ 0x5c) ++ Sha256.bytes (block.map (· ^^^ 0x36) ++ message))

/-- `hmac.new(key, message, hashlib.sha256).digest()`. -/
def digest (key message : List ℕ) : List ℕ := digestOf (keyBlock key) message

example : (digest (utf8 "key") (utf8 "The quick brown fox jumps over the lazy dog")).take 4 = [0xf7, 0xbc, 0x83, 0xf4] := by
  decide +kernel

theorem lt_of_mem_bytes {l : List ℕ} {b : ℕ} (h : b ∈ Sha256.bytes l) : b < 256 := by
  obtain ⟨w, -, hw⟩ := List.mem_flatMap.mp h
  obtain ⟨i, -, rfl⟩ := List.mem_map.mp hw
  exact Nat.mod_lt _ (by omega)

/-- **A digest is bytes.** -/
theorem lt_of_mem_digest {key message : List ℕ} {b : ℕ} (h : b ∈ digest key message) : b < 256 := lt_of_mem_bytes h

/-- **Two keys with one block.** -/
theorem keyBlock_append_zero {key : List ℕ} (h : key.length < 64) : keyBlock (key ++ [0]) = keyBlock key := by
  have hlength : (key ++ [0]).length = key.length + 1 := List.length_append
  simp only [keyBlock]
  rw [if_neg (by omega), if_neg (by omega), hlength, List.append_assoc, List.singleton_append, ← List.replicate_succ]
  congr 2
  omega

end Hmac

end AlphaAlgo
