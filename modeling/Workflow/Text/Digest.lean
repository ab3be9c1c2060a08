/-!
# `Workflow.Text.Digest` — secure hash digests

The SHA-2 digests, for words of 32 and of 64 bits.  Their constants are the leading bits of the fractional
parts of square and cube roots of the first primes, computed here by exact integer roots.

## Contents
- `Variant`, the parameters of a digest, and the three variants in use.
- `digest`, the digest of a list of bytes, and `hex`, its text.
-/

namespace Workflow.Text.Digest

/-! ## Constants -/

/-- The greatest number below `2 ^ bits` whose power does not exceed a bound, found bit by bit on top of
a number that is known to be small enough. -/
def root (power bound : Nat) : Nat → Nat → Nat
  | 0, low => low
  | bits + 1, low =>
    let middle := low + Nat.pow 2 bits
    root power bound bits (if Nat.pow middle power ≤ bound then middle else low)

/-- The given number of leading bits of the fractional part of a root of a number below 1000. -/
def rootBits (power width n : Nat) : Nat :=
  root power (n * Nat.pow 2 (power * width)) (width + 5) 0 % Nat.pow 2 width

/-- Whether no smaller number from two on divides a number. -/
def isPrime (n : Nat) : Bool := 2 ≤ n && (List.range n).all fun d => d < 2 || n % d != 0

/-- The first eighty primes. -/
def primes : List Nat := ((List.range 410).filter isPrime).take 80

/-! ## Variants -/

/-- The parameters of a digest. -/
structure Variant where
  /-- The bits of a word. -/
  width : Nat
  rounds : Nat
  /-- The primes from whose square roots the digest starts. -/
  seeds : List Nat
  /-- The bytes of the result. -/
  size : Nat
  /-- Two rotations and a shift, for the extension of the older and of the newer words. -/
  extendOld : Nat × Nat × Nat
  extendNew : Nat × Nat × Nat
  /-- Three rotations each, for the mixing of the first and of the fifth word. -/
  mixFirst : Nat × Nat × Nat
  mixFifth : Nat × Nat × Nat

/-- 32-bit words and 64 rounds. -/
def sha256 : Variant where
  width := 32
  rounds := 64
  seeds := primes.take 8
  size := 32
  extendOld := (7, 18, 3)
  extendNew := (17, 19, 10)
  mixFirst := (2, 13, 22)
  mixFifth := (6, 11, 25)

/-- 64-bit words and 80 rounds. -/
def sha512 : Variant where
  width := 64
  rounds := 80
  seeds := primes.take 8
  size := 64
  extendOld := (1, 8, 7)
  extendNew := (19, 61, 6)
  mixFirst := (28, 34, 39)
  mixFifth := (14, 18, 41)

/-- The longer digest from other seeds, cut short. -/
def sha384 : Variant := { sha512 with seeds := (primes.drop 8).take 8, size := 48 }

namespace Variant

variable (v : Variant)

/-- A word. -/
abbrev Word := BitVec v.width

/-- The constant of each round. -/
def constants : List v.Word :=
  (primes.take v.rounds).map fun p => BitVec.ofNat v.width (rootBits 3 v.width p)

/-- The words at the start. -/
def start : List v.Word := v.seeds.map fun p => BitVec.ofNat v.width (rootBits 2 v.width p)

/-- Rotates twice and shifts once. -/
def extend (by' : Nat × Nat × Nat) (x : v.Word) : v.Word :=
  x.rotateRight by'.1 ^^^ x.rotateRight by'.2.1 ^^^ (x >>> by'.2.2)

/-- Rotates three times. -/
def mix (by' : Nat × Nat × Nat) (x : v.Word) : v.Word :=
  x.rotateRight by'.1 ^^^ x.rotateRight by'.2.1 ^^^ x.rotateRight by'.2.2

/-- The bytes of a word. -/
def wordBytes : Nat := v.width / 8

/-- A word from its bytes, the greatest first. -/
def ofBytes (bytes : List UInt8) : v.Word :=
  BitVec.ofNat v.width (bytes.foldl (fun n b => n * 256 + b.toNat) 0)

/-- The bytes of a word, the greatest first. -/
def toBytes (x : v.Word) : List UInt8 :=
  (List.range v.wordBytes).map fun i => UInt8.ofNat (x.toNat / Nat.pow 256 (v.wordBytes - 1 - i) % 256)

/-- Cuts bytes into pieces of the given size. -/
def chunks (size : Nat) (bytes : List UInt8) : List (List UInt8) :=
  if _h : size = 0 ∨ bytes = [] then []
  else bytes.take size :: chunks size (bytes.drop size)
termination_by bytes.length
decreasing_by
  have : bytes.length ≠ 0 := by simp_all
  simp only [List.length_drop]
  omega

/-- Extends the words of a block by one word per further round; the newest word stands first. -/
def schedule : Nat → List v.Word → List v.Word
  | 0, words => words
  | count + 1, words =>
    let word (back : Nat) : v.Word := words[back - 1]?.getD 0
    let next := v.extend v.extendNew (word 2) + word 7 + v.extend v.extendOld (word 15) + word 16
    schedule count (next :: words)

/-- One round on the eight words. -/
def round (state : List v.Word) (input : v.Word × v.Word) : List v.Word :=
  match state with
  | [a, b, c, d, e, f, g, h] =>
    let choice := (e &&& f) ^^^ (~~~e &&& g)
    let majority := (a &&& b) ^^^ (a &&& c) ^^^ (b &&& c)
    let first := h + v.mix v.mixFifth e + choice + input.1 + input.2
    let second := v.mix v.mixFirst a + majority
    [first + second, a, b, c, d + first, e, f, g]
  | state => state

/-- Works one block of sixteen words into the state. -/
def compress (state : List v.Word) (block : List UInt8) : List v.Word :=
  let words := (chunks v.wordBytes block).map v.ofBytes
  let inputs := (v.schedule (v.rounds - 16) words.reverse).reverse
  let mixed := (v.constants.zip inputs).foldl v.round state
  state.zipWith (· + ·) mixed

/-- The bytes followed by a one bit, zeros and their number of bits, in whole blocks. -/
def padded (bytes : List UInt8) : List UInt8 :=
  let block := 16 * v.wordBytes
  let lengthBytes := 2 * v.wordBytes
  let zeros := (block - (bytes.length + 1 + lengthBytes) % block) % block
  let bits := bytes.length * 8
  bytes ++ [0x80] ++ List.replicate zeros 0
    ++ (List.range lengthBytes).map fun i => UInt8.ofNat (bits / Nat.pow 256 (lengthBytes - 1 - i) % 256)

end Variant

/-- The digest of bytes. -/
def digest (v : Variant) (bytes : List UInt8) : List UInt8 :=
  let blocks := Variant.chunks (16 * v.wordBytes) (v.padded bytes)
  ((blocks.foldl v.compress v.start).flatMap v.toBytes).take v.size

/-- Bytes as pairs of hexadecimal digits. -/
def hex (bytes : List UInt8) : String :=
  String.ofList (bytes.flatMap fun b => [Nat.digitChar (b.toNat / 16), Nat.digitChar (b.toNat % 16)])

end Workflow.Text.Digest
