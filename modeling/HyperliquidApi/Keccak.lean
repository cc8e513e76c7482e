import Mathlib

/-!
# Keccak-256

The sponge over Keccak-f[1600] with 32-byte digests and the original padding, which Ethereum
uses. A state is the number its 200 bytes write in little-endian order: 25 lanes of 64 bits, the
lane at `(x, y)` in place `x + 5y`.
-/
namespace HyperliquidApi.Keccak

def roundConstants : List ℕ :=
  [0x0000000000000001, 0x0000000000008082, 0x800000000000808a, 0x8000000080008000,
   0x000000000000808b, 0x0000000080000001, 0x8000000080008081, 0x8000000000008009,
   0x000000000000008a, 0x0000000000000088, 0x0000000080008009, 0x000000008000000a,
   0x000000008000808b, 0x800000000000008b, 0x8000000000008089, 0x8000000000008003,
   0x8000000000008002, 0x8000000000000080, 0x000000000000800a, 0x800000008000000a,
   0x8000000080008081, 0x8000000000008080, 0x0000000080000001, 0x8000000080008008]

def rotations : List ℕ :=
  [0, 1, 62, 28, 27, 36, 44, 6, 55, 20, 3, 10, 43, 25, 39, 41, 45, 15, 21, 8, 18, 2, 61, 56, 14]

def rotate (l n : ℕ) : ℕ := (l <<< n ||| l >>> (64 - n)) % 2^64

def lane (a x y : ℕ) : ℕ := a >>> (64*(x%5 + 5*(y%5))) % 2^64

/-- The number with these lanes. -/
def join (f : ℕ → ℕ) : ℕ → ℕ
  | 0 => 0
  | n+1 => join f n ||| f n <<< (64*n)

def lanes (f : ℕ → ℕ → ℕ) : ℕ := join (fun i => f (i%5) (i/5)) 25

def theta (a : ℕ) : ℕ :=
  let columns := join (fun x => lane a x 0 ^^^ lane a x 1 ^^^ lane a x 2 ^^^ lane a x 3 ^^^ lane a x 4) 5
  lanes fun x y => lane a x y ^^^ lane columns (x+4) 0 ^^^ rotate (lane columns (x+1) 0) 1

def rhoPi (a : ℕ) : ℕ :=
  lanes fun x y =>
    let x' := (x + 3*y)%5
    rotate (lane a x' x) (rotations.getD (x' + 5*x) 0)

def chi (a : ℕ) : ℕ :=
  lanes fun x y => lane a x y ^^^ ((2^64 - 1 - lane a (x+1) y) &&& lane a (x+2) y)

def permute (a : ℕ) : ℕ :=
  roundConstants.foldl (fun a constant => chi (rhoPi (theta a)) ^^^ constant) a

def littleEndian : List UInt8 → ℕ
  | [] => 0
  | b :: bs => b.toNat + 256 * littleEndian bs

/-- The bytes of a block. -/
def rate : ℕ := 136

def pad (bs : List UInt8) : List UInt8 :=
  match rate - bs.length % rate with
  | 0 | 1 => bs ++ [0x81]
  | n+2 => bs ++ 0x01 :: List.replicate n 0x00 ++ [0x80]

def absorb : ℕ → ℕ → List UInt8 → ℕ
  | 0, a, _ => a
  | n+1, a, bs => absorb n (permute (a ^^^ littleEndian (bs.take rate))) (bs.drop rate)

def keccak256 (data : List UInt8) : Vector UInt8 32 :=
  let padded := pad data
  let a := absorb (padded.length / rate) 0 padded
  Vector.ofFn fun i => UInt8.ofNat (a / 256^i.val)

-- The digest of the empty string.
set_option maxRecDepth 20000 in
example : (keccak256 []).toList =
    [0xc5, 0xd2, 0x46, 0x01, 0x86, 0xf7, 0x23, 0x3c, 0x92, 0x7e, 0x7d, 0xb2, 0xdc, 0xc7, 0x03, 0xc0,
     0xe5, 0x00, 0xb6, 0x53, 0xca, 0x82, 0x27, 0x3b, 0x7b, 0xfa, 0xd8, 0x04, 0x5d, 0x85, 0xa4, 0x70] := by
  decide +kernel

end HyperliquidApi.Keccak
