import SignedHttp.Text.Utf8

/-!
# SignedHttp.Digest

The hash function SHA-256, plain and keyed. The message is padded to whole blocks of 64 bytes; each
block extends to a schedule of 64 words, and 64 rounds mix the schedule into a state of eight words.
The digest is the state written out, so it always has 32 bytes (`length_digest`).

`Hmac.sha256` is hashing with a key. The key is brought to the block size of 64 bytes, by hashing if
it is longer and by zeros if it is shorter, and enters an inner and an outer hash under two masks.
-/

namespace SignedHttp
namespace Sha256

/-- The eight words that a hash computation works on. -/
structure State where
  a : UInt32
  b : UInt32
  c : UInt32
  d : UInt32
  e : UInt32
  f : UInt32
  g : UInt32
  h : UInt32
deriving DecidableEq, Repr

/-- The state before the first block: fractional parts of the square roots of eight primes. -/
def initial : State :=
  ⟨0x6A09E667, 0xBB67AE85, 0x3C6EF372, 0xA54FF53A, 0x510E527F, 0x9B05688C, 0x1F83D9AB, 0x5BE0CD19⟩

/-- One word for each round: fractional parts of the cube roots of the first 64 primes. -/
def roundWords : List UInt32 := [
  0x428A2F98, 0x71374491, 0xB5C0FBCF, 0xE9B5DBA5, 0x3956C25B, 0x59F111F1, 0x923F82A4, 0xAB1C5ED5,
  0xD807AA98, 0x12835B01, 0x243185BE, 0x550C7DC3, 0x72BE5D74, 0x80DEB1FE, 0x9BDC06A7, 0xC19BF174,
  0xE49B69C1, 0xEFBE4786, 0x0FC19DC6, 0x240CA1CC, 0x2DE92C6F, 0x4A7484AA, 0x5CB0A9DC, 0x76F988DA,
  0x983E5152, 0xA831C66D, 0xB00327C8, 0xBF597FC7, 0xC6E00BF3, 0xD5A79147, 0x06CA6351, 0x14292967,
  0x27B70A85, 0x2E1B2138, 0x4D2C6DFC, 0x53380D13, 0x650A7354, 0x766A0ABB, 0x81C2C92E, 0x92722C85,
  0xA2BFE8A1, 0xA81A664B, 0xC24B8B70, 0xC76C51A3, 0xD192E819, 0xD6990624, 0xF40E3585, 0x106AA070,
  0x19A4C116, 0x1E376C08, 0x2748774C, 0x34B0BCB5, 0x391C0CB3, 0x4ED8AA4A, 0x5B9CCA4F, 0x682E6FF3,
  0x748F82EE, 0x78A5636F, 0x84C87814, 0x8CC70208, 0x90BEFFFA, 0xA4506CEB, 0xBEF9A3F7, 0xC67178F2]

/-- A word turned to the right by some bits. -/
def turn (x n : UInt32) : UInt32 := (x >>> n) ||| (x <<< (32 - n))

/-- The four bytes of a word, highest first. -/
def wordBytes (w : UInt32) : Bytes :=
  [(w >>> 24).toUInt8, (w >>> 16).toUInt8, (w >>> 8).toUInt8, w.toUInt8]

/-- The words that bytes make up, four by four. -/
def words : Bytes → List UInt32
  | a :: b :: c :: d :: rest =>
    ((a.toUInt32 <<< 24) ||| (b.toUInt32 <<< 16) ||| (c.toUInt32 <<< 8) ||| d.toUInt32) ::
      words rest
  | _ => []

/-- The next word of a schedule, whose words so far are given latest first. -/
def nextWord (latest : List UInt32) : UInt32 :=
  let x := latest.getD 1 0
  let y := latest.getD 14 0
  (turn x 17 ^^^ turn x 19 ^^^ (x >>> 10)) + latest.getD 6 0 +
    (turn y 7 ^^^ turn y 18 ^^^ (y >>> 3)) + latest.getD 15 0

/-- A schedule, latest word first, with some more words. -/
def extend : Nat → List UInt32 → List UInt32
  | 0, latest => latest
  | n + 1, latest => extend n (nextWord latest :: latest)

/-- The 64 words that a block of 16 extends to. -/
def schedule (block : List UInt32) : List UInt32 := (extend 48 block.reverse).reverse

/-- One round, with the word of the round and the word of the schedule. -/
def round (s : State) (k w : UInt32) : State :=
  let choice := (s.e &&& s.f) ^^^ (~~~s.e &&& s.g)
  let majority := (s.a &&& s.b) ^^^ (s.a &&& s.c) ^^^ (s.b &&& s.c)
  let t := s.h + (turn s.e 6 ^^^ turn s.e 11 ^^^ turn s.e 25) + choice + k + w
  let u := (turn s.a 2 ^^^ turn s.a 13 ^^^ turn s.a 22) + majority
  ⟨t + u, s.a, s.b, s.c, s.d + t, s.e, s.f, s.g⟩

def State.add (s t : State) : State :=
  ⟨s.a + t.a, s.b + t.b, s.c + t.c, s.d + t.d, s.e + t.e, s.f + t.f, s.g + t.g, s.h + t.h⟩

/-- The state after a block of 16 words. -/
def compress (s : State) (block : List UInt32) : State :=
  s.add ((roundWords.zip (schedule block)).foldl (fun t (k, w) => round t k w) s)

/-- The bytes of a number in eight places, highest first. -/
def lengthBytes (n : Nat) : Bytes :=
  wordBytes (UInt32.ofNat (n / 4294967296)) ++ wordBytes (UInt32.ofNat n)

/-- What is put after a message of `n` bytes: a mark, zeros, and the length in bits. -/
def padding (n : Nat) : Bytes :=
  0x80 :: List.replicate ((119 - n % 64) % 64) 0 ++ lengthBytes (8 * n)

/-- The state after so many blocks of 16 words. -/
def run : Nat → State → List UInt32 → State
  | 0, s, _ => s
  | n + 1, s, ws => run n (compress s (ws.take 16)) (ws.drop 16)

def State.bytes (s : State) : Bytes :=
  [s.a, s.b, s.c, s.d, s.e, s.f, s.g, s.h].flatMap wordBytes

/-- The hash of a message. -/
def digest (message : Bytes) : Bytes :=
  let padded := message ++ padding message.length
  (run (padded.length / 64) initial (words padded)).bytes

theorem length_digest (message : Bytes) : (digest message).length = 32 := rfl

end Sha256

namespace Hmac

/-- The key in exactly one block. -/
def blockKey (key : Bytes) : Bytes :=
  let short := if key.length ≤ 64 then key else Sha256.digest key
  short ++ List.replicate (64 - short.length) 0

def masked (mask : UInt8) (key : Bytes) : Bytes := (blockKey key).map (· ^^^ mask)

def sha256 (key message : Bytes) : Bytes :=
  Sha256.digest (masked 0x5C key ++ Sha256.digest (masked 0x36 key ++ message))

theorem length_sha256 (key message : Bytes) : (sha256 key message).length = 32 :=
  Sha256.length_digest _

end Hmac
end SignedHttp
