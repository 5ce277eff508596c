import RowAccess.Text.Digit

/-
  RowAccess/Text/Utf8.lean
  ========================
  **Reading UTF-8.**  One decoder serves two readers: the strict one names the first malformed
  sequence, the lenient one writes U+FFFD for each longest malformed start of a sequence.  The
  second byte of a sequence has bounds that depend on the lead byte, which excludes overlong forms,
  surrogates and numbers beyond U+10FFFF.
-/

namespace RowAccess.Text.Utf8

/-- What a lead byte promises: how many bytes follow, the bits it contributes and the bounds of the
second byte. -/
structure Lead where
  following : Nat
  bits : Nat
  low : Nat
  high : Nat

/-- The promise of a lead byte beyond ASCII. -/
def lead? (b : Nat) : Option Lead :=
  if 0xC2 ≤ b ∧ b ≤ 0xDF then some ⟨1, b - 0xC0, 0x80, 0xBF⟩
  else if b = 0xE0 then some ⟨2, 0, 0xA0, 0xBF⟩
  else if b = 0xED then some ⟨2, 0xD, 0x80, 0x9F⟩
  else if 0xE1 ≤ b ∧ b ≤ 0xEF then some ⟨2, b - 0xE0, 0x80, 0xBF⟩
  else if b = 0xF0 then some ⟨3, 0, 0x90, 0xBF⟩
  else if 0xF1 ≤ b ∧ b ≤ 0xF3 then some ⟨3, b - 0xF0, 0x80, 0xBF⟩
  else if b = 0xF4 then some ⟨3, 4, 0x80, 0x8F⟩
  else none

/-- Why a sequence is malformed. -/
inductive Flaw where
  | start
  | continuation
  | ended
  deriving DecidableEq, Repr

def Flaw.reason : Flaw → String
  | .start => "invalid start byte"
  | .continuation => "invalid continuation byte"
  | .ended => "unexpected end of data"

/-- One step of the decoder: a character and the bytes it takes, or a flaw and the bytes to skip. -/
inductive Step where
  | character (c : Char) (size : Nat)
  | flaw (kind : Flaw) (size : Nat)

/-- Reads the bytes that follow a lead byte; `size` bytes are taken already. -/
def follow (remaining bits low high size : Nat) (bs : List UInt8) : Step :=
  match remaining, bs with
  | 0, _ => .character (Char.ofNat bits) size
  | _ + 1, [] => .flaw .ended size
  | k + 1, b :: r =>
    let n := b.toNat
    if low ≤ n ∧ n ≤ high then follow k (bits * 64 + (n - 0x80)) 0x80 0xBF (size + 1) r
    else .flaw .continuation size

/-- The step at a byte, with the bytes after it. -/
def step (b : UInt8) (r : List UInt8) : Step :=
  let n := b.toNat
  if n < 0x80 then .character (Char.ofNat n) 1
  else match lead? n with
    | none => .flaw .start 1
    | some l => follow l.following l.bits l.low l.high 1 r

/-- Where and why strict decoding fails: the first byte, the number of bytes, the flaw and the
value of the first byte. -/
structure Malformed where
  position : Nat
  size : Nat
  kind : Flaw
  byte : Nat
  deriving DecidableEq, Repr

/-- The wording of a failed strict decoding. -/
def Malformed.message (m : Malformed) : String :=
  if m.size = 1 then
    "'utf-8' codec can't decode byte 0x" ++ paddedHex 2 m.byte ++ " in position " ++
      decimal m.position ++ ": " ++ m.kind.reason
  else
    "'utf-8' codec can't decode bytes in position " ++ decimal m.position ++ "-" ++
      decimal (m.position + m.size - 1) ++ ": " ++ m.kind.reason

/-- Strict decoding with the position of the next byte.  The fuel is the number of bytes. -/
def decodeFrom (position : Nat) : Nat → List UInt8 → Except Malformed (List Char)
  | 0, _ => .ok []
  | _, [] => .ok []
  | fuel + 1, b :: r =>
    match step b r with
    | .character c size =>
      match decodeFrom (position + size) fuel (r.drop (size - 1)) with
      | .ok cs => .ok (c :: cs)
      | .error m => .error m
    | .flaw kind size => .error ⟨position, size, kind, b.toNat⟩

def decode (bs : List UInt8) : Except Malformed (List Char) :=
  decodeFrom 0 bs.length bs

/-- Lenient decoding with fuel: every flaw becomes U+FFFD. -/
def replaceFrom : Nat → List UInt8 → List Char
  | 0, _ => []
  | _, [] => []
  | fuel + 1, b :: r =>
    match step b r with
    | .character c size => c :: replaceFrom fuel (r.drop (size - 1))
    | .flaw _ size => Char.ofNat 0xFFFD :: replaceFrom fuel (r.drop (size - 1))

/-- Lenient decoding. -/
def replacing (bs : List UInt8) : List Char :=
  replaceFrom bs.length bs

def encodeChar (c : Char) : List UInt8 :=
  let n := c.toNat
  if n < 0x80 then [n.toUInt8]
  else if n < 0x800 then [(0xC0 + n / 64).toUInt8, (0x80 + n % 64).toUInt8]
  else if n < 0x10000 then
    [(0xE0 + n / 4096).toUInt8, (0x80 + n / 64 % 64).toUInt8, (0x80 + n % 64).toUInt8]
  else
    [(0xF0 + n / 262144).toUInt8, (0x80 + n / 4096 % 64).toUInt8, (0x80 + n / 64 % 64).toUInt8,
      (0x80 + n % 64).toUInt8]

/-- The bytes of a text. -/
def encode (cs : List Char) : List UInt8 :=
  cs.flatMap encodeChar

end RowAccess.Text.Utf8
