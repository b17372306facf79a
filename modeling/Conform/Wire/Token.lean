import Conform.Binary64.Rounding

/-!
The tokens of MessagePack: scalars, and the heads of arrays and maps, whose items follow them.
-/

namespace Conform.Wire

inductive Token where
  /-- A natural number, in so many bytes after its marker. -/
  | uint (width n : Nat)
  /-- An integer with a sign of its own. -/
  | sint (n : Int)
  | nil
  | bool (b : Bool)
  | float (x : Binary64)
  | text (s : String)
  | blob (bytes : List UInt8)
  /-- An array of so many items. -/
  | array (size : Nat)
  /-- A map of so many entries, keys and values alternating. -/
  | map (size : Nat)
  | extension (kind : UInt8) (bytes : List UInt8)
  deriving DecidableEq, Repr, Inhabited

/-- The low bytes of a number, the highest first. -/
def bigEndian : Nat → Nat → List UInt8
  | 0, _ => []
  | width + 1, n => UInt8.ofNat (n >>> (8 * width)) :: bigEndian width n

/-- The number that bytes stand for, the highest first. -/
def ofBigEndian (bytes : List UInt8) : Nat :=
  bytes.foldl (fun n b => 256 * n + b.toNat) 0

/-- The integer that bytes stand for in two's complement. -/
def ofTwosComplement (bytes : List UInt8) : Int :=
  let n := ofBigEndian bytes
  let size := 1 <<< (8 * bytes.length)
  if 2 * n < size then n else (n : Int) - size

def utf8 (s : String) : List UInt8 :=
  s.toUTF8.data.toList

def ofUtf8? (bytes : List UInt8) : Option String :=
  String.fromUTF8? ⟨bytes.toArray⟩

namespace Token

/-- An integer in as few bytes as hold it; natural numbers have no sign. -/
def ofInt (n : Int) : Token :=
  match n with
  | .ofNat n =>
    uint (if n < 128 then 0 else if n < 256 then 1 else if n < 65536 then 2
      else if n < 4294967296 then 4 else 8) n
  | n => sint n

/-- The marker of a size in one of three widths, or within the marker. -/
def sizeHead (fixed limit : Nat) (one : Option UInt8) (two four : UInt8) (n : Nat) : List UInt8 :=
  if n < limit then [UInt8.ofNat (fixed + n)]
  else
    match one, decide (n < 256) with
    | some marker, true => marker :: bigEndian 1 n
    | _, _ => if n < 65536 then two :: bigEndian 2 n else four :: bigEndian 4 n

/-- A negative integer in as few bytes as hold it. -/
def signedBytes (n : Int) : List UInt8 :=
  if -32 ≤ n then [UInt8.ofNat (256 + n).toNat]
  else if -128 ≤ n then 0xd0 :: bigEndian 1 (256 + n).toNat
  else if -32768 ≤ n then 0xd1 :: bigEndian 2 (65536 + n).toNat
  else if -2147483648 ≤ n then 0xd2 :: bigEndian 4 (4294967296 + n).toNat
  else 0xd3 :: bigEndian 8 (18446744073709551616 + n).toNat

def bytes : Token → List UInt8
  | uint 0 n => [UInt8.ofNat n]
  | uint 1 n => 0xcc :: bigEndian 1 n
  | uint 2 n => 0xcd :: bigEndian 2 n
  | uint 4 n => 0xce :: bigEndian 4 n
  | uint _ n => 0xcf :: bigEndian 8 n
  | sint n => signedBytes n
  | nil => [0xc0]
  | bool b => [if b then 0xc3 else 0xc2]
  | float x => 0xcb :: bigEndian 8 x.bits.toNat
  | text s =>
    let content := utf8 s
    sizeHead 0xa0 32 (some 0xd9) 0xda 0xdb content.length ++ content
  | blob content => sizeHead 0 0 (some 0xc4) 0xc5 0xc6 content.length ++ content
  | array size => sizeHead 0x90 16 none 0xdc 0xdd size
  | map size => sizeHead 0x80 16 none 0xde 0xdf size
  | extension kind content =>
    sizeHead 0 0 (some 0xc7) 0xc8 0xc9 content.length ++ kind :: content

/-- A reader takes something from the start of some bytes. -/
abbrev Reader (α : Type) := List UInt8 → Option (α × List UInt8)

def take (count : Nat) : Reader (List UInt8) := fun bytes =>
  let taken := bytes.take count
  if taken.length = count then some (taken, bytes.drop count) else none

def fixed (width : Nat) (make : List UInt8 → Token) : Reader Token := fun bytes =>
  (take width bytes).map fun (taken, rest) => (make taken, rest)

def sized (width : Nat) (make : Nat → Token) : Reader Token :=
  fixed width fun taken => make (ofBigEndian taken)

/-- A token made of as many bytes as a size in so many bytes says. -/
def counted (width : Nat) (make : List UInt8 → Token) : Reader Token := fun bytes => do
  let (size, rest) ← take width bytes
  fixed (ofBigEndian size) make rest

/-- Bytes that are meant as text but are none remain bytes. -/
def textOrBlob (content : List UInt8) : Token :=
  match ofUtf8? content with
  | some s => text s
  | none => blob content

/-- The extension of its kind and bytes. -/
def ofKind : List UInt8 → Token
  | kind :: content => extension kind content
  | [] => extension 0 []

/-- An extension; the byte of its kind is not counted in its size. -/
def countedExtension (width : Nat) : Reader Token := fun bytes => do
  let (size, rest) ← take width bytes
  fixed (ofBigEndian size + 1) ofKind rest

def ofBinary32Bytes (taken : List UInt8) : Token :=
  float (Binary64.ofBinary32 (UInt32.ofNat (ofBigEndian taken)))

def ofBinary64Bytes (taken : List UInt8) : Token :=
  float ⟨UInt64.ofNat (ofBigEndian taken)⟩

/-- The token after a marker that holds no number itself. One marker has no meaning. -/
def readMarked (marker : Nat) : Reader Token :=
  match marker with
  | 0xc0 => fun rest => some (nil, rest)
  | 0xc2 => fun rest => some (bool false, rest)
  | 0xc3 => fun rest => some (bool true, rest)
  | 0xc4 => counted 1 blob
  | 0xc5 => counted 2 blob
  | 0xc6 => counted 4 blob
  | 0xc7 => countedExtension 1
  | 0xc8 => countedExtension 2
  | 0xc9 => countedExtension 4
  | 0xca => fixed 4 ofBinary32Bytes
  | 0xcb => fixed 8 ofBinary64Bytes
  | 0xcc => sized 1 (uint 1)
  | 0xcd => sized 2 (uint 2)
  | 0xce => sized 4 (uint 4)
  | 0xcf => sized 8 (uint 8)
  | 0xd0 => fixed 1 fun taken => sint (ofTwosComplement taken)
  | 0xd1 => fixed 2 fun taken => sint (ofTwosComplement taken)
  | 0xd2 => fixed 4 fun taken => sint (ofTwosComplement taken)
  | 0xd3 => fixed 8 fun taken => sint (ofTwosComplement taken)
  | 0xd4 => fixed 2 ofKind
  | 0xd5 => fixed 3 ofKind
  | 0xd6 => fixed 5 ofKind
  | 0xd7 => fixed 9 ofKind
  | 0xd8 => fixed 17 ofKind
  | 0xd9 => counted 1 textOrBlob
  | 0xda => counted 2 textOrBlob
  | 0xdb => counted 4 textOrBlob
  | 0xdc => sized 2 array
  | 0xdd => sized 4 array
  | 0xde => sized 2 map
  | 0xdf => sized 4 map
  | _ => fun _ => none

def read? : Reader Token
  | [] => none
  | marker :: rest =>
    let marker := marker.toNat
    if marker < 0x80 then some (uint 0 marker, rest)
    else if marker < 0x90 then some (map (marker - 0x80), rest)
    else if marker < 0xa0 then some (array (marker - 0x90), rest)
    else if marker < 0xc0 then fixed (marker - 0xa0) textOrBlob rest
    else if marker < 0xe0 then readMarked marker rest
    else some (sint ((marker : Int) - 256), rest)

/-- The tokens of some bytes, up to the first place where there is none; at most `fuel` of them. -/
def readAll : Nat → List UInt8 → List Token
  | 0, _ => []
  | fuel + 1, bytes =>
    match read? bytes with
    | some (token, rest) => token :: readAll fuel rest
    | none => []

end Token

def tokens (bytes : List UInt8) : List Token :=
  Token.readAll bytes.length bytes

def bytes (tokens : List Token) : List UInt8 :=
  tokens.flatMap Token.bytes

end Conform.Wire
