/-!
UTF-8. Bytes are read chunk by chunk: a chunk is a character, a run of bytes that no character
starts with, or a character that the end of the bytes cuts off.
-/
namespace LabelMail.Text.Utf8

inductive Chunk where
  | char (c : Char)
  | invalid (length : Nat)
  | incomplete (length : Nat)
  deriving DecidableEq, Repr

def Chunk.length : Chunk → Nat
  | char c => c.utf8Size
  | invalid n => n
  | incomplete n => n

def isContinuation (b : UInt8) : Bool :=
  0x80 ≤ b && b ≤ 0xBF

/-- The second bytes that may follow a first byte of three or four. -/
def secondFits (a b : UInt8) : Bool :=
  if a == 0xE0 then 0xA0 ≤ b && b ≤ 0xBF
  else if a == 0xED then 0x80 ≤ b && b ≤ 0x9F
  else if a == 0xF0 then 0x90 ≤ b && b ≤ 0xBF
  else if a == 0xF4 then 0x80 ≤ b && b ≤ 0x8F
  else isContinuation b

def low (b : UInt8) : Nat := b.toNat % 64

def chunks : List UInt8 → List Chunk
  | [] => []
  | a :: r =>
    if a < 0x80 then .char (Char.ofNat a.toNat) :: chunks r
    else if 0xC2 ≤ a && a ≤ 0xDF then
      match r with
      | [] => [.incomplete 1]
      | b :: s =>
        if isContinuation b then
          .char (Char.ofNat (a.toNat % 32 * 64 + low b)) :: chunks s
        else .invalid 1 :: chunks (b :: s)
    else if 0xE0 ≤ a && a ≤ 0xEF then
      match r with
      | [] => [.incomplete 1]
      | b :: s =>
        if !secondFits a b then .invalid 1 :: chunks (b :: s)
        else match s with
          | [] => [.incomplete 2]
          | c :: t =>
            if isContinuation c then
              .char (Char.ofNat ((a.toNat % 16 * 64 + low b) * 64 + low c)) :: chunks t
            else .invalid 2 :: chunks (c :: t)
    else if 0xF0 ≤ a && a ≤ 0xF4 then
      match r with
      | [] => [.incomplete 1]
      | b :: s =>
        if !secondFits a b then .invalid 1 :: chunks (b :: s)
        else match s with
          | [] => [.incomplete 2]
          | c :: t =>
            if !isContinuation c then .invalid 2 :: chunks (c :: t)
            else match t with
              | [] => [.incomplete 3]
              | d :: u =>
                if isContinuation d then
                  .char (Char.ofNat (((a.toNat % 8 * 64 + low b) * 64 + low c) * 64 + low d))
                    :: chunks u
                else .invalid 3 :: chunks (d :: u)
    else .invalid 1 :: chunks r

structure DecodeError where
  index : Nat
  /-- The bytes that are no character; none when the bytes end too early. -/
  length : Option Nat
  deriving DecidableEq, Repr

def DecodeError.message (e : DecodeError) : String :=
  match e.length with
  | some n => s!"invalid utf-8 sequence of {n} bytes from index {e.index}"
  | none => s!"incomplete utf-8 byte sequence from index {e.index}"

def charsFrom (index : Nat) : List Chunk → Except DecodeError (List Char)
  | [] => .ok []
  | .char c :: r => (charsFrom (index + c.utf8Size) r).map (c :: ·)
  | .invalid n :: _ => .error ⟨index, some n⟩
  | .incomplete _ :: _ => .error ⟨index, none⟩

def decode (bytes : List UInt8) : Except DecodeError String :=
  (charsFrom 0 (chunks bytes)).map String.ofList

/-- Each chunk that is no character reads as the replacement character. -/
def decodeLossy (bytes : List UInt8) : String :=
  String.ofList ((chunks bytes).map fun
    | .char c => c
    | _ => Char.ofNat 0xFFFD)

def encode (s : String) : List UInt8 :=
  s.toUTF8.toList

end LabelMail.Text.Utf8
