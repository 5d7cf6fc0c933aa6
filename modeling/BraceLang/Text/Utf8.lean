/-!
# UTF-8

Decoding stops at the first bytes that begin no character. A sequence is refused at its first byte
that cannot continue it, so an overlong form, a surrogate or a code point beyond the last one is
refused behind its first byte.
-/

namespace BraceLang.Text

/-- Why bytes are no text. -/
inductive Utf8Fault where
  | invalidStart
  | invalidContinuation
  | unexpectedEnd
  deriving DecidableEq, Repr

/-- The wording of a fault. -/
def Utf8Fault.description : Utf8Fault → String
  | .invalidStart => "invalid start byte"
  | .invalidContinuation => "invalid continuation byte"
  | .unexpectedEnd => "unexpected end of data"

/-- A fault of the `length` bytes at `position`, of which the first is `byte`. -/
structure Utf8Error where
  fault : Utf8Fault
  position : Nat
  length : Nat
  byte : Nat
  deriving DecidableEq, Repr

/-- The wording of an error. -/
def Utf8Error.message (error : Utf8Error) : String :=
  let place :=
    if error.length = 1 then
      "byte 0x" ++ String.ofList [Nat.digitChar (error.byte / 16), Nat.digitChar (error.byte % 16)]
        ++ s!" in position {error.position}"
    else s!"bytes in position {error.position}-{error.position + error.length - 1}"
  "'utf-8' codec can't decode " ++ place ++ ": " ++ error.fault.description

/-- What a first byte asks for: the bits it gives, the least and greatest second byte, and the
number of bytes behind it. -/
def leadOf (byte : Nat) : Option (Nat × Nat × Nat × Nat) :=
  if byte < 0xC2 then none
  else if byte < 0xE0 then some (byte - 0xC0, 0x80, 0xBF, 1)
  else if byte = 0xE0 then some (0, 0xA0, 0xBF, 2)
  else if byte = 0xED then some (0xD, 0x80, 0x9F, 2)
  else if byte < 0xF0 then some (byte - 0xE0, 0x80, 0xBF, 2)
  else if byte = 0xF0 then some (0, 0x90, 0xBF, 3)
  else if byte < 0xF4 then some (byte - 0xF0, 0x80, 0xBF, 3)
  else if byte = 0xF4 then some (4, 0x80, 0x8F, 3)
  else none

/-- Reads so many continuation bytes, the first of them between two bounds, after `seen` bytes. -/
def continued (bits low high seen : Nat) :
    Nat → List Nat → Except (Utf8Fault × Nat) (Nat × List Nat)
  | 0, rest => .ok (bits, rest)
  | _ + 1, [] => .error (.unexpectedEnd, seen)
  | count + 1, byte :: rest =>
    if low ≤ byte ∧ byte ≤ high then
      continued (64 * bits + (byte - 0x80)) 0x80 0xBF (seen + 1) count rest
    else .error (.invalidContinuation, seen)

/-- Decodes at most so many characters, of which the first is at a position. -/
def decodeFrom : Nat → Nat → List Nat → Except Utf8Error (List Char)
  | _, _, [] => .ok []
  | 0, _, _ :: _ => .ok []
  | count + 1, position, byte :: rest =>
    if byte < 0x80 then
      (decodeFrom count (position + 1) rest).map (Char.ofNat byte :: ·)
    else match leadOf byte with
      | none => .error ⟨.invalidStart, position, 1, byte⟩
      | some (bits, low, high, more) =>
        match continued bits low high 1 more rest with
        | .ok (code, after) =>
          (decodeFrom count (position + 1 + more) after).map (Char.ofNat code :: ·)
        | .error (fault, length) => .error ⟨fault, position, length, byte⟩

/-- The text of some bytes. -/
def decodeUtf8 (bytes : List Nat) : Except Utf8Error (List Char) :=
  decodeFrom bytes.length 0 bytes

/-- A text with every line ending written as a line feed. -/
def withLineFeeds : List Char → List Char
  | [] => []
  | '\r' :: '\n' :: rest => '\n' :: withLineFeeds rest
  | '\r' :: rest => '\n' :: withLineFeeds rest
  | c :: rest => c :: withLineFeeds rest

end BraceLang.Text
