import ValueClass.Text.Quoted

/-!
# Text as bytes

File names and file contents are bytes, which need not be UTF-8.

* `utf8` and `ofUtf8?` go between text and bytes; the second fails where the bytes are not UTF-8.
* `slice?` takes a part out of a text by offsets in its bytes.
* `chunks` reads any bytes: as characters where it can, else as runs of stray bytes. A run is the
  longest start of a character that the next byte does not continue.
* `lossy` and `quoteBytes` show any bytes as text.
-/

namespace ValueClass.Text

/-- The UTF-8 form of a text. -/
def utf8 (text : String) : List UInt8 :=
  text.toByteArray.data.toList

/-- The text of which the bytes are the UTF-8 form. -/
def ofUtf8? (bytes : List UInt8) : Option String :=
  String.fromUTF8? ⟨⟨bytes⟩⟩

theorem ofUtf8?_utf8 (text : String) : ofUtf8? (utf8 text) = some text := by
  have h : (⟨⟨utf8 text⟩⟩ : ByteArray) = text.toByteArray := rfl
  simp [ofUtf8?, h, String.fromUTF8?, String.fromUTF8, text.isValidUTF8]

/-- The part of a text from one offset in bytes to another. None if they are out of order, or one is
inside a character or beyond the end. -/
def slice? (text : String) (start stop : Nat) : Option String :=
  if h : String.Pos.Raw.IsValid text ⟨start⟩ ∧ String.Pos.Raw.IsValid text ⟨stop⟩ ∧
      start ≤ stop then
    some (text.extract ⟨⟨start⟩, h.1⟩ ⟨⟨stop⟩, h.2.1⟩)
  else none

/-- A character, or bytes that belong to none. -/
inductive Chunk where
  | char (c : Char)
  | stray (bytes : List UInt8)
  deriving DecidableEq, Repr

/-- The beginning of a character: its bytes so far and, for each byte that must follow, the least
and the greatest one allowed. -/
structure Beginning where
  bytes : List UInt8
  awaited : List (UInt8 × UInt8)
  deriving DecidableEq, Repr

/-- Between two characters. -/
def Beginning.none : Beginning :=
  ⟨[], []⟩

/-- The bytes that must follow the first byte of a character of several bytes. Empty for a byte
that starts none. -/
def awaitedAfter (first : UInt8) : List (UInt8 × UInt8) :=
  let tail : UInt8 × UInt8 := (0x80, 0xbf)
  if 0xc2 ≤ first && first ≤ 0xdf then [tail]
  else if first = 0xe0 then [(0xa0, 0xbf), tail]
  else if first = 0xed then [(0x80, 0x9f), tail]
  else if 0xe1 ≤ first && first ≤ 0xef then [tail, tail]
  else if first = 0xf0 then [(0x90, 0xbf), tail, tail]
  else if 0xf1 ≤ first && first ≤ 0xf3 then [tail, tail, tail]
  else if first = 0xf4 then [(0x80, 0x8f), tail, tail]
  else []

/-- The character of a complete sequence of two to four bytes. -/
def charOfBytes : List UInt8 → Char
  | [a, b] => Char.ofNat (a.toNat % 32 * 64 + b.toNat % 64)
  | [a, b, c] => Char.ofNat (a.toNat % 16 * 4096 + b.toNat % 64 * 64 + c.toNat % 64)
  | [a, b, c, d] =>
    Char.ofNat (a.toNat % 8 * 262144 + b.toNat % 64 * 4096 + c.toNat % 64 * 64 + d.toNat % 64)
  | _ => '\ufffd'

/-- Reads a byte where a character may start. -/
def Beginning.start (b : UInt8) : List Chunk × Beginning :=
  if b < 0x80 then ([.char (Char.ofNat b.toNat)], .none)
  else
    match awaitedAfter b with
    | [] => ([.stray [b]], .none)
    | awaited => ([], ⟨[b], awaited⟩)

/-- Reads one byte more: what is complete now, and the character that has begun. -/
def Beginning.feed (state : Beginning) (b : UInt8) : List Chunk × Beginning :=
  match state.awaited with
  | [] => Beginning.start b
  | (least, greatest) :: more =>
    if least ≤ b && b ≤ greatest then
      if more.isEmpty then ([.char (charOfBytes (state.bytes ++ [b]))], .none)
      else ([], ⟨state.bytes ++ [b], more⟩)
    else
      let (complete, next) := Beginning.start b
      (.stray state.bytes :: complete, next)

/-- Reads the bytes after the beginning of a character. -/
def chunksFrom (state : Beginning) : List UInt8 → List Chunk
  | [] => if state.bytes.isEmpty then [] else [.stray state.bytes]
  | b :: rest =>
    let (complete, next) := state.feed b
    complete ++ chunksFrom next rest

/-- The characters and runs of stray bytes that the bytes consist of. -/
def chunks (bytes : List UInt8) : List Chunk :=
  chunksFrom .none bytes

/-- The bytes as text, with U+FFFD for each run of stray bytes. -/
def lossy (bytes : List UInt8) : String :=
  String.ofList <| (chunks bytes).map fun
    | .char c => c
    | .stray _ => '\ufffd'

/-- A backslash, the letter `x` and the byte as two hexadecimal digits in upper case. -/
def byteEscape (b : UInt8) : List Char :=
  let digit (n : Nat) : Char := if n < 10 then Char.ofNat (48 + n) else Char.ofNat (55 + n)
  ['\\', 'x', digit (b.toNat / 16), digit (b.toNat % 16)]

/-- The bytes between double quotes, characters as in quoted text and stray bytes by their value. -/
def quoteBytes (bytes : List UInt8) : String :=
  let inner := (chunks bytes).flatMap fun
    | .char c => escape c
    | .stray run => run.flatMap byteEscape
  String.ofList ('"' :: inner ++ ['"'])

end ValueClass.Text
