import Splice.Raster.Picture

/-!
# Picture files

The bytes of a picture as a Portable Network Graphics file: a signature, then a chunk for the size,
a chunk for the rows and a chunk for the end. The rows are stored without compression.
-/

namespace Splice.Png

/-! ### Check values -/

/-- One bit of a cyclic redundancy check. -/
def crcBit (crc : UInt32) : UInt32 :=
  if crc &&& 1 == 1 then (crc >>> 1) ^^^ 0xEDB88320 else crc >>> 1

/-- One byte of a cyclic redundancy check. -/
def crcByte (crc : UInt32) (byte : UInt8) : UInt32 :=
  Nat.repeat crcBit 8 (crc ^^^ byte.toUInt32)

/-- The cyclic redundancy check of bytes. -/
def crc (bytes : ByteArray) : UInt32 := bytes.foldl crcByte 0xFFFFFFFF ^^^ 0xFFFFFFFF

/-- The two sums of the check that ends a stream of stored blocks. -/
def adler (bytes : ByteArray) : UInt32 :=
  let (low, high) := bytes.foldl (fun (sums : UInt32 × UInt32) byte ↦
    let low := (sums.1 + byte.toUInt32) % 65521
    (low, (sums.2 + low) % 65521)) (1, 0)
  (high <<< 16) ||| low

/-! ### Numbers and chunks -/

/-- Four bytes, the highest first. -/
def word (value : UInt32) : ByteArray :=
  ⟨#[(value >>> 24).toUInt8, (value >>> 16).toUInt8, (value >>> 8).toUInt8, value.toUInt8]⟩

/-- Two bytes, the lowest first. -/
def half (value : UInt16) : ByteArray := ⟨#[value.toUInt8, (value >>> 8).toUInt8]⟩

/-- A chunk: its length, its kind, its contents and a check of both. -/
def chunk (kind : String) (contents : ByteArray) : ByteArray :=
  let body := kind.toUTF8 ++ contents
  word contents.size.toUInt32 ++ body ++ word (crc body)

/-! ### Rows -/

/-- The most bytes that a stored block holds. -/
def blockSize : Nat := 65535

/-- Bytes as stored blocks, of which the last one is marked. -/
def storedBlocks (bytes : ByteArray) : ByteArray :=
  let count := max 1 ((bytes.size + blockSize - 1) / blockSize)
  (List.range count).foldl (fun blocks i ↦
    let part := bytes.extract (i * blockSize) ((i + 1) * blockSize)
    let size := part.size.toUInt16
    blocks.push (if i + 1 == count then 1 else 0) ++ half size ++ half (size ^^^ 0xFFFF) ++ part)
    .empty

/-- Bytes as a stream of stored blocks. -/
def stored (bytes : ByteArray) : ByteArray :=
  (⟨#[0x78, 0x01]⟩ : ByteArray) ++ storedBlocks bytes ++ word (adler bytes)

/-- The bytes of a row, after a mark that it stands as it is. -/
def rowBytes (row : Array Rgba) : ByteArray :=
  row.foldl (fun bytes (color : Rgba) ↦
    [color.red, color.green, color.blue, color.alpha].foldl (fun bytes part ↦
      bytes.push part.toUInt8) bytes) ⟨#[0]⟩

end Splice.Png

namespace Splice

/-- The bytes of a picture file. -/
def Picture.png (picture : Picture) : ByteArray :=
  let header := Png.word picture.width.toUInt32 ++ Png.word picture.height.toUInt32 ++
    ⟨#[8, 6, 0, 0, 0]⟩
  let rows := (List.range picture.height).foldl
    (fun bytes y ↦ bytes ++ Png.rowBytes (picture.row y)) .empty
  (⟨#[0x89, 0x50, 0x4E, 0x47, 0x0D, 0x0A, 0x1A, 0x0A]⟩ : ByteArray) ++
    Png.chunk "IHDR" header ++ Png.chunk "IDAT" (Png.stored rows) ++ Png.chunk "IEND" .empty

end Splice
