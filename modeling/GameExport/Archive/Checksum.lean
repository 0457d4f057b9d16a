import GameExport.Bytes

/-! # Checksums

The 32-bit cyclic redundancy check of archives: bytes are divided, bit by bit with the lowest
first, by a fixed polynomial.
-/

namespace GameExport.Archive

def polynomial : UInt32 := 0xEDB88320

def divideBit (remainder : UInt32) : UInt32 :=
  if remainder &&& 1 = 1 then (remainder >>> 1) ^^^ polynomial else remainder >>> 1

def divideByte (remainder : UInt32) (byte : UInt8) : UInt32 :=
  let start := remainder ^^^ byte.toUInt32
  divideBit (divideBit (divideBit (divideBit (divideBit (divideBit (divideBit
    (divideBit start)))))))

def checksum (bytes : Bytes) : UInt32 :=
  (bytes.foldl divideByte 0xFFFFFFFF) ^^^ 0xFFFFFFFF

example : checksum (Bytes.ofText "123456789") = 0xCBF43926 := by decide +kernel

end GameExport.Archive
