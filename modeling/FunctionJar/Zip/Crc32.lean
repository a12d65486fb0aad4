import FunctionJar.Text.Utf8

namespace FunctionJar.Crc32

open Text (Bytes)

def polynomial : UInt32 := 0xEDB88320

def bit (crc : UInt32) : UInt32 :=
  if crc &&& 1 = 1 then (crc >>> 1) ^^^ polynomial else crc >>> 1

def byte (crc : UInt32) (b : UInt8) : UInt32 := Nat.repeat bit 8 (crc ^^^ b.toUInt32)

def checksum (bytes : Bytes) : UInt32 := bytes.foldl byte 0xFFFFFFFF ^^^ 0xFFFFFFFF

end FunctionJar.Crc32
