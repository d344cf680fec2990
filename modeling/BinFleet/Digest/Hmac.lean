import BinFleet.Digest.Sha256

namespace BinFleet.Digest.Hmac

def blockSize : Nat := 64

/-- The key filled up with zeros to a block; a longer key is replaced by its digest. -/
def blockKey (key : List UInt8) : List UInt8 :=
  let k := if blockSize < key.length then Sha256.sum key else key
  k ++ List.replicate (blockSize - k.length) 0

def sum (key message : List UInt8) : List UInt8 :=
  let k := blockKey key
  Sha256.sum (k.map (· ^^^ 0x5c) ++ Sha256.sum (k.map (· ^^^ 0x36) ++ message))

end BinFleet.Digest.Hmac
