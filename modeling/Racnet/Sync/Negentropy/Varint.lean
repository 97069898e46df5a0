import Racnet.Sync.Error

namespace Racnet.Sync
open Lib

/-- `u64::leading_zeros`. -/
def leadingZeros (n : Nat) : Nat := if n = 0 then 64 else 64 - (n.log2 + 1)

/-- The bytes `write_varint` appends: base-128 digits, most significant first, bit eight set on
every byte except the last. -/
def writeVarint (n : Nat) : List UInt8 :=
  if n = 0 then [0]
  else
    let digits := (64 - leadingZeros n + 6) / 7
    (List.range digits).reverse.map fun i =>
      let digit := UInt8.ofNat ((n >>> (7 * i)) &&& 0x7F)
      if i = 0 then digit else digit ||| 0x80

def readVarintLoop (res : Nat) : List UInt8 → Exec SyncError (Nat × List UInt8)
  | [] => .fail (.malformed "varint ends prematurely")
  | byte :: rest =>
    if res > (2 ^ 64 - 1) >>> 7 then .fail (.malformed "varint overflows u64")
    else
      let res := (res <<< 7) ||| (byte &&& 0x7F).toNat
      if byte &&& 0x80 = 0 then .ok (res, rest) else readVarintLoop res rest

/-- Decodes a varint from the front of `input`; returns the value and the unread rest. -/
def readVarint (input : List UInt8) : Exec SyncError (Nat × List UInt8) := readVarintLoop 0 input

end Racnet.Sync
