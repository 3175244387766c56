import Broker.Decode.Handler

/-!
# Decode/Bin — the v1 binary decoder and `parse_shallow`

    bytes ──decode──▸ handler calls ──run──▸ decoder_handler_value ──▸ variant_data

`variant_data::parse_shallow` hands a `decoder_handler_value` to `format::bin::v1::decode` and
succeeds when the decoder succeeds and stops at the end of the buffer.  The decoder is not part of
the sources at hand, so it is modelled from the format of the specification (§4.A): a one-byte tag
per value, fixed-width big-endian payloads, LEB128 varint lengths and counts of at most ten bytes,
and failure on truncated input, an unknown tag, or a varint running past ten bytes.  It reports what
it reads as handler calls (`Event`s); the handlers of `Decode/Handler` build the view.

The spec also has decoders fail on a duplicate set element or table key.  That rule is not
modelled: the handler calls carry no result back to the decoder (`value` and `end_*` return
nothing), so a decoder driving these handlers would have to find duplicates on its own, and the
sources do not show whether the absent decoder does, nor under which equality.  What the handlers
do with a repeated item is modelled: `insert` and `emplace` drop it (`Decode/Handler`).
-/

namespace Broker

namespace Bin

/-- Modelled from the spec: the unsigned LEB128 varint reader of `format::bin::v1`, which is absent
from the sources.  Seven payload bits per byte, least significant first, the high bit set on every
byte but the last; with `k` bytes left to read, an unterminated varint fails. -/
def readVarbyte : Nat → List UInt8 → Option (Nat × List UInt8)
  | 0, _ => none
  | _ + 1, [] => none
  | k + 1, b :: bs =>
    if b < 0x80 then some (b.toNat, bs)
    else (readVarbyte k bs).map fun r => (b.toNat - 0x80 + 0x80 * r.1, r.2)

/-- Modelled from the spec: a varint of at most ten bytes. -/
def readVarint (bs : List UInt8) : Option (Nat × List UInt8) := readVarbyte 10 bs

/-- Modelled from the spec: `n` raw bytes. -/
def readBytes (n : Nat) (bs : List UInt8) : Option (List UInt8 × List UInt8) :=
  if n ≤ bs.length then some (bs.take n, bs.drop n) else none

/-- The unsigned number a big-endian byte string denotes. -/
def fromBigEndian (bs : List UInt8) : Nat := bs.foldl (fun acc b => 0x100 * acc + b.toNat) 0

/-- Modelled from the spec: an `n`-byte big-endian unsigned integer. -/
def readBigEndian (n : Nat) (bs : List UInt8) : Option (Nat × List UInt8) :=
  (readBytes n bs).map fun r => (fromBigEndian r.1, r.2)

/-- Modelled from the spec: a varint length, then that many raw bytes (strings, enum names). -/
def readString (bs : List UInt8) : Option (List UInt8 × List UInt8) :=
  (readVarint bs).bind fun r => readBytes r.1 r.2

/-- Modelled from the spec: an address, one family byte and sixteen bytes in IPv6 form.  The
sixteen bytes are the address; the family is implied by them. -/
def readAddress (bs : List UInt8) : Option (Address × List UInt8) :=
  if h : 17 ≤ bs.length then
    some (⟨(bs.drop 1).take 16, by simp only [List.length_take, List.length_drop]; omega⟩,
      bs.drop 17)
  else none

/-- Modelled from the spec: the protocol tag of a port; any other byte is an unknown tag. -/
def Protocol.ofNat? : Nat → Option Protocol
  | 0 => some .unknown
  | 1 => some .tcp
  | 2 => some .udp
  | 3 => some .icmp
  | _ => none

/-- Modelled from the spec: the payload of the primitive value with tag `tag` (§3 order), or
failure for a truncated payload or an unknown tag. -/
def decodeScalar (tag : Nat) (bs : List UInt8) : Option (Scalar × List UInt8) :=
  match tag with
  | 0 => some (.none, bs)
  | 1 => (readBigEndian 1 bs).map fun r => (.boolean (r.1 != 0), r.2)
  | 2 => (readBigEndian 8 bs).map fun r => (.count (UInt64.ofNat r.1), r.2)
  | 3 => (readBigEndian 8 bs).map fun r => (.integer (BitVec.ofNat 64 r.1), r.2)
  | 4 => (readBigEndian 8 bs).map fun r => (.real ⟨UInt64.ofNat r.1⟩, r.2)
  | 5 => (readString bs).map fun r => (.string r.1, r.2)
  | 6 => (readAddress bs).map fun r => (.address r.1, r.2)
  | 7 => (readAddress bs).bind fun a => (readBigEndian 1 a.2).map fun l =>
      (.subnet ⟨a.1, UInt8.ofNat l.1⟩, l.2)
  | 8 => (readBigEndian 2 bs).bind fun n => (readBigEndian 1 n.2).bind fun p =>
      (Protocol.ofNat? p.1).map fun t => (.port ⟨UInt16.ofNat n.1, t⟩, p.2)
  | 9 => (readBigEndian 8 bs).map fun r => (.timestamp (BitVec.ofNat 64 r.1), r.2)
  | 10 => (readBigEndian 8 bs).map fun r => (.timespan (BitVec.ofNat 64 r.1), r.2)
  | 11 => (readString bs).map fun r => (.enumValue r.1, r.2)
  | _ => none

/-- `n` items in a row, each read by `dec`, their calls concatenated. -/
def decodeMany (dec : List UInt8 → Option (List Event × List UInt8)) :
    Nat → List UInt8 → Option (List Event × List UInt8)
  | 0, bs => some ([], bs)
  | n + 1, bs => (dec bs).bind fun r => (decodeMany dec n r.2).map fun r' => (r.1 ++ r'.1, r'.2)

/-- A table entry: the key's calls, then the value's. -/
def decodePair (dec : List UInt8 → Option (List Event × List UInt8)) (bs : List UInt8) :
    Option (List Event × List UInt8) :=
  (dec bs).bind fun k => (dec k.2).map fun v => (k.1 ++ v.1, v.2)

/-- Modelled from the spec: **`format::bin::v1::decode`**, absent from the sources.  Reads one
value and returns the handler calls it makes and the bytes after the value: a tag byte, then the
payload, or a varint count and the elements (for a table, that many key-value pairs).  `fuel`
bounds the nesting depth; every level reads its tag byte, so the length of the buffer suffices. -/
def decode : Nat → List UInt8 → Option (List Event × List UInt8)
  | 0, _ => none
  | _ + 1, [] => none
  | fuel + 1, tag :: bs =>
    match tag.toNat with
    | 12 => (readVarint bs).bind fun n => (decodeMany (decode fuel) n.1 n.2).map fun r =>
        (.beginSet :: r.1 ++ [.endSet], r.2)
    | 13 => (readVarint bs).bind fun n => (decodeMany (decodePair (decode fuel)) n.1 n.2).map
        fun r => (.beginTable :: r.1 ++ [.endTable], r.2)
    | 14 => (readVarint bs).bind fun n => (decodeMany (decode fuel) n.1 n.2).map fun r =>
        (.beginList :: r.1 ++ [.endList], r.2)
    | t => (decodeScalar t bs).map fun r => ([.value r.1], r.2)

end Bin

namespace Value

/-- **`variant_data::parse_shallow`**: decode the buffer into a `decoder_handler_value` writing
`this`; the new value of `this` when the decoder succeeds and stops exactly at the end of the
buffer, and `none` (`false`) otherwise. -/
def parseShallow (this : VariantData) (bytes : List UInt8) : Option VariantData :=
  match Bin.decode bytes.length bytes with
  | some (events, []) =>
    match Handler.run [.value this] events with
    | some [.value v] => some v
    | _ => none
  | _ => none

end Value

end Broker
