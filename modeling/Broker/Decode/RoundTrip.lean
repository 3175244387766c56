import Broker.Decode.Bin
import Mathlib.Algebra.Group.Nat.Basic

/-!
# Decode/RoundTrip — the v1 encoder, and `parse_shallow` inverts it

    d : data ──encode──▸ bytes ──decode──▸ handlerCalls d ──run──▸ d read as a view

The encoder of `format::bin::v1`, like the decoder, is not part of the sources at hand; it is
modelled from the format of the specification (§4.A): a tag byte, then big-endian fixed-width
payloads, varint lengths and counts, and containers' elements in stored order.

* `decode_encode` — the decoder reads back, from the encoding of any owning value whose lengths fit
  a varint, exactly the handler calls of that value, and stops where the encoding ends;
* `parseShallow_encode` — **`parse_shallow` of the encoding of a well-formed owning value `d`
  yields `d` as a view, and `to_data` of the view is `d`**; trailing bytes make it fail.
-/

namespace Broker

/-! ## Bytes -/

theorem UInt8.ofNat_toNat (x : UInt8) : UInt8.ofNat x.toNat = x :=
  UInt8.eq_of_toBitVec_eq (BitVec.eq_of_toNat_eq (Nat.mod_eq_of_lt x.toBitVec.isLt))

theorem UInt16.ofNat_toNat (x : UInt16) : UInt16.ofNat x.toNat = x :=
  UInt16.eq_of_toBitVec_eq (BitVec.eq_of_toNat_eq (Nat.mod_eq_of_lt x.toBitVec.isLt))

theorem UInt64.ofNat_toNat (x : UInt64) : UInt64.ofNat x.toNat = x :=
  UInt64.eq_of_toBitVec_eq (BitVec.eq_of_toNat_eq (Nat.mod_eq_of_lt x.toBitVec.isLt))

namespace Bin

/-! ## Varints -/

/-- The counts and lengths a ten-byte varint can carry: `0x80 ^ 10`. -/
def varintLimit : Nat := 0x400000000000000000

/-- Modelled from the spec: the LEB128 writer, in at most `k` bytes. -/
def writeVarbyte : Nat → Nat → List UInt8
  | 0, _ => []
  | k + 1, n =>
    if n < 0x80 then [n.toUInt8] else (n % 0x80 + 0x80).toUInt8 :: writeVarbyte k (n / 0x80)

/-- Modelled from the spec: a count or a length as a varint. -/
def writeVarint (n : Nat) : List UInt8 := writeVarbyte 10 n

/-- A number below `0x80` is written, and read back, as one byte. -/
theorem readVarbyte_writeVarbyte_small (k n : Nat) (hn : n < 0x80) (rest : List UInt8) :
    readVarbyte (k + 1) (writeVarbyte (k + 1) n ++ rest) = some (n, rest) := by
  have hb : n.toUInt8 < 0x80 := show n % 0x100 < 0x80 by omega
  simp only [writeVarbyte, if_pos hn, List.singleton_append, readVarbyte, if_pos hb]
  show some (n % 0x100, rest) = _
  rw [Nat.mod_eq_of_lt (by omega)]

theorem readVarbyte_writeVarbyte (rest : List UInt8) : ∀ k n, n < 0x80 ^ (k + 1) →
    readVarbyte (k + 1) (writeVarbyte (k + 1) n ++ rest) = some (n, rest)
  | 0, n, h => readVarbyte_writeVarbyte_small 0 n (by simpa using h) rest
  | k + 1, n, h => by
    by_cases hn : n < 0x80
    · exact readVarbyte_writeVarbyte_small _ n hn rest
    have hb : ¬(n % 0x80 + 0x80).toUInt8 < 0x80 :=
      show ¬(n % 0x80 + 0x80) % 0x100 < 0x80 by omega
    have hq : n / 0x80 < 0x80 ^ (k + 1) := by
      rw [Nat.div_lt_iff_lt_mul (by decide), ← Nat.pow_succ]; exact h
    rw [writeVarbyte, if_neg hn, List.cons_append, readVarbyte, if_neg hb,
      readVarbyte_writeVarbyte rest k _ hq]
    show some ((n % 0x80 + 0x80) % 0x100 - 0x80 + 0x80 * (n / 0x80), rest) = _
    congr 2
    omega

theorem readVarint_writeVarint (n : Nat) (h : n < varintLimit) (rest : List UInt8) :
    readVarint (writeVarint n ++ rest) = some (n, rest) :=
  readVarbyte_writeVarbyte rest 9 n h

/-! ## Fixed-width payloads and strings -/

/-- Modelled from the spec: `n` as `k` big-endian bytes. -/
def toBigEndian : Nat → Nat → List UInt8
  | 0, _ => []
  | k + 1, n => toBigEndian k (n / 0x100) ++ [n.toUInt8]

@[simp] theorem length_toBigEndian : ∀ k n, (toBigEndian k n).length = k
  | 0, _ => rfl
  | k + 1, n => by simp [toBigEndian, length_toBigEndian k]

theorem fromBigEndian_toBigEndian : ∀ k n, n < 0x100 ^ k → fromBigEndian (toBigEndian k n) = n
  | 0, n, h => by simp at h; simp [h, toBigEndian, fromBigEndian]
  | k + 1, n, h => by
    have hq : n / 0x100 < 0x100 ^ k := by
      rw [Nat.div_lt_iff_lt_mul (by decide), ← Nat.pow_succ]; exact h
    rw [toBigEndian, fromBigEndian, List.foldl_append, ← fromBigEndian,
      fromBigEndian_toBigEndian k _ hq]
    show 0x100 * (n / 0x100) + n % 0x100 = n
    omega

theorem readBytes_append (bs rest : List UInt8) :
    readBytes bs.length (bs ++ rest) = some (bs, rest) := by
  simp [readBytes]

theorem readBigEndian_toBigEndian (k n : Nat) (h : n < 0x100 ^ k) (rest : List UInt8) :
    readBigEndian k (toBigEndian k n ++ rest) = some (n, rest) := by
  have := readBytes_append (toBigEndian k n) rest
  rw [length_toBigEndian] at this
  simp [readBigEndian, this, fromBigEndian_toBigEndian k n h]

theorem readBigEndian_one (b : UInt8) (rest : List UInt8) :
    readBigEndian 1 (b :: rest) = some (b.toNat, rest) := by
  simp [readBigEndian, readBytes, fromBigEndian]

theorem readString_append (s rest : List UInt8) (h : s.length < varintLimit) :
    readString (writeVarint s.length ++ s ++ rest) = some (s, rest) := by
  simp [readString, readVarint_writeVarint _ h, readBytes_append]

end Bin

/-! ## Primitive values -/

/-- Modelled from the spec: the family byte of an address, `0` for an IPv4 address (stored
IPv4-in-IPv6) and `1` for IPv6. -/
def Address.family (a : Address) : UInt8 :=
  if a.bytes.take 12 = [0, 0, 0, 0, 0, 0, 0, 0, 0, 0, 0xff, 0xff] then 0 else 1

theorem Bin.readAddress_append (a : Address) (rest : List UInt8) :
    Bin.readAddress (a.family :: (a.bytes ++ rest)) = some (a, rest) := by
  have h16 := a.length_bytes
  rw [Bin.readAddress, dif_pos (by simp [h16])]
  congr
  · simp [List.take_left' h16]
  · simp [List.drop_left' h16]

theorem Protocol.ofNat?_toNat (p : Protocol) :
    Bin.Protocol.ofNat? p.toNat.toUInt8.toNat = some p := by
  cases p <;> rfl

namespace Scalar

/-- Modelled from the spec: the payload of a primitive value, after its tag byte. -/
def encode : Scalar → List UInt8
  | none => []
  | boolean b => [if b then 1 else 0]
  | count n => Bin.toBigEndian 8 n.toNat
  | integer i => Bin.toBigEndian 8 i.toNat
  | real x => Bin.toBigEndian 8 x.bits.toNat
  | string s => Bin.writeVarint s.length ++ s
  | address a => a.family :: a.bytes
  | subnet s => s.network.family :: s.network.bytes ++ [s.length]
  | port p => Bin.toBigEndian 2 p.number.toNat ++ [p.type.toNat.toUInt8]
  | timestamp t => Bin.toBigEndian 8 t.toNat
  | timespan t => Bin.toBigEndian 8 t.toNat
  | enumValue n => Bin.writeVarint n.length ++ n

/-- A string or an enum name is short enough for its varint length. -/
def encodable : Scalar → Bool
  | string s | enumValue s => decide (s.length < Bin.varintLimit)
  | _ => true

theorem decodeScalar_encode (a : Scalar) (ha : a.encodable) (rest : List UInt8) :
    Bin.decodeScalar a.index (a.encode ++ rest) = some (a, rest) := by
  have h64 (x : Nat) (hx : x < 0x100 ^ 8) :
      Bin.readBigEndian 8 (Bin.toBigEndian 8 x ++ rest) = some (x, rest) :=
    Bin.readBigEndian_toBigEndian 8 x hx rest
  cases a with
  | none => rfl
  | boolean b => cases b <;> simp [index, encode, Bin.decodeScalar, Bin.readBigEndian_one]
  | count n =>
    simp [index, encode, Bin.decodeScalar, h64 n.toNat n.toBitVec.isLt, UInt64.ofNat_toNat]
  | integer i => simp [index, encode, Bin.decodeScalar, h64 _ i.isLt]
  | real x =>
    simp [index, encode, Bin.decodeScalar, h64 x.bits.toNat x.bits.toBitVec.isLt,
      UInt64.ofNat_toNat]
  | string s =>
    simpa [index, encode, Bin.decodeScalar] using
      Bin.readString_append s rest (by simpa [encodable] using ha)
  | address a => simp [index, encode, Bin.decodeScalar, Bin.readAddress_append]
  | subnet s =>
    simp [index, encode, Bin.decodeScalar, Bin.readAddress_append, Bin.readBigEndian_one,
      UInt8.ofNat_toNat]
  | port p =>
    simp [index, encode, Bin.decodeScalar, Bin.readBigEndian_one, UInt16.ofNat_toNat,
      Bin.readBigEndian_toBigEndian 2 p.number.toNat p.number.toBitVec.isLt, Protocol.ofNat?_toNat]
  | timestamp t => simp [index, encode, Bin.decodeScalar, h64 _ t.isLt]
  | timespan t => simp [index, encode, Bin.decodeScalar, h64 _ t.isLt]
  | enumValue s =>
    simpa [index, encode, Bin.decodeScalar] using
      Bin.readString_append s rest (by simpa [encodable] using ha)

end Scalar

/-! ## Values -/

namespace Bin

open Value

theorem decode_set (f : Nat) (bs : List UInt8) :
    decode (f + 1) (12 :: bs) = (readVarint bs).bind fun n =>
      (decodeMany (decode f) n.1 n.2).map fun r => (.beginSet :: r.1 ++ [.endSet], r.2) := rfl

theorem decode_table (f : Nat) (bs : List UInt8) :
    decode (f + 1) (13 :: bs) = (readVarint bs).bind fun n =>
      (decodeMany (decodePair (decode f)) n.1 n.2).map fun r =>
        (.beginTable :: r.1 ++ [.endTable], r.2) := rfl

theorem decode_vector (f : Nat) (bs : List UInt8) :
    decode (f + 1) (14 :: bs) = (readVarint bs).bind fun n =>
      (decodeMany (decode f) n.1 n.2).map fun r => (.beginList :: r.1 ++ [.endList], r.2) := rfl

theorem decode_scalar (f : Nat) (a : Scalar) (bs : List UInt8) :
    decode (f + 1) (a.index.toUInt8 :: bs) =
      (decodeScalar a.index bs).map fun r => ([.value r.1], r.2) := by
  have ha := a.index_lt
  have hb : a.index.toUInt8.toNat = a.index := Nat.mod_eq_of_lt (by omega)
  rw [decode, hb]
  split <;> first | rfl | omega

mutual

/-- Modelled from the spec: **`format::bin::v1::encode`** of an owning value: the tag byte, then
the payload; for a container, a varint count, then the elements in stored order (for a table, each
key followed by its value). -/
def encode : Data → List UInt8
  | .scalar a => a.index.toUInt8 :: a.encode
  | .set xs => 12 :: writeVarint xs.length ++ encodeList xs
  | .table xs => 13 :: writeVarint xs.length ++ encodeTable xs
  | .vector xs => 14 :: writeVarint xs.length ++ encodeList xs

/-- The elements' encodings, in order. -/
def encodeList : List Data → List UInt8
  | [] => []
  | x :: xs => encode x ++ encodeList xs

/-- The entries' encodings, key before value. -/
def encodeTable : List (Data × Data) → List UInt8
  | [] => []
  | (k, v) :: xs => encode k ++ encode v ++ encodeTable xs

end

mutual

/-- Every count and every string length in the tree fits a varint. -/
def encodable : Data → Bool
  | .scalar a => a.encodable
  | .set xs => decide (xs.length < varintLimit) && encodableList xs
  | .table xs => decide (xs.length < varintLimit) && encodableTable xs
  | .vector xs => decide (xs.length < varintLimit) && encodableList xs

/-- Every element is encodable. -/
def encodableList : List Data → Bool
  | [] => true
  | x :: xs => encodable x && encodableList xs

/-- Every key and value is encodable. -/
def encodableTable : List (Data × Data) → Bool
  | [] => true
  | (k, v) :: xs => (encodable k && encodable v) && encodableTable xs

end

mutual

/-- **The decoder reads back the handler calls of an encoded value**, and stops where its encoding
ends, given fuel for the encoding's length. -/
theorem decode_encode : ∀ d : Data, encodable d → ∀ fuel rest, (encode d).length ≤ fuel →
    decode fuel (encode d ++ rest) = some (handlerCalls d, rest)
  | .scalar a, hd, fuel, rest, h => by
    obtain ⟨f, rfl⟩ : ∃ f, fuel = f + 1 := ⟨fuel - 1, by simp [encode] at h; omega⟩
    rw [encode, List.cons_append, decode_scalar, Scalar.decodeScalar_encode a hd]
    rfl
  | .set xs, hd, fuel, rest, h => by
    simp only [encodable, Bool.and_eq_true, decide_eq_true_eq] at hd
    simp only [encode, List.length_cons, List.length_append] at h
    obtain ⟨f, rfl⟩ : ∃ f, fuel = f + 1 := ⟨fuel - 1, by omega⟩
    rw [encode, List.append_assoc, List.cons_append, decode_set,
      readVarint_writeVarint _ hd.1, Option.some_bind,
      decodeMany_encodeList xs hd.2 f rest (by omega)]
    rfl
  | .table xs, hd, fuel, rest, h => by
    simp only [encodable, Bool.and_eq_true, decide_eq_true_eq] at hd
    simp only [encode, List.length_cons, List.length_append] at h
    obtain ⟨f, rfl⟩ : ∃ f, fuel = f + 1 := ⟨fuel - 1, by omega⟩
    rw [encode, List.append_assoc, List.cons_append, decode_table,
      readVarint_writeVarint _ hd.1, Option.some_bind,
      decodeMany_encodeTable xs hd.2 f rest (by omega)]
    rfl
  | .vector xs, hd, fuel, rest, h => by
    simp only [encodable, Bool.and_eq_true, decide_eq_true_eq] at hd
    simp only [encode, List.length_cons, List.length_append] at h
    obtain ⟨f, rfl⟩ : ∃ f, fuel = f + 1 := ⟨fuel - 1, by omega⟩
    rw [encode, List.append_assoc, List.cons_append, decode_vector,
      readVarint_writeVarint _ hd.1, Option.some_bind,
      decodeMany_encodeList xs hd.2 f rest (by omega)]
    rfl

theorem decodeMany_encodeList : ∀ xs : List Data, encodableList xs → ∀ f rest,
    (encodeList xs).length ≤ f →
      decodeMany (decode f) xs.length (encodeList xs ++ rest) = some (handlerCallsList xs, rest)
  | [], _, _, _, _ => rfl
  | x :: xs, hxs, f, rest, h => by
    simp only [encodableList, Bool.and_eq_true] at hxs
    simp only [encodeList, List.length_append] at h
    rw [encodeList, List.append_assoc, List.length_cons, decodeMany,
      decode_encode x hxs.1 f _ (by omega), Option.some_bind,
      decodeMany_encodeList xs hxs.2 f rest (by omega)]
    rfl

theorem decodeMany_encodeTable : ∀ xs : List (Data × Data), encodableTable xs → ∀ f rest,
    (encodeTable xs).length ≤ f →
      decodeMany (decodePair (decode f)) xs.length (encodeTable xs ++ rest) =
        some (handlerCallsTable xs, rest)
  | [], _, _, _, _ => rfl
  | (k, v) :: xs, hxs, f, rest, h => by
    simp only [encodableTable, Bool.and_eq_true] at hxs
    simp only [encodeTable, List.length_append] at h
    rw [encodeTable, List.append_assoc, List.append_assoc, List.length_cons, decodeMany,
      decodePair, decode_encode k hxs.1.1 f _ (by omega), Option.some_bind,
      decode_encode v hxs.1.2 f _ (by omega), Option.map_some', Option.some_bind,
      decodeMany_encodeTable xs hxs.2 f rest (by omega)]
    rfl

end

/-- **Shallow decoding inverts encoding.**  For a well-formed owning value `d` whose counts and
lengths fit a varint, `parse_shallow` of `encode(d)` succeeds with `d` read as a view, and
`to_data` of that view is `d` itself; with any bytes after the encoding, `parse_shallow` fails,
since the decoder then stops short of the end (`pos != end`). -/
theorem parseShallow_encode (d : Data) (hd : d.WellFormed) (he : encodable d)
    (this : VariantData) :
    parseShallow this (encode d) = some d.reinterpret ∧ toData d.reinterpret = d ∧
      ∀ extra : List UInt8, extra ≠ [] → parseShallow this (encode d ++ extra) = none := by
  have hdec := decode_encode d he (encode d).length [] (Nat.le_refl _)
  have hrun := run_handlerCalls d hd (.value this) [] []
  rw [List.append_nil] at hdec hrun
  refine ⟨by simp [parseShallow, hdec, hrun, Handler.add], toData_reinterpret hd, ?_⟩
  intro extra hx
  obtain ⟨b, bs, rfl⟩ := List.exists_cons_of_ne_nil hx
  have hdec' := decode_encode d he (encode d ++ b :: bs).length (b :: bs) (by simp)
  rw [parseShallow, hdec']

/-- `parseShallow_encode` at the owning set `{1, 2}` of counts. -/
theorem parseShallow_encode_counts :
    (set [scalar (.count 1), scalar (.count 2)] : Data).WellFormed ∧
      encodable (set [scalar (.count 1), scalar (.count 2)]) = true ∧
      (parseShallow (scalar .none) (encode (set [scalar (.count 1), scalar (.count 2)])) =
          some (set [scalar (.count 1), scalar (.count 2)] : Data).reinterpret ∧
        toData (set [scalar (.count 1), scalar (.count 2)] : Data).reinterpret =
          set [scalar (.count 1), scalar (.count 2)] ∧
        ∀ extra : List UInt8, extra ≠ [] → parseShallow (scalar .none)
          (encode (set [scalar (.count 1), scalar (.count 2)]) ++ extra) = none) :=
  have h : (set [scalar (.count 1), scalar (.count 2)] : Data).WellFormed := by
    simp [WellFormed, WellFormedList, Scalar.index, Scalar.lt]
  ⟨h, rfl, parseShallow_encode _ h rfl _⟩

end Bin

end Broker
