import Broker.Value.Algorithm
import Mathlib.Data.Int.Order.Basic

/-!
# Value/Scalar — the twelve payloads of a value that are not containers

A `variant_data` and a `data` hold one of fifteen alternatives (spec §3: the tag order is the index
order).  The first twelve are plain payloads; the code compares them with each payload type's own
`<` and `==` (the `else` branches of `operator<` and of `eq_predicate`).  A `string_view` and the
`std::string` it is copied to hold the same bytes, as do an `enum_value_view` and its
`enum_value`, so one `Scalar` serves both representations.

The payload types other than `real` (`address`, `subnet`, `port`, the clock types) live in headers
that are not among the sources; their layout and comparisons are modelled from the spec.  `real` is
a C++ `double`, compared with the built-in IEEE-754 operators: NaN is unordered and unequal to
everything, itself included, and `+0 == -0`.

* `Scalar.lt_self` — no payload is below itself, a NaN included;
* `Scalar.eq_comm` — payload equality is symmetric;
* `Scalar.eq_self` — a payload equals itself exactly when it is not a NaN.
-/

namespace Broker

/-! ## `real`: a `double` and its built-in comparisons -/

/-- `broker::real`, a C++ `double`, held as its IEEE-754 binary64 bit pattern (spec §3). -/
structure Real where
  bits : UInt64
  deriving DecidableEq, Repr

namespace Real

/-- Exponent and fraction bits: everything but the sign. -/
def magnitude (x : Real) : Nat := x.bits.toNat % 0x8000000000000000

/-- Exponent all ones and a non-zero fraction. -/
def isNaN (x : Real) : Bool := decide (0x7FF0000000000000 < x.magnitude)

/-- Where a non-NaN `double` sits on the extended real line: the sign-magnitude encoding read as an
integer, so `+0` and `-0` both land on `0` and the infinities at the ends. -/
def key (x : Real) : Int :=
  if 0x8000000000000000 ≤ x.bits.toNat then -(x.magnitude : Int) else x.magnitude

/-- The built-in `<` on `double`: false as soon as either side is a NaN. -/
def lt (x y : Real) : Bool := !x.isNaN && !y.isNaN && decide (x.key < y.key)

/-- The built-in `==` on `double`: a NaN equals nothing, and `+0 == -0`. -/
def eq (x y : Real) : Bool := !x.isNaN && !y.isNaN && decide (x.key = y.key)

/-- The quiet NaN `0x7FF8000000000000`. -/
def nan : Real := ⟨0x7FF8000000000000⟩

/-- The built-in `<` is irreflexive, on a NaN too. -/
theorem lt_self (x : Real) : x.lt x = false := by simp [lt]

theorem eq_comm (x y : Real) : x.eq y = y.eq x := by
  simp only [eq, Bool.and_comm (!x.isNaN), Eq.comm (a := x.key)]

theorem eq_self (x : Real) : x.eq x = !x.isNaN := by simp [eq]

end Real

/-! ## Addresses, subnets, ports -/

/-- `broker::address`: sixteen bytes, an IPv4 address stored IPv4-in-IPv6.  Modelled from the spec
(§3); compared bytewise, like the `std::array` it wraps. -/
structure Address where
  bytes : List UInt8
  length_bytes : bytes.length = 16
  deriving DecidableEq

/-- `broker::subnet`: a network address and a prefix length, compared as the tuple
`(network, length)`.  Modelled from the spec (§3). -/
structure Subnet where
  network : Address
  length : UInt8
  deriving DecidableEq

/-- The transport protocol of a `broker::port`, in the order of its `uint8_t` enumeration.
Modelled from the spec (§3). -/
inductive Protocol where
  | unknown
  | tcp
  | udp
  | icmp
  deriving DecidableEq, Repr

/-- The enumerator's value. -/
def Protocol.toNat : Protocol → Nat
  | unknown => 0
  | tcp => 1
  | udp => 2
  | icmp => 3

/-- `broker::port`: a 16-bit number and its protocol, compared as the tuple `(number, type)`.
Modelled from the spec (§3). -/
structure Port where
  number : UInt16
  type : Protocol
  deriving DecidableEq

/-- Bytes compared as `unsigned char`, the order of `std::string`, `std::string_view` and
`std::array<uint8_t, N>`. -/
def bytesLt : List UInt8 → List UInt8 → Bool := lexicographicalCompare fun a b => decide (a < b)

theorem bytesLt_self (bs : List UInt8) : bytesLt bs bs = false :=
  lexicographicalCompare_self _ bs fun _ _ => by simp

/-- `address < address`. -/
def Address.lt (a b : Address) : Bool := bytesLt a.bytes b.bytes

/-- `std::tie(network, length) < std::tie(...)`. -/
def Subnet.lt (a b : Subnet) : Bool :=
  a.network.lt b.network || (!b.network.lt a.network && decide (a.length < b.length))

/-- `std::tie(number, type) < std::tie(...)`. -/
def Port.lt (a b : Port) : Bool :=
  decide (a.number < b.number) ||
    (!decide (b.number < a.number) && decide (a.type.toNat < b.type.toNat))

/-! ## The scalar alternatives -/

/-- The twelve non-container alternatives of `data` and `variant_data`, in index order.  `count` is
`uint64_t`; `integer`, `timestamp` and `timespan` are `int64_t` (nanoseconds for the clock types);
strings and enum names are byte sequences. -/
inductive Scalar where
  | none
  | boolean (b : Bool)
  | count (n : UInt64)
  | integer (i : BitVec 64)
  | real (x : Real)
  | string (s : List UInt8)
  | address (a : Address)
  | subnet (s : Subnet)
  | port (p : Port)
  | timestamp (t : BitVec 64)
  | timespan (t : BitVec 64)
  | enumValue (name : List UInt8)
  deriving DecidableEq

namespace Scalar

/-- The alternative's index in the variant (`variant_tag`). -/
def index : Scalar → Nat
  | none => 0
  | boolean _ => 1
  | count _ => 2
  | integer _ => 3
  | real _ => 4
  | string _ => 5
  | address _ => 6
  | subnet _ => 7
  | port _ => 8
  | timestamp _ => 9
  | timespan _ => 10
  | enumValue _ => 11

/-- The scalar alternatives come before the three containers. -/
theorem index_lt (a : Scalar) : a.index < 12 := by cases a <;> simp [index]

/-- **`x < std::get<T>(rhs.value)`**: the payload order, for two payloads of one alternative.
`operator<` compares indices first and only reaches this on equal ones. -/
def lt : Scalar → Scalar → Bool
  | boolean a, boolean b => !a && b
  | count a, count b => decide (a < b)
  | integer a, integer b => a.slt b
  | real a, real b => a.lt b
  | string a, string b => bytesLt a b
  | address a, address b => a.lt b
  | subnet a, subnet b => a.lt b
  | port a, port b => a.lt b
  | timestamp a, timestamp b => a.slt b
  | timespan a, timespan b => a.slt b
  | enumValue a, enumValue b => bytesLt a b
  | _, _ => false

/-- **`eq_predicate` on payloads**: `lhs == rhs` of the payload type (bytewise `std::equal` for
strings), and `false` across alternatives, where `visit_if_same_type` compares the two tags. -/
def eq : Scalar → Scalar → Bool
  | none, none => true
  | boolean a, boolean b => a == b
  | count a, count b => a == b
  | integer a, integer b => a == b
  | real a, real b => a.eq b
  | string a, string b => a == b
  | address a, address b => a.bytes == b.bytes
  | subnet a, subnet b => a.network.bytes == b.network.bytes && a.length == b.length
  | port a, port b => a.number == b.number && a.type == b.type
  | timestamp a, timestamp b => a == b
  | timespan a, timespan b => a == b
  | enumValue a, enumValue b => a == b
  | _, _ => false

/-- Not a NaN `real`. -/
def nanFree : Scalar → Bool
  | real x => !x.isNaN
  | _ => true

/-- **No payload is below itself**, a NaN included. -/
theorem lt_self (a : Scalar) : a.lt a = false := by
  cases a
  case boolean b => cases b <;> rfl
  case count n => exact decide_eq_false (UInt64.lt_irrefl n)
  case integer i | timestamp i | timespan i => exact decide_eq_false (lt_irrefl i.toInt)
  case real x => exact Real.lt_self x
  case string bs | enumValue bs => exact bytesLt_self bs
  case address a => exact bytesLt_self a.bytes
  case subnet a => show a.lt a = false; simp [Subnet.lt, Address.lt, bytesLt_self]
  case port p => show p.lt p = false; simp [Port.lt]
  case none => rfl

theorem eq_of_index_ne {a b : Scalar} (h : a.index ≠ b.index) : a.eq b = false := by
  cases a <;> cases b <;> first | rfl | exact absurd rfl h

theorem eq_comm (a b : Scalar) : a.eq b = b.eq a := by
  cases a <;> cases b <;>
    first | rfl | exact BEq.comm | exact Real.eq_comm _ _ |
      exact congrArg₂ (· && ·) BEq.comm BEq.comm

theorem eq_self (a : Scalar) : a.eq a = a.nanFree := by
  cases a <;> first | rfl | exact beq_self_eq_true _ | exact Real.eq_self _ |
    exact congrArg₂ (· && ·) (beq_self_eq_true _) (beq_self_eq_true _)

end Scalar

end Broker
