import Broker.Value.Basic
import Broker.Value.Tokens

/-!
# Value/Order — away from NaN, `operator<` is a strict total order and `==` its equivalence

    Value ──tokens──▸ List Int        lt ↦ List.Lex (· < ·),   eqPredicate ↦ (=)

Every tree flattens to an integer stream: its index, its payload (a `double` by its place on the
real line, so `+0` and `-0` coincide), and for a container its elements' streams closed by `-1`.
On NaN-free trees `lt` is the lexicographic order of the streams (`lt_iff_tokenLt`) and
`eqPredicate` their equality (`eqPredicate_iff_tokens`), so `lt` inherits the laws of a strict
total order whose equivalence is `==` (`lt_strictTotalOrder`).  A NaN breaks trichotomy: the
built-in `<` and `==` on `double` are false on a NaN, so a NaN is neither below, above nor equal
to itself (`nan_unordered`).  It does not break irreflexivity (`lt_self`), which holds on every
tree.
-/

namespace Broker

/-! ## Machine integers, read as naturals -/

theorem UInt8.lt_iff_toNat_lt {a b : UInt8} : a < b ↔ a.toNat < b.toNat := Iff.rfl

theorem UInt16.lt_iff_toNat_lt {a b : UInt16} : a < b ↔ a.toNat < b.toNat := Iff.rfl

theorem UInt64.lt_iff_toNat_lt {a b : UInt64} : a < b ↔ a.toNat < b.toNat := Iff.rfl

theorem UInt8.toNat_inj {a b : UInt8} : a.toNat = b.toNat ↔ a = b :=
  ⟨UInt8.toNat.inj, congrArg _⟩

theorem UInt16.toNat_inj {a b : UInt16} : a.toNat = b.toNat ↔ a = b :=
  ⟨UInt16.toNat.inj, congrArg _⟩

theorem UInt64.toNat_inj {a b : UInt64} : a.toNat = b.toNat ↔ a = b :=
  ⟨UInt64.toNat.inj, congrArg _⟩

/-! ## Byte strings -/

/-- A byte string's stream: its bytes, then `-1`. -/
def bytesTokens (bs : List UInt8) : List Int := seqTokens (fun b => [(b.toNat : Int)]) bs

theorem opens_byte (b : UInt8) : Opens [(b.toNat : Int)] := ⟨_, [], rfl, by omega⟩

theorem prefixFree_bytesTokens (a b : List UInt8) : PrefixFree (bytesTokens a) (bytesTokens b) :=
  prefixFree_seqTokens _ opens_byte a b fun _ _ _ _ => prefixFree_singleton _ _

theorem bytesLt_iff (a b : List UInt8) :
    bytesLt a b = true ↔ TokenLt (bytesTokens a) (bytesTokens b) :=
  lexicographicalCompare_iff _ opens_byte _ a b fun x _ y _ =>
    ⟨prefixFree_singleton _ _, by simp [tokenLt_singleton, UInt8.lt_iff_toNat_lt],
      by simp [tokenLt_singleton, UInt8.lt_iff_toNat_lt]⟩

theorem bytesTokens_eq_iff (a b : List UInt8) : bytesTokens a = bytesTokens b ↔ a = b := by
  induction a generalizing b with
  | nil => cases b <;> simp [bytesTokens, seqTokens]
  | cons x xs ih =>
    cases b with
    | nil => simp [bytesTokens, seqTokens]
    | cons y ys =>
      simp only [bytesTokens, seqTokens_cons, List.singleton_append, List.cons.injEq] at ih ⊢
      simp [ih, Int.ofNat_inj, UInt8.toNat_inj]

/-! ## Payloads -/

namespace Real

theorem lt_eq_key {x y : Real} (hx : x.isNaN = false) (hy : y.isNaN = false) :
    x.lt y = decide (x.key < y.key) := by
  simp [lt, hx, hy]

theorem eq_eq_key {x y : Real} (hx : x.isNaN = false) (hy : y.isNaN = false) :
    x.eq y = decide (x.key = y.key) := by
  simp [eq, hx, hy]

end Real

theorem Protocol.toNat_inj (a b : Protocol) : a.toNat = b.toNat ↔ a = b := by
  cases a <;> cases b <;> decide

namespace Scalar

/-- A payload's stream, after its index: one token for a number, the bytes for a string, the
address bytes and the prefix length for a subnet, the number and protocol for a port. -/
def payloadTokens : Scalar → List Int
  | none => []
  | boolean b => [if b then 1 else 0]
  | count n => [n.toNat]
  | integer i => [i.toInt]
  | real x => [x.key]
  | string s => bytesTokens s
  | address a => bytesTokens a.bytes
  | subnet s => bytesTokens s.network.bytes ++ [(s.length.toNat : Int)]
  | port p => [p.number.toNat, p.type.toNat]
  | timestamp t => [t.toInt]
  | timespan t => [t.toInt]
  | enumValue n => bytesTokens n

theorem prefixFree_payloadTokens (a b : Scalar) (h : a.index = b.index) :
    PrefixFree a.payloadTokens b.payloadTokens := by
  cases a <;> cases b <;> simp [index] at h <;> simp only [payloadTokens]
  case none.none => exact fun _ _ _ => rfl
  case string.string | enumValue.enumValue | address.address => exact prefixFree_bytesTokens _ _
  case subnet.subnet => exact (prefixFree_bytesTokens _ _).append (prefixFree_singleton _ _)
  case port.port => exact (prefixFree_singleton _ _).append (prefixFree_singleton _ _)
  all_goals exact prefixFree_singleton _ _

/-- **On one alternative, the payload `<` is the payload streams' order** (away from NaN). -/
theorem lt_iff_payloadTokens (a b : Scalar) (h : a.index = b.index) (ha : a.nanFree)
    (hb : b.nanFree) : a.lt b = true ↔ TokenLt a.payloadTokens b.payloadTokens := by
  cases a <;> cases b <;> simp [index] at h
  case none.none => simp [lt, tokenLt_irrefl]
  case boolean.boolean a b => cases a <;> cases b <;> decide
  case count.count a b => simp [lt, payloadTokens, tokenLt_singleton, UInt64.lt_iff_toNat_lt]
  case integer.integer | timestamp.timestamp | timespan.timespan =>
    simp [lt, payloadTokens, tokenLt_singleton, BitVec.slt]
  case real.real x y =>
    simp only [nanFree, Bool.not_eq_true'] at ha hb
    simp [lt, payloadTokens, tokenLt_singleton, Real.lt_eq_key ha hb]
  case string.string | enumValue.enumValue => exact bytesLt_iff _ _
  case address.address => exact bytesLt_iff _ _
  case subnet.subnet a b =>
    exact pairStep_iff (bytesLt_iff _ _) (bytesLt_iff _ _)
      (by simp [tokenLt_singleton, UInt8.lt_iff_toNat_lt]) (prefixFree_bytesTokens _ _)
  case port.port a b =>
    exact pairStep_iff (u := [_]) (v := [_]) (by simp [tokenLt_singleton, UInt16.lt_iff_toNat_lt])
      (by simp [tokenLt_singleton, UInt16.lt_iff_toNat_lt]) (by simp [tokenLt_singleton])
      (prefixFree_singleton _ _)

/-- **On one alternative, the payload `==` is equality of the payload streams** (away from NaN). -/
theorem eq_iff_payloadTokens (a b : Scalar) (h : a.index = b.index) (ha : a.nanFree)
    (hb : b.nanFree) : a.eq b = true ↔ a.payloadTokens = b.payloadTokens := by
  cases a <;> cases b <;> simp [index] at h
  case none.none => simp [eq]
  case boolean.boolean a b => cases a <;> cases b <;> decide
  case count.count a b => simp [eq, payloadTokens, Int.ofNat_inj, ← UInt64.toNat_inj]
  case integer.integer | timestamp.timestamp | timespan.timespan =>
    simp [eq, payloadTokens, BitVec.toInt_inj]
  case real.real x y =>
    simp only [nanFree, Bool.not_eq_true'] at ha hb
    simp [eq, payloadTokens, Real.eq_eq_key ha hb]
  case string.string | enumValue.enumValue => simp [eq, payloadTokens, bytesTokens_eq_iff]
  case address.address => simp [eq, payloadTokens, bytesTokens_eq_iff]
  case subnet.subnet a b =>
    exact eqStep_iff (by simp [bytesTokens_eq_iff]) (by simp [Int.ofNat_inj, ← UInt8.toNat_inj])
      (prefixFree_bytesTokens _ _)
  case port.port a b =>
    exact eqStep_iff (u := [_]) (v := [_]) (by simp [Int.ofNat_inj, ← UInt16.toNat_inj])
      (by simp [Int.ofNat_inj, Protocol.toNat_inj]) (prefixFree_singleton _ _)

end Scalar

/-! ## Trees -/

namespace Value

variable {r : Rep}

mutual

/-- A tree's stream: its index, then its payload, or its elements' streams closed by `-1` (a table
entry's stream is its key's, then its value's). -/
def tokens : Value r → List Int
  | scalar a => a.index :: a.payloadTokens
  | set xs => 12 :: tokensList xs
  | table xs => 13 :: tokensTable xs
  | vector xs => 14 :: tokensList xs

/-- The elements' streams, then `-1`. -/
def tokensList : List (Value r) → List Int
  | [] => [-1]
  | x :: xs => tokens x ++ tokensList xs

/-- The entries' streams, then `-1`. -/
def tokensTable : List (Value r × Value r) → List Int
  | [] => [-1]
  | (k, v) :: xs => (tokens k ++ tokens v) ++ tokensTable xs

end

/-- A table entry's stream. -/
def entryTokens (p : Value r × Value r) : List Int := tokens p.1 ++ tokens p.2

theorem tokensList_eq : ∀ xs : List (Value r), tokensList xs = seqTokens tokens xs
  | [] => rfl
  | x :: xs => by rw [tokensList, tokensList_eq xs, seqTokens_cons]

theorem tokensTable_eq : ∀ xs : List (Value r × Value r), tokensTable xs = seqTokens entryTokens xs
  | [] => rfl
  | (k, v) :: xs => by rw [tokensTable, tokensTable_eq xs, seqTokens_cons]; rfl

theorem tokens_eq_cons (x : Value r) : ∃ w, tokens x = (x.index : Int) :: w := by
  cases x <;> exact ⟨_, rfl⟩

theorem opens_tokens (x : Value r) : Opens (tokens x) := by
  obtain ⟨w, hw⟩ := tokens_eq_cons x
  exact ⟨_, w, hw, by omega⟩

theorem opens_entryTokens (p : Value r × Value r) : Opens (entryTokens p) := by
  obtain ⟨t, w, hw, ht⟩ := opens_tokens p.1
  exact ⟨t, w ++ tokens p.2, by rw [entryTokens, hw, List.cons_append], ht⟩

/-- Trees of different alternatives part at their first token. -/
theorem tokenLt_of_index_ne {x y : Value r} (h : x.index ≠ y.index) :
    TokenLt (tokens x) (tokens y) ↔ x.index < y.index := by
  obtain ⟨w, hw⟩ := tokens_eq_cons x
  obtain ⟨w', hw'⟩ := tokens_eq_cons y
  rw [hw, hw', tokenLt_cons_cons (by omega)]
  omega

/-- **Trees are a prefix-free code**: no tree's stream begins another's. -/
theorem prefixFree_tokens : ∀ x y : Value r, PrefixFree (tokens x) (tokens y) := by
  refine pair_induction fun x y ih => ?_
  by_cases h : x.index = y.index
  · rcases index_eq_cases h with ⟨a, b, rfl, rfl⟩ | ⟨xs, ys, rfl, rfl⟩ | ⟨xs, ys, rfl, rfl⟩ |
      ⟨xs, ys, rfl, rfl⟩
    · simp only [index] at h
      rw [tokens, tokens, h]
      exact (Scalar.prefixFree_payloadTokens a b h).cons _
    · rw [tokens, tokens, tokensList_eq, tokensList_eq]
      exact (prefixFree_seqTokens _ opens_tokens xs ys fun a ha b hb =>
        ih a b (Nat.add_lt_add (sizeOf_lt_set ha) (sizeOf_lt_set hb))).cons _
    · rw [tokens, tokens, tokensTable_eq, tokensTable_eq]
      refine (prefixFree_seqTokens _ opens_entryTokens xs ys fun ⟨k, v⟩ hp ⟨k', v'⟩ hq => ?_).cons _
      exact (ih k k' (Nat.add_lt_add (sizeOf_key_lt_table hp) (sizeOf_key_lt_table hq))).append
        (ih v v' (Nat.add_lt_add (sizeOf_value_lt_table hp) (sizeOf_value_lt_table hq)))
    · rw [tokens, tokens, tokensList_eq, tokensList_eq]
      exact (prefixFree_seqTokens _ opens_tokens xs ys fun a ha b hb =>
        ih a b (Nat.add_lt_add (sizeOf_lt_vector ha) (sizeOf_lt_vector hb))).cons _
  · obtain ⟨w, hw⟩ := tokens_eq_cons x
    obtain ⟨w', hw'⟩ := tokens_eq_cons y
    rw [hw, hw']
    exact prefixFree_cons_of_ne (by omega) _ _

/-- **Away from NaN, `operator<` is the token order.** -/
theorem lt_iff_tokenLt : ∀ x y : Value r, x.nanFree → y.nanFree →
    (lt x y = true ↔ TokenLt (tokens x) (tokens y)) := by
  refine pair_induction fun x y ih hx hy => ?_
  by_cases h : x.index = y.index
  · rcases index_eq_cases h with ⟨a, b, rfl, rfl⟩ | ⟨xs, ys, rfl, rfl⟩ | ⟨xs, ys, rfl, rfl⟩ |
      ⟨xs, ys, rfl, rfl⟩
    · simp only [index] at h
      rw [lt_scalar, if_neg (not_not.2 h), tokens, tokens, h, tokenLt_cons_iff]
      exact Scalar.lt_iff_payloadTokens a b h hx hy
    · rw [nanFree, nanFreeList_iff] at hx hy
      rw [lt_set, ltList_eq, tokens, tokens, tokenLt_cons_iff, tokensList_eq, tokensList_eq]
      refine lexicographicalCompare_iff _ opens_tokens _ xs ys fun a ha b hb =>
        ⟨prefixFree_tokens a b, ih a b ?_ (hx a ha) (hy b hb), ih b a ?_ (hy b hb) (hx a ha)⟩
      · exact Nat.add_lt_add (sizeOf_lt_set ha) (sizeOf_lt_set hb)
      · have := Nat.add_lt_add (sizeOf_lt_set ha) (sizeOf_lt_set hb); omega
    · rw [nanFree, nanFreeTable_iff] at hx hy
      rw [lt_table, ltTable_eq, tokens, tokens, tokenLt_cons_iff, tokensTable_eq, tokensTable_eq]
      refine lexicographicalCompare_iff _ opens_entryTokens _ xs ys
        fun ⟨k, v⟩ hp ⟨k', v'⟩ hq => ?_
      have hk := Nat.add_lt_add (sizeOf_key_lt_table hp) (sizeOf_key_lt_table hq)
      have hv := Nat.add_lt_add (sizeOf_value_lt_table hp) (sizeOf_value_lt_table hq)
      obtain ⟨hnk, hnv⟩ := hx _ hp
      obtain ⟨hnk', hnv'⟩ := hy _ hq
      exact ⟨(prefixFree_tokens k k').append (prefixFree_tokens v v'),
        pairStep_iff (ih k k' hk hnk hnk') (ih k' k (by omega) hnk' hnk) (ih v v' hv hnv hnv')
          (prefixFree_tokens k k'),
        pairStep_iff (ih k' k (by omega) hnk' hnk) (ih k k' hk hnk hnk')
          (ih v' v (by omega) hnv' hnv) (prefixFree_tokens k' k)⟩
    · rw [nanFree, nanFreeList_iff] at hx hy
      rw [lt_vector, ltList_eq, tokens, tokens, tokenLt_cons_iff, tokensList_eq, tokensList_eq]
      refine lexicographicalCompare_iff _ opens_tokens _ xs ys fun a ha b hb =>
        ⟨prefixFree_tokens a b, ih a b ?_ (hx a ha) (hy b hb), ih b a ?_ (hy b hb) (hx a ha)⟩
      · exact Nat.add_lt_add (sizeOf_lt_vector ha) (sizeOf_lt_vector hb)
      · have := Nat.add_lt_add (sizeOf_lt_vector ha) (sizeOf_lt_vector hb); omega
  · rw [lt_of_index_ne h, tokenLt_of_index_ne h, decide_eq_true_iff]

/-- **Away from NaN, `==` is equality of the streams.** -/
theorem eqPredicate_iff_tokens : ∀ x y : Value r, x.nanFree → y.nanFree →
    (eqPredicate x y = true ↔ tokens x = tokens y) := by
  refine pair_induction fun x y ih hx hy => ?_
  by_cases h : x.index = y.index
  · rcases index_eq_cases h with ⟨a, b, rfl, rfl⟩ | ⟨xs, ys, rfl, rfl⟩ | ⟨xs, ys, rfl, rfl⟩ |
      ⟨xs, ys, rfl, rfl⟩
    · simp only [index] at h
      rw [eqPredicate_scalar, tokens, tokens, h, List.cons.injEq, eq_self, true_and]
      exact Scalar.eq_iff_payloadTokens a b h hx hy
    · rw [nanFree, nanFreeList_iff] at hx hy
      rw [eqPredicate_set, eqList_eq, tokens, tokens, List.cons.injEq, eq_self, true_and,
        tokensList_eq, tokensList_eq]
      exact equal_iff _ opens_tokens _ xs ys fun a ha b hb => ⟨prefixFree_tokens a b,
        ih a b (Nat.add_lt_add (sizeOf_lt_set ha) (sizeOf_lt_set hb)) (hx a ha) (hy b hb)⟩
    · rw [nanFree, nanFreeTable_iff] at hx hy
      rw [eqPredicate_table, eqTable_eq, tokens, tokens, List.cons.injEq, eq_self, true_and,
        tokensTable_eq, tokensTable_eq]
      refine equal_iff _ opens_entryTokens _ xs ys fun ⟨k, v⟩ hp ⟨k', v'⟩ hq => ?_
      obtain ⟨hnk, hnv⟩ := hx _ hp
      obtain ⟨hnk', hnv'⟩ := hy _ hq
      exact ⟨(prefixFree_tokens k k').append (prefixFree_tokens v v'),
        eqStep_iff
          (ih k k' (Nat.add_lt_add (sizeOf_key_lt_table hp) (sizeOf_key_lt_table hq)) hnk hnk')
          (ih v v' (Nat.add_lt_add (sizeOf_value_lt_table hp) (sizeOf_value_lt_table hq)) hnv hnv')
          (prefixFree_tokens k k')⟩
    · rw [nanFree, nanFreeList_iff] at hx hy
      rw [eqPredicate_vector, eqList_eq, tokens, tokens, List.cons.injEq, eq_self, true_and,
        tokensList_eq, tokensList_eq]
      exact equal_iff _ opens_tokens _ xs ys fun a ha b hb => ⟨prefixFree_tokens a b,
        ih a b (Nat.add_lt_add (sizeOf_lt_vector ha) (sizeOf_lt_vector hb)) (hx a ha) (hy b hb)⟩
  · obtain ⟨w, hw⟩ := tokens_eq_cons x
    obtain ⟨w', hw'⟩ := tokens_eq_cons y
    rw [eqPredicate_of_index_ne h, hw, hw', List.cons.injEq]
    simp only [Bool.false_eq_true, false_iff, not_and]
    omega

/-- Away from NaN, `operator<` is transitive. -/
theorem lt_trans_of_nanFree {x y z : Value r} (hx : x.nanFree) (hy : y.nanFree) (hz : z.nanFree)
    (hxy : lt x y) (hyz : lt y z) : lt x z :=
  (lt_iff_tokenLt x z hx hz).2 <|
    trans_of TokenLt ((lt_iff_tokenLt x y hx hy).1 hxy) ((lt_iff_tokenLt y z hy hz).1 hyz)

/-! ## The order laws

Irreflexivity needs no assumption: no payload is below itself, a NaN included, and a container
meets equal elements at every position.  Transitivity and trichotomy are where a NaN breaks the
laws, so they are stated away from NaN. -/

/-- **`operator<` is irreflexive, NaN included.** -/
theorem lt_self : ∀ x : Value r, lt x x = false := by
  suffices h : ∀ x y : Value r, x = y → lt x y = false from fun x => h x x rfl
  refine pair_induction fun x y ih hxy => ?_
  subst hxy
  have ih' : ∀ a, sizeOf a < sizeOf x → lt a a = false := fun a ha => ih a a (by omega) rfl
  cases x with
  | scalar a => rw [lt_scalar, if_neg (not_not.2 rfl), Scalar.lt_self]
  | set xs =>
    rw [lt_set, ltList_eq]
    exact lexicographicalCompare_self _ xs fun a ha => ih' a (sizeOf_lt_set ha)
  | table xs =>
    rw [lt_table, ltTable_eq]
    refine lexicographicalCompare_self _ xs fun ⟨k, v⟩ hp => ?_
    simp [pairLt, ih' k (sizeOf_key_lt_table hp), ih' v (sizeOf_value_lt_table hp)]
  | vector xs =>
    rw [lt_vector, ltList_eq]
    exact lexicographicalCompare_self _ xs fun a ha => ih' a (sizeOf_lt_vector ha)

/-- **`operator<` is irreflexive everywhere, and away from NaN a strict total order whose
equivalence is `operator==`**: no value is below itself, a NaN included; and on NaN-free values
`<` is transitive, and for any two values exactly one of `a < b`, `b < a`, `a == b` holds. -/
theorem lt_strictTotalOrder (a b c : VariantData) :
    lt a a = false ∧
      (a.nanFree → b.nanFree → c.nanFree →
        (lt a b = true → lt b c = true → lt a c = true) ∧
        (lt a b = true ∨ lt b a = true ∨ eqPredicate a b = true) ∧
        (lt a b = true → lt b a = false ∧ eqPredicate a b = false) ∧
        (lt b a = true → eqPredicate a b = false)) := by
  refine ⟨lt_self a, fun ha hb hc => ?_⟩
  simp only [← Bool.not_eq_true, lt_iff_tokenLt _ _ ha hb, lt_iff_tokenLt _ _ hb ha,
    lt_iff_tokenLt _ _ hb hc, lt_iff_tokenLt _ _ ha hc, eqPredicate_iff_tokens _ _ ha hb]
  refine ⟨trans_of TokenLt, ?_, fun h => ⟨asymm_of TokenLt h, ?_⟩, ?_⟩
  · rcases trichotomous_of TokenLt (tokens a) (tokens b) with h | h | h <;> simp [h]
  · rintro e; exact tokenLt_irrefl _ (e ▸ h)
  · rintro h e; exact tokenLt_irrefl _ (e ▸ h)

/-- `lt_strictTotalOrder` at the counts `1`, `2`, `3`, which hold no NaN. -/
theorem lt_strictTotalOrder_counts :
    (scalar (.count 1) : VariantData).nanFree ∧ (scalar (.count 2) : VariantData).nanFree ∧
      (scalar (.count 3) : VariantData).nanFree ∧
      lt (scalar (.count 1) : VariantData) (scalar (.count 1)) = false ∧
      ((lt (scalar (.count 1) : VariantData) (scalar (.count 2)) = true →
          lt (scalar (.count 2) : VariantData) (scalar (.count 3)) = true →
          lt (scalar (.count 1) : VariantData) (scalar (.count 3)) = true) ∧
        (lt (scalar (.count 1) : VariantData) (scalar (.count 2)) = true ∨
          lt (scalar (.count 2) : VariantData) (scalar (.count 1)) = true ∨
          eqPredicate (scalar (.count 1) : VariantData) (scalar (.count 2) : VariantData) = true) ∧
        (lt (scalar (.count 1) : VariantData) (scalar (.count 2)) = true →
          lt (scalar (.count 2) : VariantData) (scalar (.count 1)) = false ∧
          eqPredicate (scalar (.count 1) : VariantData) (scalar (.count 2) : VariantData) = false) ∧
        (lt (scalar (.count 2) : VariantData) (scalar (.count 1)) = true →
          eqPredicate (scalar (.count 1) : VariantData) (scalar (.count 2) : VariantData) =
            false)) :=
  have h := lt_strictTotalOrder (scalar (.count 1)) (scalar (.count 2)) (scalar (.count 3))
  ⟨rfl, rfl, rfl, h.1, h.2 rfl rfl rfl⟩

/-- **A NaN is unordered, even against itself**: for `n = real(NaN)` none of `n < n`, `n < n`,
`n == n` holds, where the order laws ask for exactly one. -/
theorem nan_unordered :
    lt (scalar (.real Real.nan) : VariantData) (scalar (.real Real.nan)) = false ∧
      eqPredicate (scalar (.real Real.nan) : VariantData) (scalar (.real Real.nan) : VariantData) =
        false :=
  ⟨by rw [lt_scalar]; rfl, rfl⟩

end Value

end Broker
