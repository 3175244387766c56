import Broker.Value.Scalar

/-!
# Value/Basic — `data` and `variant_data`: one tree, two representations

    data  (owning: std::string, std::set<data>, std::map<data, data>, std::vector<data>)
    variant_data  (view: string_view, set*, table*, list* into an arena)

Both are the fifteen-way variant of spec §3.  They differ in where the bytes and the containers
live, not in what they hold: a view's container pointer names an arena container that is never
written after its handler hands it over.  So both are `Value r`, the representation `r` a mere
index, and the code's single `eq_predicate` template and the two `operator<` are each one
definition here.

* `lt` — `operator<`: the variant index first, then the payload; containers compare
  lexicographically, a table entry as a `std::pair`.
* `eqPredicate` — `visit_if_same_type(eq_predicate{}, lhs, rhs)`, for any two representations.
* `WellFormed` — the class invariant of `std::set` and `std::map`: iteration is strictly increasing.
* `reinterpret` — the same tree read in the other representation; it keeps the order
  (`lt_reinterpret`) and equality (`eqPredicate_reinterpret_left`), and `eqPredicate` is symmetric
  (`eqPredicate_comm`) and reflexive exactly on NaN-free trees (`eqPredicate_self`).
-/

namespace Broker

/-- Which representation a tree is read in. -/
inductive Rep where
  /-- `broker::data`, owning its strings and containers. -/
  | owning
  /-- `broker::variant_data`, a shallow view into a decoded buffer and an arena. -/
  | view

/-- A value tree: a scalar payload, or a `set`, `table` or `vector` of values (in a
`variant_data`, a pointer to an arena `std::set`, `std::map` or `std::vector`).  Containers list
their elements in iteration order. -/
inductive Value (r : Rep) where
  | scalar (x : Scalar)
  | set (xs : List (Value r))
  | table (xs : List (Value r × Value r))
  | vector (xs : List (Value r))

/-- `broker::data`. -/
abbrev Data := Value .owning

/-- `broker::variant_data`. -/
abbrev VariantData := Value .view

namespace Value

variable {r r' r₁ r₂ : Rep}

/-- `value.index()`: the alternative's position in spec §3's table. -/
def index : Value r → Nat
  | scalar x => x.index
  | set _ => 12
  | table _ => 13
  | vector _ => 14

/-! ## `operator<` -/

mutual

/-- **`operator<(variant_data, variant_data)`**: different indices compare as indices; equal ones
compare the payloads, through the pointer for a container (`*x < *y`). -/
def lt (x y : Value r) : Bool :=
  if x.index ≠ y.index then decide (x.index < y.index) else
  match x, y with
  | scalar a, scalar b => a.lt b
  | set xs, set ys => ltList xs ys
  | table xs, table ys => ltTable xs ys
  | vector xs, vector ys => ltList xs ys
  | _, _ => false
termination_by sizeOf x + sizeOf y

/-- The `<` of `std::set` and `std::vector`: `std::lexicographical_compare` under `lt`. -/
def ltList : List (Value r) → List (Value r) → Bool
  | [], [] => false
  | [], _ :: _ => true
  | _ :: _, [] => false
  | x :: xs, y :: ys => if lt x y then true else if lt y x then false else ltList xs ys
termination_by xs ys => sizeOf xs + sizeOf ys

/-- The `<` of `std::map`: `std::lexicographical_compare` over its entries, an entry comparing as a
`std::pair` (key, then value). -/
def ltTable : List (Value r × Value r) → List (Value r × Value r) → Bool
  | [], [] => false
  | [], _ :: _ => true
  | _ :: _, [] => false
  | (k, v) :: xs, (k', v') :: ys =>
    if lt k k' || (!lt k' k && lt v v') then true
    else if lt k' k || (!lt k k' && lt v' v) then false
    else ltTable xs ys
termination_by xs ys => sizeOf xs + sizeOf ys

end

/-- The `<` of `std::pair<const variant_data, variant_data>`, a table entry. -/
def pairLt (p q : Value r × Value r) : Bool := lt p.1 q.1 || (!lt q.1 p.1 && lt p.2 q.2)

/-- The comparator a `std::map` applies to its entries: the keys' `<`. -/
def keyLt (p q : Value r × Value r) : Bool := lt p.1 q.1

theorem lt_of_index_ne {x y : Value r} (h : x.index ≠ y.index) :
    lt x y = decide (x.index < y.index) := by
  rw [lt.eq_def, if_pos h]

@[simp] theorem lt_scalar (a b : Scalar) :
    lt (scalar a : Value r) (scalar b) = if a.index ≠ b.index then decide (a.index < b.index)
      else a.lt b := by
  rw [lt]; rfl

@[simp] theorem lt_set (xs ys : List (Value r)) : lt (set xs) (set ys) = ltList xs ys := by
  rw [lt]; simp [index]

@[simp] theorem lt_table (xs ys : List (Value r × Value r)) :
    lt (table xs) (table ys) = ltTable xs ys := by
  rw [lt]; simp [index]

@[simp] theorem lt_vector (xs ys : List (Value r)) :
    lt (vector xs) (vector ys) = ltList xs ys := by
  rw [lt]; simp [index]

theorem ltList_eq : ∀ xs ys : List (Value r), ltList xs ys = lexicographicalCompare lt xs ys
  | [], [] => by rw [ltList, lexicographicalCompare]
  | [], _ :: _ => by rw [ltList, lexicographicalCompare]
  | _ :: _, [] => by rw [ltList, lexicographicalCompare]
  | _ :: xs, _ :: ys => by rw [ltList, lexicographicalCompare, ltList_eq xs ys]

theorem ltTable_eq :
    ∀ xs ys : List (Value r × Value r), ltTable xs ys = lexicographicalCompare pairLt xs ys
  | [], [] => by rw [ltTable, lexicographicalCompare]
  | [], _ :: _ => by rw [ltTable, lexicographicalCompare]
  | _ :: _, [] => by rw [ltTable, lexicographicalCompare]
  | (_, _) :: xs, (_, _) :: ys => by rw [ltTable, lexicographicalCompare, ltTable_eq xs ys]; rfl

/-- Equal indices mean one alternative on both sides — the case split every relational proof
starts from. -/
theorem index_eq_cases {x y : Value r} (h : x.index = y.index) :
    (∃ a b, x = scalar a ∧ y = scalar b) ∨ (∃ xs ys, x = set xs ∧ y = set ys) ∨
      (∃ xs ys, x = table xs ∧ y = table ys) ∨ (∃ xs ys, x = vector xs ∧ y = vector ys) := by
  cases x <;> cases y <;> simp [index] at h ⊢ <;>
    first | omega | exact absurd (Scalar.index_lt ‹Scalar›) (by omega)

/-! ## `eq_predicate` -/

mutual

/-- **`visit_if_same_type(eq_predicate{}, lhs, rhs)`**, the `==` between any two of `data` and
`variant_data`: different alternatives are unequal; payloads compare with their own `==`; a
container's pointer is dereferenced and the elements compared by `std::equal`. -/
def eqPredicate : Value r₁ → Value r₂ → Bool
  | scalar a, scalar b => a.eq b
  | set xs, set ys => eqList xs ys
  | table xs, table ys => eqTable xs ys
  | vector xs, vector ys => eqList xs ys
  | _, _ => false

/-- The four-iterator `std::equal(lhs.begin(), lhs.end(), rhs.begin(), rhs.end(), pred)`: equal
lengths and equal elements, position by position. -/
def eqList : List (Value r₁) → List (Value r₂) → Bool
  | [], [] => true
  | x :: xs, y :: ys => eqPredicate x y && eqList xs ys
  | _, _ => false

/-- `std::equal` over table entries, an entry comparing pair-wise: keys, then values. -/
def eqTable : List (Value r₁ × Value r₁) → List (Value r₂ × Value r₂) → Bool
  | [], [] => true
  | (k, v) :: xs, (k', v') :: ys => (eqPredicate k k' && eqPredicate v v') && eqTable xs ys
  | _, _ => false

end

@[simp] theorem eqPredicate_scalar (a b : Scalar) :
    eqPredicate (scalar a : Value r₁) (scalar b : Value r₂) = a.eq b := rfl

@[simp] theorem eqPredicate_set (xs : List (Value r₁)) (ys : List (Value r₂)) :
    eqPredicate (set xs) (set ys) = eqList xs ys := rfl

@[simp] theorem eqPredicate_table (xs : List (Value r₁ × Value r₁))
    (ys : List (Value r₂ × Value r₂)) : eqPredicate (table xs) (table ys) = eqTable xs ys := rfl

@[simp] theorem eqPredicate_vector (xs : List (Value r₁)) (ys : List (Value r₂)) :
    eqPredicate (vector xs) (vector ys) = eqList xs ys := rfl

theorem eqList_eq : ∀ (xs : List (Value r₁)) (ys : List (Value r₂)),
    eqList xs ys = equal eqPredicate xs ys
  | [], [] => rfl
  | [], _ :: _ => rfl
  | _ :: _, [] => rfl
  | x :: xs, y :: ys => congrArg (eqPredicate x y && ·) (eqList_eq xs ys)

theorem eqTable_eq : ∀ (xs : List (Value r₁ × Value r₁)) (ys : List (Value r₂ × Value r₂)),
    eqTable xs ys = equal (fun p q => eqPredicate p.1 q.1 && eqPredicate p.2 q.2) xs ys
  | [], [] => rfl
  | [], _ :: _ => rfl
  | _ :: _, [] => rfl
  | (k, v) :: xs, (k', v') :: ys =>
    congrArg ((eqPredicate k k' && eqPredicate v v') && ·) (eqTable_eq xs ys)

theorem eqPredicate_of_index_ne {x : Value r₁} {y : Value r₂} (h : x.index ≠ y.index) :
    eqPredicate x y = false := by
  cases x <;> cases y <;> simp only [index, ne_eq, not_true_eq_false] at h <;>
    first | rfl | exact Scalar.eq_of_index_ne h

/-! ## NaN-free trees -/

mutual

/-- No `real` anywhere in the tree is a NaN. -/
def nanFree : Value r → Bool
  | scalar a => a.nanFree
  | set xs => nanFreeList xs
  | table xs => nanFreeTable xs
  | vector xs => nanFreeList xs

/-- Every element is NaN-free. -/
def nanFreeList : List (Value r) → Bool
  | [] => true
  | x :: xs => x.nanFree && nanFreeList xs

/-- Every key and value is NaN-free. -/
def nanFreeTable : List (Value r × Value r) → Bool
  | [] => true
  | (k, v) :: xs => (k.nanFree && v.nanFree) && nanFreeTable xs

end

theorem nanFreeList_iff : ∀ xs : List (Value r), nanFreeList xs = true ↔ ∀ x ∈ xs, x.nanFree
  | [] => by simp [nanFreeList]
  | x :: xs => by simp [nanFreeList, nanFreeList_iff xs]

theorem nanFreeTable_iff : ∀ xs : List (Value r × Value r),
    nanFreeTable xs = true ↔ ∀ p ∈ xs, p.1.nanFree ∧ p.2.nanFree
  | [] => by simp [nanFreeTable]
  | (k, v) :: xs => by simp [nanFreeTable, nanFreeTable_iff xs, and_assoc]

/-! ## The other representation -/

mutual

/-- The same tree read in representation `r'`: what the decoder builds from an owning value, and
what `to_data` returns on a well-formed view. -/
def reinterpret : Value r → Value r'
  | scalar a => scalar a
  | set xs => set (reinterpretList xs)
  | table xs => table (reinterpretTable xs)
  | vector xs => vector (reinterpretList xs)

/-- `reinterpret`, element by element. -/
def reinterpretList : List (Value r) → List (Value r')
  | [] => []
  | x :: xs => reinterpret x :: reinterpretList xs

/-- `reinterpret`, entry by entry. -/
def reinterpretTable : List (Value r × Value r) → List (Value r' × Value r')
  | [] => []
  | (k, v) :: xs => (reinterpret k, reinterpret v) :: reinterpretTable xs

end

/-! ## The container invariant -/

mutual

/-- **The class invariant of `std::set` and `std::map`**: a set's elements, and a table's keys,
iterate in strictly increasing `lt` order, at every depth. -/
def WellFormed : Value r → Prop
  | scalar _ => True
  | set xs => xs.Pairwise (fun a b => lt a b) ∧ WellFormedList xs
  | table xs => xs.Pairwise (fun p q => keyLt p q) ∧ WellFormedTable xs
  | vector xs => WellFormedList xs

/-- Every element is well formed. -/
def WellFormedList : List (Value r) → Prop
  | [] => True
  | x :: xs => x.WellFormed ∧ WellFormedList xs

/-- Every key and value is well formed. -/
def WellFormedTable : List (Value r × Value r) → Prop
  | [] => True
  | (k, v) :: xs => (k.WellFormed ∧ v.WellFormed) ∧ WellFormedTable xs

end

theorem wellFormedList_iff : ∀ xs : List (Value r), WellFormedList xs ↔ ∀ x ∈ xs, x.WellFormed
  | [] => ⟨fun _ _ h => (List.not_mem_nil _ h).elim, fun _ => trivial⟩
  | _ :: xs => (and_congr_right' (wellFormedList_iff xs)).trans List.forall_mem_cons.symm

theorem wellFormedTable_iff : ∀ xs : List (Value r × Value r),
    WellFormedTable xs ↔ ∀ p ∈ xs, p.1.WellFormed ∧ p.2.WellFormed
  | [] => ⟨fun _ _ h => (List.not_mem_nil _ h).elim, fun _ => trivial⟩
  | (_, _) :: xs => by rw [List.forall_mem_cons, ← wellFormedTable_iff xs]; rfl

/-! ## Reading a tree in the other representation

Nothing `lt`, `eqPredicate` or `nanFree` computes depends on the representation, so
reinterpreting a tree changes none of them. -/

theorem reinterpretList_eq_map :
    ∀ xs : List (Value r), (reinterpretList xs : List (Value r')) = xs.map reinterpret
  | [] => rfl
  | x :: xs => by rw [reinterpretList, reinterpretList_eq_map xs, List.map_cons]

theorem reinterpretTable_eq_map : ∀ xs : List (Value r × Value r),
    (reinterpretTable xs : List (Value r' × Value r')) =
      xs.map fun p => (reinterpret p.1, reinterpret p.2)
  | [] => rfl
  | (_, _) :: xs => by rw [reinterpretTable, reinterpretTable_eq_map xs, List.map_cons]

mutual

/-- Reading a tree in another representation and back gives it back. -/
theorem reinterpret_reinterpret :
    ∀ x : Value r, (reinterpret (reinterpret x : Value r') : Value r) = x
  | scalar _ => rfl
  | set xs => by rw [reinterpret, reinterpret, reinterpretList_reinterpretList xs]
  | table xs => by rw [reinterpret, reinterpret, reinterpretTable_reinterpretTable xs]
  | vector xs => by rw [reinterpret, reinterpret, reinterpretList_reinterpretList xs]

theorem reinterpretList_reinterpretList :
    ∀ xs : List (Value r),
      (reinterpretList (reinterpretList xs : List (Value r')) : List (Value r)) = xs
  | [] => rfl
  | x :: xs => by
    rw [reinterpretList, reinterpretList, reinterpret_reinterpret x,
      reinterpretList_reinterpretList xs]

theorem reinterpretTable_reinterpretTable : ∀ xs : List (Value r × Value r),
    (reinterpretTable (reinterpretTable xs : List (Value r' × Value r')) :
      List (Value r × Value r)) = xs
  | [] => rfl
  | (k, v) :: xs => by
    rw [reinterpretTable, reinterpretTable, reinterpret_reinterpret k, reinterpret_reinterpret v,
      reinterpretTable_reinterpretTable xs]

end

@[simp] theorem index_reinterpret (x : Value r) : (reinterpret x : Value r').index = x.index := by
  cases x <;> rfl

/-- **Induction over a pair of trees**, by their total size: what `lt`'s own recursion needs, since
it compares members of both sides in both orders. -/
theorem pair_induction {P : Value r → Value r → Prop}
    (step : ∀ x y, (∀ x' y', sizeOf x' + sizeOf y' < sizeOf x + sizeOf y → P x' y') → P x y) :
    ∀ x y, P x y := by
  suffices ∀ n x y, sizeOf x + sizeOf y = n → P x y from fun x y => this _ x y rfl
  intro n
  induction n using Nat.strongRecOn with
  | _ n ih => exact fun x y hn => step x y fun x' y' h => ih _ (hn ▸ h) x' y' rfl

theorem sizeOf_lt_set {a : Value r} {xs : List (Value r)} (h : a ∈ xs) :
    sizeOf a < sizeOf (set xs) := by
  have := List.sizeOf_lt_of_mem h; simp only [set.sizeOf_spec]; omega

theorem sizeOf_lt_vector {a : Value r} {xs : List (Value r)} (h : a ∈ xs) :
    sizeOf a < sizeOf (vector xs) := by
  have := List.sizeOf_lt_of_mem h; simp only [vector.sizeOf_spec]; omega

theorem sizeOf_key_lt_table {k v : Value r} {xs : List (Value r × Value r)} (h : (k, v) ∈ xs) :
    sizeOf k < sizeOf (table xs) := by
  have := List.sizeOf_lt_of_mem h; simp only [table.sizeOf_spec, Prod.mk.sizeOf_spec] at *; omega

theorem sizeOf_value_lt_table {k v : Value r} {xs : List (Value r × Value r)} (h : (k, v) ∈ xs) :
    sizeOf v < sizeOf (table xs) := by
  have := List.sizeOf_lt_of_mem h; simp only [table.sizeOf_spec, Prod.mk.sizeOf_spec] at *; omega

/-- **Reinterpreting keeps the order.** -/
theorem lt_reinterpret :
    ∀ x y : Value r, lt (reinterpret x : Value r') (reinterpret y) = lt x y := by
  refine pair_induction fun x y ih => ?_
  by_cases h : x.index = y.index
  · rcases index_eq_cases h with ⟨a, b, rfl, rfl⟩ | ⟨xs, ys, rfl, rfl⟩ | ⟨xs, ys, rfl, rfl⟩ |
      ⟨xs, ys, rfl, rfl⟩
    · simp [reinterpret]
    · simp only [reinterpret, lt_set, ltList_eq, reinterpretList_eq_map]
      exact lexicographicalCompare_map _ _ _ xs ys fun a ha b hb =>
        ⟨ih a b (Nat.add_lt_add (sizeOf_lt_set ha) (sizeOf_lt_set hb)),
          ih b a (by have := Nat.add_lt_add (sizeOf_lt_set hb) (sizeOf_lt_set ha); omega)⟩
    · simp only [reinterpret, lt_table, ltTable_eq, reinterpretTable_eq_map]
      refine lexicographicalCompare_map _ _ _ xs ys fun ⟨k, v⟩ hp ⟨k', v'⟩ hq => ?_
      have hk := sizeOf_key_lt_table hp
      have hv := sizeOf_value_lt_table hp
      have hk' := sizeOf_key_lt_table hq
      have hv' := sizeOf_value_lt_table hq
      simp only [pairLt, ih k k' (by omega), ih k' k (by omega), ih v v' (by omega),
        ih v' v (by omega), and_self]
    · simp only [reinterpret, lt_vector, ltList_eq, reinterpretList_eq_map]
      exact lexicographicalCompare_map _ _ _ xs ys fun a ha b hb =>
        ⟨ih a b (Nat.add_lt_add (sizeOf_lt_vector ha) (sizeOf_lt_vector hb)),
          ih b a (by have := Nat.add_lt_add (sizeOf_lt_vector hb) (sizeOf_lt_vector ha); omega)⟩
  · rw [lt_of_index_ne h, lt_of_index_ne (by simpa using h), index_reinterpret, index_reinterpret]

mutual

/-- **Reinterpreting keeps equality**, on the left (and by `eqPredicate_comm` on the right). -/
theorem eqPredicate_reinterpret_left :
    ∀ (x : Value r₁) (y : Value r₂), eqPredicate (reinterpret x : Value r') y = eqPredicate x y
  | scalar _, y => by cases y <;> rfl
  | set xs, y => by cases y <;> first | rfl | exact eqList_reinterpret_left xs _
  | table xs, y => by cases y <;> first | rfl | exact eqTable_reinterpret_left xs _
  | vector xs, y => by cases y <;> first | rfl | exact eqList_reinterpret_left xs _

theorem eqList_reinterpret_left : ∀ (xs : List (Value r₁)) (ys : List (Value r₂)),
    eqList (reinterpretList xs : List (Value r')) ys = eqList xs ys
  | [], ys => by cases ys <;> rfl
  | _ :: _, [] => rfl
  | x :: xs, y :: ys =>
    congrArg₂ (· && ·) (eqPredicate_reinterpret_left x y) (eqList_reinterpret_left xs ys)

theorem eqTable_reinterpret_left :
    ∀ (xs : List (Value r₁ × Value r₁)) (ys : List (Value r₂ × Value r₂)),
      eqTable (reinterpretTable xs : List (Value r' × Value r')) ys = eqTable xs ys
  | [], ys => by cases ys <;> rfl
  | _ :: _, [] => rfl
  | (k, v) :: xs, (k', v') :: ys =>
    congrArg₂ (· && ·)
      (congrArg₂ (· && ·) (eqPredicate_reinterpret_left k k') (eqPredicate_reinterpret_left v v'))
      (eqTable_reinterpret_left xs ys)

end

mutual

/-- **`==` is symmetric**, across representations. -/
theorem eqPredicate_comm : ∀ (x : Value r₁) (y : Value r₂), eqPredicate x y = eqPredicate y x
  | scalar a, y => by cases y <;> first | rfl | exact Scalar.eq_comm a _
  | set xs, y => by cases y <;> first | rfl | exact eqList_comm xs _
  | table xs, y => by cases y <;> first | rfl | exact eqTable_comm xs _
  | vector xs, y => by cases y <;> first | rfl | exact eqList_comm xs _

theorem eqList_comm : ∀ (xs : List (Value r₁)) (ys : List (Value r₂)), eqList xs ys = eqList ys xs
  | [], ys => by cases ys <;> rfl
  | _ :: _, [] => rfl
  | x :: xs, y :: ys => congrArg₂ (· && ·) (eqPredicate_comm x y) (eqList_comm xs ys)

theorem eqTable_comm :
    ∀ (xs : List (Value r₁ × Value r₁)) (ys : List (Value r₂ × Value r₂)),
      eqTable xs ys = eqTable ys xs
  | [], ys => by cases ys <;> rfl
  | _ :: _, [] => rfl
  | (k, v) :: xs, (k', v') :: ys =>
    congrArg₂ (· && ·) (congrArg₂ (· && ·) (eqPredicate_comm k k') (eqPredicate_comm v v'))
      (eqTable_comm xs ys)

end

mutual

/-- **A tree equals itself exactly when it holds no NaN**: IEEE-754 `==` is false on a NaN, and
`==` on a tree reaches every payload. -/
theorem eqPredicate_self : ∀ x : Value r, eqPredicate x x = x.nanFree
  | scalar a => Scalar.eq_self a
  | set xs => eqList_self xs
  | table xs => eqTable_self xs
  | vector xs => eqList_self xs

theorem eqList_self : ∀ xs : List (Value r), eqList xs xs = nanFreeList xs
  | [] => rfl
  | x :: xs => congrArg₂ (· && ·) (eqPredicate_self x) (eqList_self xs)

theorem eqTable_self : ∀ xs : List (Value r × Value r), eqTable xs xs = nanFreeTable xs
  | [] => rfl
  | (k, v) :: xs =>
    congrArg₂ (· && ·) (congrArg₂ (· && ·) (eqPredicate_self k) (eqPredicate_self v))
      (eqTable_self xs)

end

end Value

end Broker
