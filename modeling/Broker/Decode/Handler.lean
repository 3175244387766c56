import Broker.Value.ToData

/-!
# Decode/Handler — the decoder handlers of `parse_shallow`, as a stack machine

    value(x) | begin_list … end_list | begin_set … end_set | begin_table … end_table
      ──▸ decoder_handler_value / _list / _set / _table ──▸ variant_data

The v1 decoder walks an encoding and calls a handler: `value(x)` for a payload, `begin_*` to open a
container (the handler returns a fresh child handler, which the decoder then feeds), and `end_*`
to close it (the parent is handed the child and stores the child's arena container).  The
decoder's recursion is a stack of handlers; here it is explicit.  Every handler does one thing
with an item, whether a payload or a finished container: the value handler stores it, the list
handler appends it, the set handler inserts it, and the table handler holds it as the pending key
or pairs it with that key.

* `run_handlerCalls` — **the calls for a well-formed owning value `d` leave the handler having
  received `d` itself**, read as a view: no element lost, duplicated, reordered, or paired with
  the wrong key, at any depth;
* `run_handlerCalls_value` — hence `v == d` and `v.to_data() == d` hold exactly when `d` holds
  no NaN (`run_handlerCalls_nan`: a NaN never equals itself).
-/

namespace Broker

/-- One call the decoder makes on the handler it currently feeds. -/
inductive Event where
  | value (x : Scalar)
  | beginList
  | endList
  | beginSet
  | endSet
  | beginTable
  | endTable

/-- A handler and what it has built so far. -/
inductive Handler where
  /-- `decoder_handler_value`: writes `result->value`. -/
  | value (result : VariantData)
  /-- `decoder_handler_list`: the arena vector `result`. -/
  | list (result : List VariantData)
  /-- `decoder_handler_set`: the arena set `result`. -/
  | set (result : List VariantData)
  /-- `decoder_handler_table`: the arena map `result`, and the pending `key`. -/
  | table (result : List (VariantData × VariantData)) (key : Option VariantData)

namespace Handler

/-- **What a handler does with an item**, a payload (`value(arg)`) or a finished child's container
(`end_*(other)`): `result->value = x`; `emplace_back`; `insert`, dropping an equivalent element; and
`decoder_handler_table::add`, which holds the item as the key or emplaces it under the held key. -/
def add : Handler → VariantData → Handler
  | value _, x => value x
  | list xs, x => list (xs ++ [x])
  | set xs, x => set (insertUnique Value.lt x xs)
  | table xs none, x => table xs (some x)
  | table xs (some k), x => table (insertUnique Value.keyLt (k, x) xs) none

/-- One call on the handler stack: `value` goes to the top handler; `begin_*` pushes the fresh
child the top handler returns; `end_*` pops the child and hands its container to the handler
below.  A call the decoder never makes (an `end_*` of the wrong kind, or on the bottom handler)
fails. -/
def deliver : List Handler → Event → Option (List Handler)
  | h :: hs, .value x => some (h.add (.scalar x) :: hs)
  | h :: hs, .beginList => some (list [] :: h :: hs)
  | h :: hs, .beginSet => some (set [] :: h :: hs)
  | h :: hs, .beginTable => some (table [] none :: h :: hs)
  | list xs :: h :: hs, .endList => some (h.add (.vector xs) :: hs)
  | set xs :: h :: hs, .endSet => some (h.add (.set xs) :: hs)
  | table xs _ :: h :: hs, .endTable => some (h.add (.table xs) :: hs)
  | _, _ => none

/-- A sequence of calls. -/
def run (hs : List Handler) : List Event → Option (List Handler)
  | [] => some hs
  | e :: es => (deliver hs e).bind fun hs' => run hs' es

@[simp] theorem run_nil (hs : List Handler) : run hs [] = some hs := rfl

@[simp] theorem run_cons (hs : List Handler) (e : Event) (es : List Event) :
    run hs (e :: es) = (deliver hs e).bind fun hs' => run hs' es := rfl

/-! ## Feeding one container's elements -/

variable (f : Data → VariantData)

theorem foldl_add_list : ∀ (xs : List Data) (acc : List VariantData),
    xs.foldl (fun h x => h.add (f x)) (list acc) = list (acc ++ xs.map f)
  | [], acc => by simp
  | x :: xs, acc => (foldl_add_list xs (acc ++ [f x])).trans (by simp)

theorem foldl_add_set : ∀ (xs : List Data) (acc : List VariantData),
    xs.foldl (fun h x => h.add (f x)) (set acc) =
      set ((xs.map f).foldl (fun s x => insertUnique Value.lt x s) acc)
  | [], _ => rfl
  | x :: xs, acc => foldl_add_set xs (insertUnique Value.lt (f x) acc)

theorem foldl_add_table : ∀ (xs : List (Data × Data)) (acc : List (VariantData × VariantData)),
    xs.foldl (fun h p => (h.add (f p.1)).add (f p.2)) (table acc none) =
      table ((xs.map fun p => (f p.1, f p.2)).foldl (fun s e => insertUnique Value.keyLt e s) acc)
        none
  | [], _ => rfl
  | x :: xs, acc => foldl_add_table xs (insertUnique Value.keyLt (f x.1, f x.2) acc)

end Handler

namespace Value

mutual

/-- **The handler calls the v1 decoder makes while reading the encoding of `d`**: `value(x)` for a
payload; `begin_*`, the elements' calls in stored order, `end_*` for a container; a table entry's
key calls, then its value calls. -/
def handlerCalls : Data → List Event
  | scalar a => [.value a]
  | set xs => .beginSet :: handlerCallsList xs ++ [.endSet]
  | table xs => .beginTable :: handlerCallsTable xs ++ [.endTable]
  | vector xs => .beginList :: handlerCallsList xs ++ [.endList]

/-- The calls for each element in turn. -/
def handlerCallsList : List Data → List Event
  | [] => []
  | x :: xs => handlerCalls x ++ handlerCallsList xs

/-- The calls for each entry in turn, key before value. -/
def handlerCallsTable : List (Data × Data) → List Event
  | [] => []
  | (k, v) :: xs => handlerCalls k ++ handlerCalls v ++ handlerCallsTable xs

end

open Handler

mutual

/-- **The calls for a well-formed `d` hand `d` itself, as a view, to the handler they start on**,
whatever is below it on the stack and whatever calls follow. -/
theorem run_handlerCalls : ∀ d : Data, d.WellFormed → ∀ (h : Handler) (hs : List Handler)
    (rest : List Event),
      run (h :: hs) (handlerCalls d ++ rest) = run (h.add d.reinterpret :: hs) rest
  | scalar _, _, _, _, _ => by simp [handlerCalls, reinterpret, deliver]
  | set xs, ⟨hs, hw⟩, h, stack, rest => by
    simp only [handlerCalls, List.cons_append, List.append_assoc, List.singleton_append, run_cons,
      deliver, Option.some_bind, run_handlerCallsList xs hw, foldl_add_set, List.nil_append]
    rw [← reinterpretList_eq_map,
      foldl_insertUnique_of_pairwise _ _ [] (pairwise_lt_reinterpretList.2 hs)]
    rfl
  | table xs, ⟨hs, hw⟩, h, stack, rest => by
    simp only [handlerCalls, List.cons_append, List.append_assoc, List.singleton_append, run_cons,
      deliver, Option.some_bind, run_handlerCallsTable xs hw, foldl_add_table, List.nil_append]
    rw [← reinterpretTable_eq_map,
      foldl_insertUnique_of_pairwise _ _ [] (pairwise_keyLt_reinterpretTable.2 hs)]
    rfl
  | vector xs, hw, h, stack, rest => by
    simp only [handlerCalls, List.cons_append, List.append_assoc, List.singleton_append, run_cons,
      deliver, Option.some_bind, run_handlerCallsList xs hw, foldl_add_list, List.nil_append]
    rw [← reinterpretList_eq_map]
    rfl

theorem run_handlerCallsList : ∀ xs : List Data, WellFormedList xs → ∀ (h : Handler)
    (hs : List Handler) (rest : List Event), run (h :: hs) (handlerCallsList xs ++ rest) =
      run (xs.foldl (fun h x => h.add x.reinterpret) h :: hs) rest
  | [], _, _, _, _ => rfl
  | x :: xs, ⟨hx, hxs⟩, h, hs, rest => by
    rw [handlerCallsList, List.append_assoc, run_handlerCalls x hx, run_handlerCallsList xs hxs,
      List.foldl_cons]

theorem run_handlerCallsTable : ∀ xs : List (Data × Data), WellFormedTable xs → ∀ (h : Handler)
    (hs : List Handler) (rest : List Event), run (h :: hs) (handlerCallsTable xs ++ rest) =
      run (xs.foldl (fun h p => (h.add p.1.reinterpret).add p.2.reinterpret) h :: hs) rest
  | [], _, _, _, _ => rfl
  | (k, v) :: xs, ⟨⟨hk, hv⟩, hxs⟩, h, hs, rest => by
    rw [handlerCallsTable, List.append_assoc, List.append_assoc, run_handlerCalls k hk,
      run_handlerCalls v hv, run_handlerCallsTable xs hxs, List.foldl_cons]

end

/-- **Decoding to a `decoder_handler_value`.**  For a well-formed owning `d` (sets and tables
duplicate-free and in value order) the handler's target ends as `d` read as a view, and
`v.to_data()` is `d` itself; `v == d` and `v.to_data() == d` hold exactly when `d` holds no NaN. -/
theorem run_handlerCalls_value (d : Data) (hd : d.WellFormed) (v₀ : VariantData) :
    run [.value v₀] (handlerCalls d) = some [.value d.reinterpret] ∧
      toData d.reinterpret = d ∧
      (eqPredicate (d.reinterpret : VariantData) d = true ↔ d.nanFree = true) ∧
      (eqPredicate (toData d.reinterpret) d = true ↔ d.nanFree = true) := by
  have hv := toData_reinterpret hd
  refine ⟨?_, hv, by rw [eqPredicate_reinterpret_left, eqPredicate_self], by
    rw [hv, eqPredicate_self]⟩
  simpa using run_handlerCalls d hd (.value v₀) [] []

/-- `run_handlerCalls_value` at the owning set `{1, 2}` of counts. -/
theorem run_handlerCalls_value_counts :
    (set [scalar (.count 1), scalar (.count 2)] : Data).WellFormed ∧
      (run [.value (scalar .none)] (handlerCalls (set [scalar (.count 1), scalar (.count 2)])) =
          some [.value (set [scalar (.count 1), scalar (.count 2)] : Data).reinterpret] ∧
        toData (set [scalar (.count 1), scalar (.count 2)] : Data).reinterpret =
          set [scalar (.count 1), scalar (.count 2)] ∧
        (eqPredicate ((set [scalar (.count 1), scalar (.count 2)] : Data).reinterpret : VariantData)
            (set [scalar (.count 1), scalar (.count 2)] : Data) = true ↔
          (set [scalar (.count 1), scalar (.count 2)] : Data).nanFree = true) ∧
        (eqPredicate (toData (set [scalar (.count 1), scalar (.count 2)] : Data).reinterpret)
            (set [scalar (.count 1), scalar (.count 2)] : Data) = true ↔
          (set [scalar (.count 1), scalar (.count 2)] : Data).nanFree = true)) :=
  have h : (set [scalar (.count 1), scalar (.count 2)] : Data).WellFormed := by
    simp [WellFormed, WellFormedList, Scalar.index, Scalar.lt]
  ⟨h, run_handlerCalls_value _ h _⟩

/-- **A NaN is decoded and then unequal to what was encoded**: the handler stores `real(NaN)`, and
`v == d` is false. -/
theorem run_handlerCalls_nan :
    run [.value (scalar .none)] (handlerCalls (scalar (.real Real.nan))) =
        some [.value (scalar (.real Real.nan))] ∧
      eqPredicate (scalar (.real Real.nan) : VariantData) (scalar (.real Real.nan) : Data) =
        false :=
  ⟨rfl, rfl⟩

end Value

end Broker
