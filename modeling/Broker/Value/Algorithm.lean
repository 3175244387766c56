import Mathlib.Data.List.Pairwise

/-!
# Value/Algorithm — the two standard-library algorithms the value model leans on

`variant_data.cc` compares containers through `std::lexicographical_compare` (inside the `<` of
`std::set`, `std::map` and `std::vector`), and fills them through `std::set::insert` and
`std::map::emplace`, which keep a container sorted and drop an element equivalent to one already
there.  Both are written once here, over an arbitrary comparator.

* `foldl_insertUnique_of_pairwise` — inserting, one after the other, elements that arrive in
  increasing order rebuilds exactly that sequence: nothing is dropped or moved.  This is all the
  decoder handlers and `to_data` ever do to well-formed input.
* `pairwise_insertUnique` — insertion keeps a container sorted whenever the comparator is
  transitive on what the result holds, whatever order the elements arrive in.
-/

namespace Broker

variable {α : Type*}

/-- **`std::lexicographical_compare`** with comparator `lt`: the first position where one element
precedes the other decides, and a proper prefix comes first. -/
def lexicographicalCompare (lt : α → α → Bool) : List α → List α → Bool
  | [], [] => false
  | [], _ :: _ => true
  | _ :: _, [] => false
  | x :: xs, y :: ys =>
    if lt x y then true else if lt y x then false else lexicographicalCompare lt xs ys

/-- **The four-iterator `std::equal`** with predicate `pred`: equal lengths, and `pred` at every
position. -/
def equal {β : Type*} (pred : α → β → Bool) : List α → List β → Bool
  | [], [] => true
  | x :: xs, y :: ys => pred x y && equal pred xs ys
  | _, _ => false

/-- A sequence does not precede itself when none of its elements precedes itself. -/
theorem lexicographicalCompare_self (lt : α → α → Bool) :
    ∀ xs : List α, (∀ x ∈ xs, lt x x = false) → lexicographicalCompare lt xs xs = false
  | [], _ => rfl
  | x :: xs, h => by
    have hx : ¬lt x x = true := by simp [h x (List.mem_cons_self x xs)]
    rw [lexicographicalCompare, if_neg hx, if_neg hx]
    exact lexicographicalCompare_self lt xs fun y hy => h y (List.mem_cons_of_mem x hy)

/-- Mapping both sequences through `f` leaves the comparison unchanged when `f` carries the order
of every pair of elements, in both directions. -/
theorem lexicographicalCompare_map {β : Type*} (lt : α → α → Bool) (lt' : β → β → Bool)
    (f : α → β) :
    ∀ xs ys : List α, (∀ x ∈ xs, ∀ y ∈ ys, lt' (f x) (f y) = lt x y ∧ lt' (f y) (f x) = lt y x) →
      lexicographicalCompare lt' (xs.map f) (ys.map f) = lexicographicalCompare lt xs ys
  | [], [], _ => rfl
  | [], _ :: _, _ => rfl
  | _ :: _, [], _ => rfl
  | x :: xs, y :: ys, h => by
    obtain ⟨h₁, h₂⟩ := h x (List.mem_cons_self x xs) y (List.mem_cons_self y ys)
    simp only [List.map_cons, lexicographicalCompare, h₁, h₂,
      lexicographicalCompare_map lt lt' f xs ys fun a ha b hb =>
        h a (List.mem_cons_of_mem x ha) b (List.mem_cons_of_mem y hb)]

/-- **`std::set::insert`**, and `std::map::emplace` when `lt` compares keys: walk the sorted
contents past every element before `x`; `x` goes in front of the first element after it, and is
dropped on meeting one that is neither before nor after it. -/
def insertUnique (lt : α → α → Bool) (x : α) : List α → List α
  | [] => [x]
  | y :: ys =>
    if lt y x then y :: insertUnique lt x ys else if lt x y then x :: y :: ys else y :: ys

/-- An element after everything present is appended. -/
theorem insertUnique_of_forall_lt (lt : α → α → Bool) (x : α) :
    ∀ ys : List α, (∀ y ∈ ys, lt y x) → insertUnique lt x ys = ys ++ [x]
  | [], _ => rfl
  | y :: ys, h => by
    rw [insertUnique, if_pos (h y (List.mem_cons_self y ys)),
      insertUnique_of_forall_lt lt x ys fun z hz => h z (List.mem_cons_of_mem y hz)]
    rfl

/-- **Sorted input is kept as it comes.**  Inserting the elements of `xs` one by one into `acc`,
when `acc ++ xs` is strictly increasing under `lt`, appends them in order. -/
theorem foldl_insertUnique_of_pairwise (lt : α → α → Bool) :
    ∀ (xs acc : List α), (acc ++ xs).Pairwise (fun a b => lt a b) →
      xs.foldl (fun s x => insertUnique lt x s) acc = acc ++ xs
  | [], acc, _ => by simp
  | x :: xs, acc, h => by
    have hx : ∀ y ∈ acc, lt y x := fun y hy =>
      (List.pairwise_append.1 h).2.2 y hy x (List.mem_cons_self x xs)
    rw [List.foldl_cons, insertUnique_of_forall_lt lt x acc hx,
      foldl_insertUnique_of_pairwise lt xs (acc ++ [x]) (by simpa using h)]
    simp

/-- An element of the result is the inserted one or was there before. -/
theorem mem_insertUnique {lt : α → α → Bool} {x y : α} :
    ∀ {ys : List α}, y ∈ insertUnique lt x ys → y = x ∨ y ∈ ys
  | [], h => .inl (List.mem_singleton.1 h)
  | z :: ys, h => by
    rw [insertUnique] at h
    split_ifs at h
    · rcases List.mem_cons.1 h with rfl | h
      · exact .inr (List.mem_cons_self _ _)
      · exact (mem_insertUnique h).imp_right (List.mem_cons_of_mem z)
    · exact List.mem_cons.1 h
    · exact .inr h

/-- Nothing present is removed. -/
theorem mem_insertUnique_of_mem {lt : α → α → Bool} {x y : α} :
    ∀ {ys : List α}, y ∈ ys → y ∈ insertUnique lt x ys
  | z :: ys, h => by
    rw [insertUnique]
    split_ifs
    · rcases List.mem_cons.1 h with rfl | h
      · exact List.mem_cons_self _ _
      · exact List.mem_cons_of_mem _ (mem_insertUnique_of_mem h)
    · exact List.mem_cons_of_mem _ h
    · exact h

/-- **Insertion keeps a container sorted** when `lt` is transitive on the elements the result
holds (those satisfying `ok`).  Transitivity is needed only where `x` goes in, so an element that
is dropped need not be comparable at all. -/
theorem pairwise_insertUnique {lt : α → α → Bool} (ok : α → Prop)
    (htrans : ∀ a b c, ok a → ok b → ok c → lt a b → lt b c → lt a c) {x : α} :
    ∀ {ys : List α}, ys.Pairwise (fun a b => lt a b) → (∀ y ∈ insertUnique lt x ys, ok y) →
      (insertUnique lt x ys).Pairwise (fun a b => lt a b)
  | [], _, _ => List.pairwise_singleton _ _
  | y :: ys, hys, hok => by
    rw [List.pairwise_cons] at hys
    rw [insertUnique] at hok ⊢
    split_ifs at hok ⊢ with hyx hxy
    · refine List.pairwise_cons.2 ⟨fun z hz => ?_, pairwise_insertUnique ok htrans hys.2
        fun z hz => hok z (List.mem_cons_of_mem y hz)⟩
      rcases mem_insertUnique hz with rfl | hz
      · exact hyx
      · exact hys.1 z hz
    · refine List.pairwise_cons.2 ⟨fun z hz => ?_, List.pairwise_cons.2 hys⟩
      rcases List.mem_cons.1 hz with rfl | hz
      · exact hxy
      · exact htrans x y z (hok x (List.mem_cons_self _ _))
          (hok y (List.mem_cons_of_mem _ (List.mem_cons_self _ _)))
          (hok z (List.mem_cons_of_mem _ (List.mem_cons_of_mem _ hz))) hxy (hys.1 z hz)
    · exact List.pairwise_cons.2 hys

end Broker
