import Broker.Value.Algorithm
import Mathlib.Data.List.Lex
import Mathlib.Data.Int.Order.Basic

/-!
# Value/Tokens — the token order every value order is measured against

A value tree flattens to a stream of integers (`Value/Order`): its index, its payload, and for a
container its elements' streams closed by `-1`.  Integer streams compared lexicographically form a
strict total order (Mathlib's `List.Lex`), and a comparison that agrees with it inherits every law
of one.  Two facts make the agreement provable one constructor at a time:

* `tokenLt_append_of_ne` — complete streams are `PrefixFree`, so two different ones, each followed
  by more, compare as the two complete streams do;
* `lexicographicalCompare_iff`, `equal_iff` — `std::lexicographical_compare` and `std::equal` over
  elements that agree with their streams agree with the streams of the whole sequences.
-/

namespace Broker

variable {α : Type*}

/-- The token order: integer streams, lexicographically. -/
abbrev TokenLt : List Int → List Int → Prop := List.Lex (· < ·)

/-- Neither stream is a proper prefix of the other: they begin a common stream only when equal. -/
def PrefixFree (u v : List Int) : Prop := ∀ r s, u ++ r = v ++ s → u = v

/-- The stream opens with a non-negative token, so it is never taken for a terminator `-1`. -/
def Opens (u : List Int) : Prop := ∃ t w, u = t :: w ∧ 0 ≤ t

variable {u v u' v' A B : List Int}

/-! ## Comparing streams -/

theorem tokenLt_irrefl (u : List Int) : ¬TokenLt u u := irrefl_of _ u

theorem tokenLt_cons_cons {a b : Int} (h : a ≠ b) : TokenLt (a :: u) (b :: v) ↔ a < b := by
  refine ⟨fun h' => ?_, List.Lex.rel⟩
  cases h' with
  | cons => exact absurd rfl h
  | rel hab => exact hab

theorem tokenLt_cons_iff (a : Int) : TokenLt (a :: u) (a :: v) ↔ TokenLt u v := List.Lex.cons_iff

theorem tokenLt_append_left (w : List Int) : TokenLt (w ++ u) (w ++ v) ↔ TokenLt u v := by
  induction w with
  | nil => rfl
  | cons a w ih => rw [List.cons_append, List.cons_append, tokenLt_cons_iff, ih]

theorem tokenLt_singleton (m n : Int) : TokenLt [m] [n] ↔ m < n := List.Lex.singleton_iff m n

theorem prefixFree_singleton (m n : Int) : PrefixFree [m] [n] :=
  fun _ _ h => by rw [(List.cons.inj h).1]

theorem PrefixFree.symm (h : PrefixFree u v) : PrefixFree v u :=
  fun r s hrs => (h s r hrs.symm).symm

theorem prefixFree_cons_of_ne {a b : Int} (h : a ≠ b) (u v : List Int) :
    PrefixFree (a :: u) (b :: v) :=
  fun _ _ hrs => absurd (List.cons.inj hrs).1 h

theorem PrefixFree.cons (a : Int) (h : PrefixFree u v) : PrefixFree (a :: u) (a :: v) :=
  fun r s hrs => by rw [h r s (List.cons.inj hrs).2]

theorem PrefixFree.of_cons {a : Int} (h : PrefixFree (a :: u) (a :: v)) : PrefixFree u v :=
  fun r s hrs => (List.cons.inj (h r s (by rw [List.cons_append, List.cons_append, hrs]))).2

theorem PrefixFree.append (h₁ : PrefixFree u v) (h₂ : PrefixFree u' v') :
    PrefixFree (u ++ u') (v ++ v') := by
  intro r s hrs
  simp only [List.append_assoc] at hrs
  obtain rfl := h₁ _ _ hrs
  rw [h₂ _ _ (List.append_cancel_left hrs)]

/-- **Complete streams decide at once.**  Two different prefix-free streams compare as they do,
whatever follows each. -/
theorem tokenLt_append_of_ne (h : PrefixFree u v) (hne : u ≠ v) (r s : List Int) :
    TokenLt (u ++ r) (v ++ s) ↔ TokenLt u v := by
  induction u generalizing v with
  | nil => exact absurd (h v [] (by simp)) hne
  | cons a u ih =>
    cases v with
    | nil => exact absurd (h [] (a :: u) (by simp)) hne
    | cons b v =>
      by_cases hab : a = b
      · subst hab
        rw [List.cons_append, List.cons_append, tokenLt_cons_iff, tokenLt_cons_iff]
        exact ih h.of_cons fun e => hne (e ▸ rfl)
      · rw [List.cons_append, List.cons_append, tokenLt_cons_cons hab, tokenLt_cons_cons hab]

/-! ## One step of a comparison -/

/-- **One step of `std::lexicographical_compare`**: decided by the heads `u`, `v` when they differ,
by the rest `A`, `B` when they agree. -/
theorem lexStep_iff {a b c : Bool} (ha : a = true ↔ TokenLt u v) (hb : b = true ↔ TokenLt v u)
    (hc : c = true ↔ TokenLt A B) (h : PrefixFree u v) :
    (if a then true else if b then false else c) = true ↔ TokenLt (u ++ A) (v ++ B) := by
  by_cases huv : u = v
  · subst huv
    have ha' : a = false := by simpa [tokenLt_irrefl] using ha
    rw [tokenLt_append_left, ← hc, ha', if_neg (by decide)]
    have hb' : b = false := by simpa [tokenLt_irrefl] using hb
    rw [hb', if_neg (by decide)]
  · rw [tokenLt_append_of_ne h huv]
    rcases trichotomous_of TokenLt u v with hl | rfl | hg
    · simp [ha.2 hl, hl]
    · exact absurd rfl huv
    · have ha' : a = false := Bool.eq_false_iff.2 fun e => asymm_of TokenLt hg (ha.1 e)
      simp [ha', hb.2 hg, asymm_of TokenLt hg]

/-- The same step in the form `std::pair`'s and `std::tie`'s `<` take: `a || (!b && c)`. -/
theorem pairStep_iff {a b c : Bool} (ha : a = true ↔ TokenLt u v) (hb : b = true ↔ TokenLt v u)
    (hc : c = true ↔ TokenLt A B) (h : PrefixFree u v) :
    (a || (!b && c)) = true ↔ TokenLt (u ++ A) (v ++ B) := by
  rw [← lexStep_iff ha hb hc h]
  cases a <;> cases b <;> rfl

/-- **One step of `std::equal`**: the heads agree and so do the rests. -/
theorem eqStep_iff {a c : Bool} (ha : a = true ↔ u = v) (hc : c = true ↔ A = B)
    (h : PrefixFree u v) : (a && c) = true ↔ u ++ A = v ++ B := by
  rw [Bool.and_eq_true, ha, hc]
  refine ⟨fun ⟨huv, hAB⟩ => huv ▸ hAB ▸ rfl, fun e => ?_⟩
  obtain rfl := h _ _ e
  exact ⟨rfl, List.append_cancel_left e⟩

/-! ## Sequences -/

/-- A sequence's stream: its elements' streams, then the terminator `-1`. -/
def seqTokens (T : α → List Int) (xs : List α) : List Int := (xs.map T).flatten ++ [-1]

@[simp] theorem seqTokens_nil (T : α → List Int) : seqTokens T [] = [-1] := rfl

@[simp] theorem seqTokens_cons (T : α → List Int) (x : α) (xs : List α) :
    seqTokens T (x :: xs) = T x ++ seqTokens T xs := by
  simp [seqTokens]

variable (T : α → List Int) (hT : ∀ z, Opens (T z))
include hT

theorem terminator_lt (z : α) (s : List Int) : TokenLt [-1] (T z ++ s) := by
  obtain ⟨t, w, hz, ht⟩ := hT z
  rw [hz, List.cons_append, tokenLt_cons_cons (by omega)]
  omega

theorem prefixFree_terminator (z : α) (s : List Int) : PrefixFree [-1] (T z ++ s) := by
  obtain ⟨t, w, hz, ht⟩ := hT z
  rw [hz, List.cons_append]
  exact prefixFree_cons_of_ne (by omega) _ _

theorem prefixFree_seqTokens : ∀ xs ys : List α,
    (∀ x ∈ xs, ∀ y ∈ ys, PrefixFree (T x) (T y)) → PrefixFree (seqTokens T xs) (seqTokens T ys)
  | [], [], _ => fun _ _ _ => rfl
  | [], y :: ys, _ => by simpa using prefixFree_terminator T hT y (seqTokens T ys)
  | x :: xs, [], _ => by simpa using (prefixFree_terminator T hT x (seqTokens T xs)).symm
  | x :: xs, y :: ys, h => by
    simpa using (h x (List.mem_cons_self x xs) y (List.mem_cons_self y ys)).append
      (prefixFree_seqTokens xs ys fun a ha b hb =>
        h a (List.mem_cons_of_mem x ha) b (List.mem_cons_of_mem y hb))

/-- **`std::lexicographical_compare` is the token order of the sequences**, when it is the token
order of every pair of elements, both ways round. -/
theorem lexicographicalCompare_iff (lt : α → α → Bool) : ∀ xs ys : List α,
    (∀ x ∈ xs, ∀ y ∈ ys, PrefixFree (T x) (T y) ∧ (lt x y = true ↔ TokenLt (T x) (T y)) ∧
      (lt y x = true ↔ TokenLt (T y) (T x))) →
    (lexicographicalCompare lt xs ys = true ↔ TokenLt (seqTokens T xs) (seqTokens T ys))
  | [], [], _ => by simp [lexicographicalCompare, tokenLt_irrefl]
  | [], y :: ys, _ => by simpa [lexicographicalCompare] using terminator_lt T hT y _
  | x :: xs, [], _ => by
    simpa [lexicographicalCompare] using asymm_of TokenLt (terminator_lt T hT x (seqTokens T xs))
  | x :: xs, y :: ys, h => by
    obtain ⟨hpf, hxy, hyx⟩ := h x (List.mem_cons_self x xs) y (List.mem_cons_self y ys)
    simpa only [lexicographicalCompare, seqTokens_cons] using lexStep_iff hxy hyx
      (lexicographicalCompare_iff lt xs ys fun a ha b hb =>
        h a (List.mem_cons_of_mem x ha) b (List.mem_cons_of_mem y hb)) hpf

/-- **`std::equal` is equality of the sequences' streams**, when `pred` is equality of the
elements' streams. -/
theorem equal_iff (pred : α → α → Bool) : ∀ xs ys : List α,
    (∀ x ∈ xs, ∀ y ∈ ys, PrefixFree (T x) (T y) ∧ (pred x y = true ↔ T x = T y)) →
    (equal pred xs ys = true ↔ seqTokens T xs = seqTokens T ys)
  | [], [], _ => by simp [equal]
  | [], y :: ys, _ => by
    obtain ⟨t, w, hy, ht⟩ := hT y
    simp only [equal, seqTokens_nil, seqTokens_cons, hy, List.cons_append]
    simp only [Bool.false_eq_true, false_iff, List.cons.injEq, not_and]
    omega
  | x :: xs, [], _ => by
    obtain ⟨t, w, hx, ht⟩ := hT x
    simp only [equal, seqTokens_nil, seqTokens_cons, hx, List.cons_append]
    simp only [Bool.false_eq_true, false_iff, List.cons.injEq, not_and]
    omega
  | x :: xs, y :: ys, h => by
    obtain ⟨hpf, hxy⟩ := h x (List.mem_cons_self x xs) y (List.mem_cons_self y ys)
    simpa only [equal, seqTokens_cons] using eqStep_iff hxy
      (equal_iff pred xs ys fun a ha b hb =>
        h a (List.mem_cons_of_mem x ha) b (List.mem_cons_of_mem y hb)) hpf

end Broker
