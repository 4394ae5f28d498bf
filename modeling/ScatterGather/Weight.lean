/-!
# Weight — what the elements of a list weigh together

* `weight` : the sum of a measure over a list;
* `weight_set` : what the exchange of one element does to it.
-/

namespace ScatterGather

def weight (measure : α → Nat) : List α → Nat
  | [] => 0
  | a :: rest => measure a + weight measure rest

@[simp] theorem weight_nil (measure : α → Nat) : weight measure [] = 0 := rfl

@[simp] theorem weight_cons (measure : α → Nat) (a : α) (rest : List α) :
    weight measure (a :: rest) = measure a + weight measure rest := rfl

@[simp] theorem weight_append (measure : α → Nat) (xs ys : List α) :
    weight measure (xs ++ ys) = weight measure xs + weight measure ys := by
  induction xs with
  | nil => simp
  | cons x xs ih => simp [ih, Nat.add_assoc]

theorem weight_eq_zero (measure : α → Nat) {xs : List α} (h : ∀ x ∈ xs, measure x = 0) :
    weight measure xs = 0 := by
  induction xs with
  | nil => rfl
  | cons x xs ih =>
      have hrest := ih fun y hy => h y (List.mem_cons_of_mem x hy)
      rw [weight_cons, h x (List.mem_cons_self ..), hrest]

theorem weight_set (measure : α → Nat) {xs : List α} {i : Nat} {x : α} (hx : xs[i]? = some x)
    (y : α) : weight measure (xs.set i y) + measure x = weight measure xs + measure y := by
  induction xs generalizing i with
  | nil => simp at hx
  | cons z zs ih =>
      cases i with
      | zero =>
          cases hx
          simp only [List.set_cons_zero, weight_cons]
          omega
      | succ i =>
          have hrest := ih (i := i) (by simpa using hx)
          simp only [List.set_cons_succ, weight_cons]
          omega

end ScatterGather
