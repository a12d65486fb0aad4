namespace FunctionJar

@[simp] def total {α : Type} (size : α → Nat) : List α → Nat
  | [] => 0
  | a :: rest => size a + total size rest

@[simp] theorem total_append {α : Type} (size : α → Nat) (xs ys : List α) :
    total size (xs ++ ys) = total size xs + total size ys := by
  induction xs with
  | nil => simp
  | cons x xs ih => simp [ih, Nat.add_assoc]

end FunctionJar
