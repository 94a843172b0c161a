import Mathlib.Data.List.Nodup

/-!
# Lists without repetitions

What is left of a list when each element stays at its first place only.

* `distinct_induction`: induction that takes out one element at a time.
* `eraseDups_filter`: elements can be left out before or afterwards.
* `eraseDups_append_eq`: of a second list, what is not in the first is added.
* **`nodup_eraseDups`**: nothing is left twice.
* `length_eraseDups_of_perm`: how many there are left.
-/

namespace Formula

section

variable {α : Type} [DecidableEq α]

theorem eraseDups_cons_eq (x : α) (xs : List α) :
    (x :: xs).eraseDups = x :: (xs.filter (· ≠ x)).eraseDups := by
  rw [List.eraseDups_cons]
  congr 2
  exact List.filter_congr fun y _ => by by_cases h : y = x <;> simp [h]

/-- Induction along the recursion of `eraseDups`, which goes on with what else is in the rest. -/
theorem distinct_induction {p : List α → Prop} (nil : p [])
    (cons : ∀ x xs, p (xs.filter (· ≠ x)) → p (x :: xs)) : ∀ xs, p xs
  | [] => nil
  | x :: xs => cons x xs (distinct_induction nil cons (xs.filter (· ≠ x)))
termination_by xs => xs.length
decreasing_by exact Nat.lt_succ_of_le (List.length_filter_le ..)

theorem eraseDups_filter (p : α → Bool) (xs : List α) :
    (xs.filter p).eraseDups = xs.eraseDups.filter p := by
  induction xs using distinct_induction with
  | nil => rfl
  | cons x xs ih =>
    rw [eraseDups_cons_eq]
    by_cases hx : p x = true
    · rw [List.filter_cons_of_pos hx, List.filter_cons_of_pos hx, eraseDups_cons_eq, ← ih,
        List.filter_filter, List.filter_filter]
      simp only [Bool.and_comm]
    · rw [List.filter_cons_of_neg hx, List.filter_cons_of_neg hx, ← ih, List.filter_filter]
      congr 1
      refine List.filter_congr fun y _ => ?_
      by_cases h : y = x <;> simp [h, hx]

theorem eraseDups_append_eq (xs ys : List α) :
    (xs ++ ys).eraseDups = xs.eraseDups ++ (ys.filter (· ∉ xs)).eraseDups := by
  rw [List.eraseDups_append, List.removeAll]
  congr 2
  exact List.filter_congr fun y _ => by simp

theorem nodup_eraseDups (xs : List α) : xs.eraseDups.Nodup := by
  induction xs using distinct_induction with
  | nil => exact List.nodup_nil
  | cons x xs ih =>
    rw [eraseDups_cons_eq, List.nodup_cons]
    exact ⟨by simp [List.mem_eraseDups], ih⟩

theorem length_eraseDups_of_perm {xs ys : List α} (h : xs.Perm ys) :
    xs.eraseDups.length = ys.eraseDups.length := by
  have hperm : xs.eraseDups.Perm ys.eraseDups :=
    (List.perm_ext_iff_of_nodup (nodup_eraseDups xs) (nodup_eraseDups ys)).2 fun x => by
      rw [List.mem_eraseDups, List.mem_eraseDups, h.mem_iff]
  exact hperm.length_eq

end

end Formula
