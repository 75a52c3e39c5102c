import Mathlib.Data.List.Basic

/-!
# Delimited fields

A list read at a delimiter: the field before the first one, and the field
after the last one. What stands between them may hold delimiters of its own.
-/

namespace Fields

variable {α : Type} [BEq α] [LawfulBEq α] {c : α} {x y s t : List α}

theorem first_inj (hx : c ∉ x) (hy : c ∉ y) (h : x ++ c :: s = y ++ c :: t) : x = y ∧ s = t := by
  have hsplit := congrArg (List.splitOn c) h
  rw [List.splitOn_append_cons_self_of_not_mem hx, List.splitOn_append_cons_self_of_not_mem hy] at hsplit
  obtain rfl : x = y := (List.cons.inj hsplit).1
  exact ⟨rfl, (List.cons.inj (List.append_cancel_left h)).2⟩

theorem last_inj (hs : c ∉ s) (ht : c ∉ t) (h : x ++ c :: s = y ++ c :: t) : x = y ∧ s = t := by
  have hsplit := congrArg (List.splitOn c) h
  rw [List.splitOn_append_cons_self, List.splitOn_append_cons_self, List.splitOn_eq_singleton hs,
    List.splitOn_eq_singleton ht] at hsplit
  obtain rfl : s = t := List.singleton_inj.mp (List.append_inj_right' hsplit rfl)
  exact ⟨List.append_cancel_right h, rfl⟩

theorem notMem_of_mem_splitOn {xs l : List α} (h : l ∈ xs.splitOn c) : c ∉ l := by
  induction xs generalizing l with
  | nil =>
    rw [List.splitOn_nil] at h
    rw [List.mem_singleton.mp h]
    exact List.not_mem_nil
  | cons x xs ih =>
    rw [List.splitOn_cons_eq_if_modifyHead] at h
    split at h
    · rcases List.mem_cons.mp h with rfl | h
      · exact List.not_mem_nil
      · exact ih h
    next hx =>
      cases hs : xs.splitOn c with
      | nil => exact absurd hs (List.splitOn_ne_nil c xs)
      | cons first rest =>
        rw [hs, List.modifyHead_cons] at h
        rcases List.mem_cons.mp h with rfl | h
        · intro hmem
          rcases List.mem_cons.mp hmem with rfl | hmem
          · simp at hx
          · exact ih (hs ▸ List.mem_cons_self) hmem
        · exact ih (hs ▸ List.mem_cons_of_mem _ h)

end Fields
