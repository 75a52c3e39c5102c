import Mathlib.Order.Lattice

/-!
# The latest of a list

The `n` latest items of a list, with ties in any order, and when the latest of
a part of the list are the latest of the whole.
-/

namespace Recent

variable {α β τ : Type} [LinearOrder τ]

def Falling (key : α → τ) (xs : List α) : Prop := xs.Pairwise fun a b => key b ≤ key a

def Latest (view : α → β) (time : β → τ) (n : Nat) (xs : List α) (shown : List β) : Prop :=
  ∃ order : List α, order.Perm xs ∧ Falling (fun a => time (view a)) order ∧ shown = (order.take n).map view

section
variable {key : α → τ}

theorem Falling.countP_take {xs : List α} (h : Falling key xs) (t : τ) (n : Nat) :
    (xs.take n).countP (fun a => t ≤ key a) = min n (xs.countP fun a => t ≤ key a) := by
  induction xs generalizing n with
  | nil => simp
  | cons a xs ih =>
    obtain ⟨ha, hxs⟩ := List.pairwise_cons.mp h
    cases n with
    | zero => simp
    | succ n =>
      by_cases hat : t ≤ key a
      · rw [List.take_succ_cons, List.countP_cons_of_pos (by simpa using hat),
          List.countP_cons_of_pos (by simpa using hat), ih hxs]
        omega
      · have none : ∀ ys : List α, (∀ b ∈ ys, b ∈ xs) → ys.countP (fun b => decide (t ≤ key b)) = 0 := by
          intro ys hys
          rw [List.countP_eq_zero]
          intro b hb ht
          exact hat (le_trans (of_decide_eq_true ht) (ha b (hys b hb)))
        rw [List.take_succ_cons, List.countP_cons_of_neg (by simpa using hat),
          List.countP_cons_of_neg (by simpa using hat),
          none _ fun b => List.mem_of_mem_take, none _ fun b => id, Nat.min_zero]

theorem Falling.take_since {xs : List α} (h : Falling key xs) {t : τ} {n : Nat}
    (hn : n ≤ xs.countP fun a => t ≤ key a)
    {a : α} (ha : a ∈ xs.take n) : t ≤ key a := by
  have hcount := h.countP_take t n
  rw [Nat.min_eq_left hn] at hcount
  have hlen : (xs.take n).length = n := by
    have := List.countP_le_length (p := fun a => decide (t ≤ key a)) (l := xs)
    rw [List.length_take]
    omega
  exact of_decide_eq_true (List.countP_eq_length.mp (hcount.trans hlen.symm) a ha)

end

/-- The latest of a part are the latest of the whole if and only if every item
outside the part is behind `n` items of the part. -/
theorem latest_filter_iff (view : α → β) (time : β → τ) (n : Nat) (xs : List α) (p : α → Bool) {part : List α}
    (hperm : part.Perm (xs.filter p)) (hpart : Falling (fun a => time (view a)) part) :
    Latest view time n xs ((part.take n).map view) ↔
      ∀ t ∈ xs, p t = false → n ≤ (xs.filter p).countP fun a => time (view t) ≤ time (view a) := by
  constructor
  · rintro ⟨order, horder, hfalling, hshown⟩ t ht hpt
    rw [← hperm.countP_eq]
    by_contra hn
    rw [Nat.not_le] at hn
    -- both show as many items since `t`, and the whole has one more
    have hsame : (part.take n).countP (fun a => time (view t) ≤ time (view a)) =
        (order.take n).countP fun a => time (view t) ≤ time (view a) := by
      have := congrArg (List.countP fun b => decide (time (view t) ≤ time b)) hshown
      simpa only [List.countP_map, Function.comp_def] using this
    have hone : part.countP (fun a => decide (time (view t) ≤ time (view a))) + 1 ≤
        order.countP fun a => decide (time (view t) ≤ time (view a)) := by
      rw [hperm.countP_eq, horder.countP_eq, ← (List.filter_append_perm p xs).countP_eq, List.countP_append]
      refine Nat.add_le_add_left
        (List.countP_pos_iff.mpr ⟨t, List.mem_filter.mpr ⟨ht, by simp [hpt]⟩, by simp⟩) _
    rw [hpart.countP_take, hfalling.countP_take] at hsame
    omega
  · intro h
    let rest := (part.drop n ++ xs.filter fun a => !p a).mergeSort fun a b => time (view b) ≤ time (view a)
    have hrest : rest.Perm (part.drop n ++ xs.filter fun a => !p a) := List.mergeSort_perm _ _
    refine ⟨part.take n ++ rest, ?_, ?_, ?_⟩
    · calc
        (part.take n ++ rest).Perm (part.take n ++ (part.drop n ++ xs.filter fun a => !p a)) :=
          hrest.append_left _
        _ = part ++ xs.filter fun a => !p a := by rw [← List.append_assoc, List.take_append_drop]
        List.Perm _ (xs.filter p ++ xs.filter fun a => !p a) := hperm.append_right _
        List.Perm _ xs := List.filter_append_perm p xs
    · refine List.pairwise_append.mpr ⟨List.Pairwise.take hpart, ?_, fun a ha b hb => ?_⟩
      · refine (List.pairwise_mergeSort (fun a b c hab hbc => ?_) (fun a b => ?_) _).imp fun hab =>
          of_decide_eq_true hab
        · exact decide_eq_true (le_trans (of_decide_eq_true hbc) (of_decide_eq_true hab))
        · simpa using le_total (time (view b)) (time (view a))
      · rcases List.mem_append.mp (hrest.mem_iff.mp hb) with hb | hb
        · rw [← List.take_append_drop n part] at hpart
          exact (List.pairwise_append.mp hpart).2.2 a ha b hb
        · obtain ⟨hbx, hpb⟩ := List.mem_filter.mp hb
          have hn := h b hbx (by simpa using hpb)
          rw [← hperm.countP_eq] at hn
          exact hpart.take_since hn ha
    · by_cases hn : n ≤ part.length
      · rw [List.take_append_of_le_length (by rw [List.length_take]; omega), List.take_take, Nat.min_self]
      · -- a part shorter than `n` is the whole
        have hnone : xs.filter (fun a => !p a) = [] := by
          rw [List.filter_eq_nil_iff]
          intro b hb hpb
          have hcount := h b hb (by simpa using hpb)
          rw [← hperm.countP_eq] at hcount
          exact hn (Nat.le_trans hcount List.countP_le_length)
        have hnil : rest = [] := by
          rw [hnone, List.append_nil, List.drop_of_length_le (by omega)] at hrest
          exact hrest.eq_nil
        rw [hnil, List.append_nil, List.take_take, Nat.min_self]

end Recent
