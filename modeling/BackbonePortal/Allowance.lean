import BackbonePortal.Tallies
import Mathlib.Algebra.Order.BigOperators.Group.List
import Mathlib.Algebra.Order.Group.Nat

/-!
# Spending what was earned

Some events earn and some spend. A program affords what it spends if on every
path each spending is covered by an earning before it. Where an earning can
happen only once, a run spends at most once on it, however many calls try.
-/

namespace Proc

variable {S : Sig} {ε ε' α β κ : Type}

/-- With `n` in hand, every spending is covered. -/
def Prog.Affords (earns spends : Event S → Bool) : Nat → Prog S ε α → Prop
  | _, .ret _ => True
  | _, .fail _ => True
  | n, .act a k => ∀ r, (spends ⟨a, r⟩).toNat ≤ n ∧
      (k r).Affords earns spends (n + (earns ⟨a, r⟩).toNat - (spends ⟨a, r⟩).toNat)

section
variable {earns spends : Event S → Bool} {n m : Nat}

theorem Prog.Affords.mono (hnm : n ≤ m) {p : Prog S ε α} (hp : p.Affords earns spends n) :
    p.Affords earns spends m := by
  induction p generalizing n m with
  | ret a => trivial
  | fail e => trivial
  | act a k ih =>
    intro r
    obtain ⟨hle, hrest⟩ := hp r
    exact ⟨Nat.le_trans hle hnm, ih r (Nat.sub_le_sub_right (Nat.add_le_add_right hnm _) _) hrest⟩

/-- A program that never spends affords it. -/
theorem Prog.affords_of_all {A : S.Act → Prop} (hA : ∀ a r, A a → spends ⟨a, r⟩ = false) {p : Prog S ε α}
    (hp : p.All A) : p.Affords earns spends n := by
  induction p generalizing n with
  | ret a => trivial
  | fail e => trivial
  | act a k ih =>
    intro r
    rw [hA a r hp.1]
    exact ⟨Nat.zero_le n, ih r (hp.2 r)⟩

theorem Prog.Affords.bind {p : Prog S ε α} {f : α → Prog S ε β} (hp : p.Affords earns spends n)
    (hf : ∀ a, (f a).Affords earns spends 0) : (p.bind f).Affords earns spends n := by
  induction p generalizing n with
  | ret a => exact (hf a).mono (Nat.zero_le n)
  | fail e => trivial
  | act a k ih => exact fun r => ⟨(hp r).1, ih r (hp r).2⟩

/-- What is in hand outlasts a part that never spends. -/
theorem Prog.affords_after {A : S.Act → Prop} (hA : ∀ a r, A a → spends ⟨a, r⟩ = false) {p : Prog S ε α}
    {f : α → Prog S ε β} (hp : p.All A) (hf : ∀ a, (f a).Affords earns spends n) :
    (p.bind f).Affords earns spends n := by
  induction p generalizing n with
  | ret a => exact hf a
  | fail e => trivial
  | act a k ih =>
    intro r
    have hspend := hA a r hp.1
    refine ⟨by rw [hspend]; exact Nat.zero_le n, ih r (hp.2 r) fun b => ?_⟩
    rw [hspend]
    exact (hf b).mono (Nat.le_add_right n _)

theorem Prog.Affords.attempt {p : Prog S ε α} (hp : p.Affords earns spends n) :
    (p.attempt : Prog S ε' (Except ε α)).Affords earns spends n := by
  induction p generalizing n with
  | ret a => trivial
  | fail e => trivial
  | act a k ih => exact fun r => ⟨(hp r).1, ih r (hp r).2⟩

end

/-! ## Runs -/

theorem countP_snoc {γ : Type} (f : γ → Bool) (l : List γ) (x : γ) :
    (l ++ [x]).countP f = l.countP f + (f x).toNat := by
  rw [List.countP_append, List.countP_singleton]
  cases f x <;> rfl

section
variable {M : Machine S} (body : κ → Prog S ε α) {earns spends : Event S → Bool} {P : Pool M ε α κ}

theorem Pool.play_affords (hbody : ∀ t, (body t).Affords earns spends 0) (hP : P.calls = [])
    (ms : List (Move M κ)) :
    ∀ c ∈ (P.play body ms).calls, c.past.countP spends ≤ c.past.countP earns := by
  have key := (P.each_play body (fun _ => True) (fun _ _ => True)
    (fun _ (c : Call S ε α κ) _ => c.past.countP spends ≤ c.past.countP earns ∧
      c.rest.Affords earns spends (c.past.countP earns - c.past.countP spends)) (fun _ => trivial)
    (fun _ _ _ _ _ => trivial) (fun _ _ _ _ _ _ h => h) (fun _ t _ _ _ => ⟨Nat.le_refl 0, hbody t⟩)
    ?_ trivial (by simp [hP]) ms).2.2
  · intro c hc
    obtain ⟨j, hj⟩ := List.getElem?_of_mem hc
    exact (key j c hj).1
  · intro j c w a k i _ ha hc
    obtain ⟨hle, hrest⟩ := hc
    rw [ha] at hrest
    obtain ⟨hcover, hnext⟩ := hrest (M.exec a i w).1
    refine ⟨trivial, trivial, ?_, ?_⟩
    · rw [Call.after_past, countP_snoc, countP_snoc]
      omega
    · rw [Call.after_past, countP_snoc, countP_snoc]
      exact hnext.mono (by omega)

/-- What can be earned only once is earned at most once. -/
theorem Pool.play_earns {F : M.World → Prop} [DecidablePred F]
    (fires : ∀ a i w, earns ⟨a, (M.exec a i w).1⟩ = true → ¬F w ∧ F (M.exec a i w).2)
    (stays : ∀ a i w, F w → F (M.exec a i w).2) (hP : P.calls = []) (ms : List (Move M κ)) :
    ((P.play body ms).calls.map fun c => c.past.countP earns).sum + (if F P.world then 1 else 0) ≤
      if F (P.play body ms).world then 1 else 0 := by
  refine Pool.play_keeps body
    (I := fun Q : Pool M ε α κ => (Q.calls.map fun c => c.past.countP earns).sum + (if F P.world then 1 else 0) ≤
      if F Q.world then 1 else 0)
    (fun Q m hQ => ?_) (by simp [hP]) ms
  rcases Q.next_cases body m with ⟨t, -, h⟩ | ⟨j, i, c, a, k, rfl, hc, ha, h⟩ | ⟨j, i, -, h⟩
  · rw [h]
    simpa using hQ
  · have hpast : (c.after a k (M.exec a i Q.world).1).past.countP earns =
        c.past.countP earns + (earns ⟨a, (M.exec a i Q.world).1⟩).toNat := countP_snoc earns c.past _
    rw [h]
    show _ ≤ if F (M.exec a i Q.world).2 then 1 else 0
    rw [sum_map_set (fun c : Call S ε α κ => c.past.countP earns) hc hpast]
    cases he : earns ⟨a, (M.exec a i Q.world).1⟩ with
    | true =>
      obtain ⟨hno, hyes⟩ := fires a i Q.world he
      rw [if_neg hno] at hQ
      rw [if_pos hyes]
      show _ + 1 + _ ≤ 1
      omega
    | false =>
      show _ + 0 + _ ≤ _
      by_cases hF : F Q.world
      · rw [if_pos hF] at hQ
        rw [if_pos (stays a i Q.world hF)]
        omega
      · rw [if_neg hF] at hQ
        omega
  · rw [h]
    exact hQ

/-- **Once.** A tally that only spending moves grows by at most one, and only
where the earning happened. -/
theorem Pool.play_spends {F : M.World → Prop} [DecidablePred F] {T : M.World → Nat}
    (hbody : ∀ t, (body t).Affords earns spends 0)
    (hrows : ∀ a i w, T (M.exec a i w).2 = T w + (spends ⟨a, (M.exec a i w).1⟩).toNat)
    (fires : ∀ a i w, earns ⟨a, (M.exec a i w).1⟩ = true → ¬F w ∧ F (M.exec a i w).2)
    (stays : ∀ a i w, F w → F (M.exec a i w).2) (hP : P.calls = []) (ms : List (Move M κ)) :
    T (P.play body ms).world + (if F P.world then 1 else 0) ≤
      T P.world + if F (P.play body ms).world then 1 else 0 := by
  have hspent : ((P.play body ms).calls.map fun c => c.past.countP spends).sum ≤
      ((P.play body ms).calls.map fun c => c.past.countP earns).sum :=
    List.sum_le_sum fun c hc => Pool.play_affords body hbody hP ms c hc
  have hearned := Pool.play_earns body fires stays hP ms
  rw [Pool.play_tally body hrows hP ms]
  omega

end

end Proc
