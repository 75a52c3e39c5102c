import BackbonePortal.Prog

/-!
# Two runs side by side

A program that meets two worlds it cannot tell apart answers the same in both,
and leaves two worlds it cannot tell apart.
-/

namespace Proc.Prog

variable {S : Sig} {ε ε' α β : Type} {M : Machine S} {T : M.World → M.World → Prop}

/-- Between worlds related by `T` every action answers the same and keeps `T`;
every outcome satisfies `R`. -/
def Together (M : Machine S) (T : M.World → M.World → Prop) (R : Except ε α → Prop) : Prog S ε α → Prop
  | .ret a => R (.ok a)
  | .fail e => R (.error e)
  | .act a k => ∀ i w w', T w w' →
    (M.exec a i w).1 = (M.exec a i w').1 ∧ T (M.exec a i w).2 (M.exec a i w').2 ∧
      (k (M.exec a i w).1).Together M T R

theorem Together.bind {R : Except ε α → Prop} {Q : Except ε β → Prop} {p : Prog S ε α} {f : α → Prog S ε β}
    (hp : p.Together M T R) (hok : ∀ a, R (.ok a) → (f a).Together M T Q)
    (herr : ∀ e, R (.error e) → Q (.error e)) :
    (p.bind f).Together M T Q := by
  induction p with
  | ret a => exact hok a hp
  | fail e => exact herr e hp
  | act a k ih =>
    intro i w w' hw
    obtain ⟨hres, hT, hk⟩ := hp i w w' hw
    exact ⟨hres, hT, ih _ hk⟩

theorem Together.attempt {R : Except ε α → Prop} {p : Prog S ε α} (hp : p.Together M T R) :
    (p.attempt : Prog S ε' (Except ε α)).Together M T fun r => ∃ o, r = .ok o ∧ R o := by
  induction p with
  | ret a => exact ⟨_, rfl, hp⟩
  | fail e => exact ⟨_, rfl, hp⟩
  | act a k ih =>
    intro i w w' hw
    obtain ⟨hres, hT, hk⟩ := hp i w w' hw
    exact ⟨hres, hT, ih _ hk⟩

/-- **Two runs**: the same outcome, and worlds related again. -/
theorem run_together {R : Except ε α → Prop} {p : Prog S ε α} (hp : p.Together M T R) (i : Nat → M.Input)
    {w w' : M.World} (hw : T w w') :
    (p.run M i w).1 = (p.run M i w').1 ∧ T (p.run M i w).2 (p.run M i w').2 := by
  induction p generalizing i w w' with
  | ret a => exact ⟨rfl, hw⟩
  | fail e => exact ⟨rfl, hw⟩
  | act a k ih =>
    obtain ⟨hres, hT, hk⟩ := hp (i 0) w w' hw
    rw [run_act, run_act, ← hres]
    exact ih _ hk _ hT

end Proc.Prog
