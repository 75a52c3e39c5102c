import Mathlib.Logic.Function.Basic
import Mathlib.Logic.Relation

/-!
# Chains of successors

A partial successor function under which no two nodes share a successor and no
node reaches itself: its components are chains. Naming a node nobody reached
as the successor of a last node extends one chain.
-/

namespace Chains

open Relation

variable {α : Type} {next : α → Option α} {a b c : α}

def Step (next : α → Option α) (a b : α) : Prop := next a = some b

structure Chained (next : α → Option α) : Prop where
  injective : ∀ a b c, next a = some c → next b = some c → a = b
  acyclic : ∀ a, ¬TransGen (Step next) a a

theorem chained_none : Chained fun _ : α => none where
  injective a b c h _ := by cases h
  acyclic a h := by
    obtain ⟨b, hb, -⟩ := TransGen.head'_iff.mp h
    cases hb

theorem step_rightUnique : Relator.RightUnique (Step next) := fun _ _ _ hab hac =>
  Option.some.inj ((show next _ = some _ from hab).symm.trans hac)

theorem Chained.comparable (h : Chained next) (hab : EqvGen (Step next) a b) :
    ReflTransGen (Step next) a b ∨ ReflTransGen (Step next) b a := by
  have left : Relator.RightUnique (Function.swap (Step next)) := fun c a b hac hbc => h.injective a b c hac hbc
  induction hab with
  | rel a b hab => exact .inl (.single hab)
  | refl a => exact .inl .refl
  | symm a b _ ih => exact ih.symm
  | trans a b c _ _ ihab ihbc =>
    rcases ihab with hab | hba <;> rcases ihbc with hbc | hcb
    · exact .inl (hab.trans hbc)
    · -- both reach `b`: follow the chain backwards from it
      rcases ReflTransGen.total_of_right_unique left (reflTransGen_swap.mpr hab) (reflTransGen_swap.mpr hcb)
        with hac | hca
      · exact .inr (reflTransGen_swap.mp hac)
      · exact .inl (reflTransGen_swap.mp hca)
    · exact ReflTransGen.total_of_right_unique step_rightUnique hba hbc
    · exact .inr (hcb.trans hba)

theorem eq_or_next_isSome (hab : ReflTransGen (Step next) a b) : a = b ∨ (next a).isSome := by
  rcases hab.cases_head with rfl | ⟨c, hac, -⟩
  · exact .inl rfl
  · exact .inr (by rw [show next a = some c from hac]; rfl)

theorem Chained.last_unique (h : Chained next) (hab : EqvGen (Step next) a b) (ha : next a = none)
    (hb : next b = none) : a = b := by
  rcases h.comparable hab with hr | hr
  · exact (eq_or_next_isSome hr).resolve_right (by simp [ha])
  · exact ((eq_or_next_isSome hr).resolve_right (by simp [hb])).symm

section
variable [DecidableEq α]

theorem step_update {x y : α} (h : Step (Function.update next a (some b)) x y) :
    (x = a ∧ y = b) ∨ (x ≠ a ∧ Step next x y) := by
  unfold Step at h ⊢
  by_cases hx : x = a
  · subst hx
    rw [Function.update_self] at h
    exact .inl ⟨rfl, (Option.some.inj h).symm⟩
  · rw [Function.update_of_ne hx] at h
    exact .inr ⟨hx, h⟩

theorem Chained.extend (h : Chained next) (hb : next b = none) (hne : a ≠ b) (hfresh : ∀ c, next c ≠ some b) :
    Chained (Function.update next a (some b)) where
  injective u v c hu hv := by
    rcases step_update hu with ⟨hua, hcb⟩ | ⟨-, hu'⟩ <;> rcases step_update hv with ⟨hva, hcb'⟩ | ⟨-, hv'⟩
    · exact hua.trans hva.symm
    · exact absurd (hcb ▸ hv') (hfresh v)
    · exact absurd (hcb' ▸ hu') (hfresh u)
    · exact h.injective u v c hu' hv'
  acyclic x hx := by
    -- the new node is a last one, so a path takes old steps or ends in it
    have last : ∀ {y}, ¬Step (Function.update next a (some b)) b y := by
      intro y hy
      rcases step_update hy with ⟨hab, -⟩ | ⟨-, hy⟩
      · exact hne hab.symm
      · rw [Step, hb] at hy; cases hy
    have path : ∀ {x y}, TransGen (Step (Function.update next a (some b))) x y →
        TransGen (Step next) x y ∨ y = b := by
      intro x y hxy
      induction hxy with
      | single hxy =>
        rcases step_update hxy with ⟨-, rfl⟩ | ⟨-, hxy⟩
        · exact .inr rfl
        · exact .inl (.single hxy)
      | tail _ hyz ih =>
        rcases ih with ih | rfl
        · rcases step_update hyz with ⟨-, rfl⟩ | ⟨-, hyz⟩
          · exact .inr rfl
          · exact .inl (ih.tail hyz)
        · exact absurd hyz last
    rcases path hx with hx' | rfl
    · exact h.acyclic x hx'
    · obtain ⟨y, hy, -⟩ := TransGen.head'_iff.mp hx
      exact last hy

end

end Chains
