import Mathlib.Logic.Function.Basic
import Mathlib.Logic.Relation
import BackbonePortal.Histories

/-!
# A registry of access

Principals at addresses, the bearers they hold and the invitations to become
one. A change has a guard and an effect. The three inversions say what one
change can have done to an entry; the laws and the provenance of a history
follow from them.
-/

namespace Registries

open Proc

inductive Standing where
  | active
  | dismissed
deriving DecidableEq

/-- What became of a bearer. -/
inductive Fate (B : Type) where
  | live
  | replaced (successor : B)
  | cancelled
deriving DecidableEq

/-- What became of an invitation. -/
inductive Course (P : Type) where
  | pending
  | redeemed (p : P)
  | withdrawn
  | lapsed
deriving DecidableEq

@[ext] structure Registry (P A B I : Type) where
  principal : P → Option (A × Standing)
  bearer : B → Option (P × Fate B)
  invitation : I → Option (A × Course P)

inductive Change (P A B I : Type) where
  | invite (i : I) (a : A)
  | redeem (i : I) (p : P)
  | withdraw (which : I → A → Bool)
  | lapse (which : I → A → Bool)
  | enroll (p : P) (a : A)
  | issue (b : B) (p : P)
  | rotate (b successor : B)
  | cancel (which : B → P → Bool)
  | dismiss (p : P)

variable {P A B I : Type}

/-- Only what is pending can come to an end. -/
def Course.ended (c into : Course P) : Course P :=
  match c with
  | .pending => into
  | c => c

def Fate.ended (f : Fate B) : Fate B :=
  match f with
  | .live => .cancelled
  | f => f

namespace Registry

/-- Nobody is registered at the address. -/
def Vacant (r : Registry P A B I) (a : A) : Prop := ∀ p x, r.principal p ≠ some (a, x)

/-- The guard of a change. -/
def Allows (r : Registry P A B I) : Change P A B I → Prop
  | .invite i _ => r.invitation i = none
  | .redeem i p => r.principal p = none ∧ ∃ a, r.invitation i = some (a, .pending) ∧ r.Vacant a
  | .enroll p a => r.principal p = none ∧ r.Vacant a
  | .issue b p => r.bearer b = none ∧ (r.principal p).isSome = true
  | .rotate b successor => r.bearer successor = none ∧ ∃ p, r.bearer b = some (p, .live)
  | .dismiss p => ∃ a, r.principal p = some (a, .active)
  | .withdraw _ | .lapse _ | .cancel _ => True

variable [DecidableEq P] [DecidableEq B] [DecidableEq I]

/-- The effect of a change. -/
def apply (r : Registry P A B I) : Change P A B I → Registry P A B I
  | .invite i a => { r with invitation := Function.update r.invitation i (some (a, .pending)) }
  | .redeem i p =>
    match r.invitation i with
    | some (a, _) => { r with
        invitation := Function.update r.invitation i (some (a, .redeemed p))
        principal := Function.update r.principal p (some (a, .active)) }
    | none => r
  | .withdraw which => { r with
      invitation := fun i => (r.invitation i).map fun e =>
        (e.1, if which i e.1 then e.2.ended .withdrawn else e.2) }
  | .lapse which => { r with
      invitation := fun i => (r.invitation i).map fun e =>
        (e.1, if which i e.1 then e.2.ended .lapsed else e.2) }
  | .enroll p a => { r with principal := Function.update r.principal p (some (a, .active)) }
  | .issue b p => { r with bearer := Function.update r.bearer b (some (p, .live)) }
  | .rotate b successor =>
    match r.bearer b with
    | some (p, _) => { r with
        bearer := Function.update (Function.update r.bearer b (some (p, .replaced successor))) successor
          (some (p, .live)) }
    | none => r
  | .cancel which => { r with
      bearer := fun b => (r.bearer b).map fun e => (e.1, if which b e.1 then e.2.ended else e.2) }
  | .dismiss p => { r with
      principal := Function.update r.principal p ((r.principal p).map fun e => (e.1, .dismissed)) }

variable (P A B I) in
/-- The registry as a model. -/
def model : Model (Registry P A B I) (Change P A B I) := ⟨Allows, apply⟩

variable {r : Registry P A B I} {c : Change P A B I} {cs : List (Change P A B I)}

/-! ## What one change can do -/

/-- An entry of a principal stays, loses its standing, or is new at a vacant address. -/
theorem principal_step {p : P} {a : A} {x : Standing} (hc : r.Allows c)
    (h : (r.apply c).principal p = some (a, x)) :
    r.principal p = some (a, x) ∨
    (r.principal p = some (a, .active) ∧ c = .dismiss p ∧ x = .dismissed) ∨
    (r.principal p = none ∧ r.Vacant a ∧
      (c = .enroll p a ∨ ∃ i, c = .redeem i p ∧ r.invitation i = some (a, .pending))) := by
  cases c with
  | redeem i q =>
    obtain ⟨hq, a', hi, hvacant⟩ := hc
    simp only [apply, hi] at h
    by_cases hp : p = q
    · subst hp
      rw [Function.update_self] at h
      cases h
      exact .inr (.inr ⟨hq, hvacant, .inr ⟨i, rfl, hi⟩⟩)
    · rw [Function.update_of_ne hp] at h
      exact .inl h
  | enroll q a' =>
    obtain ⟨hq, hvacant⟩ := hc
    by_cases hp : p = q
    · subst hp
      simp only [apply, Function.update_self, Option.some.injEq, Prod.mk.injEq] at h
      obtain ⟨rfl, rfl⟩ := h
      exact .inr (.inr ⟨hq, hvacant, .inl rfl⟩)
    · simp only [apply, Function.update_of_ne hp] at h
      exact .inl h
  | dismiss q =>
    obtain ⟨a', ha⟩ := hc
    by_cases hp : p = q
    · subst hp
      simp only [apply, Function.update_self, ha, Option.map_some, Option.some.injEq, Prod.mk.injEq] at h
      obtain ⟨rfl, rfl⟩ := h
      exact .inr (.inl ⟨ha, rfl, rfl⟩)
    · simp only [apply, Function.update_of_ne hp] at h
      exact .inl h
  | rotate b s =>
    obtain ⟨-, q, hb⟩ := hc
    simp only [apply, hb] at h
    exact .inl h
  | _ => exact .inl h

/-- A principal keeps its entry, but for its standing. -/
theorem principal_kept {p : P} {a : A} {x : Standing} (hc : r.Allows c) (h : r.principal p = some (a, x)) :
    ∃ y, (r.apply c).principal p = some (a, y) := by
  cases c with
  | redeem i q =>
    obtain ⟨hq, a', hi, -⟩ := hc
    have hne : p ≠ q := by
      rintro rfl
      rw [hq] at h; cases h
    simp only [apply, hi]
    exact ⟨x, by rw [Function.update_of_ne hne]; exact h⟩
  | enroll q a' =>
    have hne : p ≠ q := by
      rintro rfl
      rw [hc.1] at h; cases h
    exact ⟨x, by simp only [apply, Function.update_of_ne hne, h]⟩
  | dismiss q =>
    by_cases hp : p = q
    · subst hp
      exact ⟨.dismissed, by simp only [apply, Function.update_self, h, Option.map_some]⟩
    · exact ⟨x, by simp only [apply, Function.update_of_ne hp, h]⟩
  | rotate b s =>
    obtain ⟨-, q, hb⟩ := hc
    exact ⟨x, by simp only [apply, hb, h]⟩
  | _ => exact ⟨x, h⟩

/-- A bearer stays, is spent while it is live, or is new: issued, or the
successor of a live one of the same principal. -/
theorem bearer_step {b : B} {p : P} {f : Fate B} (hc : r.Allows c)
    (h : (r.apply c).bearer b = some (p, f)) :
    r.bearer b = some (p, f) ∨
    (r.bearer b = some (p, .live) ∧ ((∃ s, c = .rotate b s ∧ f = .replaced s ∧ r.bearer s = none) ∨
      f = .cancelled)) ∨
    (r.bearer b = none ∧ f = .live ∧
      ((c = .issue b p ∧ (r.principal p).isSome = true) ∨
        ∃ b₀, c = .rotate b₀ b ∧ r.bearer b₀ = some (p, .live))) := by
  cases c with
  | redeem i q =>
    obtain ⟨-, a', hi, -⟩ := hc
    simp only [apply, hi] at h
    exact .inl h
  | issue b' q =>
    obtain ⟨hfree, hq⟩ := hc
    by_cases hb : b = b'
    · subst hb
      simp only [apply, Function.update_self, Option.some.injEq, Prod.mk.injEq] at h
      obtain ⟨rfl, rfl⟩ := h
      exact .inr (.inr ⟨hfree, rfl, .inl ⟨rfl, hq⟩⟩)
    · simp only [apply, Function.update_of_ne hb] at h
      exact .inl h
  | rotate b₀ s =>
    obtain ⟨hfree, q, hlive⟩ := hc
    simp only [apply, hlive] at h
    by_cases hs : b = s
    · subst hs
      rw [Function.update_self] at h
      cases h
      exact .inr (.inr ⟨hfree, rfl, .inr ⟨b₀, rfl, hlive⟩⟩)
    · rw [Function.update_of_ne hs] at h
      by_cases hb : b = b₀
      · subst hb
        rw [Function.update_self] at h
        cases h
        exact .inr (.inl ⟨hlive, .inl ⟨s, rfl, rfl, hfree⟩⟩)
      · rw [Function.update_of_ne hb] at h
        exact .inl h
  | cancel which =>
    obtain ⟨⟨q, g⟩, hb, he⟩ := Option.map_eq_some_iff.mp h
    simp only [Prod.mk.injEq] at he
    obtain ⟨rfl, hf⟩ := he
    split at hf
    · cases g with
      | live => exact .inr (.inl ⟨hb, .inr hf.symm⟩)
      | replaced s => exact .inl (hb.trans (by rw [← hf]; rfl))
      | cancelled => exact .inl (hb.trans (by rw [← hf]; rfl))
    · subst hf
      exact .inl hb
  | _ => exact .inl h

/-- An invitation stays, comes to an end while it is pending, or is new. -/
theorem invitation_step {i : I} {a : A} {x : Course P} (hc : r.Allows c)
    (h : (r.apply c).invitation i = some (a, x)) :
    r.invitation i = some (a, x) ∨
    (r.invitation i = some (a, .pending) ∧ ((∃ p, c = .redeem i p ∧ x = .redeemed p) ∨ x = .withdrawn ∨
      x = .lapsed)) ∨
    (r.invitation i = none ∧ c = .invite i a ∧ x = .pending) := by
  have ended : ∀ (which : I → A → Bool) (into : Course P), into = .withdrawn ∨ into = .lapsed →
      ((r.invitation i).map fun e => (e.1, if which i e.1 then e.2.ended into else e.2)) = some (a, x) →
      r.invitation i = some (a, x) ∨ r.invitation i = some (a, .pending) ∧ x = into := by
    intro which into hinto h
    obtain ⟨⟨a', y⟩, hi, he⟩ := Option.map_eq_some_iff.mp h
    simp only [Prod.mk.injEq] at he
    obtain ⟨rfl, hx⟩ := he
    split at hx
    · cases y with
      | pending => exact .inr ⟨hi, hx.symm⟩
      | redeemed p => exact .inl (hi.trans (by rw [← hx]; rfl))
      | withdrawn => exact .inl (hi.trans (by rw [← hx]; rfl))
      | lapsed => exact .inl (hi.trans (by rw [← hx]; rfl))
    · subst hx
      exact .inl hi
  cases c with
  | invite j a' =>
    by_cases hj : i = j
    · subst hj
      simp only [apply, Function.update_self, Option.some.injEq, Prod.mk.injEq] at h
      obtain ⟨rfl, rfl⟩ := h
      exact .inr (.inr ⟨hc, rfl, rfl⟩)
    · simp only [apply, Function.update_of_ne hj] at h
      exact .inl h
  | redeem j q =>
    obtain ⟨-, a', hi, -⟩ := hc
    simp only [apply, hi] at h
    by_cases hj : i = j
    · subst hj
      rw [Function.update_self] at h
      cases h
      exact .inr (.inl ⟨hi, .inl ⟨q, rfl, rfl⟩⟩)
    · rw [Function.update_of_ne hj] at h
      exact .inl h
  | withdraw which =>
    rcases ended which .withdrawn (.inl rfl) h with h | ⟨hi, rfl⟩
    · exact .inl h
    · exact .inr (.inl ⟨hi, .inr (.inl rfl)⟩)
  | lapse which =>
    rcases ended which .lapsed (.inr rfl) h with h | ⟨hi, rfl⟩
    · exact .inl h
    · exact .inr (.inl ⟨hi, .inr (.inr rfl)⟩)
  | rotate b s =>
    obtain ⟨-, q, hb⟩ := hc
    simp only [apply, hb] at h
    exact .inl h
  | _ => exact .inl h

/-- A bearer keeps its principal. -/
theorem bearer_kept {b : B} {p : P} {f : Fate B} (hc : r.Allows c) (h : r.bearer b = some (p, f)) :
    ∃ g, (r.apply c).bearer b = some (p, g) := by
  cases c with
  | redeem i q =>
    obtain ⟨-, a', hi, -⟩ := hc
    exact ⟨f, by simp only [apply, hi, h]⟩
  | issue b' q =>
    have hne : b ≠ b' := by
      rintro rfl
      rw [hc.1] at h; cases h
    exact ⟨f, by simp only [apply, Function.update_of_ne hne, h]⟩
  | rotate b₀ s =>
    obtain ⟨hfree, q, hlive⟩ := hc
    have hne : b ≠ s := by
      rintro rfl
      rw [hfree] at h; cases h
    simp only [apply, hlive, Function.update_of_ne hne]
    by_cases hb : b = b₀
    · subst hb
      rw [hlive] at h
      cases h
      exact ⟨_, Function.update_self ..⟩
    · exact ⟨f, by rw [Function.update_of_ne hb]; exact h⟩
  | cancel which =>
    exact ⟨if which b p then f.ended else f, by simp only [apply, h, Option.map_some]⟩
  | _ => exact ⟨f, h⟩

theorem rotate_successor {b s : B} {p : P} (hb : r.bearer b = some (p, .live)) :
    (r.apply (.rotate b s)).bearer s = some (p, .live) := by
  simp only [apply, hb, Function.update_self]

theorem redeem_principal {i : I} {p : P} {a : A} (hi : r.invitation i = some (a, .pending)) :
    (r.apply (.redeem i p)).principal p = some (a, .active) := by
  simp only [apply, hi, Function.update_self]

/-! ## The laws -/

structure Lawful (r : Registry P A B I) : Prop where
  /-- One principal an address. -/
  apart : ∀ p q a x y, r.principal p = some (a, x) → r.principal q = some (a, y) → p = q
  owned : ∀ b p f, r.bearer b = some (p, f) → (r.principal p).isSome = true
  followed : ∀ b p s, r.bearer b = some (p, .replaced s) → ∃ f, r.bearer s = some (p, f)
  unforked : ∀ b b' p p' s, r.bearer b = some (p, .replaced s) → r.bearer b' = some (p', .replaced s) → b = b'
  credited : ∀ i a p, r.invitation i = some (a, .redeemed p) → ∃ x, r.principal p = some (a, x)
  admittedOnce : ∀ i j a a' p, r.invitation i = some (a, .redeemed p) → r.invitation j = some (a', .redeemed p) →
    i = j

theorem principal_isSome {p : P} (hc : r.Allows c) (h : (r.principal p).isSome = true) :
    ((r.apply c).principal p).isSome = true := by
  obtain ⟨⟨a, x⟩, hp⟩ := Option.isSome_iff_exists.mp h
  obtain ⟨y, hy⟩ := principal_kept hc hp
  exact Option.isSome_iff_exists.mpr ⟨_, hy⟩

theorem Lawful.apart_step (h : r.Lawful) (hc : r.Allows c) {p q : P} {a : A} {x y : Standing}
    (hp : (r.apply c).principal p = some (a, x)) (hq : (r.apply c).principal q = some (a, y)) : p = q := by
  -- an entry was there before, or it is the one the change admits
  have before : ∀ {p : P} {x : Standing}, (r.apply c).principal p = some (a, x) →
      (∃ y, r.principal p = some (a, y)) ∨ r.Vacant a ∧ (c = .enroll p a ∨ ∃ i, c = .redeem i p) := by
    intro p x hp
    rcases principal_step hc hp with hp | ⟨hp, -, -⟩ | ⟨-, hvacant, hmade⟩
    · exact .inl ⟨_, hp⟩
    · exact .inl ⟨_, hp⟩
    · exact .inr ⟨hvacant, hmade.imp_right fun ⟨i, hi, _⟩ => ⟨i, hi⟩⟩
  rcases before hp with ⟨x', hp⟩ | ⟨hvacant, hpc⟩
  · rcases before hq with ⟨y', hq⟩ | ⟨hvacant, -⟩
    · exact h.apart p q a x' y' hp hq
    · exact absurd hp (hvacant p x')
  · rcases before hq with ⟨y', hq⟩ | ⟨-, hqc⟩
    · exact absurd hq (hvacant q y')
    · rcases hpc with rfl | ⟨i, rfl⟩
      · rcases hqc with hqc | ⟨j, hqc⟩
        · cases hqc; rfl
        · cases hqc
      · rcases hqc with hqc | ⟨j, hqc⟩
        · cases hqc
        · cases hqc; rfl

/-- **Step.** An allowed change keeps the laws. -/
theorem Lawful.apply (h : r.Lawful) (hc : r.Allows c) : (r.apply c).Lawful where
  apart p q a x y := h.apart_step hc
  owned b p f hb := by
    rcases bearer_step hc hb with hb | ⟨hb, -⟩ | ⟨-, -, ⟨-, hp⟩ | ⟨b₀, -, hb⟩⟩
    · exact principal_isSome hc (h.owned b p f hb)
    · exact principal_isSome hc (h.owned b p _ hb)
    · exact principal_isSome hc hp
    · exact principal_isSome hc (h.owned b₀ p _ hb)
  followed b p s hb := by
    rcases bearer_step hc hb with hold | ⟨hlive, ⟨s', rfl, hs, -⟩ | hs⟩ | ⟨-, hs, -⟩
    · obtain ⟨f, hf⟩ := h.followed b p s hold
      exact bearer_kept hc hf
    · cases hs
      exact ⟨.live, rotate_successor hlive⟩
    · cases hs
    · cases hs
  unforked b b' p p' s hb hb' := by
    rcases bearer_step hc hb with hold | ⟨-, ⟨t, hct, hs, hfree⟩ | hs⟩ | ⟨-, hs, -⟩
    · rcases bearer_step hc hb' with hold' | ⟨-, ⟨t, -, hs, hfree⟩ | hs⟩ | ⟨-, hs, -⟩
      · exact h.unforked b b' p p' s hold hold'
      · cases hs
        obtain ⟨f, hf⟩ := h.followed b p s hold
        rw [hfree] at hf; cases hf
      · cases hs
      · cases hs
    · cases hs
      rcases bearer_step hc hb' with hold' | ⟨-, ⟨t, hct', hs, -⟩ | hs⟩ | ⟨-, hs, -⟩
      · obtain ⟨f, hf⟩ := h.followed b' p' s hold'
        rw [hfree] at hf; cases hf
      · rw [hct] at hct'
        cases hct'
        rfl
      · cases hs
      · cases hs
    · cases hs
    · cases hs
  credited i a p hi := by
    rcases invitation_step hc hi with hold | ⟨hpending, ⟨q, rfl, hq⟩ | hx | hx⟩ | ⟨-, -, hx⟩
    · obtain ⟨x, hx⟩ := h.credited i a p hold
      exact principal_kept hc hx
    · cases hq
      exact ⟨.active, redeem_principal hpending⟩
    · cases hx
    · cases hx
    · cases hx
  admittedOnce i j a a' p hi hj := by
    -- the principal a redemption admits is new
    have before : ∀ {i : I} {a : A}, (r.apply c).invitation i = some (a, .redeemed p) →
        r.invitation i = some (a, .redeemed p) ∨ c = .redeem i p := by
      intro i a hi
      rcases invitation_step hc hi with hi | ⟨-, ⟨q, hq, hx⟩ | hx | hx⟩ | ⟨-, -, hx⟩
      · exact .inl hi
      · cases hx
        exact .inr hq
      · cases hx
      · cases hx
      · cases hx
    rcases before hi with hold | hci
    · rcases before hj with hold' | hcj
      · exact h.admittedOnce i j a a' p hold hold'
      · subst hcj
        obtain ⟨x, hx⟩ := h.credited i a p hold
        rw [hc.1] at hx; cases hx
    · rcases before hj with hold' | hcj
      · subst hci
        obtain ⟨x, hx⟩ := h.credited j a' p hold'
        rw [hc.1] at hx; cases hx
      · rw [hci] at hcj
        cases hcj
        rfl

/-- **Run.** So does a history. -/
theorem Lawful.replay (h : r.Lawful) (hcs : (model P A B I).Permits r cs) :
    ((model P A B I).replay r cs).Lawful :=
  Model.replay_keeps (fun _ _ hc hr => Lawful.apply hr hc) h hcs

/-! ## Where an entry comes from -/

/-- A principal was there, enrolled at its address, or redeemed an invitation
that was there or was made out to that address. -/
theorem principal_origin {p : P} {a : A} {x : Standing} (hcs : (model P A B I).Permits r cs)
    (h : ((model P A B I).replay r cs).principal p = some (a, x)) :
    (∃ y, r.principal p = some (a, y)) ∨ .enroll p a ∈ cs ∨
      ∃ i, .redeem i p ∈ cs ∧ ((∃ y, r.invitation i = some (a, y)) ∨ .invite i a ∈ cs) := by
  induction cs generalizing r with
  | nil => exact .inl ⟨x, h⟩
  | cons c cs ih =>
    rcases ih hcs.2 h with ⟨y, hy⟩ | hmem | ⟨i, hmem, hi⟩
    · rcases principal_step hcs.1 hy with hp | ⟨hp, -, -⟩ | ⟨-, -, rfl | ⟨i, rfl, hi⟩⟩
      · exact .inl ⟨y, hp⟩
      · exact .inl ⟨_, hp⟩
      · exact .inr (.inl List.mem_cons_self)
      · exact .inr (.inr ⟨i, List.mem_cons_self, .inl ⟨_, hi⟩⟩)
    · exact .inr (.inl (List.mem_cons_of_mem c hmem))
    · refine .inr (.inr ⟨i, List.mem_cons_of_mem c hmem, ?_⟩)
      rcases hi with ⟨y, hy⟩ | hinvite
      · rcases invitation_step hcs.1 hy with hi | ⟨hi, -⟩ | ⟨-, rfl, -⟩
        · exact .inl ⟨y, hi⟩
        · exact .inl ⟨_, hi⟩
        · exact .inr List.mem_cons_self
      · exact .inr (List.mem_cons_of_mem c hinvite)

theorem replaced_kept {b s : B} {p : P} (hc : r.Allows c) (h : r.bearer b = some (p, .replaced s)) :
    (r.apply c).bearer b = some (p, .replaced s) := by
  obtain ⟨g, hg⟩ := bearer_kept hc h
  rcases bearer_step hc hg with hb | ⟨hb, -⟩ | ⟨hb, -⟩
  · rw [h] at hb
    cases hb
    exact hg
  · rw [h] at hb
    cases hb
  · rw [h] at hb
    cases hb

/-- The successor of a rotation stands beside its predecessor for good. -/
theorem rotate_recorded {b s : B} (hcs : (model P A B I).Permits r cs) (hmem : .rotate b s ∈ cs) :
    ∃ p, ((model P A B I).replay r cs).bearer b = some (p, .replaced s) := by
  induction cs generalizing r with
  | nil => cases hmem
  | cons c cs ih =>
    rcases List.mem_cons.mp hmem with rfl | hmem
    · obtain ⟨⟨hfree, p, hlive⟩, hrest⟩ := hcs
      have hne : b ≠ s := by
        rintro rfl
        rw [hfree] at hlive
        cases hlive
      refine ⟨p, Model.replay_keeps (I := fun r => r.bearer b = some (p, .replaced s))
        (fun _ _ hc h => replaced_kept hc h) ?_ hrest⟩
      simp only [model, apply, hlive, Function.update_of_ne hne, Function.update_self]
    · exact ih hcs.2 hmem

/-- By rotations of the history, one after the other. -/
def Descends (cs : List (Change P A B I)) : B → B → Prop := Relation.ReflTransGen fun b s => .rotate b s ∈ cs

/-- A bearer descends by rotations from one of the same principal that was
there or was issued. -/
theorem bearer_origin {b : B} {p : P} {f : Fate B} (hcs : (model P A B I).Permits r cs)
    (h : ((model P A B I).replay r cs).bearer b = some (p, f)) :
    ∃ b₀, Descends cs b₀ b ∧ ((∃ g, r.bearer b₀ = some (p, g)) ∨ .issue b₀ p ∈ cs) := by
  induction cs generalizing r with
  | nil => exact ⟨b, .refl, .inl ⟨f, h⟩⟩
  | cons c cs ih =>
    obtain ⟨b₀, hdesc, horigin⟩ := ih hcs.2 h
    have hlater : Descends (c :: cs) b₀ b := hdesc.lift id fun _ _ h => List.mem_cons_of_mem c h
    rcases horigin with ⟨g, hg⟩ | hissue
    · rcases bearer_step hcs.1 hg with hb | ⟨hb, -⟩ | ⟨-, -, ⟨rfl, -⟩ | ⟨b₁, rfl, hb⟩⟩
      · exact ⟨b₀, hlater, .inl ⟨g, hb⟩⟩
      · exact ⟨b₀, hlater, .inl ⟨_, hb⟩⟩
      · exact ⟨b₀, hlater, .inr List.mem_cons_self⟩
      · exact ⟨b₁, .head List.mem_cons_self hlater, .inl ⟨_, hb⟩⟩
    · exact ⟨b₀, hlater, .inr (List.mem_cons_of_mem c hissue)⟩

end Registry

end Registries
