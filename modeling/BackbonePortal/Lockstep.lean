import BackbonePortal.Pool
import Mathlib.Data.List.Forall2

/-!
# Two runs in lockstep

Two programs are in lockstep if, whatever inputs they both read, they perform
actions that are alike and come to the same outcome. Pools whose calls are in
lockstep stay so under the same moves, however their calls are interleaved.
-/

namespace Proc

variable {S : Sig} {ε ε' α β κ : Type}

/-- From worlds related by `T` the two perform actions related by `A` and go on so. -/
def Prog.Lockstep (M : Machine S) (T : M.World → M.World → Prop) (A : S.Act → S.Act → Prop) :
    Prog S ε α → Prog S ε α → Prop
  | .ret a, .ret b => a = b
  | .fail e, .fail e' => e = e'
  | .act a k, .act a' k' => A a a' ∧ ∀ i w w', T w w' → T (M.exec a i w).2 (M.exec a' i w').2 ∧
      (k (M.exec a i w).1).Lockstep M T A (k' (M.exec a' i w').1)
  | _, _ => False

section
variable {M : Machine S} {T : M.World → M.World → Prop} {A : S.Act → S.Act → Prop}

/-- The same program on the same world. -/
theorem Prog.lockstep_refl (hA : ∀ a, A a a) (p : Prog S ε α) : p.Lockstep M Eq A p := by
  induction p with
  | ret a => exact rfl
  | fail e => exact rfl
  | act a k ih =>
    refine ⟨hA a, fun i w w' hw => ?_⟩
    subst hw
    exact ⟨rfl, ih _⟩

/-- Both have come to one outcome, or both go on. -/
theorem Prog.Lockstep.cases {p q : Prog S ε α} (h : p.Lockstep M T A q) :
    (∃ a, p = .ret a ∧ q = .ret a) ∨ (∃ e, p = .fail e ∧ q = .fail e) ∨
      ∃ a k a' k', p = .act a k ∧ q = .act a' k' ∧ A a a' ∧ ∀ i w w', T w w' →
        T (M.exec a i w).2 (M.exec a' i w').2 ∧
          (k (M.exec a i w).1).Lockstep M T A (k' (M.exec a' i w').1) := by
  cases p with
  | ret a =>
    cases q with
    | ret b =>
      obtain rfl : a = b := h
      exact .inl ⟨a, rfl, rfl⟩
    | _ => exact h.elim
  | fail e =>
    cases q with
    | fail e' =>
      obtain rfl : e = e' := h
      exact .inr (.inl ⟨e, rfl, rfl⟩)
    | _ => exact h.elim
  | act a k =>
    cases q with
    | act a' k' => exact .inr (.inr ⟨a, k, a', k', rfl, rfl, h.1, h.2⟩)
    | _ => exact h.elim

theorem Prog.Lockstep.bind {p q : Prog S ε α} {f g : α → Prog S ε β} (hpq : p.Lockstep M T A q)
    (hfg : ∀ a, (f a).Lockstep M T A (g a)) : (p.bind f).Lockstep M T A (q.bind g) := by
  induction p generalizing q with
  | ret a =>
    rcases hpq.cases with ⟨b, hp, rfl⟩ | ⟨e, hp, -⟩ | ⟨b, k, b', k', hp, -⟩ <;> cases hp
    exact hfg a
  | fail e =>
    rcases hpq.cases with ⟨b, hp, -⟩ | ⟨e', hp, rfl⟩ | ⟨b, k, b', k', hp, -⟩ <;> cases hp
    exact rfl
  | act a k ih =>
    rcases hpq.cases with ⟨b, hp, -⟩ | ⟨e', hp, -⟩ | ⟨b, l, b', l', hp, rfl, hact, hgo⟩ <;> cases hp
    exact ⟨hact, fun i w w' hw => ⟨(hgo i w w' hw).1, ih _ (hgo i w w' hw).2⟩⟩

theorem Prog.Lockstep.attempt {p q : Prog S ε α} (hpq : p.Lockstep M T A q) :
    (p.attempt : Prog S ε' (Except ε α)).Lockstep M T A q.attempt := by
  induction p generalizing q with
  | ret a =>
    rcases hpq.cases with ⟨b, hp, rfl⟩ | ⟨e, hp, -⟩ | ⟨b, k, b', k', hp, -⟩ <;> cases hp
    exact rfl
  | fail e =>
    rcases hpq.cases with ⟨b, hp, -⟩ | ⟨e', hp, rfl⟩ | ⟨b, k, b', k', hp, -⟩ <;> cases hp
    exact rfl
  | act a k ih =>
    rcases hpq.cases with ⟨b, hp, -⟩ | ⟨e', hp, -⟩ | ⟨b, l, b', l', hp, rfl, hact, hgo⟩ <;> cases hp
    exact ⟨hact, fun i w w' hw => ⟨(hgo i w w' hw).1, ih _ (hgo i w w' hw).2⟩⟩

/-! ## Calls -/

/-- The two calls have done alike and go on in lockstep. -/
structure Call.Paired (M : Machine S) (T : M.World → M.World → Prop) (A : S.Act → S.Act → Prop)
    (K : κ → κ → Prop) (c d : Call S ε α κ) : Prop where
  tag : K c.tag d.tag
  past : List.Forall₂ (fun ev ev' => A ev.act ev'.act) c.past d.past
  rest : c.rest.Lockstep M T A d.rest

theorem Call.Paired.outcome {K : κ → κ → Prop} {c d : Call S ε α κ} (h : c.Paired M T A K d) :
    c.outcome = d.outcome := by
  unfold Call.outcome
  rcases h.rest.cases with ⟨a, hc, hd⟩ | ⟨e, hc, hd⟩ | ⟨a, k, a', k', hc, hd, -⟩
  · rw [hc, hd]
  · rw [hc, hd]
  · rw [hc, hd]

theorem Call.Paired.after {K : κ → κ → Prop} {c d : Call S ε α κ} (h : c.Paired M T A K d) {a a' : S.Act}
    {k : S.Res a → Prog S ε α} {k' : S.Res a' → Prog S ε α} {r : S.Res a} {r' : S.Res a'} (ha : A a a')
    (hk : (k r).Lockstep M T A (k' r')) : (c.after a k r).Paired M T A K (d.after a' k' r') where
  tag := h.tag
  past := List.rel_append h.past (.cons ha .nil)
  rest := hk

/-! ## Runs -/

inductive Move.Alike (K : κ → κ → Prop) : Move M κ → Move M κ → Prop where
  | start {t t' : κ} (tags : K t t') : Move.Alike K (.start t) (.start t')
  | step (j : Nat) (i : M.Input) : Move.Alike K (.step j i) (.step j i)

structure Pool.Paired (T : M.World → M.World → Prop) (A : S.Act → S.Act → Prop) (K : κ → κ → Prop)
    (P Q : Pool M ε α κ) : Prop where
  world : T P.world Q.world
  calls : List.Forall₂ (Call.Paired M T A K) P.calls Q.calls

theorem map_eq_of_forall₂ {γ γ' δ : Type} {R : γ → γ' → Prop} {f : γ → δ} {g : γ' → δ}
    (hfg : ∀ x y, R x y → f x = g y) {l : List γ} {l' : List γ'} (h : List.Forall₂ R l l') :
    l.map f = l'.map g := by
  have hmap : List.Forall₂ (· = ·) (l.map f) (l'.map g) :=
    List.forall₂_map_left_iff.mpr (List.forall₂_map_right_iff.mpr (h.imp hfg))
  rwa [List.forall₂_eq_eq_eq] at hmap

theorem forall₂_set {γ : Type} {R : γ → γ → Prop} {l l' : List γ} (h : List.Forall₂ R l l') {x y : γ}
    (hxy : R x y) (j : Nat) : List.Forall₂ R (l.set j x) (l'.set j y) := by
  induction h generalizing j with
  | nil => exact .nil
  | cons hab _ ih =>
    cases j with
    | zero => exact .cons hxy ‹_›
    | succ j => exact .cons hab (ih j)

theorem forall₂_getElem? {γ : Type} {R : γ → γ → Prop} {l l' : List γ} (h : List.Forall₂ R l l') (j : Nat) :
    (l[j]? = none ∧ l'[j]? = none) ∨ ∃ x y, l[j]? = some x ∧ l'[j]? = some y ∧ R x y := by
  induction h generalizing j with
  | nil => exact .inl ⟨rfl, rfl⟩
  | cons hab _ ih =>
    cases j with
    | zero => exact .inr ⟨_, _, rfl, rfl, hab⟩
    | succ j => exact ih j

variable {K : κ → κ → Prop} (body : κ → Prog S ε α)

theorem Pool.Paired.next (hbody : ∀ t t', K t t' → (body t).Lockstep M T A (body t')) {P Q : Pool M ε α κ}
    (h : P.Paired T A K Q) {m m' : Move M κ} (hm : m.Alike K m') :
    (P.next body m).Paired T A K (Q.next body m') := by
  cases hm with
  | start tags => exact ⟨h.world, List.rel_append h.calls (.cons ⟨tags, .nil, hbody _ _ tags⟩ .nil)⟩
  | step j i =>
    rcases forall₂_getElem? h.calls j with ⟨hP, hQ⟩ | ⟨c, d, hc, hd, hcd⟩
    · rw [Pool.next_idle _ (by rw [hP]; rfl), Pool.next_idle _ (by rw [hQ]; rfl)]
      exact h
    · rcases hcd.rest.cases with ⟨a, hc', hd'⟩ | ⟨e, hc', hd'⟩ | ⟨a, k, a', k', hc', hd', hact, hgo⟩
      · rw [Pool.next_idle _ (by simp [hc, Call.next, hc']), Pool.next_idle _ (by simp [hd, Call.next, hd'])]
        exact h
      · rw [Pool.next_idle _ (by simp [hc, Call.next, hc']), Pool.next_idle _ (by simp [hd, Call.next, hd'])]
        exact h
      · obtain ⟨hworld, hk⟩ := hgo i P.world Q.world h.world
        rw [Pool.next_step _ hc hc', Pool.next_step _ hd hd']
        exact ⟨hworld, forall₂_set h.calls (hcd.after hact hk) j⟩

/-- **Lockstep.** Runs of calls in lockstep end in related worlds, and every call did alike. -/
theorem Pool.play_lockstep (hbody : ∀ t t', K t t' → (body t).Lockstep M T A (body t')) {P Q : Pool M ε α κ}
    (h : P.Paired T A K Q) {ms ms' : List (Move M κ)} (hms : List.Forall₂ (Move.Alike K) ms ms') :
    (P.play body ms).Paired T A K (Q.play body ms') := by
  induction hms generalizing P Q with
  | nil => exact h
  | cons hm _ ih => exact ih (h.next body hbody hm)

end

end Proc
