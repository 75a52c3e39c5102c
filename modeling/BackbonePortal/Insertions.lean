import BackbonePortal.Pool

/-!
# Runs with steps inserted

A run of a pool between whose moves the world takes steps of its own, beside
the run without them. A relation that each move and each insertion keeps holds
to the end of both.
-/

namespace Proc

variable {S : Sig} {ε α κ τ : Type} {M : Machine S}

def Call.advance (c : Call S ε α κ) (i : M.Input) (w : M.World) : M.World × Call S ε α κ :=
  match c.rest with
  | .act a k => ((M.exec a i w).2, c.after a k (M.exec a i w).1)
  | _ => (w, c)

theorem Call.advance_act {c : Call S ε α κ} {a : S.Act} {k : S.Res a → Prog S ε α} (h : c.rest = .act a k)
    (i : M.Input) (w : M.World) : c.advance i w = ((M.exec a i w).2, c.after a k (M.exec a i w).1) := by
  simp only [Call.advance, h]

theorem Call.advance_idle {c : Call S ε α κ} (h : c.next = none) (i : M.Input) (w : M.World) :
    c.advance i w = (w, c) := by
  unfold Call.advance
  cases hr : c.rest with
  | act a k =>
    rw [Call.next_act hr] at h
    cases h
  | _ => rfl

@[simp] theorem Call.advance_tag (c : Call S ε α κ) (i : M.Input) (w : M.World) :
    (c.advance i w).2.tag = c.tag := by
  unfold Call.advance
  split <;> rfl

theorem set_self {β : Type} {xs : List β} {j : Nat} {x : β} (h : xs[j]? = some x) : xs.set j x = xs := by
  obtain ⟨hj, rfl⟩ := List.getElem?_eq_some_iff.mp h
  exact List.set_getElem_self hj

section
variable (body : κ → Prog S ε α)

theorem Pool.next_advance {P : Pool M ε α κ} {j : Nat} {c : Call S ε α κ}
    (hc : P.calls[j]? = some c) (i : M.Input) :
    P.next body (.step j i) = ⟨(c.advance i P.world).1, P.calls.set j (c.advance i P.world).2⟩ := by
  cases hr : c.rest with
  | act a k => rw [Pool.next_step body hc hr, Call.advance_act hr]
  | ret a =>
    have hidle : c.next = none := by simp only [Call.next, hr]
    rw [Call.advance_idle hidle, set_self hc]
    exact Pool.next_idle body (by rw [hc, Option.bind_some, hidle]) i
  | fail e =>
    have hidle : c.next = none := by simp only [Call.next, hr]
    rw [Call.advance_idle hidle, set_self hc]
    exact Pool.next_idle body (by rw [hc, Option.bind_some, hidle]) i

/-! ## Mixed runs -/

/-- A move of the pool, or the input of an inserted step. -/
abbrev Mixed (M : Machine S) (κ : Type) := Move M κ ⊕ M.Input

def Pool.playMixed (inserted : M.Input → M.World → M.World) : Pool M ε α κ → List (Mixed M κ) → Pool M ε α κ
  | P, [] => P
  | P, .inl m :: ms => Pool.playMixed inserted (P.next body m) ms
  | P, .inr i :: ms => Pool.playMixed inserted { P with world := inserted i P.world } ms

def movesOf (ms : List (Mixed M κ)) : List (Move M κ) := ms.filterMap Sum.getLeft?

theorem Pool.playMixed_append (inserted : M.Input → M.World → M.World) (P : Pool M ε α κ)
    (ms ns : List (Mixed M κ)) :
    P.playMixed body inserted (ms ++ ns) = (P.playMixed body inserted ms).playMixed body inserted ns := by
  induction ms generalizing P with
  | nil => rfl
  | cons m ms ih =>
    cases m with
    | inl m => exact ih _
    | inr i => exact ih _

theorem Pool.playMixed_world {I : M.World → Prop} {inserted : M.Input → M.World → M.World}
    (step : ∀ a i w, I w → I (M.exec a i w).2) (insert : ∀ i w, I w → I (inserted i w))
    {P : Pool M ε α κ} (hP : I P.world)
    (ms : List (Mixed M κ)) : I (P.playMixed body inserted ms).world := by
  induction ms generalizing P with
  | nil => exact hP
  | cons m ms ih =>
    cases m with
    | inl m => exact ih (Pool.play_world body step hP [m])
    | inr i => exact ih (insert i _ hP)

end

def Follows (after : τ → M.Input → Prop) (tick : M.Input → τ) : τ → List (Mixed M κ) → Prop
  | _, [] => True
  | t, .inl (.start _) :: ms => Follows after tick t ms
  | t, .inl (.step _ i) :: ms => after t i ∧ Follows after tick (tick i) ms
  | t, .inr i :: ms => after t i ∧ Follows after tick (tick i) ms

def lastTime (tick : M.Input → τ) : τ → List (Mixed M κ) → τ
  | t, [] => t
  | t, .inl (.start _) :: ms => lastTime tick t ms
  | _, .inl (.step _ i) :: ms => lastTime tick (tick i) ms
  | _, .inr i :: ms => lastTime tick (tick i) ms

section
variable (body : κ → Prog S ε α)

/-- Every insertion of the run is admitted where it happens, and every call is of the kind `T`. -/
def Pool.Inserts (inserted : M.Input → M.World → M.World) (A : Pool M ε α κ → M.Input → Prop) (T : κ → Prop) :
    Pool M ε α κ → List (Mixed M κ) → Prop
  | _, [] => True
  | P, .inl (.start t) :: ms => T t ∧ Pool.Inserts inserted A T (P.next body (.start t)) ms
  | P, .inl (.step j i) :: ms => Pool.Inserts inserted A T (P.next body (.step j i)) ms
  | P, .inr i :: ms => A P i ∧ Pool.Inserts inserted A T { P with world := inserted i P.world } ms

/-- Two pools in step: the worlds are related, and so are the calls one by one. -/
structure Pool.InStep (W : M.World → M.World → Prop)
    (F : M.World → M.World → Call S ε α κ → Call S ε α κ → Prop) (P Q : Pool M ε α κ) : Prop where
  world : W P.world Q.world
  length : P.calls.length = Q.calls.length
  calls : ∀ (j : Nat) (c d : Call S ε α κ), P.calls[j]? = some c → Q.calls[j]? = some d → F P.world Q.world c d

variable {inserted : M.Input → M.World → M.World} {after : τ → M.Input → Prop} {tick : M.Input → τ}
  {W : τ → M.World → M.World → Prop} {F : τ → M.World → M.World → Call S ε α κ → Call S ε α κ → Prop}
  {A : Pool M ε α κ → M.Input → Prop} {T : κ → Prop}

theorem Pool.InStep.start {t : τ} {P Q : Pool M ε α κ} (h : P.InStep (W t) (F t) Q) (s : κ)
    (hs : F t P.world Q.world ⟨s, [], body s⟩ ⟨s, [], body s⟩) :
    (P.next body (.start s)).InStep (W t) (F t) (Q.next body (.start s)) where
  world := h.world
  length := by simp only [Pool.next_start, List.length_append, h.length]
  calls := by
    intro j c d hc hd
    simp only [Pool.next_start] at hc hd ⊢
    rcases Nat.lt_trichotomy j P.calls.length with hj | hj | hj
    · rw [List.getElem?_append_left hj] at hc
      rw [List.getElem?_append_left (h.length ▸ hj)] at hd
      exact h.calls j c d hc hd
    · subst hj
      rw [List.getElem?_concat_length] at hc
      rw [h.length, List.getElem?_concat_length] at hd
      cases hc
      cases hd
      exact hs
    · rw [List.getElem?_eq_none (by simp; omega)] at hc
      cases hc

theorem Pool.InStep.step {t : τ} {P Q : Pool M ε α κ} (h : P.InStep (W t) (F t) Q) (j : Nat) {i : M.Input}
    (hidle : W (tick i) P.world Q.world ∧ ∀ c d, F t P.world Q.world c d → F (tick i) P.world Q.world c d)
    (hstep : ∀ c d, F t P.world Q.world c d →
      W (tick i) (c.advance i P.world).1 (d.advance i Q.world).1 ∧
      F (tick i) (c.advance i P.world).1 (d.advance i Q.world).1 (c.advance i P.world).2
        (d.advance i Q.world).2 ∧
      ∀ c' d', F t P.world Q.world c' d' → F (tick i) (c.advance i P.world).1 (d.advance i Q.world).1 c' d') :
    (P.next body (.step j i)).InStep (W (tick i)) (F (tick i)) (Q.next body (.step j i)) := by
  cases hc : P.calls[j]? with
  | none =>
    have hd : Q.calls[j]? = none := by
      rw [List.getElem?_eq_none_iff] at hc ⊢
      rw [← h.length]
      exact hc
    rw [Pool.next_idle body (by rw [hc]; rfl), Pool.next_idle body (by rw [hd]; rfl)]
    exact ⟨hidle.1, h.length, fun j c d hc hd => hidle.2 c d (h.calls j c d hc hd)⟩
  | some c =>
    have hj : j < Q.calls.length := h.length ▸ (List.getElem?_eq_some_iff.mp hc).1
    obtain ⟨d, hd⟩ : ∃ d, Q.calls[j]? = some d := ⟨_, List.getElem?_eq_getElem hj⟩
    obtain ⟨hW, hown, hothers⟩ := hstep c d (h.calls j c d hc hd)
    rw [Pool.next_advance body hc, Pool.next_advance body hd]
    refine ⟨hW, by simp only [List.length_set, h.length], fun n c' d' hc' hd' => ?_⟩
    by_cases hn : j = n
    · subst hn
      rw [List.getElem?_set_self (List.getElem?_eq_some_iff.mp hc).1] at hc'
      rw [List.getElem?_set_self hj] at hd'
      cases hc'
      cases hd'
      exact hown
    · rw [List.getElem?_set_ne hn] at hc' hd'
      exact hothers c' d' (h.calls n c' d' hc' hd')

/-- **Insertions**: what every move keeps, and every admitted insertion on one
side, relates the run with the insertions to the run without. -/
theorem Pool.playMixed_inStep
    (start : ∀ t w w' s, T s → W t w w' → F t w w' ⟨s, [], body s⟩ ⟨s, [], body s⟩)
    (idle : ∀ t w w' i, W t w w' → after t i → W (tick i) w w' ∧ ∀ c d, F t w w' c d → F (tick i) w w' c d)
    (step : ∀ t w w' i c d, W t w w' → after t i → F t w w' c d →
      W (tick i) (c.advance i w).1 (d.advance i w').1 ∧
      F (tick i) (c.advance i w).1 (d.advance i w').1 (c.advance i w).2 (d.advance i w').2 ∧
      ∀ c' d', F t w w' c' d' → F (tick i) (c.advance i w).1 (d.advance i w').1 c' d')
    (insert : ∀ t (P Q : Pool M ε α κ) i, P.InStep (W t) (F t) Q → after t i → A P i →
      ({ P with world := inserted i P.world } : Pool M ε α κ).InStep (W (tick i)) (F (tick i)) Q)
    {t : τ} {P Q : Pool M ε α κ} (h : P.InStep (W t) (F t) Q) {ms : List (Mixed M κ)}
    (hms : Follows after tick t ms)
    (hA : P.Inserts body inserted A T ms) :
    (P.playMixed body inserted ms).InStep (W (lastTime tick t ms)) (F (lastTime tick t ms))
    (Q.play body (movesOf ms)) := by
  induction ms generalizing t P Q with
  | nil => exact h
  | cons m ms ih =>
    cases m with
    | inl m =>
      cases m with
      | start s => exact ih (h.start body s (start t _ _ s hA.1 h.world)) hms hA.2
      | step j i =>
        exact ih (h.step body j (idle t _ _ i h.world hms.1) fun c d hcd =>
          step t _ _ i c d h.world hms.1 hcd) hms.2 hA
    | inr i => exact ih (insert t P Q i h hms.1 hA.1) hms.2 hA.2

end

end Proc
