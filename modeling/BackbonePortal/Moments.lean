import Mathlib.Data.List.Induction
import BackbonePortal.Pool

/-!
# Moments of a call

A finished call answers as one atomic step would if its outcome fits the world
right after one of its own actions. `Linear` carries down a program what its
actions have witnessed so far; `play_linear` finds the moment in a run.
-/

namespace Proc

variable {S : Sig} {ε ε' α β κ : Type} {M : Machine S}

/-! ## Programs -/

/-- Started in `w`, with the others moving the world along `G` and inputs that
meet `Ok`, every outcome of `p` is in `seen` or fits the world after one of the
actions on the way. -/
def Prog.Linear (M : Machine S) (G : M.World → M.World → Prop) (Ok : M.Input → M.World → Prop)
    (V : Except ε α → M.World → Prop) : (Except ε α → Prop) → Prog S ε α → M.World → Prop
  | seen, .ret a, _ => seen (.ok a)
  | seen, .fail e, _ => seen (.error e)
  | seen, .act a k, w => ∀ w', G w w' → ∀ i, Ok i w' →
    (k (M.exec a i w').1).Linear M G Ok V (fun o => seen o ∨ V o (M.exec a i w').2) (M.exec a i w').2

section
variable {G : M.World → M.World → Prop} {Ok : M.Input → M.World → Prop} {V : Except ε α → M.World → Prop}
  {seen seen' : Except ε α → Prop} {w : M.World}

theorem Prog.Linear.weaken {p : Prog S ε α} (hseen : ∀ o, seen o → seen' o) (hp : p.Linear M G Ok V seen w) :
    p.Linear M G Ok V seen' w := by
  induction p generalizing seen seen' w with
  | ret a => exact hseen _ hp
  | fail e => exact hseen _ hp
  | act a k ih =>
    intro w' hw i hi
    exact ih _ (fun o ho => ho.imp_left (hseen o)) (hp w' hw i hi)

theorem Prog.linear_of_ends {p : Prog S ε α} (hp : p.Ends seen) : p.Linear M G Ok V seen w := by
  induction p generalizing seen w with
  | ret a => exact hp
  | fail e => exact hp
  | act a k ih =>
    intro w' _ i _
    exact ih _ ((hp _).mono fun o ho => .inl ho)

theorem Prog.Linear.later (trans : ∀ u v w, G u v → G v w → G u w) {p : Prog S ε α} {w' : M.World}
    (hp : p.Linear M G Ok V seen w) (hw : G w w') : p.Linear M G Ok V seen w' := by
  cases p with
  | ret a => exact hp
  | fail e => exact hp
  | act a k => exact fun v hv => hp v (trans _ _ _ hw hv)

/-- What comes after a value keeps the moment: `leads r o` says that `o` can be
the outcome of the whole once the first part came to `r`. -/
theorem Prog.Linear.bind {R : Except ε β → M.World → Prop} {said : Except ε β → Prop}
    (leads : Except ε β → Except ε α → Prop) {p : Prog S ε β} {f : β → Prog S ε α}
    (hp : p.Linear M G Ok R said w) (hok : ∀ b, (f b).Ends (leads (.ok b)))
    (herr : ∀ e, leads (.error e) (.error e)) :
    (p.bind f).Linear M G Ok (fun o w => ∃ r, R r w ∧ leads r o) (fun o => ∃ r, said r ∧ leads r o) w := by
  induction p generalizing said w with
  | ret b => exact linear_of_ends ((hok b).mono fun o ho => ⟨_, hp, ho⟩)
  | fail e => exact ⟨_, hp, herr e⟩
  | act a k ih =>
    intro w' hw i hi
    refine (ih _ (hp w' hw i hi)).weaken fun o ho => ?_
    obtain ⟨r, hr | hr, hleads⟩ := ho
    · exact .inl ⟨r, hr, hleads⟩
    · exact .inr ⟨r, hr, hleads⟩

theorem Prog.Linear.attempt {p : Prog S ε α} (hp : p.Linear M G Ok V seen w) :
    (p.attempt : Prog S ε' (Except ε α)).Linear M G Ok (fun o w => ∃ r, o = .ok r ∧ V r w)
      (fun o => ∃ r, o = .ok r ∧ seen r) w := by
  induction p generalizing seen w with
  | ret a => exact ⟨_, rfl, hp⟩
  | fail e => exact ⟨_, rfl, hp⟩
  | act a k ih =>
    intro w' hw i hi
    refine (ih _ (hp w' hw i hi)).weaken fun o ho => ?_
    obtain ⟨r, rfl, hr | hr⟩ := ho
    · exact .inl ⟨r, rfl, hr⟩
    · exact .inr ⟨r, rfl, hr⟩

theorem Prog.Linear.mono {R : Except ε α → M.World → Prop} (hV : ∀ o w, V o w → R o w) {p : Prog S ε α}
    (hp : p.Linear M G Ok V seen w) : p.Linear M G Ok R seen w := by
  induction p generalizing seen w with
  | ret a => exact hp
  | fail e => exact hp
  | act a k ih =>
    intro w' hw i hi
    exact (ih _ (hp w' hw i hi)).weaken fun o ho => ho.imp_right (hV o _)

end

/-- An outcome `p` can come to, whatever its actions answer. -/
def Prog.Comes : Prog S ε α → Except ε α → Prop
  | .ret a, o => o = .ok a
  | .fail e, o => o = .error e
  | .act _ k, o => ∃ r, (k r).Comes o

theorem Prog.ends_comes (p : Prog S ε α) : p.Ends p.Comes := by
  induction p with
  | ret a => rfl
  | fail e => rfl
  | act a k ih => exact fun r => (ih r).mono fun o ho => ⟨r, ho⟩

/-! ## Runs -/

section
variable (body : κ → Prog S ε α)

/-- One of the moves lets call `j`, which has not returned, perform an action
after which the world satisfies `R`. -/
def Pool.Sometime (P : Pool M ε α κ) (ms : List (Move M κ)) (j : Nat) (R : M.World → Prop) : Prop :=
  ∃ ms₁ i ms₂ c, ms = ms₁ ++ .step j i :: ms₂ ∧ (P.play body ms₁).calls[j]? = some c ∧
    c.outcome = none ∧ R (P.play body (ms₁ ++ [.step j i])).world

variable {body} {P : Pool M ε α κ}

theorem Pool.Sometime.append {ms : List (Move M κ)} {j : Nat} {R : M.World → Prop}
    (h : P.Sometime body ms j R) (ns : List (Move M κ)) : P.Sometime body (ms ++ ns) j R := by
  obtain ⟨ms₁, i, ms₂, c, rfl, hc, ho, hR⟩ := h
  exact ⟨ms₁, i, ms₂ ++ ns, c, by rw [List.append_assoc, List.cons_append], hc, ho, hR⟩

theorem Pool.play_concat (ms : List (Move M κ)) (m : Move M κ) :
    P.play body (ms ++ [m]) = (P.play body ms).next body m := by
  rw [play_append]
  rfl

theorem Pool.tag_of_started {t : κ} {ms : List (Move M κ)} {c : Call S ε α κ} (hP : P.calls = [])
    (hc : (P.play body (.start t :: ms)).calls[0]? = some c) : c.tag = t := by
  have hfirst : (P.next body (.start t)).calls[0]? = some ⟨t, [], body t⟩ := by
    rw [Pool.next_start, hP]
    rfl
  obtain ⟨d, hd, htag, -⟩ := Pool.play_call body hfirst ms
  rw [Pool.play_cons, hd] at hc
  cases hc
  exact htag

theorem Call.outcome_act {c : Call S ε α κ} {a : S.Act} {k : S.Res a → Prog S ε α} (h : c.rest = .act a k) :
    c.outcome = none := by
  simp only [Call.outcome, h]

variable {G : M.World → M.World → Prop} {Ok : M.Input → M.World → Prop} {T : κ → Prop}
  {V : κ → Except ε α → M.World → Prop} {D : κ → Except ε α → Prop}

/-- **Moments.** If the programs of the calls of interest are linear, whatever
the other calls do within `G`, then each of them that has returned did so with
an outcome that needs no moment, or that fits the world right after one of its
own actions. -/
theorem Pool.play_linear (refl : ∀ w, G w w) (trans : ∀ u v w, G u v → G v w → G u w)
    (own : ∀ a i w, Ok i w → G w (M.exec a i w).2)
    (hbody : ∀ t, T t → ∀ w, (body t).Linear M G Ok (V t) (D t) w) (hP : P.calls = []) (ms : List (Move M κ))
    (hms : P.Admits body (fun R m => ∀ x ∈ R.performs m, Ok x.2 R.world) ms) (j : Nat) (c : Call S ε α κ)
    (hc : (P.play body ms).calls[j]? = some c) (hT : T c.tag) (o : Except ε α) (ho : c.outcome = some o) :
    D c.tag o ∨ P.Sometime body ms j (V c.tag o) := by
  -- what a call's program has witnessed by now
  have key : ∀ (j : Nat) (c : Call S ε α κ), (P.play body ms).calls[j]? = some c → T c.tag →
      c.rest.Linear M G Ok (V c.tag) (fun o => D c.tag o ∨ P.Sometime body ms j (V c.tag o))
        (P.play body ms).world := by
    clear hc ho hT j c
    induction ms using List.reverseRecOn with
    | nil =>
      intro j c hc
      rw [Pool.play_nil, hP] at hc
      cases hc
    | append_singleton ms m ih =>
      obtain ⟨hbefore, hm, -⟩ := Pool.admits_append body |>.mp hms
      have old := ih hbefore
      have carry : ∀ (j : Nat) (c : Call S ε α κ) (w : M.World), G (P.play body ms).world w →
          (P.play body ms).calls[j]? = some c → T c.tag →
          c.rest.Linear M G Ok (V c.tag)
            (fun o => D c.tag o ∨ P.Sometime body (ms ++ [m]) j (V c.tag o)) w := by
        intro j c w hw hc hT
        exact ((old j c hc hT).later trans hw).weaken fun o ho => ho.imp_right fun h => h.append [m]
      intro j c hc hT
      rw [Pool.play_concat] at hc ⊢
      rcases (P.play body ms).next_cases body m
        with ⟨t, -, h⟩ | ⟨n, i, d, a, k, rfl, hd, ha, h⟩ | ⟨n, i, -, h⟩
      · rw [h] at hc ⊢
        rcases Nat.lt_or_ge j (P.play body ms).calls.length with hlt | hge
        · rw [List.getElem?_append_left hlt] at hc
          exact carry j c _ (refl _) hc hT
        · rw [List.getElem?_append_right hge] at hc
          cases List.mem_singleton.mp (List.mem_of_getElem? hc)
          exact (hbody t hT _).weaken fun o ho => .inl ho
      · have hlt : n < (P.play body ms).calls.length := (List.getElem?_eq_some_iff.mp hd).1
        have hok : Ok i (P.play body ms).world := hm _ (Pool.performs_step hd ha i)
        by_cases hnj : n = j
        · subst hnj
          have hafter : (P.play body (ms ++ [.step n i])).world = (M.exec a i (P.play body ms).world).2 := by
            rw [Pool.play_concat, h]
          rw [h] at hc ⊢
          rw [List.getElem?_set_self hlt] at hc
          cases hc
          have hlinear := carry n d _ (refl _) hd hT
          rw [ha] at hlinear
          refine (hlinear _ (refl _) i hok).weaken fun o ho => ?_
          rcases ho with ho | ho
          · exact ho
          · exact .inr ⟨ms, i, [], d, rfl, hd, Call.outcome_act ha, hafter ▸ ho⟩
        · rw [h] at hc ⊢
          rw [List.getElem?_set_ne hnj] at hc
          exact carry j c _ (own a i _ hok) hc hT
      · rw [h] at hc ⊢
        exact carry j c _ (refl _) hc hT
  have hend := key j c hc hT
  unfold Call.outcome at ho
  cases hr : c.rest with
  | ret a => rw [hr] at hend ho; cases ho; exact hend
  | fail e => rw [hr] at hend ho; cases ho; exact hend
  | act a k => rw [hr] at ho; cases ho

end

end Proc
