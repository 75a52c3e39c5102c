import BackbonePortal.Prog

/-!
# Interleavings

A pool holds a shared world and the calls in flight. A move starts a call or
lets one call perform its next action, so a list of moves is an interleaving
of any number of calls, with the environment's input at each action.
`each_play` is the rely-guarantee rule. `Guards` is what a call may rely on in
the shared world between its actions; `play_once` and `play_needs` say which
events happen at most once, and which a returned value needs; `play_paths` and
`play_past` say what a finished call has been told.
-/

namespace Proc

variable {S : Sig} {ε α β κ : Type}

/-- A call in flight: what was called, what it did, what is left to do. -/
structure Call (S : Sig) (ε α κ : Type) where
  tag : κ
  past : List (Event S)
  rest : Prog S ε α

def Call.outcome (c : Call S ε α κ) : Option (Except ε α) :=
  match c.rest with
  | .ret a => some (.ok a)
  | .fail e => some (.error e)
  | .act _ _ => none

def Call.next (c : Call S ε α κ) : Option S.Act :=
  match c.rest with
  | .act a _ => some a
  | _ => none

theorem Call.next_act {c : Call S ε α κ} {a : S.Act} {k : S.Res a → Prog S ε α} (h : c.rest = .act a k) :
    c.next = some a := by simp only [Call.next, h]

theorem Call.next_eq_some {c : Call S ε α κ} {a : S.Act} (h : c.next = some a) : ∃ k, c.rest = .act a k := by
  unfold Call.next at h
  cases hr : c.rest with
  | act b k =>
    rw [hr] at h
    cases h
    exact ⟨k, rfl⟩
  | ret b => rw [hr] at h; cases h
  | fail e => rw [hr] at h; cases h

def Call.after (c : Call S ε α κ) (a : S.Act) (k : S.Res a → Prog S ε α) (r : S.Res a) : Call S ε α κ :=
  ⟨c.tag, c.past ++ [⟨a, r⟩], k r⟩

@[simp] theorem Call.after_tag (c : Call S ε α κ) (a : S.Act) (k : S.Res a → Prog S ε α) (r : S.Res a) :
    (c.after a k r).tag = c.tag := rfl

@[simp] theorem Call.after_past (c : Call S ε α κ) (a : S.Act) (k : S.Res a → Prog S ε α) (r : S.Res a) :
    (c.after a k r).past = c.past ++ [⟨a, r⟩] := rfl

@[simp] theorem Call.after_rest (c : Call S ε α κ) (a : S.Act) (k : S.Res a → Prog S ε α) (r : S.Res a) :
    (c.after a k r).rest = k r := rfl

structure Pool (M : Machine S) (ε α κ : Type) where
  world : M.World
  calls : List (Call S ε α κ)

inductive Move (M : Machine S) (κ : Type) where
  | start (t : κ)
  | step (j : Nat) (i : M.Input)

section
variable {M : Machine S} (body : κ → Prog S ε α)

def Pool.next (P : Pool M ε α κ) : Move M κ → Pool M ε α κ
  | .start t => { P with calls := P.calls ++ [⟨t, [], body t⟩] }
  | .step j i =>
    match P.calls[j]? with
    | none => P
    | some c =>
      match c.rest with
      | .act a k => ⟨(M.exec a i P.world).2, P.calls.set j (c.after a k (M.exec a i P.world).1)⟩
      | _ => P

def Pool.play (P : Pool M ε α κ) (ms : List (Move M κ)) : Pool M ε α κ := ms.foldl (Pool.next body) P

@[simp] theorem Pool.play_nil (P : Pool M ε α κ) : P.play body [] = P := rfl

@[simp] theorem Pool.play_cons (P : Pool M ε α κ) (m : Move M κ) (ms : List (Move M κ)) :
    P.play body (m :: ms) = (P.next body m).play body ms := rfl

theorem Pool.play_append (P : Pool M ε α κ) (ms ns : List (Move M κ)) :
    P.play body (ms ++ ns) = (P.play body ms).play body ns := List.foldl_append

@[simp] theorem Pool.next_start (P : Pool M ε α κ) (t : κ) :
    P.next body (.start t) = ⟨P.world, P.calls ++ [⟨t, [], body t⟩]⟩ := rfl

theorem Pool.next_step {P : Pool M ε α κ} {j : Nat} {c : Call S ε α κ} {a : S.Act}
    {k : S.Res a → Prog S ε α} (hc : P.calls[j]? = some c) (ha : c.rest = .act a k) (i : M.Input) :
    P.next body (.step j i) =
      ⟨(M.exec a i P.world).2, P.calls.set j (c.after a k (M.exec a i P.world).1)⟩ := by
  simp only [Pool.next, hc, ha]

theorem Pool.next_idle {P : Pool M ε α κ} {j : Nat} (h : P.calls[j]?.bind Call.next = none) (i : M.Input) :
    P.next body (.step j i) = P := by
  cases hc : P.calls[j]? with
  | none => simp only [Pool.next, hc]
  | some c =>
    cases hr : c.rest with
    | act a k =>
      rw [hc, Option.bind_some, Call.next_act hr] at h
      cases h
    | ret a => simp only [Pool.next, hc, hr]
    | fail e => simp only [Pool.next, hc, hr]

theorem Pool.next_cases (P : Pool M ε α κ) (m : Move M κ) :
    (∃ t, m = .start t ∧ P.next body m = ⟨P.world, P.calls ++ [⟨t, [], body t⟩]⟩) ∨
    (∃ j i c a k, m = .step j i ∧ P.calls[j]? = some c ∧ c.rest = .act a k ∧
      P.next body m = ⟨(M.exec a i P.world).2, P.calls.set j (c.after a k (M.exec a i P.world).1)⟩) ∨
    (∃ j i, m = .step j i ∧ P.next body m = P) := by
  cases m with
  | start t => exact .inl ⟨t, rfl, rfl⟩
  | step j i =>
    cases hc : P.calls[j]? with
    | none => exact .inr (.inr ⟨j, i, rfl, by simp only [Pool.next, hc]⟩)
    | some c =>
      cases hr : c.rest with
      | act a k => exact .inr (.inl ⟨j, i, c, a, k, rfl, hc, hr, Pool.next_step body hc hr i⟩)
      | ret a => exact .inr (.inr ⟨j, i, rfl, by simp only [Pool.next, hc, hr]⟩)
      | fail e => exact .inr (.inr ⟨j, i, rfl, by simp only [Pool.next, hc, hr]⟩)

theorem Pool.length_next (P : Pool M ε α κ) (m : Move M κ) :
    P.calls.length ≤ (P.next body m).calls.length := by
  rcases P.next_cases body m with ⟨t, -, h⟩ | ⟨j, i, c, a, k, -, -, -, h⟩ | ⟨j, i, -, h⟩
  · simp only [h, List.length_append, Nat.le_add_right]
  · simp only [h, List.length_set, Nat.le_refl]
  · simp only [h, Nat.le_refl]

theorem Pool.next_call {P : Pool M ε α κ} {j : Nat} {c : Call S ε α κ} (hc : P.calls[j]? = some c)
    (m : Move M κ) : ∃ c', (P.next body m).calls[j]? = some c' ∧ c'.tag = c.tag ∧ c.past <+: c'.past := by
  have hj : j < P.calls.length := (List.getElem?_eq_some_iff.mp hc).1
  rcases P.next_cases body m with ⟨t, -, h⟩ | ⟨j', i, c', a, k, -, hc', ha, h⟩ | ⟨j', i, -, h⟩
  · exact ⟨c, by rw [h, List.getElem?_append_left hj]; exact hc, rfl, List.prefix_rfl⟩
  · rw [h]
    by_cases hjj : j' = j
    · subst hjj
      rw [hc] at hc'; cases hc'
      exact ⟨_, List.getElem?_set_self hj, rfl, List.prefix_append _ _⟩
    · exact ⟨c, by rw [List.getElem?_set_ne hjj]; exact hc, rfl, List.prefix_rfl⟩
  · exact ⟨c, by rw [h]; exact hc, rfl, List.prefix_rfl⟩

theorem Pool.play_call {P : Pool M ε α κ} {j : Nat} {c : Call S ε α κ} (hc : P.calls[j]? = some c)
    (ms : List (Move M κ)) :
    ∃ c', (P.play body ms).calls[j]? = some c' ∧ c'.tag = c.tag ∧ c.past <+: c'.past := by
  induction ms generalizing P c with
  | nil => exact ⟨c, hc, rfl, List.prefix_rfl⟩
  | cons m ms ih =>
    obtain ⟨c₁, h₁, ht₁, hp₁⟩ := P.next_call body hc m
    obtain ⟨c₂, h₂, ht₂, hp₂⟩ := ih h₁
    exact ⟨c₂, h₂, ht₂.trans ht₁, hp₁.trans hp₂⟩

theorem Pool.play_keeps {I : Pool M ε α κ → Prop} (step : ∀ P m, I P → I (P.next body m))
    {P : Pool M ε α κ} (hP : I P) (ms : List (Move M κ)) : I (P.play body ms) := by
  induction ms generalizing P with
  | nil => exact hP
  | cons m ms ih => exact ih (step P m hP)

def Pool.Admits (A : Pool M ε α κ → Move M κ → Prop) : Pool M ε α κ → List (Move M κ) → Prop
  | _, [] => True
  | P, m :: ms => A P m ∧ (P.next body m).Admits A ms

instance Pool.decidableAdmits (A : Pool M ε α κ → Move M κ → Prop) [∀ P m, Decidable (A P m)] :
    (P : Pool M ε α κ) → (ms : List (Move M κ)) → Decidable (P.Admits body A ms)
  | _, [] => .isTrue trivial
  | P, m :: ms =>
    have := Pool.decidableAdmits A (P.next body m) ms
    inferInstanceAs (Decidable (A P m ∧ (P.next body m).Admits body A ms))

theorem Pool.play_keeps_of {A : Pool M ε α κ → Move M κ → Prop} {I : Pool M ε α κ → Prop}
    (step : ∀ P m, A P m → I P → I (P.next body m)) {P : Pool M ε α κ} (hP : I P) {ms : List (Move M κ)}
    (hms : P.Admits body A ms) : I (P.play body ms) := by
  induction ms generalizing P with
  | nil => exact hP
  | cons m ms ih => exact ih (step P m hms.1 hP) hms.2

theorem Pool.admits_of {A B : Pool M ε α κ → Move M κ → Prop} {I : Pool M ε α κ → Prop}
    (step : ∀ P m, A P m → I P → I (P.next body m)) (h : ∀ P m, A P m → I P → B P m)
    {P : Pool M ε α κ} (hP : I P)
    {ms : List (Move M κ)} (hms : P.Admits body A ms) : P.Admits body B ms := by
  induction ms generalizing P with
  | nil => trivial
  | cons m ms ih => exact ⟨h P m hms.1 hP, ih (step P m hms.1 hP) hms.2⟩

theorem Pool.admits_append {A : Pool M ε α κ → Move M κ → Prop} {P : Pool M ε α κ} {ms ns : List (Move M κ)} :
    P.Admits body A (ms ++ ns) ↔ P.Admits body A ms ∧ (P.play body ms).Admits body A ns := by
  induction ms generalizing P with
  | nil => exact (and_iff_right trivial).symm
  | cons m ms ih => exact (and_congr_right fun _ => ih).trans and_assoc.symm

theorem Pool.Admits.and {A B : Pool M ε α κ → Move M κ → Prop} {P : Pool M ε α κ} {ms : List (Move M κ)}
    (h : P.Admits body A ms) (h' : P.Admits body B ms) : P.Admits body (fun R m => A R m ∧ B R m) ms := by
  induction ms generalizing P with
  | nil => trivial
  | cons m ms ih => exact ⟨⟨h.1, h'.1⟩, ih h.2 h'.2⟩

def Pool.performs (P : Pool M ε α κ) : Move M κ → Option (S.Act × M.Input)
  | .start _ => none
  | .step j i => (P.calls[j]?.bind Call.next).map fun a => (a, i)

theorem Pool.performs_step {P : Pool M ε α κ} {j : Nat} {c : Call S ε α κ} {a : S.Act}
    {k : S.Res a → Prog S ε α}
    (hc : P.calls[j]? = some c) (ha : c.rest = .act a k) (i : M.Input) :
    P.performs (.step j i) = some (a, i) := by
  simp only [Pool.performs, hc, Option.bind_some, Call.next_act ha, Option.map_some]

theorem Pool.performs_eq_some {P : Pool M ε α κ} {m : Move M κ} {a : S.Act} {i : M.Input}
    (h : P.performs m = some (a, i)) :
    ∃ j c k, m = .step j i ∧ P.calls[j]? = some c ∧ c.rest = .act a k := by
  cases m with
  | start t => cases h
  | step j i' =>
    obtain ⟨b, hnext, hb⟩ := Option.map_eq_some_iff.mp h
    cases hb
    obtain ⟨c, hc, hnext⟩ := Option.bind_eq_some_iff.mp hnext
    obtain ⟨k, hk⟩ := Call.next_eq_some hnext
    exact ⟨j, c, k, rfl, hc, hk⟩

theorem Pool.next_world (P : Pool M ε α κ) (m : Move M κ) :
    (∃ a i, P.performs m = some (a, i) ∧ (P.next body m).world = (M.exec a i P.world).2) ∨
      P.performs m = none ∧ (P.next body m).world = P.world := by
  cases hp : P.performs m with
  | some x =>
    obtain ⟨a, i⟩ := x
    obtain ⟨j, c, k, rfl, hc, ha⟩ := Pool.performs_eq_some hp
    exact .inl ⟨a, i, rfl, by rw [Pool.next_step body hc ha]⟩
  | none =>
    refine .inr ⟨rfl, ?_⟩
    rcases P.next_cases body m with ⟨t, -, h⟩ | ⟨j, i, c, a, k, rfl, hc, ha, -⟩ | ⟨j, i, -, h⟩
    · rw [h]
    · rw [Pool.performs_step hc ha] at hp
      cases hp
    · rw [h]

theorem Pool.play_world {I : M.World → Prop} (step : ∀ a i w, I w → I (M.exec a i w).2)
    {P : Pool M ε α κ} (hP : I P.world) (ms : List (Move M κ)) : I (P.play body ms).world := by
  refine Pool.play_keeps body (I := fun P => I P.world) (fun P m hP => ?_) hP ms
  rcases P.next_cases body m with ⟨t, -, h⟩ | ⟨j, i, c, a, k, -, -, -, h⟩ | ⟨j, i, -, h⟩
  · rw [h]; exact hP
  · rw [h]; exact step a i _ hP
  · rw [h]; exact hP

/-- **Rely-guarantee.** `F j c w` says of call `j` what it knows of the world
between its actions, `I` what all of them know. If no action of the others
takes `F` away (`stable`), each action of the call's own keeps both (`own`),
and `F` holds of a call that starts (`fresh`), then both hold throughout the
run, and the whole run moves the world along `G`. -/
theorem Pool.each_play (I : M.World → Prop) (G : M.World → M.World → Prop)
    (F : Nat → Call S ε α κ → M.World → Prop) (P : Pool M ε α κ)
    (refl : ∀ w, G w w) (trans : ∀ u v w, G u v → G v w → G u w)
    (stable : ∀ j c w w', I w → G w w' → F j c w → F j c w')
    (fresh : ∀ j t w, P.calls.length ≤ j → I w → F j ⟨t, [], body t⟩ w)
    (own : ∀ j c w a k i, I w → c.rest = .act a k → F j c w →
      G w (M.exec a i w).2 ∧ I (M.exec a i w).2 ∧ F j (c.after a k (M.exec a i w).1) (M.exec a i w).2)
    (hI : I P.world) (hF : ∀ j c, P.calls[j]? = some c → F j c P.world) (ms : List (Move M κ)) :
    G P.world (P.play body ms).world ∧ I (P.play body ms).world ∧
      ∀ j c, (P.play body ms).calls[j]? = some c → F j c (P.play body ms).world := by
  have key : P.calls.length ≤ (P.play body ms).calls.length ∧ G P.world (P.play body ms).world ∧
      I (P.play body ms).world ∧
      ∀ j c, (P.play body ms).calls[j]? = some c → F j c (P.play body ms).world := by
    refine Pool.play_keeps body (I := fun R => P.calls.length ≤ R.calls.length ∧ G P.world R.world ∧
      I R.world ∧ ∀ j c, R.calls[j]? = some c → F j c R.world) (fun R m hR => ?_)
      ⟨Nat.le_refl _, refl _, hI, hF⟩ ms
    obtain ⟨hlen, hG, hI, hF⟩ := hR
    refine ⟨Nat.le_trans hlen (R.length_next body m), ?_⟩
    rcases R.next_cases body m with ⟨t, -, h⟩ | ⟨j', i, c', a, k, -, hc', ha, h⟩ | ⟨j', i, -, h⟩
    · rw [h]
      refine ⟨hG, hI, fun j c hj => ?_⟩
      rcases Nat.lt_or_ge j R.calls.length with hlt | hge
      · rw [List.getElem?_append_left hlt] at hj
        exact hF j c hj
      · rw [List.getElem?_append_right hge] at hj
        have hc : c = ⟨t, [], body t⟩ := by
          cases hd : j - R.calls.length with
          | zero => rw [hd] at hj; exact (Option.some.inj hj).symm
          | succ n => rw [hd] at hj; cases hj
        subst hc
        exact fresh j t _ (Nat.le_trans hlen hge) hI
    · obtain ⟨hG', hI', hown⟩ := own j' c' _ a k i hI ha (hF j' c' hc')
      rw [h]
      refine ⟨trans _ _ _ hG hG', hI', fun j c hj => ?_⟩
      by_cases hjj : j' = j
      · subst hjj
        have hlt : j' < R.calls.length := (List.getElem?_eq_some_iff.mp hc').1
        rw [List.getElem?_set_self hlt] at hj
        cases hj
        exact hown
      · rw [List.getElem?_set_ne hjj] at hj
        exact stable j c _ _ hI hG' (hF j c hj)
    · rw [h]
      exact ⟨hG, hI, hF⟩
  exact key.2

theorem Pool.play_all {A : S.Act → Prop} {I : M.World → Prop}
    (step : ∀ a, A a → ∀ i w, I w → I (M.exec a i w).2)
    (hbody : ∀ t, (body t).All A) {P : Pool M ε α κ} (hP : P.calls = []) (hI : I P.world)
    (ms : List (Move M κ)) :
    I (P.play body ms).world := by
  refine (P.each_play body I (fun _ _ => True) (fun _ (c : Call S ε α κ) _ => c.rest.All A) (fun _ => trivial)
    (fun _ _ _ _ _ => trivial) (fun _ _ _ _ _ _ h => h) (fun _ t _ _ _ => hbody t) ?_ hI (by simp [hP]) ms).2.1
  intro j c w a k i hw ha hc
  rw [ha] at hc
  exact ⟨trivial, step a hc.1 i w hw, hc.2 _⟩

end

/-! ## What a call may rely on -/

section
variable (M : Machine S)

/-- Started in `w`, with the other calls moving the world along `G` between its
actions, `p` performs each action in a world that satisfies `Pre` of it, and
returns in a world that satisfies `Q` of its outcome. -/
def Prog.Guards (G : M.World → M.World → Prop) (Pre : S.Act → M.World → Prop)
    (Q : Except ε α → M.World → Prop) : Prog S ε α → M.World → Prop
  | .ret a, w => ∀ w', G w w' → Q (.ok a) w'
  | .fail e, w => ∀ w', G w w' → Q (.error e) w'
  | .act a k, w => ∀ w', G w w' → Pre a w' ∧
    ∀ i, (k (M.exec a i w').1).Guards G Pre Q (M.exec a i w').2

variable {M} {G : M.World → M.World → Prop} {Pre Pre' : S.Act → M.World → Prop}
  {Q Q' : Except ε α → M.World → Prop}

theorem Prog.Guards.later (trans : ∀ u v w, G u v → G v w → G u w) {p : Prog S ε α} {w w' : M.World}
    (hp : p.Guards M G Pre Q w) (hw : G w w') : p.Guards M G Pre Q w' := by
  cases p with
  | ret a => exact fun v hv => hp v (trans _ _ _ hw hv)
  | fail e => exact fun v hv => hp v (trans _ _ _ hw hv)
  | act a k => exact fun v hv => hp v (trans _ _ _ hw hv)

theorem Prog.Guards.weaken (hQ : ∀ o w, Q o w → Q' o w) {p : Prog S ε α} {w : M.World}
    (hp : p.Guards M G Pre Q w) : p.Guards M G Pre Q' w := by
  induction p generalizing w with
  | ret a => exact fun v hv => hQ _ _ (hp v hv)
  | fail e => exact fun v hv => hQ _ _ (hp v hv)
  | act a k ih => exact fun v hv => ⟨(hp v hv).1, fun i => ih _ ((hp v hv).2 i)⟩

theorem Prog.Guards.with_all {A : S.Act → Prop} (h : ∀ a w, A a → Pre a w → Pre' a w) {p : Prog S ε α}
    {w : M.World} (hp : p.Guards M G Pre Q w) (hA : p.All A) : p.Guards M G Pre' Q w := by
  induction p generalizing w with
  | ret a => exact hp
  | fail e => exact hp
  | act a k ih => exact fun v hv => ⟨h a v hA.1 (hp v hv).1, fun i => ih _ ((hp v hv).2 i) (hA.2 _)⟩

theorem Prog.guards_stable {I : M.World → Prop} (inv : ∀ w w', G w w' → I w → I w')
    (own : ∀ a i w, I w → I (M.exec a i w).2) (p : Prog S ε α) {w : M.World} (hw : I w) :
    p.Guards M G (fun _ _ => True) (fun _ w => I w) w := by
  induction p generalizing w with
  | ret a => exact fun v hv => inv w v hv hw
  | fail e => exact fun v hv => inv w v hv hw
  | act a k ih => exact fun v hv => ⟨trivial, fun i => ih _ (own a i v (inv w v hv hw))⟩

theorem Prog.Guards.bind {R : Except ε α → M.World → Prop} {Q : Except ε β → M.World → Prop}
    {f : α → Prog S ε β} {p : Prog S ε α} {w : M.World} (refl : ∀ w, G w w) (hp : p.Guards M G Pre R w)
    (hok : ∀ a w, R (.ok a) w → (f a).Guards M G Pre Q w)
    (herr : ∀ e w, R (.error e) w → Q (.error e) w) : (p.bind f).Guards M G Pre Q w := by
  induction p generalizing w with
  | ret a => exact hok a w (hp w (refl w))
  | fail e => exact fun v hv => herr e v (hp v hv)
  | act a k ih => exact fun v hv => ⟨(hp v hv).1, fun i => ih _ ((hp v hv).2 i)⟩

theorem Prog.Guards.attempt {ε' : Type} {p : Prog S ε α} {w : M.World} (hp : p.Guards M G Pre Q w) :
    (p.attempt : Prog S ε' (Except ε α)).Guards M G Pre (fun r w => ∃ o, r = .ok o ∧ Q o w) w := by
  induction p generalizing w with
  | ret a => exact fun v hv => ⟨_, rfl, hp v hv⟩
  | fail e => exact fun v hv => ⟨_, rfl, hp v hv⟩
  | act a k ih => exact fun v hv => ⟨(hp v hv).1, fun i => ih _ ((hp v hv).2 i)⟩

/-- In a run whose calls all guard their actions and outcomes, an invariant that
guarded actions keep is kept, and a call that has returned did so in a world
satisfying `Q` of it. -/
theorem Pool.guards_play (body : κ → Prog S ε α) (I : M.World → Prop) (P : Pool M ε α κ)
    (Q : Nat → κ → Except ε α → M.World → Prop) (refl : ∀ w, G w w)
    (trans : ∀ u v w, G u v → G v w → G u w)
    (own : ∀ a i w, I w → Pre a w → G w (M.exec a i w).2 ∧ I (M.exec a i w).2)
    (fresh : ∀ j t w, P.calls.length ≤ j → I w → (body t).Guards M G Pre (Q j t) w)
    (hI : I P.world)
    (hP : ∀ (j : Nat) (c : Call S ε α κ), P.calls[j]? = some c → c.rest.Guards M G Pre (Q j c.tag) P.world)
    (ms : List (Move M κ)) :
    G P.world (P.play body ms).world ∧ I (P.play body ms).world ∧
      ∀ j c o, (P.play body ms).calls[j]? = some c → c.outcome = some o →
        Q j c.tag o (P.play body ms).world := by
  obtain ⟨hG, hI', hF⟩ := P.each_play body I G
    (fun j (c : Call S ε α κ) w => c.rest.Guards M G Pre (Q j c.tag) w) refl trans
    (fun j c w w' _ hw hc => hc.later trans hw) fresh
    (fun j c w a k i hw ha hc => by
      rw [ha] at hc
      obtain ⟨hpre, hk⟩ := hc w (refl w)
      exact ⟨(own a i w hw hpre).1, (own a i w hw hpre).2, hk i⟩) hI hP ms
  refine ⟨hG, hI', fun j c o hj ho => ?_⟩
  have hc := hF j c hj
  unfold Call.outcome at ho
  cases hr : c.rest with
  | ret a => rw [hr] at hc ho; cases ho; exact hc _ (refl _)
  | fail e => rw [hr] at hc ho; cases ho; exact hc _ (refl _)
  | act a k => rw [hr] at ho; cases ho

/-- In a run whose calls all guard their actions, every action is performed in a
world that satisfies `Pre` of it. -/
theorem Pool.play_guarded (body : κ → Prog S ε α) (refl : ∀ w, G w w) (trans : ∀ u v w, G u v → G v w → G u w)
    (own : ∀ a i w, G w (M.exec a i w).2) (hbody : ∀ t w, (body t).Guards M G Pre (fun _ _ => True) w)
    {P : Pool M ε α κ} (hP : P.calls = []) (ms : List (Move M κ)) :
    P.Admits body (fun R m => ∀ x ∈ R.performs m, Pre x.1 R.world) ms := by
  have guards : ∀ c ∈ P.calls, c.rest.Guards M G Pre (fun _ _ => True) P.world := by simp [hP]
  clear hP
  induction ms generalizing P with
  | nil => trivial
  | cons m ms ih =>
    refine ⟨fun x hx => ?_, ih ?_⟩
    · obtain ⟨a, i⟩ := x
      obtain ⟨j, c, k, -, hc, ha⟩ := Pool.performs_eq_some hx
      have h := guards c (List.mem_of_getElem? hc)
      rw [ha] at h
      exact (h _ (refl _)).1
    · rcases P.next_cases body m with ⟨t, -, h⟩ | ⟨j, i, c, a, k, -, hc, ha, h⟩ | ⟨j, i, -, h⟩
      · rw [h]
        intro d hd
        rcases List.mem_append.mp hd with hd | hd
        · exact guards d hd
        · cases List.mem_singleton.mp hd
          exact hbody t _
      · rw [h]
        intro d hd
        rcases List.mem_or_eq_of_mem_set hd with hd | rfl
        · exact (guards d hd).later trans (own a i _)
        · have hc := guards c (List.mem_of_getElem? hc)
          rw [ha] at hc
          exact (hc _ (refl _)).2 i
      · rw [h]; exact guards

end

/-! ## What happens at most once -/

/-- The call has performed an action with such an answer. -/
def Call.Did (hit : Event S → Prop) (c : Call S ε α κ) : Prop := ∃ ev ∈ c.past, hit ev

theorem Call.did_after {hit : Event S → Prop} {c : Call S ε α κ} {a : S.Act}
    {k : S.Res a → Prog S ε α} {r : S.Res a} :
    (c.after a k r).Did hit ↔ c.Did hit ∨ hit ⟨a, r⟩ := by
  constructor
  · rintro ⟨ev, hev, hh⟩
    rcases List.mem_append.mp hev with hev | hev
    · exact .inl ⟨ev, hev, hh⟩
    · cases List.mem_singleton.mp hev
      exact .inr hh
  · rintro (⟨ev, hev, hh⟩ | hh)
    · exact ⟨ev, List.mem_append_left _ hev, hh⟩
    · exact ⟨_, List.mem_append_right _ (List.mem_singleton.mpr rfl), hh⟩

section
variable {M : Machine S} (body : κ → Prog S ε α) {hit : Event S → Prop} {spent : M.World → Prop}

/-- An event that happens only where it has not happened, and spends what lets
it happen for good, happens in at most one call. -/
theorem Pool.play_once (fires : ∀ a i w, hit ⟨a, (M.exec a i w).1⟩ → ¬spent w ∧ spent (M.exec a i w).2)
    (stays : ∀ a i w, spent w → spent (M.exec a i w).2) (P : Pool M ε α κ) (hP : P.calls = [])
    (ms : List (Move M κ)) :
    (∀ (j : Nat) (c : Call S ε α κ), (P.play body ms).calls[j]? = some c → c.Did hit →
      spent (P.play body ms).world) ∧
    ∀ (j j' : Nat) (c c' : Call S ε α κ), (P.play body ms).calls[j]? = some c →
      (P.play body ms).calls[j']? = some c' → c.Did hit → c'.Did hit → j = j' := by
  refine Pool.play_keeps body (I := fun R =>
    (∀ (j : Nat) (c : Call S ε α κ), R.calls[j]? = some c → c.Did hit → spent R.world) ∧
    ∀ (j j' : Nat) (c c' : Call S ε α κ), R.calls[j]? = some c → R.calls[j']? = some c' → c.Did hit →
      c'.Did hit → j = j') (fun R m hR => ?_) (by simp [hP]) ms
  obtain ⟨hspent, huniq⟩ := hR
  rcases R.next_cases body m with ⟨t, -, h⟩ | ⟨n, i, d, a, k, -, hd, ha, h⟩ | ⟨n, i, -, h⟩
  · -- a fresh call has done nothing
    have old : ∀ (j : Nat) (c : Call S ε α κ), (R.calls ++ [⟨t, [], body t⟩])[j]? = some c → c.Did hit →
        R.calls[j]? = some c := by
      intro j c hj hc
      rcases Nat.lt_or_ge j R.calls.length with hlt | hge
      · rwa [List.getElem?_append_left hlt] at hj
      · rw [List.getElem?_append_right hge] at hj
        obtain ⟨ev, hev, -⟩ := hc
        cases List.mem_singleton.mp (List.mem_of_getElem? hj)
        cases hev
    rw [h]
    exact ⟨fun j c hj hc => hspent j c (old j c hj hc) hc,
      fun j j' c c' hj hj' hc hc' => huniq j j' c c' (old j c hj hc) (old j' c' hj' hc') hc hc'⟩
  · -- another call that did it has spent what this one would need
    have hlt : n < R.calls.length := (List.getElem?_eq_some_iff.mp hd).1
    have fresh : hit ⟨a, (M.exec a i R.world).1⟩ → ∀ (j : Nat) (c : Call S ε α κ), R.calls[j]? = some c →
        ¬c.Did hit := fun hh j c hj hc => (fires a i R.world hh).1 (hspent j c hj hc)
    have split : (d.after a k (M.exec a i R.world).1).Did hit →
        d.Did hit ∨ hit ⟨a, (M.exec a i R.world).1⟩ := by
      rintro ⟨ev, hev, hh⟩
      rcases List.mem_append.mp hev with hev | hev
      · exact .inl ⟨ev, hev, hh⟩
      · cases List.mem_singleton.mp hev
        exact .inr hh
    rw [h]
    refine ⟨fun j c hj hc => ?_, fun j j' c c' hj hj' hc hc' => ?_⟩
    · by_cases hjn : n = j
      · subst hjn
        rw [List.getElem?_set_self hlt] at hj; cases hj
        rcases split hc with hc | hh
        · exact stays a i _ (hspent n d hd hc)
        · exact (fires a i _ hh).2
      · rw [List.getElem?_set_ne hjn] at hj
        exact stays a i _ (hspent j c hj hc)
    · by_cases hjn : n = j <;> by_cases hjn' : n = j'
      · exact hjn.symm.trans hjn'
      · subst hjn
        rw [List.getElem?_set_self hlt] at hj; cases hj
        rw [List.getElem?_set_ne hjn'] at hj'
        rcases split hc with hc | hh
        · exact huniq n j' d c' hd hj' hc hc'
        · exact absurd hc' (fresh hh j' c' hj')
      · subst hjn'
        rw [List.getElem?_set_self hlt] at hj'; cases hj'
        rw [List.getElem?_set_ne hjn] at hj
        rcases split hc' with hc' | hh
        · exact huniq j n c d hj hd hc hc'
        · exact absurd hc (fresh hh j c hj)
      · rw [List.getElem?_set_ne hjn] at hj
        rw [List.getElem?_set_ne hjn'] at hj'
        exact huniq j j' c c' hj hj' hc hc'
  · rw [h]
    exact ⟨hspent, huniq⟩

end

/-! ## What a result needs -/

/-- Every path of the program to a value performs a `hit`. -/
def Prog.Needs (hit : Event S → Prop) : Prog S ε α → Prop
  | .ret _ => False
  | .fail _ => True
  | .act a k => ∀ r, hit ⟨a, r⟩ ∨ (k r).Needs hit

section
variable {hit : Event S → Prop}

theorem Prog.Needs.bind_left {p : Prog S ε α} {f : α → Prog S ε β} (hp : p.Needs hit) :
    (p.bind f).Needs hit := by
  induction p with
  | ret a => exact hp.elim
  | fail e => trivial
  | act a k ih => exact fun r => (hp r).imp_right (ih r)

theorem Prog.Needs.bind_right {p : Prog S ε α} {f : α → Prog S ε β} (hf : ∀ a, (f a).Needs hit) :
    (p.bind f).Needs hit := by
  induction p with
  | ret a => exact hf a
  | fail e => trivial
  | act a k ih => exact fun r => .inr (ih r)

theorem Pool.play_needs {M : Machine S} (body : κ → Prog S ε α) {T : κ → Prop}
    (hbody : ∀ t, T t → (body t).Needs hit) (P : Pool M ε α κ) (hP : P.calls = []) (ms : List (Move M κ)) :
    ∀ (j : Nat) (c : Call S ε α κ) (a : α), (P.play body ms).calls[j]? = some c → T c.tag →
      c.outcome = some (.ok a) → c.Did hit := by
  have key := (P.each_play body (fun _ => True) (fun _ _ => True)
    (fun _ (c : Call S ε α κ) _ => T c.tag → c.Did hit ∨ c.rest.Needs hit) (fun _ => trivial)
    (fun _ _ _ _ _ => trivial) (fun _ _ _ _ _ _ h => h) (fun _ t _ _ _ ht => .inr (hbody t ht)) ?_ trivial
    (by simp [hP]) ms).2.2
  · intro j c a hc ht ho
    rcases key j c hc ht with h | h
    · exact h
    · unfold Call.outcome at ho
      cases hr : c.rest with
      | ret b => rw [hr] at h; exact h.elim
      | fail e => rw [hr] at ho; cases ho
      | act b k => rw [hr] at ho; cases ho
  · intro j c w a k i _ ha hc
    refine ⟨trivial, trivial, fun ht => ?_⟩
    rcases hc ht with ⟨ev, hev, hh⟩ | h
    · exact .inl ⟨ev, List.mem_append_left _ hev, hh⟩
    · rw [ha] at h
      rcases h (M.exec a i w).1 with hh | h
      · exact .inl ⟨_, List.mem_append_right _ (List.mem_singleton.mpr rfl), hh⟩
      · exact .inr h

end

/-! ## What a finished call has been told -/

/-- Every path of the program, with its outcome, satisfies `R`. -/
def Prog.Paths (R : List (Event S) → Except ε α → Prop) : Prog S ε α → Prop
  | .ret a => R [] (.ok a)
  | .fail e => R [] (.error e)
  | .act a k => ∀ r, (k r).Paths fun evs o => R (⟨a, r⟩ :: evs) o

theorem Prog.paths_of_forall {R : List (Event S) → Except ε α → Prop} (h : ∀ evs o, R evs o) (p : Prog S ε α) :
    p.Paths R := by
  induction p generalizing R with
  | ret a => exact h _ _
  | fail e => exact h _ _
  | act a k ih => exact fun r => ih r fun evs o => h _ _

theorem Prog.Paths.mono {R R' : List (Event S) → Except ε α → Prop} (h : ∀ evs o, R evs o → R' evs o)
    {p : Prog S ε α} (hp : p.Paths R) : p.Paths R' := by
  induction p generalizing R R' with
  | ret a => exact h _ _ hp
  | fail e => exact h _ _ hp
  | act a k ih => exact fun r => ih r (fun evs o => h _ _) (hp r)

/-- On every path to a value, `R` of the value and of what was done. -/
def Prog.Yields (R : α → List (Event S) → Prop) (p : Prog S ε α) : Prop :=
  p.Paths fun evs o => ∀ a, o = .ok a → R a evs

/-- What is shown by some of the events is shown by all of them. -/
def Extends (R : α → List (Event S) → Prop) : Prop := ∀ a evs evs', evs ⊆ evs' → R a evs → R a evs'

section
variable {R : α → List (Event S) → Prop} {T : β → List (Event S) → Prop}

theorem Prog.Ends.paths {Q : Except ε α → Prop} {p : Prog S ε α} (hp : p.Ends Q) : p.Paths fun _ o => Q o := by
  induction p with
  | ret a => exact hp
  | fail e => exact hp
  | act a k ih => exact fun r => ih r (hp r)

theorem Prog.paths_of_all {A : S.Act → Prop} {Q : Except ε α → Prop} {p : Prog S ε α}
    (hp : p.All A) (hQ : p.Ends Q) :
    p.Paths fun evs o => (∀ ev ∈ evs, A ev.act) ∧ Q o := by
  induction p with
  | ret a => exact ⟨fun ev h => (nomatch h), hQ⟩
  | fail e => exact ⟨fun ev h => (nomatch h), hQ⟩
  | act a k ih =>
    intro r
    refine (ih r (hp.2 r) (hQ r)).mono fun evs o h => ⟨fun ev hev => ?_, h.2⟩
    rcases List.mem_cons.mp hev with rfl | hev
    · exact hp.1
    · exact h.1 ev hev

theorem Prog.yields_fail {e : ε} : (Prog.fail e : Prog S ε α).Yields R := fun _ h => nomatch h

theorem Prog.yields_after {A : S.Act → Prop} (hR : ∀ b ev evs, A ev.act → T b evs → T b (ev :: evs))
    {p : Prog S ε α}
    {f : α → Prog S ε β} (hp : p.All A) (hf : ∀ a, (f a).Yields T) : (p.bind f).Yields T := by
  induction p with
  | ret a => exact hf a
  | fail e => exact Prog.yields_fail
  | act a k ih =>
    exact fun r => Prog.Paths.mono (fun evs _ ho b hb => hR b ⟨a, r⟩ evs hp.1 (ho b hb)) (ih r (hp.2 r))

theorem Prog.yields_bind_right (hR : Extends T) {p : Prog S ε α} {f : α → Prog S ε β}
    (hf : ∀ a, (f a).Yields T) :
    (p.bind f).Yields T :=
  Prog.yields_after (fun b _ _ _ h => hR b _ _ (List.subset_cons_self _ _) h) (Prog.all_true p) hf

theorem Prog.Yields.map {g : α → β} (h : ∀ a evs, R a evs → T (g a) evs) {p : Prog S ε α} (hp : p.Yields R) :
    (p.bind fun a => .ret (g a)).Yields T := by
  induction p generalizing R T with
  | ret a => exact fun b hb => by cases hb; exact h a [] (hp a rfl)
  | fail e => exact Prog.yields_fail
  | act a k ih =>
    intro r
    exact ih r (R := fun b evs => R b (⟨a, r⟩ :: evs)) (T := fun b evs => T b (⟨a, r⟩ :: evs))
      (fun b evs => h b _) (hp r)

theorem Prog.yields_of_ends {p : Prog S ε α}
    (hp : p.Ends fun o => ∀ a, o = .ok a → ∀ evs, R a evs) : p.Yields R :=
  hp.paths.mono fun evs _ ho a ha => ho a ha evs

theorem Prog.Yields.bind (hR : Extends T) {p : Prog S ε α} {f : α → Prog S ε β} (hp : p.Yields R)
    (hf : ∀ a evs, R a evs → (f a).Ends fun o => ∀ b, o = .ok b → T b evs) : (p.bind f).Yields T := by
  induction p generalizing R T with
  | ret a =>
    exact (hf a [] (hp a rfl)).paths.mono fun evs _ ho b hb => hR b [] evs (List.nil_subset evs) (ho b hb)
  | fail e => exact Prog.yields_fail
  | act a k ih =>
    intro r
    exact ih r (R := fun b evs => R b (⟨a, r⟩ :: evs)) (T := fun b evs => T b (⟨a, r⟩ :: evs))
      (fun b evs evs' hsub h => hR b _ _ (List.cons_subset_cons _ hsub) h) (hp r) fun b evs h => hf b _ h

end

theorem Prog.Paths.run {M : Machine S} {R : List (Event S) → Except ε α → Prop}
    {p : Prog S ε α} (hp : p.Paths R)
    (i : Nat → M.Input) (w : M.World) : R (p.trace M i w) (p.run M i w).1 := by
  induction p generalizing R i w with
  | ret a => exact hp
  | fail e => exact hp
  | act a k ih => exact ih _ (hp _) _ _

section
variable {M : Machine S} (body : κ → Prog S ε α)

theorem Pool.play_paths {R : κ → List (Event S) → Except ε α → Prop} (hbody : ∀ t, (body t).Paths (R t))
    (P : Pool M ε α κ) (hP : P.calls = []) (ms : List (Move M κ)) :
    ∀ (j : Nat) (c : Call S ε α κ) (o : Except ε α), (P.play body ms).calls[j]? = some c → c.outcome = some o →
      R c.tag c.past o := by
  have key := (P.each_play body (fun _ => True) (fun _ _ => True)
    (fun _ (c : Call S ε α κ) _ => c.rest.Paths fun evs o => R c.tag (c.past ++ evs) o) (fun _ => trivial)
    (fun _ _ _ _ _ => trivial) (fun _ _ _ _ _ _ h => h) (fun _ t _ _ _ => hbody t) ?_ trivial (by simp [hP])
    ms).2.2
  · intro j c o hc ho
    have h := key j c hc
    unfold Call.outcome at ho
    cases hr : c.rest with
    | ret b => rw [hr] at h ho; cases ho; rw [← List.append_nil c.past]; exact h
    | fail e => rw [hr] at h ho; cases ho; rw [← List.append_nil c.past]; exact h
    | act b k => rw [hr] at ho; cases ho
  · intro j c w a k i _ ha hc
    refine ⟨trivial, trivial, ?_⟩
    rw [ha] at hc
    exact (hc (M.exec a i w).1).mono fun evs o h => by simpa using h

/-- What an answer said of the world, and no action takes back, holds of every
answer given so far. -/
theorem Pool.play_past {Holds : Event S → M.World → Prop}
    (given : ∀ a i w, Holds ⟨a, (M.exec a i w).1⟩ (M.exec a i w).2)
    (stays : ∀ ev a i w, Holds ev w → Holds ev (M.exec a i w).2) (P : Pool M ε α κ) (hP : P.calls = [])
    (ms : List (Move M κ)) :
    ∀ (j : Nat) (c : Call S ε α κ), (P.play body ms).calls[j]? = some c →
      ∀ ev ∈ c.past, Holds ev (P.play body ms).world := by
  refine (P.each_play body (fun _ => True) (fun w w' => ∀ ev, Holds ev w → Holds ev w')
    (fun _ (c : Call S ε α κ) w => ∀ ev ∈ c.past, Holds ev w) (fun _ _ h => h)
    (fun _ _ _ huv hvw ev h => hvw ev (huv ev h)) (fun _ _ _ _ _ hw hc ev hev => hw ev (hc ev hev))
    (fun _ _ _ _ _ ev hev => nomatch hev) ?_ trivial (by simp [hP]) ms).2.2
  intro j c w a k i _ _ hc
  refine ⟨fun ev h => stays ev a i w h, trivial, fun ev hev => ?_⟩
  rcases List.mem_append.mp hev with hev | hev
  · exact stays ev a i w (hc ev hev)
  · cases List.mem_singleton.mp hev
    exact given a i w

end

end Proc
