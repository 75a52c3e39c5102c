import BackbonePortal.Duties
import Mathlib.Algebra.BigOperators.Group.List.Basic
import Mathlib.Algebra.GroupWithZero.Nat

/-!
# Tallies

A tally of the world moves with the events that write to it. What each call
has written when it returns, and which call a tally is due to, give the tally
of a whole run.
-/

namespace Proc

variable {S : Sig} {ε α β κ : Type}

/-! ## What a call has done -/

/-- Every path of answers in `Can`, with its outcome, satisfies `R`. -/
def Prog.Told (Can : Event S → Prop) (R : List (Event S) → Except ε α → Prop) : Prog S ε α → Prop
  | .ret a => R [] (.ok a)
  | .fail e => R [] (.error e)
  | .act a k => ∀ r, Can ⟨a, r⟩ → (k r).Told Can fun evs o => R (⟨a, r⟩ :: evs) o

section
variable {Can : Event S → Prop}

theorem Prog.Told.mono {R R' : List (Event S) → Except ε α → Prop} (h : ∀ evs o, R evs o → R' evs o)
    {p : Prog S ε α}
    (hp : p.Told Can R) : p.Told Can R' := by
  induction p generalizing R R' with
  | ret a => exact h _ _ hp
  | fail e => exact h _ _ hp
  | act a k ih => exact fun r hr => ih r (fun evs o => h _ _) (hp r hr)

theorem Prog.Told.and {R R' : List (Event S) → Except ε α → Prop} {p : Prog S ε α}
    (hp : p.Told Can R) (hp' : p.Told Can R') :
    p.Told Can fun evs o => R evs o ∧ R' evs o := by
  induction p generalizing R R' with
  | ret a => exact ⟨hp, hp'⟩
  | fail e => exact ⟨hp, hp'⟩
  | act a k ih => exact fun r hr => ih r (hp r hr) (hp' r hr)

theorem Prog.Told.bind {R : List (Event S) → Except ε α → Prop} {T : α → List (Event S) → Except ε β → Prop}
    {Q : List (Event S) → Except ε β → Prop} {p : Prog S ε α} {f : α → Prog S ε β} (hp : p.Told Can R)
    (hf : ∀ a, (f a).Told Can (T a)) (hok : ∀ evs a evs' o, R evs (.ok a) → T a evs' o → Q (evs ++ evs') o)
    (herr : ∀ evs e, R evs (.error e) → Q evs (.error e)) : (p.bind f).Told Can Q := by
  induction p generalizing R Q with
  | ret a => exact (hf a).mono fun evs o ho => hok [] a evs o hp ho
  | fail e => exact herr [] e hp
  | act a k ih =>
    intro r hr
    exact ih r (hp r hr) (fun evs b evs' o h h' => hok (⟨a, r⟩ :: evs) b evs' o h h') fun evs e h => herr _ e h

theorem Prog.Told.map {R : List (Event S) → Except ε β → Prop} {f : α → β} {p : Prog S ε α}
    (hp : p.Told Can fun evs o => R evs (o.map f)) : (p.bind fun a => .ret (f a)).Told Can R := by
  induction p generalizing R with
  | ret a => exact hp
  | fail e => exact hp
  | act a k ih => exact fun r hr => ih r (hp r hr)

theorem Prog.Told.mapErr {ε' : Type} {R : List (Event S) → Except ε' α → Prop} {g : ε → ε'} {p : Prog S ε α}
    (hp : p.Told Can fun evs o => R evs (o.mapError g)) : (p.mapErr g).Told Can R := by
  induction p generalizing R with
  | ret a => exact hp
  | fail e => exact hp
  | act a k ih => exact fun r hr => ih r (hp r hr)

theorem Prog.told_all {A : S.Act → Prop} {p : Prog S ε α} (hp : p.All A) :
    p.Told Can fun evs _ => ∀ ev ∈ evs, A ev.act := by
  induction p with
  | ret a => exact fun ev hev => nomatch hev
  | fail e => exact fun ev hev => nomatch hev
  | act a k ih =>
    intro r hr
    refine (ih r (hp.2 r)).mono fun evs o h ev hev => ?_
    rcases List.mem_cons.mp hev with rfl | hev
    · exact hp.1
    · exact h ev hev

theorem Prog.told_act {R : List (Event S) → Except ε α → Prop} {a : S.Act} {k : S.Res a → Prog S ε α}
    (h : ∀ r, Can ⟨a, r⟩ → (k r).Told Can fun evs o => R (⟨a, r⟩ :: evs) o) : (Prog.act a k).Told Can R := h

end

section
variable {M : Machine S} (body : κ → Prog S ε α) {Can : Event S → Prop}

theorem Pool.play_told {R : κ → List (Event S) → Except ε α → Prop} (hbody : ∀ t, (body t).Told Can (R t))
    {P : Pool M ε α κ} (hP : P.calls = []) {ms : List (Move M κ)}
    (hms : P.Admits body (Pool.Answers fun _ => Can) ms) :
    ∀ c ∈ (P.play body ms).calls, ∀ o, c.outcome = some o → R c.tag c.past o := by
  have key := Pool.play_keeps_of body
    (I := fun Q : Pool M ε α κ => ∀ c ∈ Q.calls, c.rest.Told Can fun evs o => R c.tag (c.past ++ evs) o) ?_
    (by simp [hP]) hms
  · intro c hc o ho
    have h := key c hc
    unfold Call.outcome at ho
    cases hr : c.rest with
    | ret b => rw [hr] at h ho; cases ho; rw [← List.append_nil c.past]; exact h
    | fail e => rw [hr] at h ho; cases ho; rw [← List.append_nil c.past]; exact h
    | act b k => rw [hr] at ho; cases ho
  · intro Q m hm hQ
    rcases Q.next_cases body m with ⟨t, -, h⟩ | ⟨j, i, c, a, k, rfl, hc, ha, h⟩ | ⟨j, i, -, h⟩
    · rw [h]
      intro d hd
      rcases List.mem_append.mp hd with hd | hd
      · exact hQ d hd
      · cases List.mem_singleton.mp hd
        exact hbody t
    · rw [h]
      intro d hd
      rcases List.mem_or_eq_of_mem_set hd with hd | rfl
      · exact hQ d hd
      · have hnext := hQ c (List.mem_of_getElem? hc)
        rw [ha] at hnext
        exact (hnext _ (hm j i c a k rfl hc ha)).mono fun evs o ho => by simpa using ho
    · rw [h]
      exact hQ

end

/-! ## Where a fact comes from -/

section
variable {M : Machine S} (body : κ → Prog S ε α) {hit : Event S → Prop} {F : M.World → Prop}

theorem Pool.play_caused {A : S.Act → Prop} (hbody : ∀ t, (body t).All A)
    (made : ∀ a i w, A a → F (M.exec a i w).2 → F w ∨ hit ⟨a, (M.exec a i w).1⟩)
    {P : Pool M ε α κ} (hP : P.calls = [])
    (ms : List (Move M κ)) (hF : F (P.play body ms).world) :
    F P.world ∨ ∃ c ∈ (P.play body ms).calls, c.Did hit := by
  have key := Pool.play_keeps body
    (I := fun Q : Pool M ε α κ => (∀ c ∈ Q.calls, c.rest.All A) ∧
      (F Q.world → F P.world ∨ ∃ c ∈ Q.calls, c.Did hit))
    (fun Q m hQ => ?_) (P := P) ⟨by simp [hP], .inl⟩ ms
  · exact key.2 hF
  · obtain ⟨hall, hcause⟩ := hQ
    rcases Q.next_cases body m with ⟨t, -, h⟩ | ⟨j, i, c, a, k, -, hc, ha, h⟩ | ⟨j, i, -, h⟩
    · rw [h]
      refine ⟨fun d hd => ?_, fun hF => ?_⟩
      · rcases List.mem_append.mp hd with hd | hd
        · exact hall d hd
        · cases List.mem_singleton.mp hd
          exact hbody t
      · rcases hcause hF with hF | ⟨c, hc, hdid⟩
        · exact .inl hF
        · exact .inr ⟨c, List.mem_append_left _ hc, hdid⟩
    · have hlt : j < Q.calls.length := (List.getElem?_eq_some_iff.mp hc).1
      have hrest := hall c (List.mem_of_getElem? hc)
      rw [ha] at hrest
      rw [h]
      refine ⟨fun d hd => ?_, fun hF => ?_⟩
      · rcases List.mem_or_eq_of_mem_set hd with hd | rfl
        · exact hall d hd
        · exact hrest.2 _
      · rcases made a i Q.world hrest.1 hF with hF | hhit
        · rcases hcause hF with hF | ⟨d, hd, hdid⟩
          · exact .inl hF
          · obtain ⟨n, hn⟩ := List.getElem?_of_mem hd
            by_cases hjn : j = n
            · subst hjn
              cases hc.symm.trans hn
              exact .inr ⟨_, List.mem_of_getElem? (List.getElem?_set_self hlt), Call.did_after.mpr (.inl hdid)⟩
            · exact .inr ⟨d, List.mem_of_getElem? ((List.getElem?_set_ne hjn).trans hn), hdid⟩
        · exact .inr ⟨_, List.mem_of_getElem? (List.getElem?_set_self hlt), Call.did_after.mpr (.inr hhit)⟩
    · rw [h]
      exact ⟨hall, hcause⟩

theorem Pool.play_never {spent : M.World → Prop} (fires : ∀ a i w, hit ⟨a, (M.exec a i w).1⟩ → ¬spent w)
    (stays : ∀ a i w, spent w → spent (M.exec a i w).2) {P : Pool M ε α κ} (hP : P.calls = [])
    (hspent : spent P.world)
    (ms : List (Move M κ)) : ∀ c ∈ (P.play body ms).calls, ¬c.Did hit := by
  have key := Pool.play_keeps body (I := fun Q : Pool M ε α κ => spent Q.world ∧ ∀ c ∈ Q.calls, ¬c.Did hit)
    (fun Q m hQ => ?_) (P := P) ⟨hspent, by simp [hP]⟩ ms
  · exact key.2
  · obtain ⟨hs, hnone⟩ := hQ
    rcases Q.next_cases body m with ⟨t, -, h⟩ | ⟨j, i, c, a, k, -, hc, ha, h⟩ | ⟨j, i, -, h⟩
    · rw [h]
      refine ⟨hs, fun d hd => ?_⟩
      rcases List.mem_append.mp hd with hd | hd
      · exact hnone d hd
      · cases List.mem_singleton.mp hd
        exact fun ⟨_, hev, _⟩ => nomatch hev
    · rw [h]
      refine ⟨stays a i _ hs, fun d hd => ?_⟩
      rcases List.mem_or_eq_of_mem_set hd with hd | rfl
      · exact hnone d hd
      · intro hdid
        rcases Call.did_after.mp hdid with hdid | hhit
        · exact hnone c (List.mem_of_getElem? hc) hdid
        · exact fires a i _ hhit hs
    · rw [h]
      exact ⟨hs, hnone⟩

theorem Pool.admits_of_forall {A : Pool M ε α κ → Move M κ → Prop} {ms : List (Move M κ)}
    (h : ∀ m ∈ ms, ∀ Q, A Q m)
    (P : Pool M ε α κ) : P.Admits body A ms := by
  induction ms generalizing P with
  | nil => trivial
  | cons m ms ih => exact ⟨h m List.mem_cons_self P, ih (fun n hn => h n (List.mem_cons_of_mem _ hn)) _⟩

end

/-! ## Counting over the calls -/

section
variable {γ : Type}

theorem sum_map_set (f : γ → Nat) {l : List γ} {j d : Nat} {x y : γ} (h : l[j]? = some x)
    (hxy : f y = f x + d) :
    ((l.set j y).map f).sum = (l.map f).sum + d := by
  induction l generalizing j with
  | nil => cases h
  | cons z l ih =>
    cases j with
    | zero =>
      cases h
      simp only [List.set_cons_zero, List.map_cons, List.sum_cons, hxy]
      omega
    | succ j =>
      have := ih h
      simp only [List.set_cons_succ, List.map_cons, List.sum_cons, this]
      omega

theorem sum_map_toNat (f : γ → Bool) (l : List γ) : (l.map fun x => (f x).toNat).sum = l.countP f := by
  induction l with
  | nil => rfl
  | cons x l ih =>
    simp only [List.map_cons, List.sum_cons, ih, List.countP_cons]
    cases f x <;> simp <;> omega

theorem countP_le_one_iff {f : γ → Bool} {l : List γ} : l.countP f ≤ 1 ↔
    ∀ (j j' : Nat) (x y : γ), l[j]? = some x → l[j']? = some y → f x = true → f y = true → j = j' := by
  induction l with
  | nil => simp
  | cons z l ih =>
    by_cases hz : f z = true
    · rw [List.countP_cons_of_pos hz]
      constructor
      · intro h j j' x y hj hj' hx hy
        have hnone : ∀ x ∈ l, f x ≠ true := List.countP_eq_zero.mp (by omega)
        cases j with
        | zero =>
          cases j' with
          | zero => rfl
          | succ j' => exact absurd hy (hnone y (List.mem_of_getElem? hj'))
        | succ j => exact absurd hx (hnone x (List.mem_of_getElem? hj))
      · intro h
        have hnone : l.countP f = 0 := by
          apply List.countP_eq_zero.mpr
          intro x hx hfx
          obtain ⟨j, hj⟩ := List.getElem?_of_mem hx
          cases h 0 (j + 1) z x rfl hj hz hfx
        omega
    · rw [List.countP_cons_of_neg hz, ih]
      constructor
      · intro h j j' x y hj hj' hx hy
        cases j with
        | zero => cases hj; exact absurd hx hz
        | succ j =>
          cases j' with
          | zero => cases hj'; exact absurd hy hz
          | succ j' => rw [h j j' x y hj hj' hx hy]
      · intro h j j' x y hj hj' hx hy
        have := h (j + 1) (j' + 1) x y hj hj' hx hy
        omega

end

/-! ## Along the calls -/

section
variable {M : Machine S} (body : κ → Prog S ε α)

/-- A condition on what a call performs next, and on the world it performs it in. -/
def Pool.Next (A : Nat → Call S ε α κ → S.Act → M.Input → M.World → Prop) (P : Pool M ε α κ) : Move M κ → Prop
  | .start _ => True
  | .step j i => ∀ c ∈ P.calls[j]?, ∀ a ∈ c.next, A j c a i P.world

instance Pool.decidableNext (A : Nat → Call S ε α κ → S.Act → M.Input → M.World → Prop)
    [∀ j c a i w, Decidable (A j c a i w)] (P : Pool M ε α κ) : (m : Move M κ) → Decidable (P.Next A m)
  | .start _ => inferInstanceAs (Decidable True)
  | .step j i => inferInstanceAs (Decidable (∀ c ∈ P.calls[j]?, ∀ a ∈ c.next, A j c a i P.world))

theorem Pool.step_past {P : Pool M ε α κ} {ms ms₁ ms₂ : List (Move M κ)} {j : Nat}
    {i : M.Input} {c : Call S ε α κ}
    (hms : ms = ms₁ ++ .step j i :: ms₂) (hc : (P.play body ms).calls[j]? = some c) :
    (∃ a, ⟨a, (M.exec a i (P.play body ms₁).world).1⟩ ∈ c.past ∧
      ((P.play body ms₁).play body [.step j i]).world = (M.exec a i (P.play body ms₁).world).2) ∨
    ((P.play body ms₁).play body [.step j i]).world = (P.play body ms₁).world := by
  rw [hms, play_append, play_cons] at hc
  rcases (P.play body ms₁).next_cases body (.step j i)
    with ⟨t, ht, -⟩ | ⟨j', i', d, a, k, hm, hd, ha, h⟩ | ⟨_, _, -, h⟩
  · cases ht
  · cases hm
    have hlt : j < (P.play body ms₁).calls.length := (List.getElem?_eq_some_iff.mp hd).1
    have hnow : ((P.play body ms₁).next body (.step j i)).calls[j]? =
        some (d.after a k (M.exec a i (P.play body ms₁).world).1) := by
      rw [h]
      exact List.getElem?_set_self hlt
    obtain ⟨c', hc', -, hpast⟩ := play_call body hnow ms₂
    cases hc'.symm.trans hc
    refine .inl ⟨a, hpast.subset (List.mem_append_right _ (List.mem_singleton.mpr rfl)), ?_⟩
    rw [play_cons, play_nil, h]
  · rw [play_cons, play_nil, h]
    exact .inr rfl

theorem Pool.admits_next_iff {A : Nat → Call S ε α κ → S.Act → M.Input → M.World → Prop}
    {G : Nat → List (Event S) → Prop} {V : Pool M ε α κ → Move M κ → Prop} (nil : ∀ j, G j [])
    (before : ∀ j evs ev, G j (evs ++ [ev]) → G j evs)
    (step : ∀ Q j i c a k, V Q (.step j i) → Q.calls[j]? = some c → c.rest = .act a k → G j c.past →
      (A j c a i Q.world ↔ G j (c.past ++ [⟨a, (M.exec a i Q.world).1⟩])))
    {P : Pool M ε α κ} (hP : ∀ j c, P.calls[j]? = some c → G j c.past) {ms : List (Move M κ)}
    (hms : P.Admits body V ms) :
    P.Admits body (Pool.Next A) ms ↔ ∀ j c, (P.play body ms).calls[j]? = some c → G j c.past := by
  have shorter : ∀ j evs rest, G j (evs ++ rest) → G j evs := by
    intro j evs rest
    induction rest generalizing evs with
    | nil => rw [List.append_nil]; exact id
    | cons ev rest ih =>
      intro h
      rw [List.append_cons] at h
      exact before j evs ev (ih _ h)
  induction ms generalizing P with
  | nil => exact ⟨fun _ => hP, fun _ => trivial⟩
  | cons m ms ih =>
    -- the condition at the move is that the calls stay fine over it
    have hmove : P.Next A m ↔ ∀ j c, (P.next body m).calls[j]? = some c → G j c.past := by
      cases m with
      | start t =>
        refine ⟨fun _ n d hd => ?_, fun _ => trivial⟩
        rw [Pool.next_start, List.getElem?_append] at hd
        split at hd
        · exact hP n d hd
        · cases List.mem_singleton.mp (List.mem_of_getElem? hd)
          exact nil n
      | step j i =>
        cases hnext : P.calls[j]?.bind Call.next with
        | none =>
          rw [Pool.next_idle body hnext]
          refine ⟨fun _ => hP, fun _ c hc a ha => ?_⟩
          rw [hc, Option.bind_some, ha] at hnext
          cases hnext
        | some a =>
          obtain ⟨c, hc, hca⟩ := Option.bind_eq_some_iff.mp hnext
          obtain ⟨k, ha⟩ := Call.next_eq_some hca
          have hlt : j < P.calls.length := (List.getElem?_eq_some_iff.mp hc).1
          have hstep := step P j i c a k hms.1 hc ha (hP j c hc)
          rw [Pool.next_step body hc ha]
          constructor
          · intro hm n d hd
            by_cases hjn : j = n
            · subst hjn
              cases (List.getElem?_set_self hlt).symm.trans hd
              exact hstep.mp (hm c hc a hca)
            · exact hP n d ((List.getElem?_set_ne hjn).symm.trans hd)
          · intro hall d hd b hb
            cases hc.symm.trans hd
            cases hca.symm.trans hb
            exact hstep.mpr (hall j _ (List.getElem?_set_self hlt))
    constructor
    · rintro ⟨hm, hrest⟩
      exact (ih (hmove.mp hm) hms.2).mp hrest
    · intro hend
      have hnext : ∀ j c, (P.next body m).calls[j]? = some c → G j c.past := by
        intro j c hc
        obtain ⟨c', hc', -, rest, hpast⟩ := Pool.play_call body hc ms
        exact shorter j c.past rest (hpast ▸ hend j c' hc')
      exact ⟨hmove.mpr hnext, (ih hnext hms.2).mpr hend⟩

end

/-! ## Once in a run -/

section
variable {M : Machine S} (body : κ → Prog S ε α) {hit : Event S → Prop} [DecidablePred hit] {F : M.World → Prop}
  {P : Pool M ε α κ}

theorem Call.did_iff_any {c : Call S ε α κ} : c.Did hit ↔ (c.past.any fun ev => decide (hit ev)) = true := by
  simp only [Call.Did, List.any_eq_true, decide_eq_true_eq]

instance Call.decidableDid : DecidablePred (Call.Did hit : Call S ε α κ → Prop) := fun c =>
  inferInstanceAs (Decidable (∃ ev ∈ c.past, hit ev))

theorem Pool.play_count_le (fires : ∀ a i w, hit ⟨a, (M.exec a i w).1⟩ → ¬F w ∧ F (M.exec a i w).2)
    (stays : ∀ a i w, F w → F (M.exec a i w).2) (hP : P.calls = []) (ms : List (Move M κ)) :
    (P.play body ms).calls.countP (fun c => c.past.any fun ev => decide (hit ev)) ≤ 1 := by
  apply countP_le_one_iff.mpr
  intro j j' c c' hj hj' hc hc'
  exact (Pool.play_once body fires stays P hP ms).2 j j' c c' hj hj' (Call.did_iff_any.mpr hc)
    (Call.did_iff_any.mpr hc')

theorem Pool.play_count [DecidablePred F] {A : S.Act → Prop} (hbody : ∀ t, (body t).All A)
    (fires : ∀ a i w, hit ⟨a, (M.exec a i w).1⟩ → ¬F w ∧ F (M.exec a i w).2)
    (stays : ∀ a i w, F w → F (M.exec a i w).2)
    (made : ∀ a i w, A a → F (M.exec a i w).2 → F w ∨ hit ⟨a, (M.exec a i w).1⟩)
    (hP : P.calls = []) (ms : List (Move M κ)) :
    (P.play body ms).calls.countP (fun c => c.past.any fun ev => decide (hit ev)) =
      if F (P.play body ms).world ∧ ¬F P.world then 1 else 0 := by
  have hle := Pool.play_count_le body fires stays hP ms
  by_cases hstart : F P.world
  · have hnever := Pool.play_never body (fun a i w h => (fires a i w h).1) stays hP hstart ms
    rw [if_neg fun h => h.2 hstart, List.countP_eq_zero]
    exact fun c hc h => hnever c hc (Call.did_iff_any.mpr h)
  · by_cases hend : F (P.play body ms).world
    · rw [if_pos ⟨hend, hstart⟩]
      rcases Pool.play_caused body hbody made hP ms hend with h | ⟨c, hc, hdid⟩
      · exact absurd h hstart
      · have hpos : 0 < (P.play body ms).calls.countP fun c => c.past.any fun ev => decide (hit ev) :=
          List.countP_pos_iff.mpr ⟨c, hc, Call.did_iff_any.mp hdid⟩
        omega
    · rw [if_neg fun h => hend h.1, List.countP_eq_zero]
      intro c hc h
      obtain ⟨j, hj⟩ := List.getElem?_of_mem hc
      exact hend ((Pool.play_once body fires stays P hP ms).1 j c hj (Call.did_iff_any.mpr h))

end

/-! ## The tally of a run -/

section
variable {M : Machine S} (body : κ → Prog S ε α) {T : M.World → Nat} {writes : Event S → Bool}

theorem Pool.play_tally (hrows : ∀ a i w, T (M.exec a i w).2 = T w + (writes ⟨a, (M.exec a i w).1⟩).toNat)
    {P : Pool M ε α κ} (hP : P.calls = []) (ms : List (Move M κ)) :
    T (P.play body ms).world = T P.world + ((P.play body ms).calls.map fun c => c.past.countP writes).sum := by
  refine Pool.play_keeps body
    (I := fun Q : Pool M ε α κ => T Q.world = T P.world + (Q.calls.map fun c => c.past.countP writes).sum)
    (fun Q m hQ => ?_) (by simp [hP]) ms
  rcases Q.next_cases body m with ⟨t, -, h⟩ | ⟨j, i, c, a, k, rfl, hc, ha, h⟩ | ⟨j, i, -, h⟩
  · rw [h]
    simpa using hQ
  · have hpast : (c.after a k (M.exec a i Q.world).1).past.countP writes =
        c.past.countP writes + (writes ⟨a, (M.exec a i Q.world).1⟩).toNat := by
      rw [Call.after_past, List.countP_append, List.countP_singleton]
      cases writes ⟨a, (M.exec a i Q.world).1⟩ <;> rfl
    rw [h]
    show T (M.exec a i Q.world).2 = _
    rw [hrows, sum_map_set (fun c : Call S ε α κ => c.past.countP writes) hc hpast, hQ, Nat.add_assoc]
  · rw [h]
    exact hQ

theorem Pool.play_due {Can : Event S → Prop} {due : κ → List (Event S) → Bool}
    (hrows : ∀ a i w, T (M.exec a i w).2 = T w + (writes ⟨a, (M.exec a i w).1⟩).toNat)
    (hbody : ∀ t, (body t).Told Can fun evs _ => evs.countP writes = (due t evs).toNat)
    {P : Pool M ε α κ} (hP : P.calls = []) {ms : List (Move M κ)}
    (hms : P.Admits body (Pool.Answers fun _ => Can) ms)
    (hdone : ∀ c ∈ (P.play body ms).calls, c.outcome.isSome = true) :
    T (P.play body ms).world = T P.world + (P.play body ms).calls.countP fun c => due c.tag c.past := by
  rw [Pool.play_tally body hrows hP ms, ← sum_map_toNat]
  congr 2
  apply List.map_congr_left
  intro c hc
  obtain ⟨o, ho⟩ := Option.isSome_iff_exists.mp (hdone c hc)
  exact Pool.play_told body hbody hP hms c hc o ho

end

end Proc
