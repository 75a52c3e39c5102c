import BackbonePortal.Pool

/-!
# Critical sections

A call's state is read off what it has done, and says whether the call is inside
a section of its program. `play_sound` is the lock rule without the lock: while
nobody is inside, the resource is free; while a call is inside, it holds the
resource in its state. That nobody enters while another is inside is a condition
on the run.
-/

namespace Proc

variable {S : Sig} {ε α β κ σ : Type}

/-- What a program may do in which state, and where it may end. -/
structure Section (S : Sig) (σ : Type) where
  start : σ
  next : σ → Event S → σ
  inside : σ → Bool
  allows : σ → S.Act → Prop
  final : σ → Prop

/-! ## Programs -/

/-- From the state `s` every action is allowed, every value is returned in a
state in `Q`, and every failure in a final one. -/
def Prog.Obeys (sec : Section S σ) (Q : σ → α → Prop) : σ → Prog S ε α → Prop
  | s, .ret a => Q s a
  | s, .fail _ => sec.final s
  | s, .act a k => sec.allows s a ∧ ∀ r, (k r).Obeys sec Q (sec.next s ⟨a, r⟩)

section
variable {sec : Section S σ} {Q : σ → α → Prop} {R : σ → β → Prop}

theorem Prog.Obeys.mono {R : σ → α → Prop} (h : ∀ s a, Q s a → R s a) {p : Prog S ε α}
    {s : σ} (hp : p.Obeys sec Q s) :
    p.Obeys sec R s := by
  induction p generalizing s with
  | ret a => exact h s a hp
  | fail e => exact hp
  | act a k ih => exact ⟨hp.1, fun r => ih r (hp.2 r)⟩

theorem Prog.Obeys.bind {p : Prog S ε α} {f : α → Prog S ε β} {s : σ} (hp : p.Obeys sec Q s)
    (hf : ∀ s a, Q s a → (f a).Obeys sec R s) : (p.bind f).Obeys sec R s := by
  induction p generalizing s with
  | ret a => exact hf s a hp
  | fail e => exact hp
  | act a k ih => exact ⟨hp.1, fun r => ih r (hp.2 r)⟩

theorem Prog.obeys_of_all {A : S.Act → Prop} {I : σ → Prop} (final : ∀ s, I s → sec.final s)
    (keeps : ∀ s a, I s → A a → sec.allows s a ∧ ∀ r, I (sec.next s ⟨a, r⟩)) {p : Prog S ε α} (hp : p.All A)
    {s : σ} (hs : I s) : p.Obeys sec (fun s _ => I s) s := by
  induction p generalizing s with
  | ret a => exact hs
  | fail e => exact final s hs
  | act a k ih =>
    obtain ⟨hallows, hnext⟩ := keeps s a hs hp.1
    exact ⟨hallows, fun r => ih r (hp.2 r) (hnext r)⟩

end

/-! ## Calls -/

def Call.state (c : Call S ε α κ) (sec : Section S σ) : σ := c.past.foldl sec.next sec.start

def Call.Inside (c : Call S ε α κ) (sec : Section S σ) : Prop :=
  c.next.isSome = true ∧ sec.inside (c.state sec) = true

instance (c : Call S ε α κ) (sec : Section S σ) : Decidable (c.Inside sec) :=
  inferInstanceAs (Decidable (_ ∧ _))

theorem Call.state_after (c : Call S ε α κ) (sec : Section S σ) (a : S.Act)
    (k : S.Res a → Prog S ε α) (r : S.Res a) :
    (c.after a k r).state sec = sec.next (c.state sec) ⟨a, r⟩ := by
  simp only [Call.state, Call.after_past, List.foldl_append, List.foldl_cons, List.foldl_nil]

theorem Call.final_of_done {c : Call S ε α κ} {sec : Section S σ} {s : σ}
    (hc : c.rest.Obeys sec (fun s _ => sec.final s) s)
    (hdone : c.next.isSome = false) : sec.final s := by
  unfold Call.next at hdone
  cases hr : c.rest with
  | ret a => rw [hr] at hc; exact hc
  | fail e => rw [hr] at hc; exact hc
  | act a k => rw [hr] at hdone; cases hdone

/-! ## Runs -/

section
variable (M : Machine S) (sec : Section S σ) (body : κ → Prog S ε α)

/-- What an action does to the free resource, to the resource as it is held in a
state, and to a property of the world, if it meets `Ok`. -/
structure Section.Lends (Ok : S.Act → M.Input → M.World → Prop) (Free Safe : M.World → Prop)
    (Held : σ → M.World → Prop) : Prop where
  start : ∀ w, Held sec.start w
  own : ∀ s a i w, sec.allows s a → Ok a i w → Safe w → Held s w →
    (sec.inside s = false → sec.inside (sec.next s ⟨a, (M.exec a i w).1⟩) = true → Free w) →
    Held (sec.next s ⟨a, (M.exec a i w).1⟩) (M.exec a i w).2
  leave : ∀ s a i w, sec.allows s a → Ok a i w → Held s w → sec.inside s = true →
    sec.inside (sec.next s ⟨a, (M.exec a i w).1⟩) = false → Free (M.exec a i w).2
  /-- From outside, the resource is out of reach. -/
  frame : ∀ s a i w, sec.allows s a → Ok a i w → sec.inside s = false →
    (Free w → Free (M.exec a i w).2) ∧ ∀ s', Held s' w → Held s' (M.exec a i w).2
  stable : ∀ s a i w, Ok a i w → sec.inside s = false → Held s w → Held s (M.exec a i w).2
  final : ∀ s w, sec.final s → sec.inside s = true → Held s w → Free w
  safe : ∀ s a i w, sec.allows s a → Ok a i w → Held s w → Safe w → Safe (M.exec a i w).2

def Pool.EntersAlone (P : Pool M ε α κ) (m : Move M κ) : Prop :=
  ∀ j i c a k, m = .step j i → P.calls[j]? = some c → c.rest = .act a k → sec.allows (c.state sec) a →
    sec.inside (c.state sec) = false →
      sec.inside (sec.next (c.state sec) ⟨a, (M.exec a i P.world).1⟩) = true → ∀ d ∈ P.calls, ¬d.Inside sec

variable {M sec}

structure Pool.Sound (Free Safe : M.World → Prop) (Held : σ → M.World → Prop)
    (sec : Section S σ) (P : Pool M ε α κ) : Prop where
  obeys : ∀ c ∈ P.calls, c.rest.Obeys sec (fun s _ => sec.final s) (c.state sec)
  held : ∀ c ∈ P.calls, c.next.isSome = true → Held (c.state sec) P.world
  /-- At most one call is inside. -/
  alone : ∀ (j n : Nat) (c d : Call S ε α κ), P.calls[j]? = some c → P.calls[n]? = some d →
    c.Inside sec → d.Inside sec → j = n
  free : (∀ c ∈ P.calls, ¬c.Inside sec) → Free P.world
  safe : Safe P.world

variable {Ok : S.Act → M.Input → M.World → Prop} {Free Safe : M.World → Prop} {Held : σ → M.World → Prop}

theorem Call.outside {c : Call S ε α κ} (hlive : c.next.isSome = true) (h : ¬c.Inside sec) :
    sec.inside (c.state sec) = false := by
  cases hs : sec.inside (c.state sec) with
  | false => rfl
  | true => exact absurd ⟨hlive, hs⟩ h

theorem Pool.sound_start {P : Pool M ε α κ} (hlends : sec.Lends M Ok Free Safe Held)
    (hstart : sec.inside sec.start = false)
    (hP : P.Sound Free Safe Held sec) {t : κ} (hbody : (body t).Obeys sec (fun s _ => sec.final s) sec.start) :
    Pool.Sound Free Safe Held sec ⟨P.world, P.calls ++ [⟨t, [], body t⟩]⟩ := by
  have hfresh : ¬Call.Inside (⟨t, [], body t⟩ : Call S ε α κ) sec := fun h => by
    rw [Call.Inside, show Call.state ⟨t, [], body t⟩ sec = sec.start from rfl, hstart] at h
    exact Bool.noConfusion h.2
  have old : ∀ (j : Nat) (c : Call S ε α κ), (P.calls ++ [⟨t, [], body t⟩])[j]? = some c →
    c.Inside sec → P.calls[j]? = some c := by
    intro j c hj hc
    rcases Nat.lt_or_ge j P.calls.length with hlt | hge
    · rw [List.getElem?_append_left hlt] at hj
      exact hj
    · rw [List.getElem?_append_right hge] at hj
      cases List.mem_singleton.mp (List.mem_of_getElem? hj)
      exact absurd hc hfresh
  refine ⟨fun c hc => ?_, fun c hc hlive => ?_, fun j n c d hj hn hc hd => ?_, fun hout => ?_, hP.safe⟩
  · rcases List.mem_append.mp hc with hc | hc
    · exact hP.obeys c hc
    · cases List.mem_singleton.mp hc
      exact hbody
  · rcases List.mem_append.mp hc with hc | hc
    · exact hP.held c hc hlive
    · cases List.mem_singleton.mp hc
      exact hlends.start _
  · exact hP.alone j n c d (old j c hj hc) (old n d hn hd) hc hd
  · exact hP.free fun c hc => hout c (List.mem_append_left _ hc)

theorem Pool.sound_step {P : Pool M ε α κ} (hlends : sec.Lends M Ok Free Safe Held)
    (hP : P.Sound Free Safe Held sec)
    {j : Nat} {i : M.Input} {c : Call S ε α κ} {a : S.Act} {k : S.Res a → Prog S ε α}
    (hc : P.calls[j]? = some c)
    (ha : c.rest = .act a k) (hok : Ok a i P.world)
    (henters : sec.inside (c.state sec) = false →
      sec.inside (sec.next (c.state sec) ⟨a, (M.exec a i P.world).1⟩) = true → ∀ d ∈ P.calls, ¬d.Inside sec) :
    Pool.Sound Free Safe Held sec
      ⟨(M.exec a i P.world).2, P.calls.set j (c.after a k (M.exec a i P.world).1)⟩ := by
  have hlt : j < P.calls.length := (List.getElem?_eq_some_iff.mp hc).1
  have hmem : c ∈ P.calls := List.mem_of_getElem? hc
  have hlive : c.next.isSome = true := by rw [Call.next_act ha]; rfl
  have hobeys := hP.obeys c hmem
  rw [ha] at hobeys
  obtain ⟨hallows, hk⟩ := hobeys
  have hheld := hP.held c hmem hlive
  have hafter := c.state_after sec a k (M.exec a i P.world).1
  have hown : Held (sec.next (c.state sec) ⟨a, (M.exec a i P.world).1⟩) (M.exec a i P.world).2 :=
    hlends.own _ a i _ hallows hok hP.safe hheld fun hout hin => hP.free (henters hout hin)
  have hobeys' : (c.after a k (M.exec a i P.world).1).rest.Obeys sec (fun s _ => sec.final s)
      (sec.next (c.state sec) ⟨a, (M.exec a i P.world).1⟩) := hk _
  -- the other calls are outside, unless this one is and stays there
  have others : ∀ (n : Nat) (d : Call S ε α κ), n ≠ j → P.calls[n]? = some d → d.Inside sec →
      sec.inside (c.state sec) = false ∧
        sec.inside (sec.next (c.state sec) ⟨a, (M.exec a i P.world).1⟩) = false := by
    intro n d hn hd hin
    cases hs : sec.inside (c.state sec) with
    | true => exact absurd (hP.alone n j d c hd hc hin ⟨hlive, hs⟩) hn
    | false =>
      refine ⟨rfl, ?_⟩
      cases hs' : sec.inside (sec.next (c.state sec) ⟨a, (M.exec a i P.world).1⟩) with
      | true => exact absurd hin (henters hs hs' d (List.mem_of_getElem? hd))
      | false => rfl
  have hinside : (c.after a k (M.exec a i P.world).1).Inside sec →
      sec.inside (sec.next (c.state sec) ⟨a, (M.exec a i P.world).1⟩) = true := by
    intro h
    rw [← hafter]
    exact h.2
  refine ⟨fun d hd => ?_, fun d hd hdlive => ?_, fun n n' d d' hn hn' hd hd' => ?_, fun hout => ?_,
    hlends.safe _ a i _ hallows hok hheld hP.safe⟩
  · rcases List.mem_or_eq_of_mem_set hd with hd | rfl
    · exact hP.obeys d hd
    · rw [hafter]
      exact hobeys'
  · obtain ⟨n, hn⟩ := List.mem_iff_getElem?.mp hd
    by_cases hnj : j = n
    · subst hnj
      rw [List.getElem?_set_self hlt] at hn
      cases hn
      rw [hafter]
      exact hown
    · rw [List.getElem?_set_ne hnj] at hn
      have hdheld := hP.held d (List.mem_of_getElem? hn) hdlive
      by_cases hin : d.Inside sec
      · exact (hlends.frame _ a i _ hallows hok (others n d (Ne.symm hnj) hn hin).1).2 _ hdheld
      · exact hlends.stable _ a i _ hok (Call.outside hdlive hin) hdheld
  · by_cases hnj : j = n <;> by_cases hnj' : j = n'
    · exact hnj.symm.trans hnj'
    · subst hnj
      rw [List.getElem?_set_self hlt] at hn
      cases hn
      rw [List.getElem?_set_ne hnj'] at hn'
      exact absurd (hinside hd) (by rw [(others n' d' (Ne.symm hnj') hn' hd').2]; exact Bool.false_ne_true)
    · subst hnj'
      rw [List.getElem?_set_self hlt] at hn'
      cases hn'
      rw [List.getElem?_set_ne hnj] at hn
      exact absurd (hinside hd') (by rw [(others n d (Ne.symm hnj) hn hd).2]; exact Bool.false_ne_true)
    · rw [List.getElem?_set_ne hnj] at hn
      rw [List.getElem?_set_ne hnj'] at hn'
      exact hP.alone n n' d d' hn hn' hd hd'
  · have hnot : ¬(c.after a k (M.exec a i P.world).1).Inside sec :=
      hout _ (List.mem_of_getElem? (List.getElem?_set_self hlt))
    cases hs' : sec.inside (sec.next (c.state sec) ⟨a, (M.exec a i P.world).1⟩) with
    | true =>
      -- inside, and not counted as such: the call has returned
      refine hlends.final _ _ (Call.final_of_done (c := c.after a k (M.exec a i P.world).1) hobeys' ?_) hs' hown
      cases hdone : (c.after a k (M.exec a i P.world).1).next.isSome with
      | true => exact absurd ⟨hdone, by rw [hafter]; exact hs'⟩ hnot
      | false => rfl
    | false =>
      cases hs : sec.inside (c.state sec) with
      | true => exact hlends.leave _ a i _ hallows hok hheld hs hs'
      | false =>
        refine (hlends.frame _ a i _ hallows hok hs).1 (hP.free fun d hd hin => ?_)
        obtain ⟨n, hn⟩ := List.mem_iff_getElem?.mp hd
        by_cases hnj : j = n
        · subst hnj
          rw [hc] at hn
          cases hn
          rw [Call.Inside, hs] at hin
          exact Bool.noConfusion hin.2
        · exact hout d (List.mem_of_getElem? (by rw [List.getElem?_set_ne hnj]; exact hn)) hin

/-- **The section rule.** In a run whose calls obey the section, and enter it one
at a time, the resource is free whenever nobody is inside, and the world is safe. -/
theorem Pool.play_sound (hlends : sec.Lends M Ok Free Safe Held) (hstart : sec.inside sec.start = false)
    (hbody : ∀ t, (body t).Obeys sec (fun s _ => sec.final s) sec.start) {P : Pool M ε α κ}
    (hcalls : P.calls = [])
    (hfree : Free P.world) (hsafe : Safe P.world) {ms : List (Move M κ)}
    (hms : P.Admits body (fun R m => (∀ x ∈ R.performs m, Ok x.1 x.2 R.world) ∧ R.EntersAlone M sec m) ms) :
    (P.play body ms).Sound Free Safe Held sec := by
  refine Pool.play_keeps_of body (fun R m hA hR => ?_)
    ⟨by simp [hcalls], by simp [hcalls], by simp [hcalls], fun _ => hfree, hsafe⟩ hms
  rcases R.next_cases body m with ⟨t, -, h⟩ | ⟨j, i, c, a, k, rfl, hc, ha, h⟩ | ⟨j, i, -, h⟩
  · rw [h]
    exact Pool.sound_start body hlends hstart hR (hbody t)
  · rw [h]
    have hobeys := hR.obeys c (List.mem_of_getElem? hc)
    rw [ha] at hobeys
    exact Pool.sound_step hlends hR hc ha (hA.1 _ (Pool.performs_step hc ha i))
      (hA.2 j i c a k rfl hc ha hobeys.1)
  · rw [h]
    exact hR

end

end Proc
