import BackbonePortal.Pool

/-!
# What comes before an action

A requirement says what a call must have been told before it may perform an
action. A program heeds it if no path performs an action without; in a run
every event of a call is then preceded by what it required, whether or not the
call ever returns.
-/

namespace Proc

variable {S : Sig} {ε ε' α β κ : Type}

/-- Started after `past`, every action is performed when what came before meets
its requirement. -/
def Prog.Heeds (Req : List (Event S) → S.Act → Prop) : List (Event S) → Prog S ε α → Prop
  | _, .ret _ => True
  | _, .fail _ => True
  | past, .act a k => Req past a ∧ ∀ r, (k r).Heeds Req (past ++ [⟨a, r⟩])

section
variable {Req : List (Event S) → S.Act → Prop} {past : List (Event S)}

theorem Prog.heeds_of_all {A : S.Act → Prop} (hA : ∀ past a, A a → Req past a) {p : Prog S ε α} (hp : p.All A)
    (past : List (Event S)) : p.Heeds Req past := by
  induction p generalizing past with
  | ret a => trivial
  | fail e => trivial
  | act a k ih => exact ⟨hA past a hp.1, fun r => ih r (hp.2 r) _⟩

theorem Prog.Heeds.bind {p : Prog S ε α} {f : α → Prog S ε β} (hp : p.Heeds Req past)
    (hf : ∀ a past', past ⊆ past' → (f a).Heeds Req past') : (p.bind f).Heeds Req past := by
  induction p generalizing past with
  | ret a => exact hf a past (List.Subset.refl past)
  | fail e => trivial
  | act a k ih =>
    refine ⟨hp.1, fun r => ih r (hp.2 r) fun b past' h => hf b past' ?_⟩
    exact fun ev hev => h (List.mem_append_left _ hev)

/-- What the first part was told is known to the second. -/
theorem Prog.Heeds.bind_yields {R : α → List (Event S) → Prop} {p : Prog S ε α} {f : α → Prog S ε β}
    (hp : p.Heeds Req past) (hR : p.Yields R) (hf : ∀ a evs, R a evs → (f a).Heeds Req (past ++ evs)) :
    (p.bind f).Heeds Req past := by
  induction p generalizing past R with
  | ret a => simpa using hf a [] (hR a rfl)
  | fail e => trivial
  | act a k ih =>
    refine ⟨hp.1, fun r => ih r (hp.2 r) (hR r) fun b evs h => ?_⟩
    simpa using hf b (⟨a, r⟩ :: evs) h

theorem Prog.Heeds.attempt {p : Prog S ε α} (hp : p.Heeds Req past) :
    (p.attempt : Prog S ε' (Except ε α)).Heeds Req past := by
  induction p generalizing past with
  | ret a => trivial
  | fail e => trivial
  | act a k ih => exact ⟨hp.1, fun r => ih r (hp.2 r)⟩

theorem Prog.Heeds.mapErr {g : ε → ε'} {p : Prog S ε α} (hp : p.Heeds Req past) :
    (p.mapErr g).Heeds Req past := by
  induction p generalizing past with
  | ret a => trivial
  | fail e => trivial
  | act a k ih => exact ⟨hp.1, fun r => ih r (hp.2 r)⟩

/-- On every path of performed actions. -/
theorem Prog.Paths.with_all {A : S.Act → Prop} {R : List (Event S) → Except ε α → Prop} {p : Prog S ε α}
    (hp : p.Paths R) (hA : p.All A) : p.Paths fun evs o => (∀ ev ∈ evs, A ev.act) ∧ R evs o := by
  induction p generalizing R with
  | ret a => exact ⟨List.forall_mem_nil _, hp⟩
  | fail e => exact ⟨List.forall_mem_nil _, hp⟩
  | act a k ih =>
    intro r
    exact (ih r (hp r) (hA.2 r)).mono fun evs o h => ⟨List.forall_mem_cons.mpr ⟨hA.1, h.1⟩, h.2⟩

theorem Prog.Paths.attempt {R : List (Event S) → Except ε α → Prop} {p : Prog S ε α} (hp : p.Paths R) :
    (p.attempt : Prog S ε' (Except ε α)).Yields fun o evs => R evs o := by
  induction p generalizing R with
  | ret a =>
    intro o ho
    cases ho
    exact hp
  | fail e =>
    intro o ho
    cases ho
    exact hp
  | act a k ih => exact fun r => ih r (R := fun evs o => R (⟨a, r⟩ :: evs) o) (hp r)

theorem Prog.Yields.attempt {R : α → List (Event S) → Prop} {p : Prog S ε α} (hp : p.Yields R) :
    (p.attempt : Prog S ε' (Except ε α)).Yields fun o evs => ∀ a, o = .ok a → R a evs := Prog.Paths.attempt hp

theorem Prog.Yields.mapErr {R : α → List (Event S) → Prop} {g : ε → ε'} {p : Prog S ε α} (hp : p.Yields R) :
    (p.mapErr g).Yields R := by
  induction p generalizing R with
  | ret a =>
    intro b hb
    cases hb
    exact hp a rfl
  | fail e => exact Prog.yields_fail
  | act a k ih => exact fun r => ih r (R := fun b evs => R b (⟨a, r⟩ :: evs)) (hp r)

end

/-! ## Why it failed -/

/-- Every path that fails with `e` shows `E`. -/
def Prog.Explains (e : ε) (E : List (Event S) → Prop) (p : Prog S ε α) : Prop :=
  p.Paths fun evs o => o = .error e → E evs

section
variable {e : ε} {E : List (Event S) → Prop}

theorem Prog.explains_of_ends {p : Prog S ε α} (hp : p.Ends fun o => o ≠ .error e) : p.Explains e E :=
  hp.paths.mono fun _ _ hne ho => absurd ho hne

theorem Prog.Explains.bind (hE : ∀ evs evs', evs ⊆ evs' → E evs → E evs') {p : Prog S ε α} {f : α → Prog S ε β}
    (hp : p.Explains e E) (hf : ∀ a, (f a).Explains e E) : (p.bind f).Explains e E := by
  have hafter : ∀ evs, p.Explains e (fun evs' => E (evs ++ evs')) → (p.bind f).Paths
      fun evs' o => o = .error e → E (evs ++ evs') := by
    clear hp
    intro evs hp
    induction p generalizing evs with
    | ret a => exact (hf a).mono fun evs' o h ho => hE evs' _ (List.subset_append_right _ _) (h ho)
    | fail e' =>
      intro ho
      cases ho
      exact hp rfl
    | act a k ih =>
      intro r
      have hrest := ih r (evs ++ [⟨a, r⟩]) ((hp r).mono fun evs' o h ho => by simpa using h ho)
      exact hrest.mono fun evs' o h ho => by simpa using h ho
  exact hafter [] hp

end

/-- Each event of the call was preceded by what it required. -/
def Call.Heeded (Req : List (Event S) → S.Act → Prop) (c : Call S ε α κ) : Prop :=
  ∀ before ev after, c.past = before ++ ev :: after → Req before ev.act

theorem Call.Heeded.after {Req : List (Event S) → S.Act → Prop} {c : Call S ε α κ} (h : c.Heeded Req) {a : S.Act}
    {k : S.Res a → Prog S ε α} {r : S.Res a} (ha : Req c.past a) : (c.after a k r).Heeded Req := by
  intro before ev after hpast
  rcases List.eq_nil_or_concat after with rfl | ⟨rest, last, rfl⟩
  · obtain ⟨rfl, hev⟩ := List.append_inj' (show c.past ++ [⟨a, r⟩] = before ++ [ev] from hpast) rfl
    cases List.singleton_inj.mp hev
    exact ha
  · have hsplit : c.past ++ [⟨a, r⟩] = (before ++ ev :: rest) ++ [last] := by simpa using hpast
    exact h before ev rest (List.append_inj' hsplit rfl).1

theorem Call.Heeded.required {Req : List (Event S) → S.Act → Prop} {c : Call S ε α κ} (h : c.Heeded Req)
    {ev : Event S} (hev : ev ∈ c.past) : ∃ before, before ⊆ c.past ∧ Req before ev.act := by
  obtain ⟨before, after, hpast⟩ := List.append_of_mem hev
  exact ⟨before, hpast ▸ List.subset_append_left _ _, h before ev after hpast⟩

section
variable {M : Machine S} (body : κ → Prog S ε α) {Req : κ → List (Event S) → S.Act → Prop}

/-- **Precedence.** In every run of calls that heed their requirements, each
event of each call was preceded in it by what it required. -/
theorem Pool.play_heeds (hbody : ∀ t, (body t).Heeds (Req t) []) {P : Pool M ε α κ} (hP : P.calls = [])
    (ms : List (Move M κ)) : ∀ c ∈ (P.play body ms).calls, c.Heeded (Req c.tag) := by
  have key := (P.each_play body (fun _ => True) (fun _ _ => True)
    (fun _ (c : Call S ε α κ) _ => c.rest.Heeds (Req c.tag) c.past ∧ c.Heeded (Req c.tag)) (fun _ => trivial)
    (fun _ _ _ _ _ => trivial) (fun _ _ _ _ _ _ h => h) (fun _ t _ _ _ => ⟨hbody t, fun before ev after h => ?_⟩)
    ?_ trivial (by simp [hP]) ms).2.2
  · intro c hc
    obtain ⟨j, hj⟩ := List.getElem?_of_mem hc
    exact (key j c hj).2
  · cases before <;> cases h
  · intro j c w a k i _ ha hc
    obtain ⟨hrest, hpast⟩ := hc
    rw [ha] at hrest
    exact ⟨trivial, trivial, hrest.2 _, hpast.after hrest.1⟩

end

end Proc
