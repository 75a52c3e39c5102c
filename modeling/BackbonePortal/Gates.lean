import BackbonePortal.Pool

/-!
# Actions behind a gate

A program looks whether a gate is open and acts behind it later. Where the gate
is only closed while nobody is on the way, it is open whenever somebody acts.
-/

namespace Proc

variable {S : Sig} {ε ε' α β κ : Type}

def Prog.Once (gated : S.Act → Prop) : Prog S ε α → Prop
  | .ret _ => True
  | .fail _ => True
  | .act a k => ∀ r, (gated a → (k r).All fun b => ¬gated b) ∧ (k r).Once gated

/-- The program acts behind the gate at most once, and not before it found it open. -/
def Prog.Behind (opens : Event S → Prop) (gated : S.Act → Prop) : Prog S ε α → Prop
  | .ret _ => True
  | .fail _ => True
  | .act a k => ¬gated a ∧ ∀ r, (opens ⟨a, r⟩ → (k r).Once gated) ∧ (¬opens ⟨a, r⟩ → (k r).Behind opens gated)

section
variable {opens : Event S → Prop} {gated : S.Act → Prop}

theorem Prog.Once.of_all {p : Prog S ε α} (hp : p.All fun a => ¬gated a) : p.Once gated := by
  induction p with
  | ret a => trivial
  | fail e => trivial
  | act a k ih => exact fun r => ⟨fun ha => absurd ha hp.1, ih r (hp.2 r)⟩

theorem Prog.Once.bind_left {p : Prog S ε α} {f : α → Prog S ε β} (hp : p.Once gated)
    (hf : ∀ a, (f a).All fun b => ¬gated b) : (p.bind f).Once gated := by
  induction p with
  | ret a => exact .of_all (hf a)
  | fail e => trivial
  | act a k ih => exact fun r => ⟨fun ha => ((hp r).1 ha).bind hf, ih r (hp r).2⟩

theorem Prog.Once.bind_right {p : Prog S ε α} {f : α → Prog S ε β} (hp : p.All fun a => ¬gated a)
    (hf : ∀ a, (f a).Once gated) : (p.bind f).Once gated := by
  induction p with
  | ret a => exact hf a
  | fail e => trivial
  | act a k ih => exact fun r => ⟨fun ha => absurd ha hp.1, ih r (hp.2 r)⟩

theorem Prog.Once.attempt {p : Prog S ε α} (hp : p.Once gated) :
    (p.attempt : Prog S ε' (Except ε α)).Once gated := by
  induction p with
  | ret a => trivial
  | fail e => trivial
  | act a k ih => exact fun r => ⟨fun ha => ((hp r).1 ha).attempt, ih r (hp r).2⟩

theorem Prog.Behind.of_all {p : Prog S ε α} (hp : p.All fun a => ¬gated a) : p.Behind opens gated := by
  induction p with
  | ret a => trivial
  | fail e => trivial
  | act a k ih => exact ⟨hp.1, fun r => ⟨fun _ => .of_all (hp.2 r), fun _ => ih r (hp.2 r)⟩⟩

theorem Prog.Behind.bind_left {p : Prog S ε α} {f : α → Prog S ε β} (hp : p.Behind opens gated)
    (hf : ∀ a, (f a).All fun b => ¬gated b) : (p.bind f).Behind opens gated := by
  induction p with
  | ret a => exact .of_all (hf a)
  | fail e => trivial
  | act a k ih =>
    exact ⟨hp.1, fun r => ⟨fun ho => ((hp.2 r).1 ho).bind_left hf, fun ho => ih r ((hp.2 r).2 ho)⟩⟩

theorem Prog.Behind.attempt {p : Prog S ε α} (hp : p.Behind opens gated) :
    (p.attempt : Prog S ε' (Except ε α)).Behind opens gated := by
  induction p with
  | ret a => trivial
  | fail e => trivial
  | act a k ih => exact ⟨hp.1, fun r => ⟨fun ho => ((hp.2 r).1 ho).attempt, fun ho => ih r ((hp.2 r).2 ho)⟩⟩

end

/-! ## Runs -/

def Call.Pending (opens : Event S → Prop) (gated : S.Act → Prop) (c : Call S ε α κ) : Prop :=
  c.Did opens ∧ ¬c.Did (fun ev => gated ev.act) ∧ c.next.isSome = true

section
variable {M : Machine S} (body : κ → Prog S ε α)

variable (opens : Event S → Prop) (gated : S.Act → Prop) (isOpen : M.World → Prop)
    (closes : S.Act → M.Input → M.World → Prop)

def Pool.ClosesAlone (P : Pool M ε α κ) (m : Move M κ) : Prop :=
  ∀ x ∈ P.performs m, closes x.1 x.2 P.world → ∀ c ∈ P.calls, ¬c.Pending opens gated

def Pool.ActsOpen (P : Pool M ε α κ) (m : Move M κ) : Prop :=
  ∀ x ∈ P.performs m, gated x.1 → isOpen P.world

inductive Stands (w : M.World) (c : Call S ε α κ) : Prop where
  | before (still : ¬c.Did fun ev => gated ev.act) (rest : c.rest.Behind opens gated)
  | between (found : c.Did opens) (still : ¬c.Did fun ev => gated ev.act) (rest : c.rest.Once gated)
    (passable : c.next.isSome = true → isOpen w)
  | past (rest : c.rest.All fun a => ¬gated a)

instance (c : Call S ε α κ) [DecidablePred opens] [DecidablePred gated] : Decidable (c.Pending opens gated) :=
  inferInstanceAs
    (Decidable ((∃ ev ∈ c.past, opens ev) ∧ ¬(∃ ev ∈ c.past, gated ev.act) ∧ c.next.isSome = true))

instance [DecidablePred opens] [DecidablePred gated] [∀ a i w, Decidable (closes a i w)]
    (P : Pool M ε α κ) (m : Move M κ) :
    Decidable (P.ClosesAlone opens gated closes m) :=
  inferInstanceAs
    (Decidable (∀ x ∈ P.performs m, closes x.1 x.2 P.world → ∀ c ∈ P.calls, ¬c.Pending opens gated))

instance [DecidablePred gated] [DecidablePred isOpen] (P : Pool M ε α κ) (m : Move M κ) :
    Decidable (P.ActsOpen gated isOpen m) :=
  inferInstanceAs (Decidable (∀ x ∈ P.performs m, gated x.1 → isOpen P.world))

variable {opens gated isOpen closes}

/-- **The gate rule.** In runs that close the gate only while no call is on its
way, every action behind the gate finds it open. -/
theorem Pool.play_behind (hopens : ∀ a i w, opens ⟨a, (M.exec a i w).1⟩ → isOpen (M.exec a i w).2)
    (hcloses : ∀ a i w, isOpen w → ¬closes a i w → isOpen (M.exec a i w).2)
    (hbody : ∀ t, (body t).Behind opens gated) {P : Pool M ε α κ} (hP : P.calls = []) {ms : List (Move M κ)}
    (hms : P.Admits body (Pool.ClosesAlone opens gated closes) ms) :
    P.Admits body (Pool.ActsOpen gated isOpen) ms := by
  refine Pool.admits_of body (I := fun R => ∀ c ∈ R.calls, Stands opens gated isOpen R.world c)
    ?_ ?_ (by simp [hP]) hms
  · intro R m hA hR
    rcases R.next_cases body m with ⟨t, -, h⟩ | ⟨j, i, c, a, k, rfl, hc, ha, h⟩ | ⟨j, i, -, h⟩
    · rw [h]
      intro c hc
      rcases List.mem_append.mp hc with hc | hc
      · exact hR c hc
      · cases List.mem_singleton.mp hc
        exact .before (fun ⟨_, hev, _⟩ => nomatch hev) (hbody t)
    · -- a call on its way keeps the gate from being closed
      have stays : ∀ d ∈ R.calls, d.Pending opens gated → isOpen R.world → isOpen (M.exec a i R.world).2 :=
        fun d hd hpending hopen =>
          hcloses a i R.world hopen fun hcl => hA (a, i) (Pool.performs_step hc ha i) hcl d hd hpending
      rw [h]
      intro d hd
      rcases List.mem_or_eq_of_mem_set hd with hd | rfl
      · cases hR d hd with
        | before still rest => exact .before still rest
        | between found still rest passable =>
          exact .between found still rest fun hn => stays d hd ⟨found, still, hn⟩ (passable hn)
        | past rest => exact .past rest
      · have hmem : c ∈ R.calls := List.mem_of_getElem? hc
        cases hR c hmem with
        | before still rest =>
          rw [ha] at rest
          have hstill : ¬(c.after a k (M.exec a i R.world).1).Did fun ev => gated ev.act := fun h =>
            (Call.did_after.mp h).elim still rest.1
          by_cases ho : opens ⟨a, (M.exec a i R.world).1⟩
          · exact .between (Call.did_after.mpr (.inr ho)) hstill ((rest.2 _).1 ho) fun _ => hopens a i _ ho
          · exact .before hstill ((rest.2 _).2 ho)
        | between found still rest passable =>
          have hnext : c.next.isSome = true := by rw [Call.next_act ha]; rfl
          rw [ha] at rest
          by_cases hg : gated a
          · exact .past ((rest _).1 hg)
          · exact .between (Call.did_after.mpr (.inl found))
              (fun h => (Call.did_after.mp h).elim still hg) (rest _).2
              fun _ => stays c hmem ⟨found, still, hnext⟩ (passable hnext)
        | past rest =>
          rw [ha] at rest
          exact .past (rest.2 _)
    · rw [h]; exact hR
  · intro R m _ hR x hperf hg
    obtain ⟨a, i⟩ := x
    obtain ⟨j, c, k, -, hc, ha⟩ := Pool.performs_eq_some hperf
    cases hR c (List.mem_of_getElem? hc) with
    | before still rest =>
      rw [ha] at rest
      exact absurd hg rest.1
    | between found still rest passable => exact passable (by rw [Call.next_act ha]; rfl)
    | past rest =>
      rw [ha] at rest
      exact absurd hg rest.1

end

end Proc
