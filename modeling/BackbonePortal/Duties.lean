import BackbonePortal.Pool

/-!
# Duties

An action may leave its program a duty that a later action of the same program
pays. `Due` says of a program that it pays on every path, `Owes` that it pays
every duty it takes on; in a run each duty is paid or still in flight.
-/

namespace Proc

variable {S : Sig} {ε ε' α β κ X : Type}

/-- On every path of answers in `Can`, the program pays or fails with an `F`. -/
def Prog.Due (Can pays : Event S → Prop) (F : ε → Prop) : Prog S ε α → Prop
  | .ret _ => False
  | .fail e => F e
  | .act a k => ∀ r, Can ⟨a, r⟩ → pays ⟨a, r⟩ ∨ (k r).Due Can pays F

/-- Whatever duty an action of the program creates, the rest of the program pays. -/
def Prog.Owes (Can : Event S → Prop) (creates pays : X → Event S → Prop) (F : ε → Prop) : Prog S ε α → Prop
  | .ret _ => True
  | .fail _ => True
  | .act a k =>
    ∀ r, Can ⟨a, r⟩ → (∀ x, creates x ⟨a, r⟩ → (k r).Due Can (pays x) F) ∧ (k r).Owes Can creates pays F

/-- Every outcome the program reaches by answers in `Can` satisfies `R`. -/
def Prog.Lands (Can : Event S → Prop) (R : Except ε α → Prop) : Prog S ε α → Prop
  | .ret a => R (.ok a)
  | .fail e => R (.error e)
  | .act a k => ∀ r, Can ⟨a, r⟩ → (k r).Lands Can R

section
variable {Can pay : Event S → Prop} {creates pays : X → Event S → Prop} {F : ε → Prop} {F' : ε' → Prop}

theorem Prog.Due.bind {p : Prog S ε α} {f : α → Prog S ε β} (hp : p.Due Can pay F) :
    (p.bind f).Due Can pay F := by
  induction p with
  | ret a => exact hp.elim
  | fail e => exact hp
  | act a k ih => exact fun r hr => (hp r hr).imp_right (ih r)

theorem Prog.Lands.due {R : α → Prop} {p : Prog S ε α} {f : α → Prog S ε β}
    (hp : p.Lands Can fun o => ∃ a, o = .ok a ∧ R a) (hf : ∀ a, R a → (f a).Due Can pay F) :
    (p.bind f).Due Can pay F := by
  induction p with
  | ret a =>
    obtain ⟨b, hb, hR⟩ := hp
    cases hb
    exact hf a hR
  | fail e =>
    obtain ⟨b, hb, -⟩ := hp
    cases hb
  | act a k ih => exact fun r hr => .inr (ih r (hp r hr))

theorem Prog.Lands.mapErr {R : α → Prop} {g : ε → ε'} {p : Prog S ε α}
    (hp : p.Lands Can fun o => ∃ a, o = .ok a ∧ R a) :
    (p.mapErr g).Lands Can fun o => ∃ a, o = .ok a ∧ R a := by
  induction p with
  | ret a =>
    obtain ⟨b, hb, hR⟩ := hp
    cases hb
    exact ⟨a, rfl, hR⟩
  | fail e =>
    obtain ⟨b, hb, -⟩ := hp
    cases hb
  | act a k ih => exact fun r hr => ih r (hp r hr)

theorem Prog.Due.mapErr {g : ε → ε'} (hg : ∀ e, F e → F' (g e)) {p : Prog S ε α} (hp : p.Due Can pay F) :
    (p.mapErr g).Due Can pay F' := by
  induction p with
  | ret a => exact hp.elim
  | fail e => exact hg e hp
  | act a k ih => exact fun r hr => (hp r hr).imp_right (ih r)

theorem Prog.Due.attempt {p : Prog S ε α} (hp : p.Due Can pay fun _ => False) :
    (p.attempt : Prog S ε' (Except ε α)).Due Can pay F' := by
  induction p with
  | ret a => exact hp.elim
  | fail e => exact hp.elim
  | act a k ih => exact fun r hr => (hp r hr).imp_right (ih r)

theorem Prog.Owes.of_all {p : Prog S ε α} (hp : p.All fun a => ∀ r x, ¬creates x ⟨a, r⟩) :
    p.Owes Can creates pays F := by
  induction p with
  | ret a => trivial
  | fail e => trivial
  | act a k ih => exact fun r _ => ⟨fun x hx => absurd hx (hp.1 r x), ih r (hp.2 r)⟩

theorem Prog.Owes.bind {p : Prog S ε α} {f : α → Prog S ε β} (hp : p.Owes Can creates pays F)
    (hf : ∀ a, (f a).Owes Can creates pays F) : (p.bind f).Owes Can creates pays F := by
  induction p with
  | ret a => exact hf a
  | fail e => trivial
  | act a k ih => exact fun r hr => ⟨fun x hx => ((hp r hr).1 x hx).bind, ih r (hp r hr).2⟩

theorem Prog.Owes.mapErr {g : ε → ε'} (hg : ∀ e, F e → F' (g e)) {p : Prog S ε α}
    (hp : p.Owes Can creates pays F) :
    (p.mapErr g).Owes Can creates pays F' := by
  induction p with
  | ret a => trivial
  | fail e => trivial
  | act a k ih => exact fun r hr => ⟨fun x hx => ((hp r hr).1 x hx).mapErr hg, ih r (hp r hr).2⟩

theorem Prog.Owes.attempt {p : Prog S ε α} (hp : p.Owes Can creates pays fun _ => False) :
    (p.attempt : Prog S ε' (Except ε α)).Owes Can creates pays F' := by
  induction p with
  | ret a => trivial
  | fail e => trivial
  | act a k ih => exact fun r hr => ⟨fun x hx => ((hp r hr).1 x hx).attempt, ih r (hp r hr).2⟩

end

/-! ## Runs -/

section
variable {M : Machine S} (body : κ → Prog S ε α) (Can : κ → Event S → Prop) (creates pays : X → Event S → Prop)
  (F : ε → Prop)

/-- The duties of a call are paid, or the call is about to. -/
structure Call.Keeps (c : Call S ε α κ) : Prop where
  owes : c.rest.Owes (Can c.tag) creates pays F
  settled : ∀ x, c.Did (creates x) → c.Did (pays x) ∨ c.rest.Due (Can c.tag) (pays x) F

/-- The answer of the action the move performs is in `Can` for the call. -/
def Pool.Answers (P : Pool M ε α κ) (m : Move M κ) : Prop :=
  ∀ j i c a k, m = .step j i → P.calls[j]? = some c → c.rest = .act a k → Can c.tag ⟨a, (M.exec a i P.world).1⟩

variable {body Can creates pays F}

theorem Call.Keeps.after {c : Call S ε α κ} {a : S.Act} {k : S.Res a → Prog S ε α} {r : S.Res a}
    (hc : c.Keeps Can creates pays F) (ha : c.rest = .act a k) (hr : Can c.tag ⟨a, r⟩) :
    (c.after a k r).Keeps Can creates pays F := by
  have howes := hc.owes
  rw [ha] at howes
  refine ⟨(howes r hr).2, fun x hx => ?_⟩
  rcases Call.did_after.mp hx with hx | hx
  · rcases hc.settled x hx with hpaid | hdue
    · exact .inl (Call.did_after.mpr (.inl hpaid))
    · rw [ha] at hdue
      exact (hdue r hr).imp_left fun h => Call.did_after.mpr (.inr h)
  · exact .inr ((howes r hr).1 x hx)

theorem Pool.keeps_next (hbody : ∀ t, (body t).Owes (Can t) creates pays F) {P : Pool M ε α κ} {m : Move M κ}
    (hm : P.Answers Can m) (hP : ∀ c ∈ P.calls, c.Keeps Can creates pays F) :
    ∀ c ∈ (P.next body m).calls, c.Keeps Can creates pays F := by
  rcases P.next_cases body m with ⟨t, -, h⟩ | ⟨j, i, c, a, k, rfl, hc, ha, h⟩ | ⟨j, i, -, h⟩
  · rw [h]
    intro d hd
    rcases List.mem_append.mp hd with hd | hd
    · exact hP d hd
    · cases List.mem_singleton.mp hd
      exact ⟨hbody t, fun x hx => (nomatch hx.choose_spec.1)⟩
  · rw [h]
    intro d hd
    rcases List.mem_or_eq_of_mem_set hd with hd | rfl
    · exact hP d hd
    · exact (hP c (List.mem_of_getElem? hc)).after ha (hm j i c a k rfl hc ha)
  · rw [h]; exact hP

theorem Prog.Due.outcome {c : Call S ε α κ} {Can pay : Event S → Prop} {o : Except ε α}
    (h : c.rest.Due Can pay F)
    (ho : c.outcome = some o) : ∃ e, o = .error e ∧ F e := by
  unfold Call.outcome at ho
  cases hr : c.rest with
  | ret a => rw [hr] at h; exact h.elim
  | fail e => rw [hr] at h ho; cases ho; exact ⟨e, rfl, h⟩
  | act a k => rw [hr] at ho; cases ho

theorem Pool.due_next {pay : Event S → Prop} {P : Pool M ε α κ} {m : Move M κ} {j : Nat} {c : Call S ε α κ}
    (hm : P.Answers Can m) (hc : P.calls[j]? = some c) (hdue : c.rest.Due (Can c.tag) pay F) :
    (∃ a i, P.performs m = some (a, i) ∧ pay ⟨a, (M.exec a i P.world).1⟩) ∨
      ∃ c', (P.next body m).calls[j]? = some c' ∧ c'.rest.Due (Can c'.tag) pay F := by
  have hlt : j < P.calls.length := (List.getElem?_eq_some_iff.mp hc).1
  rcases P.next_cases body m with ⟨t, -, h⟩ | ⟨n, i, d, a, k, rfl, hd, ha, h⟩ | ⟨n, i, -, h⟩
  · rw [h]
    exact .inr ⟨c, by rw [List.getElem?_append_left hlt]; exact hc, hdue⟩
  · by_cases hn : n = j
    · subst hn
      rw [hc] at hd
      cases hd
      rw [ha] at hdue
      rcases hdue _ (hm n i c a k rfl hc ha) with hpaid | hdue
      · exact .inl ⟨a, i, Pool.performs_step hc ha i, hpaid⟩
      · rw [h]
        exact .inr ⟨c.after a k (M.exec a i P.world).1, List.getElem?_set_self hlt, hdue⟩
    · rw [h]
      exact .inr ⟨c, by rw [List.getElem?_set_ne hn]; exact hc, hdue⟩
  · rw [h]
    exact .inr ⟨c, hc, hdue⟩

/-- **The duty rule.** Where a bad state is left only by creating a duty, or by
not paying one, somebody owes a duty whenever the state is bad. -/
theorem Pool.play_owed (Bad : X → M.World → Prop) {A : Pool M ε α κ → Move M κ → Prop}
    (hbody : ∀ t, (body t).Owes (Can t) creates pays F) (answers : ∀ P m, A P m → P.Answers Can m)
    (law : ∀ P m a i x, A P m → P.performs m = some (a, i) → Bad x (M.exec a i P.world).2 →
      creates x ⟨a, (M.exec a i P.world).1⟩ ∨ ¬pays x ⟨a, (M.exec a i P.world).1⟩ ∧
        (Bad x P.world ∨ ∃ d ∈ P.calls, d.Did (creates x) ∧ ¬d.Did (pays x)))
    {P : Pool M ε α κ} (hP : P.calls = []) (hgood : ∀ x, ¬Bad x P.world) {ms : List (Move M κ)}
    (hms : P.Admits body A ms) {x : X} (hx : Bad x (P.play body ms).world) :
    ∃ c ∈ (P.play body ms).calls, c.rest.Due (Can c.tag) (pays x) F := by
  refine (Pool.play_keeps_of body (I := fun R : Pool M ε α κ => (∀ c ∈ R.calls, c.Keeps Can creates pays F) ∧
    ∀ x, Bad x R.world → ∃ c ∈ R.calls, c.rest.Due (Can c.tag) (pays x) F) (fun R m hA hR => ?_)
    ⟨by simp [hP], fun x hx => absurd hx (hgood x)⟩ hms).2 x hx
  have hanswers := answers R m hA
  refine ⟨Pool.keeps_next hbody hanswers hR.1, fun x hx => ?_⟩
  rcases R.next_cases body m with ⟨t, -, h⟩ | ⟨j, i, c, a, k, rfl, hc, ha, h⟩ | ⟨j, i, -, h⟩
  · rw [h] at hx ⊢
    obtain ⟨d, hd, hdue⟩ := hR.2 x hx
    exact ⟨d, List.mem_append_left _ hd, hdue⟩
  · have hperf := Pool.performs_step hc ha i
    have hlt : j < R.calls.length := (List.getElem?_eq_some_iff.mp hc).1
    -- a duty in flight that this move does not pay stays in flight
    have stays : ¬pays x ⟨a, (M.exec a i R.world).1⟩ → ∀ d ∈ R.calls, d.rest.Due (Can d.tag) (pays x) F →
        ∃ e ∈ (R.next body (.step j i)).calls, e.rest.Due (Can e.tag) (pays x) F := by
      intro hunpaid d hd hdue
      obtain ⟨n, hn⟩ := List.mem_iff_getElem?.mp hd
      rcases Pool.due_next hanswers hn hdue with ⟨b, i', hb, hpaid⟩ | ⟨e, he, hdue'⟩
      · rw [hperf] at hb
        cases hb
        exact absurd hpaid hunpaid
      · exact ⟨e, List.mem_of_getElem? he, hdue'⟩
    rw [h] at hx
    rcases law R _ a i x hA hperf hx with hcreates | ⟨hunpaid, hbad | ⟨d, hd, hcreated, hunsettled⟩⟩
    · have howes := (hR.1 c (List.mem_of_getElem? hc)).owes
      rw [ha] at howes
      rw [h]
      exact ⟨_, List.mem_of_getElem? (List.getElem?_set_self hlt),
        (howes _ (hanswers j i c a k rfl hc ha)).1 x hcreates⟩
    · obtain ⟨d, hd, hdue⟩ := hR.2 x hbad
      exact stays hunpaid d hd hdue
    · exact stays hunpaid d hd (((hR.1 d hd).settled x hcreated).resolve_left hunsettled)
  · rw [h] at hx ⊢
    exact hR.2 x hx

/-- What pays the duty shows in the world and stays there: after a run whose
calls have all returned without an `F`, every duty it created shows. -/
theorem Pool.play_settled {x : X} (base paid : M.World → Prop) (grows : ∀ a i w, base w → base (M.exec a i w).2)
    (shows_ : ∀ a i w, base w → pays x ⟨a, (M.exec a i w).1⟩ → paid (M.exec a i w).2)
    (stays : ∀ a i w, paid w → paid (M.exec a i w).2) (hbody : ∀ t, (body t).Owes (Can t) creates pays F)
    {P : Pool M ε α κ} (hP : P.calls = []) {ms₁ ms₂ : List (Move M κ)} {m : Move M κ}
    (hms : P.Admits body (Pool.Answers Can) (ms₁ ++ m :: ms₂))
    (hbase : base (P.play body ms₁).world) {a : S.Act} {i : M.Input}
    (hperf : (P.play body ms₁).performs m = some (a, i))
    (hcreates : creates x ⟨a, (M.exec a i (P.play body ms₁).world).1⟩)
    (hdone : ∀ c ∈ (P.play body (ms₁ ++ m :: ms₂)).calls, ∃ o, c.outcome = some o ∧ ∀ e, o = .error e → ¬F e) :
    paid (P.play body (ms₁ ++ m :: ms₂)).world := by
  rw [Pool.admits_append] at hms
  rw [Pool.play_append, Pool.play_cons] at hdone ⊢
  obtain ⟨hms₁, hm, hms₂⟩ := hms
  have hkeeps : ∀ c ∈ (P.play body ms₁).calls, c.Keeps Can creates pays F :=
    Pool.play_keeps_of body (I := fun R : Pool M ε α κ => ∀ c ∈ R.calls, c.Keeps Can creates pays F)
      (fun R m hm hR => Pool.keeps_next hbody hm hR) (by simp [hP]) hms₁
  generalize P.play body ms₁ = Q at *
  obtain ⟨j, c, k, rfl, hc, ha⟩ := Pool.performs_eq_some hperf
  have hlt : j < Q.calls.length := (List.getElem?_eq_some_iff.mp hc).1
  have hdue : (k (M.exec a i Q.world).1).Due (Can c.tag) (pays x) F := by
    have howes := (hkeeps c (List.mem_of_getElem? hc)).owes
    rw [ha] at howes
    exact (howes _ (hm j i c a k rfl hc ha)).1 x hcreates
  -- from the creating move on, the duty is paid or in flight
  have key : base ((Q.next body (.step j i)).play body ms₂).world ∧
      (paid ((Q.next body (.step j i)).play body ms₂).world ∨
      ∃ c ∈ ((Q.next body (.step j i)).play body ms₂).calls, c.rest.Due (Can c.tag) (pays x) F) := by
    refine Pool.play_keeps_of body (A := Pool.Answers Can) (I := fun R : Pool M ε α κ =>
      base R.world ∧
        (paid R.world ∨ ∃ c ∈ R.calls, c.rest.Due (Can c.tag) (pays x) F)) (fun R m hm hR => ?_) ?_ hms₂
    · refine ⟨Pool.play_world body grows hR.1 [m], ?_⟩
      rcases hR.2 with hpaid | ⟨d, hd, hdue⟩
      · exact .inl (Pool.play_world body stays hpaid [m])
      · obtain ⟨n, hn⟩ := List.mem_iff_getElem?.mp hd
        rcases Pool.due_next hm hn hdue with ⟨b, i', hb, hpaid⟩ | ⟨e, he, hdue'⟩
        · obtain ⟨n', c', k', rfl, hc', ha'⟩ := Pool.performs_eq_some hb
          rw [Pool.next_step body hc' ha']
          exact .inl (shows_ b i' R.world hR.1 hpaid)
        · exact .inr ⟨e, List.mem_of_getElem? he, hdue'⟩
    · rw [Pool.next_step body hc ha]
      exact ⟨grows a i _ hbase, .inr ⟨_, List.mem_of_getElem? (List.getElem?_set_self hlt), hdue⟩⟩
  apply key.2.resolve_right
  rintro ⟨d, hd, hdue⟩
  obtain ⟨o, ho, hF⟩ := hdone d hd
  obtain ⟨e, he, hFe⟩ := hdue.outcome ho
  exact hF e he hFe

end

end Proc
