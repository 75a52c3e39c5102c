import BackbonePortal.Pool
import Mathlib.Data.List.Induction

/-!
# Histories

An abstract model is a guard and an effect for each of its changes; a history is
a list of changes each of which is allowed where it is made. A machine refines
the model if each of its actions leaves the abstract state alone or makes one
allowed change, and then every run is a history, whoever takes the steps.
-/

namespace Proc

variable {S : Sig} {ε α κ A C : Type}

structure Model (A C : Type) where
  allows : A → C → Prop
  effect : A → C → A

namespace Model

/-- Each change is allowed where it is made. -/
def Permits (T : Model A C) : A → List C → Prop
  | _, [] => True
  | a, c :: cs => T.allows a c ∧ Permits T (T.effect a c) cs

def replay (T : Model A C) (a : A) (cs : List C) : A := cs.foldl T.effect a

variable {T : Model A C} {a : A} {c : C} {cs ds : List C}

@[simp] theorem replay_nil : T.replay a [] = a := rfl

@[simp] theorem replay_cons : T.replay a (c :: cs) = T.replay (T.effect a c) cs := rfl

theorem replay_append : T.replay a (cs ++ ds) = T.replay (T.replay a cs) ds := List.foldl_append

theorem permits_append : T.Permits a (cs ++ ds) ↔ T.Permits a cs ∧ T.Permits (T.replay a cs) ds := by
  induction cs generalizing a with
  | nil => exact (and_iff_right trivial).symm
  | cons c cs ih => exact (and_congr_right fun _ => ih).trans and_assoc.symm

theorem replay_keeps {I : A → Prop} (step : ∀ a c, T.allows a c → I a → I (T.effect a c)) (ha : I a)
    (hcs : T.Permits a cs) : I (T.replay a cs) := by
  induction cs generalizing a with
  | nil => exact ha
  | cons c cs ih => exact ih (step a c hcs.1 ha) hcs.2

end Model

/-! ## Refinement -/

/-- From a world in `Inv`, an action that meets `Pre` keeps `Inv`, and leaves
the abstract state alone or makes the allowed change its answer causes. -/
structure Machine.Refines (M : Machine S) (Pre : S.Act → M.World → Prop) (Inv : M.World → Prop) (T : Model A C)
    (abs : M.World → A) (causes : Event S → C → Prop) : Prop where
  keeps : ∀ a i w, Pre a w → Inv w → Inv (M.exec a i w).2
  step : ∀ a i w, Pre a w → Inv w → abs (M.exec a i w).2 = abs w ∨
    ∃ c, causes ⟨a, (M.exec a i w).1⟩ c ∧ T.allows (abs w) c ∧ abs (M.exec a i w).2 = T.effect (abs w) c

/-- The worlds `w` and `w'` are joined by a history, and every change in it was
caused by an answer one of the calls got. -/
def Pool.Retold (M : Machine S) (T : Model A C) (abs : M.World → A) (causes : Event S → C → Prop) (w : M.World)
    (P : Pool M ε α κ) (cs : List C) : Prop :=
  T.Permits (abs w) cs ∧ abs P.world = T.replay (abs w) cs ∧
    ∀ c ∈ cs, ∃ d ∈ P.calls, ∃ ev ∈ d.past, causes ev c

section
variable {M : Machine S} (body : κ → Prog S ε α) {Pre : S.Act → M.World → Prop} {Inv : M.World → Prop}
  {T : Model A C} {abs : M.World → A} {causes : Event S → C → Prop}

theorem Pool.past_next {P : Pool M ε α κ} {d : Call S ε α κ} {ev : Event S} (hd : d ∈ P.calls) (hev : ev ∈ d.past)
    (m : Move M κ) : ∃ d' ∈ (P.next body m).calls, ev ∈ d'.past := by
  obtain ⟨j, hj⟩ := List.getElem?_of_mem hd
  obtain ⟨d', hd', -, hpast⟩ := P.next_call body hj m
  exact ⟨d', List.mem_of_getElem? hd', hpast.subset hev⟩

/-- **Refinement.** Every run of a machine that refines the model is a history of it. -/
theorem Pool.play_refines (h : M.Refines Pre Inv T abs causes) {P : Pool M ε α κ} (hI : Inv P.world)
    {ms : List (Move M κ)} (hms : P.Admits body (fun R m => ∀ x ∈ R.performs m, Pre x.1 R.world) ms) :
    Inv (P.play body ms).world ∧ ∃ cs, Pool.Retold M T abs causes P.world (P.play body ms) cs := by
  refine Pool.play_keeps_of body (I := fun R => Inv R.world ∧ ∃ cs, Pool.Retold M T abs causes P.world R cs)
    (fun R m hm hR => ?_) ⟨hI, [], trivial, rfl, List.forall_mem_nil _⟩ hms
  obtain ⟨hinv, cs, hpermits, habs, hcaused⟩ := hR
  -- the changes of before are still accounted for
  have carried : ∀ c ∈ cs, ∃ d ∈ (R.next body m).calls, ∃ ev ∈ d.past, causes ev c := by
    intro c hc
    obtain ⟨d, hd, ev, hev, hcause⟩ := hcaused c hc
    obtain ⟨d', hd', hev'⟩ := Pool.past_next body hd hev m
    exact ⟨d', hd', ev, hev', hcause⟩
  rcases R.next_cases body m with ⟨t, -, hnext⟩ | ⟨j, i, d, a, k, rfl, hd, ha, hnext⟩ | ⟨j, i, -, hnext⟩
  · refine ⟨by rw [hnext]; exact hinv, cs, hpermits, ?_, carried⟩
    rw [hnext]
    exact habs
  · have hpre : Pre a R.world := hm _ (Pool.performs_step hd ha i)
    have hlt : j < R.calls.length := (List.getElem?_eq_some_iff.mp hd).1
    refine ⟨by rw [hnext]; exact h.keeps a i _ hpre hinv, ?_⟩
    rcases h.step a i _ hpre hinv with hsame | ⟨c, hcause, hallows, heffect⟩
    · refine ⟨cs, hpermits, ?_, carried⟩
      rw [hnext]
      exact hsame.trans habs
    · refine ⟨cs ++ [c], Model.permits_append.mpr ⟨hpermits, habs ▸ hallows, trivial⟩, ?_, fun c' hc' => ?_⟩
      · rw [hnext, Model.replay_append]
        show abs (M.exec a i R.world).2 = T.effect (T.replay (abs P.world) cs) c
        rw [heffect, habs]
      · rcases List.mem_append.mp hc' with hc' | hc'
        · exact carried c' hc'
        · cases List.mem_singleton.mp hc'
          refine ⟨d.after a k (M.exec a i R.world).1, ?_, _,
            List.mem_append_right _ (List.mem_singleton.mpr rfl), hcause⟩
          rw [hnext]
          exact List.mem_of_getElem? (List.getElem?_set_self hlt)
  · refine ⟨by rw [hnext]; exact hinv, cs, hpermits, ?_, carried⟩
    rw [hnext]
    exact habs

end

/-! ## Logs -/

section
variable {M : Machine S} (body : κ → Prog S ε α) {A C γ : Type}

theorem flatMap_set {l : List γ} {j : Nat} {x y : γ} {f : γ → List C} {cs : List C} (hx : l[j]? = some x)
    (hxy : f y = f x ++ cs) : ((l.set j y).flatMap f).Perm (l.flatMap f ++ cs) := by
  induction l generalizing j with
  | nil => cases hx
  | cons z l ih =>
    cases j with
    | zero =>
      cases hx
      rw [List.set_cons_zero, List.flatMap_cons, List.flatMap_cons, hxy, List.append_assoc, List.append_assoc]
      exact List.perm_append_comm.append_left _
    | succ j =>
      rw [List.set_cons_succ, List.flatMap_cons, List.flatMap_cons, List.append_assoc]
      exact (ih hx).append_left (f z)

/-- **The log.** Where an action moves the abstract state by what it logs, the
state of a run is the replay of some interleaving of what its calls logged. -/
theorem Pool.play_log {abs : M.World → A} {effect : A → C → A} (log : Event S → Option C)
    (hlog : ∀ a i w, abs (M.exec a i w).2 = (log ⟨a, (M.exec a i w).1⟩).toList.foldl effect (abs w))
    {P : Pool M ε α κ} (hP : P.calls = []) (ms : List (Move M κ)) :
    ∃ cs : List C, cs.Perm ((P.play body ms).calls.flatMap fun c => c.past.filterMap log) ∧
      abs (P.play body ms).world = cs.foldl effect (abs P.world) := by
  refine Pool.play_keeps body (I := fun R : Pool M ε α κ => ∃ cs : List C,
    cs.Perm (R.calls.flatMap fun c => c.past.filterMap log) ∧ abs R.world = cs.foldl effect (abs P.world))
    (fun R m hR => ?_) ⟨[], by simp [hP], rfl⟩ ms
  obtain ⟨cs, hperm, habs⟩ := hR
  rcases R.next_cases body m with ⟨t, -, h⟩ | ⟨j, i, c, a, k, rfl, hc, ha, h⟩ | ⟨j, i, -, h⟩
  · refine ⟨cs, ?_, ?_⟩
    · rw [h]
      simpa using hperm
    · rw [h]
      exact habs
  · refine ⟨cs ++ (log ⟨a, (M.exec a i R.world).1⟩).toList, ?_, ?_⟩
    · rw [h]
      have hpast : (c.after a k (M.exec a i R.world).1).past.filterMap log =
          c.past.filterMap log ++ (log ⟨a, (M.exec a i R.world).1⟩).toList := by
        rw [Call.after_past, List.filterMap_append]
        cases hl : log ⟨a, (M.exec a i R.world).1⟩ <;> simp [hl]
      exact (hperm.append_right _).trans
        (flatMap_set (f := fun c : Call S ε α κ => c.past.filterMap log) hc hpast).symm
    · rw [h, List.foldl_append, ← habs]
      exact hlog a i R.world
  · rw [h]
    exact ⟨cs, hperm, habs⟩

/-- Some of the cells are written, the others keep their values. -/
def overlay {K V : Type} (D : K → V) (f : K → Option V) : K → V := fun k => (f k).getD (D k)

/-- The last write of a cell decides it. -/
theorem foldl_overlay {K V : Type} (D : K → V) (fs : List (K → Option V)) (k : K) :
    (fs.foldl overlay D k = D k ∧ ∀ f ∈ fs, f k = none) ∨ ∃ f ∈ fs, f k = some (fs.foldl overlay D k) := by
  induction fs using List.reverseRecOn with
  | nil => exact .inl ⟨rfl, List.forall_mem_nil _⟩
  | append_singleton fs f ih =>
    have hlast : (fs ++ [f]).foldl overlay D k = (f k).getD (fs.foldl overlay D k) := by
      rw [List.foldl_append]
      rfl
    rw [hlast]
    cases hf : f k with
    | some v => exact .inr ⟨f, List.mem_append_right _ (List.mem_singleton.mpr rfl), hf⟩
    | none =>
      rcases ih with ⟨hsame, hnone⟩ | ⟨g, hg, hv⟩
      · refine .inl ⟨hsame, fun g hg => ?_⟩
        rcases List.mem_append.mp hg with hg | hg
        · exact hnone g hg
        · cases List.mem_singleton.mp hg
          exact hf
      · exact .inr ⟨g, List.mem_append_left _ hg, hv⟩

/-- **Cells.** Where an action overlays what its answer says, a cell ends with its
first value, unwritten, or with what one of the calls wrote there. -/
theorem Pool.play_cells {K V : Type} (cells : M.World → K → V) (writes : Event S → K → Option V)
    (hexec : ∀ a i w, cells (M.exec a i w).2 = overlay (cells w) (writes ⟨a, (M.exec a i w).1⟩))
    {P : Pool M ε α κ} (hP : P.calls = []) (ms : List (Move M κ)) (k : K) :
    (cells (P.play body ms).world k = cells P.world k ∧
      ∀ c ∈ (P.play body ms).calls, ∀ ev ∈ c.past, writes ev k = none) ∨
    ∃ c ∈ (P.play body ms).calls, ∃ ev ∈ c.past, writes ev k = some (cells (P.play body ms).world k) := by
  have hlog : ∀ a i w, cells (M.exec a i w).2 =
      (some (writes ⟨a, (M.exec a i w).1⟩)).toList.foldl overlay (cells w) := hexec
  obtain ⟨fs, hperm, hcells⟩ := Pool.play_log body (fun ev => some (writes ev)) hlog hP ms
  have hmem : ∀ f, f ∈ fs ↔ ∃ c ∈ (P.play body ms).calls, ∃ ev ∈ c.past, writes ev = f := by
    intro f
    rw [hperm.mem_iff]
    simp only [List.mem_flatMap, List.mem_filterMap, Option.some.injEq]
  rw [hcells]
  rcases foldl_overlay (cells P.world) fs k with ⟨hsame, hnone⟩ | ⟨f, hf, hv⟩
  · exact .inl ⟨hsame, fun c hc ev hev => hnone _ ((hmem _).mpr ⟨c, hc, ev, hev, rfl⟩)⟩
  · obtain ⟨c, hc, ev, hev, rfl⟩ := (hmem f).mp hf
    exact .inr ⟨c, hc, ev, hev, hv⟩

end

end Proc
