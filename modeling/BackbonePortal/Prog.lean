/-!
# Programs over atomic actions

A sequential program is a tree: each node performs one atomic action on a
shared world and continues with the answer. `run` executes a program alone,
reading one input of the environment (a clock, a fresh value, a failure) for
each action; `Pool` interleaves several.
-/

namespace Proc

/-- The atomic actions of a system, and what each of them answers. -/
structure Sig where
  Act : Type
  Res : Act → Type

/-- A sequential program: a result, a failure, or an action and the program
that follows its answer. -/
inductive Prog (S : Sig) (ε α : Type) where
  | ret (a : α)
  | fail (e : ε)
  | act (a : S.Act) (k : S.Res a → Prog S ε α)

namespace Prog

variable {S : Sig} {ε ε' α β γ : Type}

def bind : Prog S ε α → (α → Prog S ε β) → Prog S ε β
  | .ret a, f => f a
  | .fail e, _ => .fail e
  | .act a k, f => .act a fun r => (k r).bind f

instance : Monad (Prog S ε) where
  pure := .ret
  bind := Prog.bind

/-- One action, answering what the action answers. -/
def perform (a : S.Act) : Prog S ε (S.Res a) := .act a .ret

/-- Run `p` to its end and hand its outcome over as a value. -/
def attempt : Prog S ε α → Prog S ε' (Except ε α)
  | .ret a => .ret (.ok a)
  | .fail e => .ret (.error e)
  | .act a k => .act a fun r => (k r).attempt

def mapErr (g : ε → ε') : Prog S ε α → Prog S ε' α
  | .ret a => .ret a
  | .fail e => .fail (g e)
  | .act a k => .act a fun r => (k r).mapErr g

@[simp] theorem pure_eq (a : α) : (pure a : Prog S ε α) = .ret a := rfl

@[simp] theorem bind_eq (p : Prog S ε α) (f : α → Prog S ε β) : (p >>= f) = p.bind f := rfl

@[simp] theorem bind_ret (a : α) (f : α → Prog S ε β) : (Prog.ret a : Prog S ε α).bind f = f a := rfl

@[simp] theorem bind_fail (e : ε) (f : α → Prog S ε β) : (Prog.fail e : Prog S ε α).bind f = .fail e := rfl

@[simp] theorem bind_act (a : S.Act) (k : S.Res a → Prog S ε α) (f : α → Prog S ε β) :
    (Prog.act a k).bind f = .act a fun r => (k r).bind f := rfl

@[simp] theorem bind_perform (a : S.Act) (f : S.Res a → Prog S ε β) :
    (perform a : Prog S ε (S.Res a)).bind f = .act a f := rfl

theorem bind_ret_right (p : Prog S ε α) : p.bind .ret = p := by
  induction p with
  | ret a => rfl
  | fail e => rfl
  | act a k ih => simp only [bind_act, ih]

theorem bind_assoc (p : Prog S ε α) (f : α → Prog S ε β) (g : β → Prog S ε γ) :
    (p.bind f).bind g = p.bind fun a => (f a).bind g := by
  induction p with
  | ret a => rfl
  | fail e => rfl
  | act a k ih => simp only [bind_act, ih]

theorem mapErr_bind (g : ε → ε') (p : Prog S ε α) (f : α → Prog S ε β) :
    (p.bind f).mapErr g = (p.mapErr g).bind fun a => (f a).mapErr g := by
  induction p with
  | ret a => rfl
  | fail e => rfl
  | act a k ih => simp only [bind_act, mapErr, ih]

/-- Every action `p` can perform satisfies `A`. -/
def All (A : S.Act → Prop) : Prog S ε α → Prop
  | .ret _ => True
  | .fail _ => True
  | .act a k => A a ∧ ∀ r, (k r).All A

theorem All.bind {A : S.Act → Prop} {p : Prog S ε α} {f : α → Prog S ε β}
    (hp : p.All A) (hf : ∀ a, (f a).All A) : (p.bind f).All A := by
  induction p with
  | ret a => exact hf a
  | fail e => trivial
  | act a k ih => exact ⟨hp.1, fun r => ih r (hp.2 r)⟩

theorem All.mono {A B : S.Act → Prop} (hAB : ∀ a, A a → B a) {p : Prog S ε α} (hp : p.All A) : p.All B := by
  induction p with
  | ret a => trivial
  | fail e => trivial
  | act a k ih => exact ⟨hAB a hp.1, fun r => ih r (hp.2 r)⟩

theorem All.attempt {A : S.Act → Prop} {p : Prog S ε α} (hp : p.All A) :
    (p.attempt : Prog S ε' (Except ε α)).All A := by
  induction p with
  | ret a => trivial
  | fail e => trivial
  | act a k ih => exact ⟨hp.1, fun r => ih r (hp.2 r)⟩

theorem All.mapErr {A : S.Act → Prop} {g : ε → ε'} {p : Prog S ε α} (hp : p.All A) : (p.mapErr g).All A := by
  induction p with
  | ret a => trivial
  | fail e => trivial
  | act a k ih => exact ⟨hp.1, fun r => ih r (hp.2 r)⟩

theorem all_true (p : Prog S ε α) : p.All fun _ => True := by
  induction p with
  | ret a => trivial
  | fail e => trivial
  | act a k ih => exact ⟨trivial, ih⟩

/-- Every outcome of `p` satisfies `R`. -/
def Ends (R : Except ε α → Prop) : Prog S ε α → Prop
  | .ret a => R (.ok a)
  | .fail e => R (.error e)
  | .act _ k => ∀ r, (k r).Ends R

theorem Ends.mono {R Q : Except ε α → Prop} (h : ∀ o, R o → Q o) {p : Prog S ε α} (hp : p.Ends R) :
    p.Ends Q := by
  induction p with
  | ret a => exact h _ hp
  | fail e => exact h _ hp
  | act a k ih => exact fun r => ih r (hp r)

theorem Ends.bind {R : Except ε α → Prop} {Q : Except ε β → Prop} {p : Prog S ε α} {f : α → Prog S ε β}
    (hp : p.Ends R) (hok : ∀ a, R (.ok a) → (f a).Ends Q) (herr : ∀ e, R (.error e) → Q (.error e)) :
    (p.bind f).Ends Q := by
  induction p with
  | ret a => exact hok a hp
  | fail e => exact herr e hp
  | act a k ih => exact fun r => ih r (hp r)

theorem ends_bind_right {Q : Except ε β → Prop} (p : Prog S ε α) {f : α → Prog S ε β} (hf : ∀ a, (f a).Ends Q)
    (herr : ∀ e, Q (.error e)) : (p.bind f).Ends Q := by
  induction p with
  | ret a => exact hf a
  | fail e => exact herr e
  | act a k ih => exact fun r => ih r

theorem Ends.attempt {R : Except ε α → Prop} {p : Prog S ε α} (hp : p.Ends R) :
    (p.attempt : Prog S ε' (Except ε α)).Ends fun r => ∃ o, r = .ok o ∧ R o := by
  induction p with
  | ret a => exact ⟨_, rfl, hp⟩
  | fail e => exact ⟨_, rfl, hp⟩
  | act a k ih => exact fun r => ih r (hp r)

end Prog

/-- What the actions do: each reads one input of the environment and moves the
world. -/
structure Machine (S : Sig) where
  World : Type
  Input : Type
  exec : (a : S.Act) → Input → World → S.Res a × World

/-- An action that was performed, with its answer. -/
structure Event (S : Sig) where
  act : S.Act
  res : S.Res act

namespace Prog

variable {S : Sig} {ε ε' α β : Type} (M : Machine S)

/-- Run alone, the `n`-th action reading the input `i n`. -/
def run : Prog S ε α → (Nat → M.Input) → M.World → Except ε α × M.World
  | .ret a, _, w => (.ok a, w)
  | .fail e, _, w => (.error e, w)
  | .act a k, i, w => (k (M.exec a (i 0) w).1).run (fun n => i (n + 1)) (M.exec a (i 0) w).2

/-- The actions of that run, in order. -/
def trace : Prog S ε α → (Nat → M.Input) → M.World → List (Event S)
  | .ret _, _, _ => []
  | .fail _, _, _ => []
  | .act a k, i, w =>
    ⟨a, (M.exec a (i 0) w).1⟩ ::
      (k (M.exec a (i 0) w).1).trace (fun n => i (n + 1)) (M.exec a (i 0) w).2

@[simp] theorem run_ret (a : α) (i : Nat → M.Input) (w : M.World) :
    (Prog.ret a : Prog S ε α).run M i w = (.ok a, w) := rfl

@[simp] theorem run_fail (e : ε) (i : Nat → M.Input) (w : M.World) :
    (Prog.fail e : Prog S ε α).run M i w = (.error e, w) := rfl

theorem run_act (a : S.Act) (k : S.Res a → Prog S ε α) (i : Nat → M.Input) (w : M.World) :
    (Prog.act a k).run M i w =
      (k (M.exec a (i 0) w).1).run M (fun n => i (n + 1)) (M.exec a (i 0) w).2 := rfl

/-- A program run after another starts where the first one stopped, in the
world and in the inputs. -/
theorem run_bind (p : Prog S ε α) (f : α → Prog S ε β) (i : Nat → M.Input) (w : M.World) :
    (p.bind f).run M i w =
      match p.run M i w with
      | (.ok a, w') => (f a).run M (fun n => i (n + (p.trace M i w).length)) w'
      | (.error e, w') => (.error e, w') := by
  induction p generalizing i w with
  | ret a => rfl
  | fail e => rfl
  | act a k ih =>
    rw [bind_act, run_act, run_act, ih]
    simp only [trace, List.length_cons, Nat.add_assoc]

theorem run_bind_ret (p : Prog S ε α) (f : α → β) (i : Nat → M.Input) (w : M.World) :
    (p.bind fun a => .ret (f a)).run M i w = ((p.run M i w).1.map f, (p.run M i w).2) := by
  induction p generalizing i w with
  | ret a => rfl
  | fail e => rfl
  | act a k ih => rw [bind_act, run_act, run_act, ih]

theorem run_attempt (p : Prog S ε α) (i : Nat → M.Input) (w : M.World) :
    (p.attempt : Prog S ε' (Except ε α)).run M i w = (.ok (p.run M i w).1, (p.run M i w).2) := by
  induction p generalizing i w with
  | ret a => rfl
  | fail e => rfl
  | act a k ih => rw [run_act, ← ih]; rfl

theorem run_mapErr (g : ε → ε') (p : Prog S ε α) (i : Nat → M.Input) (w : M.World) :
    (p.mapErr g).run M i w = ((p.run M i w).1.mapError g, (p.run M i w).2) := by
  induction p generalizing i w with
  | ret a => rfl
  | fail e => rfl
  | act a k ih => rw [run_act, ← ih]; rfl

theorem run_keeps {A : S.Act → Prop} {I : M.World → Prop}
    (step : ∀ a, A a → ∀ i w, I w → I (M.exec a i w).2) {p : Prog S ε α} (hp : p.All A)
    (i : Nat → M.Input) {w : M.World} (hw : I w) : I (p.run M i w).2 := by
  induction p generalizing i w with
  | ret a => exact hw
  | fail e => exact hw
  | act a k ih => exact ih _ (hp.2 _) _ (step a hp.1 _ _ hw)

theorem run_ends {R : Except ε α → Prop} {p : Prog S ε α} (hp : p.Ends R) (i : Nat → M.Input) (w : M.World) :
    R (p.run M i w).1 := by
  induction p generalizing i w with
  | ret a => exact hp
  | fail e => exact hp
  | act a k ih => exact ih _ (hp _) _ _

end Prog

end Proc
