import BackbonePortal.Effects
import BackbonePortal.Requests

/-!
# What a verb ensures

A verb runs while other calls move the database along `Evolves`. `Guarded Pre Q`
says that whatever they do, it performs each action under `Pre` and returns with
`Q` of its outcome, which holds from then on; `Ensures Q` leaves `Pre` out. The
rules below follow the statements of a verb.
-/

namespace BackbonePortal

open Proc

def Grows (w w' : World) : Prop := Evolves w.db w'.db

theorem Grows.refl (w : World) : Grows w w := Evolves.refl _

theorem Grows.trans {u v w : World} (huv : Grows u v) (hvw : Grows v w) : Grows u w := Evolves.trans huv hvw

theorem grows_exec (a : Act) (i : Env) (w : World) : Grows w (a.exec i w).2 := act_evolves a i w

variable {α β : Type}

def Guarded (Pre : Act → World → Prop) (Q : Except Halt α → World → Prop) (p : Verb α) (w : World) : Prop :=
  p.Guards portalMachine Grows Pre Q w

def Ensures (Q : Except Halt α → World → Prop) (p : Verb α) (w : World) : Prop :=
  Guarded (fun _ _ => True) Q p w

section
variable {Pre : Act → World → Prop} {Q : Except Halt α → World → Prop} {w : World}

theorem guarded_act {a : Act} {k : a.Res → Verb α} (hpre : ∀ w', Grows w w' → Pre a w')
    (h : ∀ w', Grows w w' → ∀ i, Guarded Pre Q (k (a.exec i w').1) (a.exec i w').2) :
    Guarded Pre Q (.act a k) w := fun w' hw => ⟨hpre w' hw, h w' hw⟩

theorem guarded_step {a : Act} {f : a.Res → Verb α} (hpre : ∀ w', Grows w w' → Pre a w')
    (h : ∀ r w', Grows w w' → Guarded Pre Q (f r) w') :
    Guarded Pre Q (Prog.bind (@Prog.perform portalSig Halt a) f) w :=
  guarded_act hpre fun w' hw i => h _ _ (hw.trans (grows_exec a i w'))

theorem guarded_query {q : Stmt} {f : q.Res → Verb α} (hpre : ∀ w', Grows w w' → Pre (.sql q) w')
    (herr : ∀ e w', Grows w w' → Q (.error (.err (.db e))) w')
    (hok : ∀ w', Grows w w' → ∀ i r, (q.answer i w'.db).1 = .ok r →
      Guarded Pre Q (f r) (Act.exec (.sql q) i w').2) : Guarded Pre Q ((query q).bind f) w := by
  apply guarded_act hpre
  intro w' hw i
  have hi := grows_exec (.sql q) i w'
  cases h : (Act.exec (.sql q) i w').1 with
  | ok r => exact hok w' hw i r h
  | error e => exact fun w'' hw' => herr e w'' (hw.trans (hi.trans hw'))

theorem guarded_lifetime {unit : String} {perUnit n : Int} {now : Instant} {f : Instant → Verb α}
    (hpanic : ∀ m w', Grows w w' → Q (.error (.panicked m)) w') (hok : ∀ t, Guarded Pre Q (f t) w) :
    Guarded Pre Q ((lifetime unit perUnit n now).bind f) w := by
  unfold lifetime
  split
  · exact fun w' hw => hpanic _ w' hw
  · split
    · exact fun w' hw => hpanic _ w' hw
    · exact hok _

theorem guarded_bind {R : Except Halt β → World → Prop} {p : Verb β} {f : β → Verb α} (hp : Guarded Pre R p w)
    (hok : ∀ b w, R (.ok b) w → Guarded Pre Q (f b) w) (herr : ∀ e w, R (.error e) w → Q (.error e) w) :
    Guarded Pre Q (p.bind f) w := Prog.Guards.bind Grows.refl hp hok herr

theorem guarded_after {I : World → Prop} (inv : ∀ w w', Grows w w' → I w → I w') (hpre : ∀ a w, I w → Pre a w)
    (p : Verb α) (hw : I w) : Guarded Pre (fun _ _ => True) p w := by
  induction p generalizing w with
  | ret a => exact fun _ _ => trivial
  | fail e => exact fun _ _ => trivial
  | act a k ih =>
    exact guarded_act (fun w' h => hpre a w' (inv w w' h hw)) fun w' h i =>
      ih _ (inv w' _ (grows_exec a i w') (inv w w' h hw))

theorem Ensures.guarded {A : Act → Prop} (hA : ∀ a w, A a → Pre a w) {p : Verb α} (hp : Ensures Q p w)
    (ha : p.All A) : Guarded Pre Q p w := Prog.Guards.with_all (fun a w h _ => hA a w h) hp ha

theorem ensures_ret {a : α} (h : ∀ w', Grows w w' → Q (.ok a) w') : Ensures Q (.ret a) w := h

theorem ensures_refuse {e : PortalError} (h : ∀ w', Grows w w' → Q (.error (.err e)) w') :
    Ensures Q (refuse e) w := h

theorem ensures_step {a : Act} {f : a.Res → Verb α} (h : ∀ r w', Grows w w' → Ensures Q (f r) w') :
    Ensures Q (Prog.bind (@Prog.perform portalSig Halt a) f) w := guarded_step (fun _ _ => trivial) h

theorem ensures_query {q : Stmt} {f : q.Res → Verb α}
    (herr : ∀ e w', Grows w w' → Q (.error (.err (.db e))) w')
    (hok : ∀ w', Grows w w' → ∀ i r, (q.answer i w'.db).1 = .ok r →
      Ensures Q (f r) (Act.exec (.sql q) i w').2) :
    Ensures Q ((query q).bind f) w := guarded_query (fun _ _ => trivial) herr hok

theorem ensures_checkKey {key : String} {now : Instant} {f : Unit → Verb α}
    (herr : ∀ n w', Grows w w' → Q (.error (.err (.rateLimited n))) w')
    (hok : ∀ w', Grows w w' → Ensures Q (f ()) w') : Ensures Q ((checkKey key now).bind f) w := by
  apply guarded_act (fun _ _ => trivial)
  intro w' hw i
  have hi := grows_exec (.check key now) i w'
  cases h : (Act.exec (.check key now) i w').1 with
  | ok r => exact hok _ (hw.trans hi)
  | error e =>
    obtain ⟨n, rfl⟩ := AttemptBook.check_error h
    exact fun w'' hw' => herr n w'' (hw.trans (hi.trans hw'))

theorem ensures_bind {R : Except Halt β → World → Prop} {p : Verb β} {f : β → Verb α} (hp : Ensures R p w)
    (hok : ∀ b w, R (.ok b) w → Ensures Q (f b) w) (herr : ∀ e w, R (.error e) w → Q (.error e) w) :
    Ensures Q (p.bind f) w := guarded_bind hp hok herr

theorem Ensures.weaken {R : Except Halt α → World → Prop} {p : Verb α} (hp : Ensures R p w)
    (h : ∀ o w, R o w → Q o w) : Ensures Q p w := Prog.Guards.weaken h hp

theorem ensures_stable {I : World → Prop} (inv : ∀ w w', Grows w w' → I w → I w') (p : Verb α) (hw : I w) :
    Ensures (fun _ w => I w) p w :=
  Prog.guards_stable inv (fun a i w h => inv w _ (grows_exec a i w) h) p hw

theorem ensures_trivial (p : Verb α) : Ensures (fun _ _ => True) p w :=
  ensures_stable (fun _ _ _ h => h) p trivial

end

theorem guarded_answered {Pre : Act → World → Prop} {p : Verb α} {ok : α → Response}
    {err : PortalError → Verb Response}
    {w : World} (hp : Guarded Pre (fun _ _ => True) p w)
    (herr : ∀ e w, Guarded Pre (fun _ _ => True) (err e) w) :
    Guarded Pre (fun _ _ => True) (answered p ok err) w := by
  refine guarded_bind (R := fun _ _ => True) (hp.attempt.weaken fun _ _ _ => trivial) (fun r w _ => ?_)
    fun _ _ _ => trivial
  cases r with
  | ok a => exact fun _ _ => trivial
  | error h =>
    cases h with
    | err e => exact herr e w
    | event h m => exact fun _ _ => trivial
    | panicked m => exact fun _ _ => trivial

theorem ensures_reply {Q : Except Halt Reply → World → Prop} {R : Except Halt α → World → Prop} {p : Verb α}
    {f : α → Reply} {w : World} (hp : Ensures R p w)
    (hok : ∀ a w, R (.ok a) w → ∀ w', Grows w w' → Q (.ok (f a)) w')
    (herr : ∀ e w, R (.error e) w → Q (.error e) w) : Ensures Q (reply p f) w :=
  ensures_bind hp (fun a w h => ensures_ret fun w' hw => hok a w h w' hw) herr

end BackbonePortal
