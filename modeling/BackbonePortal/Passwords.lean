import BackbonePortal.Calls
import BackbonePortal.Lockstep

/-!
# Passwords reach only the verifier

The run in which every password is blank is the same run: the same tables,
trail and attempt book, the same answers, the same actions but for what the
verifier is handed. What a visitor types is never stored, compared or answered.
-/

namespace BackbonePortal

open Proc

/-- The action without the password. -/
def Act.hush : Act → Act
  | .verify email _ => .verify email ""
  | a => a

def RouteRequest.hush : RouteRequest → RouteRequest
  | .login headers (.ok body) => .login headers (.ok { body with password := "" })
  | .signup headers (.ok body) => .signup headers (.ok { body with password := "" })
  | request => request

def Request.hush : Request → Request
  | .login email _ ip => .login email "" ip
  | .signup email _ ip => .signup email "" ip
  | .route request => .route request.hush
  | request => request

/-- The call without the password. -/
def PortalCall.hush : PortalCall → PortalCall
  | .request t => .request t.hush
  | call => call

def hushMove : PortalMove → PortalMove
  | .start t => .start t.hush
  | .step j i => .step j i

/-- In lockstep, up to the password. -/
abbrev Hushed {α : Type} (p q : Verb α) : Prop :=
  p.Lockstep portalMachine Eq (fun a a' => a.hush = a'.hush) q

section
variable {P : Portal} {α β : Type}

theorem hushed_refl (p : Verb α) : Hushed p p := 
  Prog.lockstep_refl (M := portalMachine) (A := fun a a' => a.hush = a'.hush) (fun _ => rfl) p

/-- After the same first part. -/
theorem hushed_after (p : Verb α) {f g : α → Verb β} (hfg : ∀ a, Hushed (f a) (g a)) :
    Hushed (p.bind f) (p.bind g) := (hushed_refl p).bind hfg

/-- Nothing but the verdict is known of the password. -/
theorem hushed_verify (email presented presented' : String) {f g : Option (Except String Bool) → Verb β}
    (hfg : ∀ verdict, Hushed (f verdict) (g verdict)) :
    Hushed ((checkCredential email presented).bind f) ((checkCredential email presented').bind g) := by
  refine ⟨rfl, fun i w w' hw => ?_⟩
  subst hw
  exact ⟨rfl, hfg _⟩

theorem hushed_reply {p q : Verb α} {f : α → Reply} (h : Hushed p q) : Hushed (reply p f) (reply q f) :=
  h.bind fun _ => hushed_refl _

theorem hushed_answered {p q : Verb α} {ok : α → Response} {err : PortalError → Verb Response}
    (h : Hushed p q) : Hushed (answered p ok err) (answered q ok err) := h.attempt.bind fun _ => hushed_refl _

theorem verifyAndMint_hushed (email presented presented' ip event : String) :
    Hushed (P.verifyAndMint email presented ip event) (P.verifyAndMint email presented' ip event) := by
  refine hushed_after _ fun now => hushed_after _ fun _ => hushed_after _ fun _ =>
    hushed_after _ fun found => ?_
  split
  · exact hushed_refl _
  split
  · exact hushed_refl _
  · exact hushed_verify email presented presented' fun _ => hushed_refl _

theorem login_hushed (email presented presented' ip : String) :
    Hushed (P.login email presented ip) (P.login email presented' ip) := by
  unfold Portal.login
  dsimp only
  split
  · exact hushed_refl _
  · exact verifyAndMint_hushed _ _ _ _ _

theorem signup_hushed (email presented presented' ip : String) :
    Hushed (P.signup email presented ip) (P.signup email presented' ip) := by
  unfold Portal.signup
  dsimp only
  split
  · exact hushed_refl _
  refine hushed_after _ fun allowed => ?_
  cases allowed with
  | false => exact hushed_refl _
  | true =>
    refine hushed_after _ fun found => ?_
    split
    · split
      · exact hushed_refl _
      · exact verifyAndMint_hushed _ _ _ _ _
    · refine hushed_after _ fun _ => hushed_after _ fun _ => ?_
      exact hushed_verify _ presented presented' fun _ => hushed_refl _

theorem route_hushed (request : RouteRequest) : Hushed (P.route request) (P.route request.hush) := by
  cases request with
  | redeemInvite headers body => exact hushed_refl _
  | rotate headers body => exact hushed_refl _
  | login headers body =>
    cases body with
    | ok b => exact hushed_answered (login_hushed _ _ _ _)
    | error e => exact hushed_refl _
  | signup headers body =>
    cases body with
    | ok b => exact hushed_answered (signup_hushed _ _ _ _)
    | error e => exact hushed_refl _

theorem verb_hushed (P : Portal) (t : PortalCall) : Hushed (t.verb P) (t.hush.verb P) := by
  cases t with
  | request request =>
    cases request with
    | login email presented ip => exact hushed_reply (login_hushed _ _ _ _)
    | signup email presented ip => exact hushed_reply (signup_hushed _ _ _ _)
    | route request => exact hushed_reply (route_hushed request)
    | _ => exact hushed_refl _
  | _ => exact hushed_refl _

end

theorem alike_hush (ms : List PortalMove) :
    List.Forall₂ (Move.Alike fun t t' => t' = t.hush) ms (ms.map hushMove) := by
  induction ms with
  | nil => exact .nil
  | cons m ms ih =>
    cases m with
    | start t => exact .cons (.start rfl) ih
    | step j i => exact .cons (.step j i) ih

/-- **Passwords are confined.** In every run, whatever is interleaved, the
tables, the trail, the attempt book and the answers are those of the run with
every password blank, and so is every action but for what the verifier is handed. -/
theorem passwords_confined (P : Portal) (w : World) (ms : List PortalMove) :
    ((⟨w, []⟩ : PortalPool).play (PortalCall.verb P) (ms.map hushMove)).world =
      ((⟨w, []⟩ : PortalPool).play (PortalCall.verb P) ms).world ∧
    ((⟨w, []⟩ : PortalPool).play (PortalCall.verb P) (ms.map hushMove)).calls.map Call.outcome =
      ((⟨w, []⟩ : PortalPool).play (PortalCall.verb P) ms).calls.map Call.outcome ∧
    ((⟨w, []⟩ : PortalPool).play (PortalCall.verb P) (ms.map hushMove)).calls.map
        (fun c => c.past.map fun ev => ev.act.hush) =
      ((⟨w, []⟩ : PortalPool).play (PortalCall.verb P) ms).calls.map
        (fun c => c.past.map fun ev => ev.act.hush) := by
  have hpaired := Pool.play_lockstep (M := portalMachine) (T := Eq) (A := fun a a' => a.hush = a'.hush)
    (K := fun t t' => t' = t.hush) (PortalCall.verb P) (fun t t' ht => ht ▸ verb_hushed P t)
    (P := ⟨w, []⟩) (Q := ⟨w, []⟩) ⟨rfl, .nil⟩ (alike_hush ms)
  refine ⟨hpaired.world.symm, ?_, ?_⟩
  · exact (map_eq_of_forall₂ (fun c d h => h.outcome) hpaired.calls).symm
  · exact (map_eq_of_forall₂ (fun c d h => map_eq_of_forall₂ (fun ev ev' h => h) h.past) hpaired.calls).symm

end BackbonePortal
