import BackbonePortal.Patch

/-!
# Access state and the surface

The calls of a consumer that still holds a principal, after the principal lost its access.
-/

namespace BackbonePortal

open Proc Tables

inductive SurfaceCall where
  | myDetails
  | updateMyDetails (patch : PortalDetailPatch)
  | myAccessHistory (limit : Int)

def SurfaceCall.verb (principal : PortalPrincipal) : SurfaceCall → Verb Reply
  | .myDetails => reply (BackbonePortal.myDetails principal) .account
  | .updateMyDetails patch => reply (BackbonePortal.updateMyDetails principal patch) .account
  | .myAccessHistory limit => reply (BackbonePortal.myAccessHistory principal limit) .history

def Db.Admits (db : Db) (user : Uuid) : Prop := ∃ u, db.users.get user = some u ∧ u.admitted = true

instance (db : Db) (user : Uuid) : Decidable (db.Admits user) :=
  decidable_of_iff (((db.users.get user).filter (·.admitted)).isSome = true) (by
    simp only [Db.Admits, Option.isSome_iff_exists, Option.filter_eq_some_iff])

theorem Db.not_admits {db : Db} {user : Uuid} :
    ¬db.Admits user ↔ (db.users.get user).filter (·.admitted) = none := by
  simp only [Db.Admits, Option.filter_eq_none_iff, not_exists, not_and]

namespace SurfaceCall

/-- The refusals: `NotFound`, the patch itself, or the statement's own failure. -/
def RefusesWith (call : SurfaceCall) (principal : PortalPrincipal) (i : Nat → Env) : PortalError → Prop
  | .notFound text => text = "principal " ++ principal.userId.display
  | .invalidInput _ => ∃ patch, call = .updateMyDetails patch
  | .db (.fault text) => (i 0).fault = some text
  | _ => False

def Refused (call : SurfaceCall) (principal : PortalPrincipal) (i : Nat → Env) (w : World) : Prop :=
  ∃ e, ((call.verb principal).run portalMachine i w).1 = .error (.err e) ∧ call.RefusesWith principal i e ∧
    ((call.verb principal).run portalMachine i w).2.db = w.db

end SurfaceCall

section
variable {principal : PortalPrincipal} {w : World}

theorem run_reply {α : Type} (p : Verb α) (f : α → Reply) (i : Nat → Env) (w : World) :
    (reply p f).run portalMachine i w = ((p.run portalMachine i w).1.map f, (p.run portalMachine i w).2) :=
  Prog.run_bind_ret portalMachine p f i w

theorem myDetails_refused (h : ¬w.db.Admits principal.userId) (i : Nat → Env) :
    SurfaceCall.myDetails.Refused principal i w := by
  unfold SurfaceCall.Refused SurfaceCall.verb
  rw [run_reply, myDetails, run_view, Db.not_admits.mp h]
  cases hf : (i 0).fault with
  | some text => exact ⟨_, rfl, hf, rfl⟩
  | none => exact ⟨_, rfl, rfl, rfl⟩

theorem updateMyDetails_refused (h : ¬w.db.Admits principal.userId) (patch : PortalDetailPatch)
    (i : Nat → Env) :
    (SurfaceCall.updateMyDetails patch).Refused principal i w := by
  unfold SurfaceCall.Refused SurfaceCall.verb
  rw [run_reply]
  unfold updateMyDetails
  cases hempty : patch.isEmpty with
  | true => exact ⟨_, rfl, ⟨patch, rfl⟩, rfl⟩
  | false =>
    cases hvalid : patch.validate with
    | error e =>
      obtain ⟨text, rfl⟩ := patch.validate_error hvalid
      exact ⟨_, rfl, ⟨patch, rfl⟩, rfl⟩
    | ok =>
      simp only [Bool.false_eq_true, if_false, ofExcept_ok, Prog.bind_eq, Prog.bind_ret]
      cases hf : (i 0).fault with
      | some text =>
        rw [run_query_fault i w hf]
        exact ⟨_, rfl, hf, rfl⟩
      | none =>
        rw [run_query_ok i w (Stmt.answer_of_ok hf (updateDetails_unmatched (Db.not_admits.mp h)))]
        exact ⟨_, rfl, rfl, rfl⟩

theorem myAccessHistory_answers (principal : PortalPrincipal) (w : World) (limit : Int) (i : Nat → Env)
    (hf : (i 0).fault = none) :
    ∃ events, (((SurfaceCall.myAccessHistory limit).verb principal).run portalMachine i w).1 =
      .ok (.history events) := by
  unfold SurfaceCall.verb
  rw [run_reply]
  unfold myAccessHistory
  rw [← Prog.bind_ret_right (query _), run_query_ok i w (Stmt.answer_of_ok hf rfl)]
  exact ⟨_, rfl⟩

end

/-- **The gate of the surface**: a call made for a principal without access is
refused, unless it asks for the history, which has no gate. -/
theorem surface_gated_iff (call : SurfaceCall) (principal : PortalPrincipal) (w : World) :
    (¬w.db.Admits principal.userId → ∀ i, call.Refused principal i w) ↔
      w.db.Admits principal.userId ∨ ∀ limit, call ≠ .myAccessHistory limit := by
  cases call with
  | myDetails => exact ⟨fun _ => .inr fun _ => SurfaceCall.noConfusion, fun _ h => myDetails_refused h⟩
  | updateMyDetails patch =>
    exact ⟨fun _ => .inr fun _ => SurfaceCall.noConfusion, fun _ h => updateMyDetails_refused h patch⟩
  | myAccessHistory limit =>
    constructor
    · intro h
      by_contra hno
      have hout : ¬w.db.Admits principal.userId := fun hin => hno (.inl hin)
      obtain ⟨e, he, -⟩ := h hout fun _ => {}
      obtain ⟨events, hok⟩ := myAccessHistory_answers principal w limit (fun _ => {}) rfl
      rw [hok] at he
      cases he
    · intro h hout
      rcases h with hin | hother
      · exact absurd hin hout
      · exact absurd rfl (hother limit)

namespace Probe

def dismissed : World :=
  ((revokeAccess (uuid 2) "left" "officer").run portalMachine (fun _ => env) (world admitted)).2

def events (o : Except Halt Reply) : List String :=
  match o with
  | .ok (.history events) => events.map (·.event)
  | _ => []

end Probe

/-- The principal lost its access, its details refuse, and its history answers. -/
theorem history_not_gated :
    ¬Probe.dismissed.db.Admits Probe.holder.userId ∧
    Probe.events (((SurfaceCall.myAccessHistory 10).verb Probe.holder).run portalMachine (fun _ => Probe.env)
      Probe.dismissed).1 = ["bearer_revoked"] := by
  decide +kernel

end BackbonePortal
