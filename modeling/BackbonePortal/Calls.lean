import BackbonePortal.Account
import BackbonePortal.Alone
import BackbonePortal.Footprint
import BackbonePortal.Recipients

/-!
# Every call of the portal

The requests of the host, the calls of a customer over the account routes, and
the mint of a recipient credential, so that a run can hold any mix of them.
-/

namespace BackbonePortal

open Proc

inductive PortalCall where
  | request (t : Request)
  | customer (call : CustomerCall)
  | mintRecipient (user : Uuid) (email : String)

def PortalCall.verb (P : Portal) : PortalCall → Verb Reply
  | .request t => P.serve t
  | .customer call => call.verb P
  | .mintRecipient user email => reply (P.mintRecipientCredential user email) .link

abbrev PortalPool := Pool portalMachine Halt Reply PortalCall

abbrev PortalMove := Move portalMachine PortalCall

/-- The clock does not run backwards. -/
def Forward (pool : PortalPool) (m : PortalMove) : Prop :=
  ∀ x ∈ pool.performs m, pool.world.clock ≤ x.2.now

instance (pool : PortalPool) (m : PortalMove) : Decidable (Forward pool m) :=
  inferInstanceAs (Decidable (∀ x ∈ pool.performs m, pool.world.clock ≤ x.2.now))

theorem Act.exec_clock (a : Act) (i : Env) (w : World) : (a.exec i w).2.clock = i.now := by
  cases a <;> rfl

/-! ## The header of a minted link -/

theorem isWhite_printing {c : Char} (h : 33 ≤ c.toNat ∧ c.toNat ≤ 126) : isWhite c = false := by
  have : ∀ n, 33 ≤ n → n ≤ 126 → ((9 ≤ n && n ≤ 13) || n = 0x20 || n = 0x85 || n = 0xA0 || n = 0x1680 ||
      (0x2000 ≤ n && n ≤ 0x200A) || n = 0x2028 || n = 0x2029 || n = 0x202F || n = 0x205F || n = 0x3000) =
        false := by
    intro n hlo hhi
    simp only [Bool.or_eq_false_iff, Bool.and_eq_false_iff, decide_eq_false_iff_not]
    omega
  exact this c.toNat h.1 h.2

theorem digitOf_printing {d : Nat} (hd : d < 16) : 33 ≤ (digitOf d).toNat ∧ (digitOf d).toNat ≤ 126 := by
  have : ∀ d < 16, 33 ≤ (digitOf d).toNat ∧ (digitOf d).toNat ≤ 126 := by decide
  exact this d hd

theorem renderLink_printing {id : Uuid} {nonce mac : String} {exp : Int}
    (hnonce : ∀ c ∈ nonce.toList, ∃ d < 16, c = digitOf d) (hmac : ∀ c ∈ mac.toList, ∃ d < 16, c = digitOf d)
    {c : Char} (hc : c ∈ (renderLink id nonce exp mac).toList) : 33 ≤ c.toNat ∧ c.toNat ≤ 126 := by
  have digit : ∀ c : Char, (∃ d < 16, c = digitOf d) → 33 ≤ c.toNat ∧ c.toNat ≤ 126 := by
    rintro c ⟨d, hd, rfl⟩
    exact digitOf_printing hd
  have dot : ∀ c : Char, c ∈ ".".toList → 33 ≤ c.toNat ∧ c.toNat ≤ 126 := by
    intro c hc
    obtain rfl : c = '.' := by simpa using hc
    decide
  simp only [renderLink, String.toList_append, List.mem_append] at hc
  rcases hc with ((((((hc | hc) | hc) | hc) | hc) | hc) | hc)
  · rcases Uuid.mem_display hc with rfl | hc
    · decide
    · exact digit c hc
  · exact dot c hc
  · exact digit c (hnonce c hc)
  · exact dot c hc
  · rw [toString_toList] at hc
    split at hc
    · have := mem_toDigits hc
      omega
    · rcases List.mem_cons.mp hc with rfl | hc
      · decide
      · have := mem_toDigits hc
        omega
  · exact dot c hc
  · exact digit c (hmac c hc)

/-- The header a client builds from a link presents that link. -/
theorem presentedBearer_renderLink {id : Uuid} {nonce mac : String} {exp : Int}
    (hnonce : ∀ c ∈ nonce.toList, ∃ d < 16, c = digitOf d)
    (hmac : ∀ c ∈ mac.toList, ∃ d < 16, c = digitOf d) :
    presentedBearer (some ("Bearer " ++ renderLink id nonce exp mac)) = some (renderLink id nonce exp mac) := by
  have htrim : trim (renderLink id nonce exp mac) = renderLink id nonce exp mac :=
    trimBy_of_forall fun c hc => isWhite_printing (renderLink_printing hnonce hmac hc)
  have hne : renderLink id nonce exp mac ≠ "" := by
    intro he
    have hlist := congrArg String.toList he
    simp [renderLink, String.toList_append] at hlist
  have hprefix : "Bearer ".toList.isPrefixOf ("Bearer " ++ renderLink id nonce exp mac).toList = true := by
    rw [List.isPrefixOf_iff_prefix, String.toList_append]
    exact List.prefix_append _ _
  have hdrop : String.ofList (("Bearer " ++ renderLink id nonce exp mac).toList.drop 7) =
      renderLink id nonce exp mac := by
    rw [String.toList_append, show 7 = "Bearer ".toList.length from rfl, List.drop_left, String.ofList_toList]
  simp only [presentedBearer, Option.bind_some, hprefix, if_true, hdrop, htrim, Option.filter_some, hne,
    ne_eq, not_false_eq_true, decide_true]

/-! ## What the calls perform -/

section
variable {A : Act → Prop} (P : Portal) (hA : ∀ a, Act.Basic a → A a)
include hA

theorem bearerPrincipal_all (authorization : Option String) : (P.bearerPrincipal authorization).All A := by
  unfold Portal.bearerPrincipal
  split
  · trivial
  · refine .bind (verifyBearer_all P (fun a h => hA a h.basic) _).attempt fun o => ?_
    split <;> trivial

theorem authenticated_all (authorization : Option String) {handler : PortalPrincipal → Verb Response}
    (h : ∀ p, (handler p).All A) : (P.authenticated authorization handler).All A := by
  refine .bind (bearerPrincipal_all P hA authorization) fun o => ?_
  split
  · exact h _
  · trivial

theorem customer_all (call : CustomerCall) : (call.verb P).All A := by
  cases call with
  | surface principal call =>
    cases call with
    | myDetails => exact .bind (view_all hA _) fun _ => trivial
    | updateMyDetails patch => exact .bind (updateMyDetails_all hA _ _) fun _ => trivial
    | myAccessHistory limit => exact .bind (all_query (hA _ trivial)) fun _ => trivial
  | me authorization =>
    refine .bind (authenticated_all P hA _ fun p => ?_) fun _ => trivial
    exact all_answered (view_all hA _) fun _ => trivial
  | updateMe authorization body =>
    refine .bind (extract_all fun b => authenticated_all P hA _ fun p => ?_) fun _ => trivial
    split
    · trivial
    · exact all_answered (updateMyDetails_all hA _ _) fun _ => trivial
  | accessHistory authorization =>
    refine .bind (authenticated_all P hA _ fun p => ?_) fun _ => trivial
    exact all_answered (all_query (hA _ trivial)) fun _ => trivial

theorem mintRecipientCredential_all (user : Uuid) (email : String) :
    (P.mintRecipientCredential user email).All A :=
  .bind (all_ofExcept _) fun _ => .bind (all_step (hA _ trivial)) fun _ => .bind all_lifetime fun _ =>
    .bind (audit_all (basic_enters hA) (by simp)) fun _ => trivial

end

namespace Probe

def stage (db : Db) : PortalPool := ⟨world db, []⟩

/-- How a call ended, as far as a probe tells it. -/
def endOf (c : Call portalSig Halt Reply PortalCall) : Option (Halt ⊕ Nat) :=
  match c.outcome with
  | some (.error h) => some (.inl h)
  | some (.ok (.response r)) => some (.inr r.status)
  | _ => none

theorem endOf_halt {c : Call portalSig Halt Reply PortalCall} {h : Halt} (he : endOf c = some (.inl h)) :
    c.outcome = some (.error h) := by
  unfold endOf at he
  split at he
  next h' ho => cases he; exact ho
  next => cases he
  next => cases he

theorem endOf_response {c : Call portalSig Halt Reply PortalCall} {n : Nat} (he : endOf c = some (.inr n)) :
    ∃ r, c.outcome = some (.ok (.response r)) ∧ r.status = n := by
  unfold endOf at he
  split at he
  next => cases he
  next r ho => cases he; exact ⟨r, ho, rfl⟩
  next => cases he

end Probe

end BackbonePortal
