import BackbonePortal.Alone
import BackbonePortal.Fields
import BackbonePortal.Recipients
import BackbonePortal.Rendering

/-!
# Credential families

What is signed in the three families, and what a MAC of one of them is accepted
for: the domains differ, and each input can be cut into its fields again because
the fields around an address have a fixed width or no delimiter.
-/

namespace BackbonePortal

open Proc

/-- What a credential grants, in one of the three families. -/
inductive Grant where
  | bearer (id : Uuid) (nonce : String) (user : Uuid) (exp : Int)
  | invite (id : Uuid) (nonce : String) (email : String) (exp : Int)
  | recipient (user : Uuid) (email : String) (exp : Int)

namespace Grant

def macInput : Grant → String
  | .bearer id nonce user exp => capabilityMacInput domainBearer id nonce (Portal.bearerGrant user) exp
  | .invite id nonce email exp => capabilityMacInput domainInvite id nonce (Portal.inviteGrant email) exp
  | .recipient user email exp => recipientMacInput user email exp

def Formed : Grant → Prop
  | .bearer _ nonce _ _ => nonce ≠ "" ∧ allHex nonce = true
  | .invite _ nonce _ _ => nonce ≠ "" ∧ allHex nonce = true
  | .recipient .. => True

instance : DecidablePred Formed := fun g => by cases g <;> unfold Formed <;> exact inferInstance

def key (P : Portal) : Grant → List UInt8
  | .recipient .. => P.recipientSecret
  | _ => P.bearerSecret

def mac (P : Portal) (g : Grant) : String := P.computeMac (g.key P) g.macInput

def MintedAs (P : Portal) (link : String) : Grant → Prop
  | .bearer id nonce user exp =>
    ∃ expires : Instant, expires.timestamp = exp ∧ P.bearerLink id user nonce expires = .ok link
  | .invite id nonce email exp => P.inviteLink id nonce email exp = .ok link
  | .recipient user email exp =>
    ∃ i w, ((P.mintRecipientCredential user email).run portalMachine i w).1 = .ok link ∧
      ((i 0).now + seconds (recipientHmacTtlDays * 86400)).timestamp = exp

end Grant

/-! ## The inputs -/

theorem Uuid.display_length (u : Uuid) : u.display.toList.length = 36 := by
  simp [Uuid.display_toList, hexDigits_length]

theorem toDigits_injective {m n : Nat} (h : Nat.toDigits 10 m = Nat.toDigits 10 n) : m = n := by
  have hread := ofDigits_toDigits m
  rw [h, ofDigits_toDigits n] at hread
  exact (Option.some.inj hread).symm

theorem toString_injective {m n : Int} (h : toString m = toString n) : m = n := by
  have hlist := congrArg String.toList h
  rw [toString_toList, toString_toList] at hlist
  split at hlist <;> split at hlist
  · have := toDigits_injective hlist
    omega
  · have hmem : '-' ∈ Nat.toDigits 10 m.toNat := by rw [hlist]; exact List.mem_cons_self
    exact absurd (mem_toDigits hmem).1 (by decide)
  · have hmem : '-' ∈ Nat.toDigits 10 n.toNat := by rw [← hlist]; exact List.mem_cons_self
    exact absurd (mem_toDigits hmem).1 (by decide)
  · have := toDigits_injective (List.cons.inj hlist).2
    omega

theorem bar_notMem_toString (n : Int) : '|' ∉ (toString n).toList := by
  rw [toString_toList]
  intro h
  split at h
  · exact absurd (mem_toDigits h).2 (by decide)
  · rcases List.mem_cons.mp h with h | h
    · exact absurd h (by decide)
    · exact absurd (mem_toDigits h).2 (by decide)

theorem capabilityMacInput_inj {domain nonce nonce' grant grant' : String} {id id' : Uuid} {exp exp' : Int}
    (hnonce : allHex nonce = true) (hnonce' : allHex nonce' = true)
    (h : capabilityMacInput domain id nonce grant exp = capabilityMacInput domain id' nonce' grant' exp') :
    id = id' ∧ nonce = nonce' ∧ grant = grant' ∧ exp = exp' := by
  have hlist : id.display.toList ++
      '.' :: (nonce.toList ++ '.' :: (grant.toList ++ '.' :: (toString exp).toList)) =
      id'.display.toList ++
        '.' :: (nonce'.toList ++ '.' :: (grant'.toList ++ '.' :: (toString exp').toList)) := by
    have := congrArg String.toList h
    simpa [capabilityMacInput, String.toList_append, List.append_assoc] using this
  obtain ⟨hid, hrest⟩ := List.append_inj hlist (by rw [Uuid.display_length, Uuid.display_length])
  obtain ⟨hn, hrest⟩ :=
    Fields.first_inj (dot_notMem_of_allHex hnonce) (dot_notMem_of_allHex hnonce') (List.cons.inj hrest).2
  obtain ⟨hg, he⟩ := Fields.last_inj (dot_notMem_toString exp) (dot_notMem_toString exp') hrest
  exact ⟨Uuid.display_inj (String.toList_inj.mp hid), String.toList_inj.mp hn, String.toList_inj.mp hg,
    toString_injective (String.toList_inj.mp he)⟩

theorem recipientMacInput_inj {user user' : Uuid} {email email' : String} {exp exp' : Int}
    (h : recipientMacInput user email exp = recipientMacInput user' email' exp') :
    user = user' ∧ email = email' ∧ exp = exp' := by
  have hlist : user.display.toList ++ '|' :: (email.toList ++ '|' :: (toString exp).toList) =
      user'.display.toList ++ '|' :: (email'.toList ++ '|' :: (toString exp').toList) := by
    have := congrArg String.toList h
    simpa [recipientMacInput, String.toList_append, List.append_assoc] using this
  obtain ⟨hu, hrest⟩ := List.append_inj hlist (by rw [Uuid.display_length, Uuid.display_length])
  obtain ⟨he, hx⟩ :=
    Fields.last_inj (bar_notMem_toString exp) (bar_notMem_toString exp') (List.cons.inj hrest).2
  exact ⟨Uuid.display_inj (String.toList_inj.mp hu), String.toList_inj.mp he,
    toString_injective (String.toList_inj.mp hx)⟩

theorem bearerGrant_injective {user user' : Uuid}
    (h : Portal.bearerGrant user = Portal.bearerGrant user') : user = user' := by
  have hlist := congrArg String.toList h
  simp only [Portal.bearerGrant, String.toList_append, List.append_cancel_left_eq] at hlist
  exact Uuid.display_inj (String.toList_inj.mp hlist)

theorem inviteGrant_injective {email email' : String}
    (h : Portal.inviteGrant email = Portal.inviteGrant email') :
    email = email' := by
  have hlist := congrArg String.toList h
  simp only [Portal.inviteGrant, String.toList_append, List.append_cancel_left_eq] at hlist
  exact String.toList_inj.mp hlist

def Grant.letter : Grant → Char
  | .bearer .. => 'b'
  | .invite .. => 'i'
  | .recipient .. => 'r'

theorem Grant.macInput_letter (g : Grant) : g.macInput.toList[7]? = some g.letter := by
  cases g <;> simp [macInput, capabilityMacInput, recipientMacInput, domainBearer, domainInvite,
    domainRecipient, letter, String.toList_append]

/-- **The MAC inputs determine the grant**, across the families. -/
theorem Grant.macInput_injective {g g' : Grant} (hg : g.Formed) (hg' : g'.Formed)
    (h : g.macInput = g'.macInput) : g = g' := by
  have hletter : g.letter = g'.letter := by
    have := g.macInput_letter
    rw [h, g'.macInput_letter] at this
    exact (Option.some.inj this).symm
  cases g with
  | bearer id nonce user exp =>
    cases g' with
    | bearer id' nonce' user' exp' =>
      obtain ⟨rfl, rfl, hgrant, rfl⟩ := capabilityMacInput_inj hg.2 hg'.2 h
      rw [bearerGrant_injective hgrant]
    | _ => cases hletter
  | invite id nonce email exp =>
    cases g' with
    | invite id' nonce' email' exp' =>
      obtain ⟨rfl, rfl, hgrant, rfl⟩ := capabilityMacInput_inj hg.2 hg'.2 h
      rw [inviteGrant_injective hgrant]
    | _ => cases hletter
  | recipient user email exp =>
    cases g' with
    | recipient user' email' exp' =>
      obtain ⟨rfl, rfl, rfl⟩ := recipientMacInput_inj h
      rfl
    | _ => cases hletter

/-! ## The MAC of a link -/

def macArm (value : String) : String := (splitAt '.' value).getLastD ""

theorem macArm_concat {s t : String} (h : '.' ∉ t.toList) : macArm (s ++ "." ++ t) = t := by
  have hlist : (s ++ "." ++ t).toList = s.toList ++ '.' :: t.toList := by simp [String.toList_append]
  rw [macArm, splitAt, hlist, List.splitOn_append_cons_self, List.splitOn_eq_singleton h]
  simp

theorem macArm_renderLink (id : Uuid) (nonce : String) (exp : Int) (mac : List UInt8) :
    macArm (renderLink id nonce exp (hexOf mac)) = hexOf mac := macArm_concat (dot_notMem_hexOf mac)

section
variable {P : Portal} {link : String}

theorem secret_ok {secret : List UInt8} (h : P.secret = .ok secret) : secret = P.bearerSecret := by
  unfold Portal.secret at h
  split at h
  · cases h
  · exact (Except.ok.inj h).symm

theorem mintRecipientCredential_run {user : Uuid} {email : String} {i : Nat → Env} {w : World}
    (h : ((P.mintRecipientCredential user email).run portalMachine i w).1 = .ok link) :
    link = user.display ++ "." ++ email ++ "." ++
      toString ((i 0).now + seconds (recipientHmacTtlDays * 86400)).timestamp ++ "." ++
        (Grant.recipient user email ((i 0).now + seconds (recipientHmacTtlDays * 86400)).timestamp).mac P := by
  unfold Portal.mintRecipientCredential Portal.recipientKey at h
  split at h
  · cases h
  rw [ofExcept_ok, Prog.bind_eq, Prog.bind_ret, Prog.bind_eq, run_utcNow] at h
  have hday : daysAfter recipientHmacTtlDays (i 0).now =
    lifetime "days" 86400 recipientHmacTtlDays (i 0).now := rfl
  rw [hday] at h
  rcases lifetime_eq "days" 86400 recipientHmacTtlDays (i 0).now with ⟨-, hlife⟩ | ⟨-, m, hlife⟩
  · rw [hlife, Prog.bind_eq, Prog.bind_ret, Prog.bind_eq] at h
    rcases run_query _ _ (.appendAudit _) _ with ⟨e, he, hrun⟩ | ⟨r, hr, hrun⟩
    · rw [hrun] at h
      cases h
    · rw [hrun] at h
      exact (Except.ok.inj h).symm
  · rw [hlife] at h
    cases h

theorem macArm_minted {g : Grant} (h : g.MintedAs P link) : macArm link = g.mac P := by
  cases g with
  | bearer id nonce user exp =>
    obtain ⟨expires, rfl, hlink⟩ := h
    unfold Portal.bearerLink at hlink
    cases hs : P.secret with
    | error e => rw [hs] at hlink; cases hlink
    | ok secret =>
      rw [hs, secret_ok hs] at hlink
      rw [← Except.ok.inj hlink]
      exact macArm_renderLink _ _ _ _
  | invite id nonce email exp =>
    have hlink : P.inviteLink id nonce email exp = .ok link := h
    unfold Portal.inviteLink at hlink
    cases hs : P.secret with
    | error e => rw [hs] at hlink; cases hlink
    | ok secret =>
      rw [hs, secret_ok hs] at hlink
      rw [← Except.ok.inj hlink]
      exact macArm_renderLink _ _ _ _
  | recipient user email exp =>
    obtain ⟨i, w, hlink, rfl⟩ := h
    rw [mintRecipientCredential_run hlink]
    exact macArm_concat (dot_notMem_hexOf _)

theorem verifyMac_minted {key : List UInt8} {input : String} {g : Grant}
    (h : P.verifyMac key input (g.mac P) = true) :
    P.hmacSha256 key input = P.hmacSha256 (g.key P) g.macInput := by
  unfold Portal.verifyMac at h
  rw [show hexDecode (g.mac P) = some _ from hexDecode_hexOf _] at h
  exact (of_decide_eq_true h).symm

theorem parseCapability_macArm {parts : ParsedCapability} (h : parseCapability link = some parts) :
    macArm link = parts.mac ∧ parts.nonce ≠ "" ∧ allHex parts.nonce = true := by
  unfold parseCapability at h
  split at h
  next id nonce exp mac hsplit =>
    obtain ⟨id', hid, h⟩ := Option.bind_eq_some_iff.mp h
    split at h
    · cases h
    next hnonce =>
      obtain ⟨exp', hexp, h⟩ := Option.bind_eq_some_iff.mp h
      split at h
      · cases h
      · cases h
        rw [not_or, Bool.not_eq_false] at hnonce
        exact ⟨by simp [macArm, hsplit], hnonce⟩
  next => cases h

theorem parseRecipient_macArm {c : RecipientCredential} (h : parseRecipient link = some c) :
    macArm link = c.mac := by
  unfold parseRecipient at h
  split at h
  · cases h
  next id arms hsplit =>
    obtain ⟨user, hid, h⟩ := Option.bind_eq_some_iff.mp h
    dsimp only at h
    split at h
    · cases h
    next hlen =>
      obtain ⟨exp, hexp, h⟩ := Option.bind_eq_some_iff.mp h
      cases h
      cases arms with
      | nil => exact absurd (by decide) hlen
      | cons arm arms => simp [macArm, hsplit]

/-! ## What a MAC is accepted for -/

theorem verifyBearer_agrees (value : String) : (P.verifyBearer value).Yields fun p evs =>
    ∃ parts row, parseCapability value = some parts ∧ ⟨.sql (.bearerById parts.id), .ok (some row)⟩ ∈ evs ∧
      P.bearerAgrees P.bearerSecret parts row = true ∧ p.userId = row.userId := by
  unfold Portal.verifyBearer
  by_cases hs : P.bearerSecret = []
  · rw [Portal.secret, if_pos hs]
    exact Prog.yields_fail
  rw [secret_eq hs, ofExcept_ok, Prog.bind_eq, Prog.bind_ret]
  split
  · exact Prog.yields_fail
  next parts hparts =>
    intro r
    cases r with
    | error e =>
      intro p h
      cases h
    | ok found =>
      cases found with
      | none =>
        intro p h
        cases h
      | some row =>
        show Prog.Paths _ (ite _ _ _)
        split
        · intro p h
          cases h
        next hagrees =>
          refine Prog.Paths.mono (R := fun _ o => ∀ p, o = .ok p → p.userId = row.userId) (fun evs o h p hp =>
            ⟨parts, row, hparts, List.mem_cons_self, Bool.not_eq_false _ ▸ hagrees, h p hp⟩) ?_
          intro now
          show Prog.Paths _ (ite _ _ _)
          split
          · intro p h
            cases h
          split
          · intro p h
            cases h
          intro status
          cases status with
          | error e =>
            intro p h
            cases h
          | ok status =>
            cases status with
            | none =>
              intro p h
              cases h
            | some status =>
              show Prog.Paths _ (ite _ _ _)
              split
              · intro p h
                cases h
              · exact fun _ p hp => by cases hp; rfl

end

/-- **The families are apart.** Their MAC inputs determine what is granted; with
an HMAC that determines its input, a minted MAC is accepted for its own grant
only, in whatever string it is presented. -/
theorem families_apart (P : Portal)
    (hinj : ∀ key key' msg msg', P.hmacSha256 key msg = P.hmacSha256 key' msg' → msg = msg') :
    (∀ g g' : Grant, g.Formed → g'.Formed → g.macInput = g'.macInput → g = g') ∧
    ∀ (g : Grant) (link : String), g.Formed → g.MintedAs P link →
      (∀ value, macArm value = macArm link → (P.verifyBearer value).Yields fun p evs =>
        ∃ id row, ⟨.sql (.bearerById id), .ok (some row)⟩ ∈ evs ∧ p.userId = row.userId ∧
          g = .bearer id row.nonce row.userId row.expiresAt.timestamp) ∧
      (∀ id nonce email exp, nonce ≠ "" → allHex nonce = true →
        P.verifyInviteMac id nonce email exp (macArm link) = true → g = .invite id nonce email exp) ∧
      ∀ value now, macArm value = macArm link → P.verifyRecipientCredential value now = true →
        ∃ c, parseRecipient value = some c ∧ g = .recipient c.userId c.email c.exp := by
  have accepted : ∀ {g : Grant} (g' : Grant) {key : List UInt8} {input : String}, g.Formed → g'.Formed →
      input = g'.macInput → P.verifyMac key input (g.mac P) = true → g = g' := by
    intro g g' key input hg hg' hinput h
    apply Grant.macInput_injective hg hg'
    rw [← hinput]
    exact (hinj _ _ _ _ (verifyMac_minted h)).symm
  refine ⟨fun g g' => Grant.macInput_injective, fun g link hg hlink => ?_⟩
  rw [macArm_minted hlink]
  refine ⟨fun value harm => ?_, fun id nonce email exp hne hhex h => ?_, fun value now harm h => ?_⟩
  · refine Prog.Paths.mono (fun evs o h p hp => ?_) (verifyBearer_agrees (P := P) value)
    obtain ⟨parts, row, hparts, hread, hagrees, huser⟩ := h p hp
    obtain ⟨hmac, hne, hhex⟩ := parseCapability_macArm hparts
    simp only [Portal.bearerAgrees, Bool.and_eq_true, decide_eq_true_eq, and_assoc] at hagrees
    obtain ⟨hverify, hnonce, -⟩ := hagrees
    rw [← hmac, harm] at hverify
    rw [hnonce] at hne hhex
    exact ⟨parts.id, row, hread, huser,
      accepted (.bearer parts.id row.nonce row.userId row.expiresAt.timestamp) hg
      ⟨hne, hhex⟩ rfl hverify⟩
  · unfold Portal.verifyInviteMac at h
    split at h
    · exact accepted (.invite id nonce email exp) hg ⟨hne, hhex⟩ rfl h
    · cases h
  · unfold Portal.verifyRecipientCredential at h
    split at h
    · cases h
    split at h
    · cases h
    next c hc =>
      rw [Bool.and_eq_true, ← parseRecipient_macArm hc, harm] at h
      exact ⟨c, hc, accepted (.recipient c.userId c.email c.exp) hg trivial rfl h.1⟩

namespace Probe

def recipientInput : String :=
  "portal-recipient|22222222-2222-2222-2222-222222222222|first@example.com|1715552000"

def recipientMac : String := "c4a030ce854e19fec23ade2e0e0b5e5663cfdc0e1c3e4619d074e172eccbcb0e"

def recipientLink : String :=
  "22222222-2222-2222-2222-222222222222.first@example.com.1715552000." ++ recipientMac

/-- HMAC-SHA256 at the three inputs of the probes. -/
def signed (key : List UInt8) (msg : String) : Option (List UInt8) :=
  if key = bearerSecret ∧ msg = inviteInput then hexDecode inviteMac
  else if key = bearerSecret ∧ msg = bearerInput then hexDecode bearerMac
  else if key = recipientSecret ∧ msg = recipientInput then hexDecode recipientMac
  else none

def symbolic : Portal :=
  { portal with hmacSha256 := fun key msg => (signed key msg).getD (List.replicate 33 0 ++ bytes msg) }

theorem signed_cases {key : List UInt8} {msg : String} {mac : List UInt8} (h : signed key msg = some mac) :
    (msg = inviteInput ∧ hexDecode inviteMac = some mac) ∨
    (msg = bearerInput ∧ hexDecode bearerMac = some mac) ∨
      msg = recipientInput ∧ hexDecode recipientMac = some mac := by
  unfold signed at h
  split at h
  next hm => exact .inl ⟨hm.2, h⟩
  split at h
  next hm => exact .inr (.inl ⟨hm.2, h⟩)
  split at h
  next hm => exact .inr (.inr ⟨hm.2, h⟩)
  · cases h

theorem macs_decode :
      (hexDecode inviteMac ≠ hexDecode bearerMac ∧ hexDecode inviteMac ≠ hexDecode recipientMac ∧
      hexDecode bearerMac ≠ hexDecode recipientMac) ∧
    (hexDecode inviteMac).map List.length = some 32 ∧ (hexDecode bearerMac).map List.length = some 32 ∧
      (hexDecode recipientMac).map List.length = some 32 := by decide +kernel

theorem signed_injective {key key' : List UInt8} {msg msg' : String} {mac : List UInt8}
    (h : signed key msg = some mac)
    (h' : signed key' msg' = some mac) : msg = msg' := by
  obtain ⟨⟨hib, hir, hbr⟩, -⟩ := macs_decode
  rcases signed_cases h with ⟨rfl, hm⟩ | ⟨rfl, hm⟩ | ⟨rfl, hm⟩ <;>
    rcases signed_cases h' with ⟨rfl, hm'⟩ | ⟨rfl, hm'⟩ | ⟨rfl, hm'⟩ <;> simp_all

theorem signed_length {key : List UInt8} {msg : String} {mac : List UInt8} (h : signed key msg = some mac) :
    mac.length = 32 := by
  have sized : ∀ {text : String}, (hexDecode text).map List.length = some 32 →
    hexDecode text = some mac → mac.length = 32 := by
    intro text htext hmac
    rw [hmac] at htext
    exact Option.some.inj htext
  obtain ⟨-, hinvite, hbearer, hrecipient⟩ := macs_decode
  rcases signed_cases h with ⟨-, hm⟩ | ⟨-, hm⟩ | ⟨-, hm⟩
  · exact sized hinvite hm
  · exact sized hbearer hm
  · exact sized hrecipient hm

theorem symbolic_injective (key key' : List UInt8) (msg msg' : String)
    (h : symbolic.hmacSha256 key msg = symbolic.hmacSha256 key' msg') : msg = msg' := by
  have longer : ∀ {k : List UInt8} {m n : String} {mac : List UInt8}, signed k m = some mac →
      mac ≠ List.replicate 33 0 ++ bytes n := by
    intro k m n mac hs he
    have hlen := signed_length hs
    rw [he, List.length_append, List.length_replicate] at hlen
    omega
  have h : (signed key msg).getD (List.replicate 33 0 ++ bytes msg) =
    (signed key' msg').getD (List.replicate 33 0 ++ bytes msg') := h
  cases hs : signed key msg with
  | none =>
    cases hs' : signed key' msg' with
    | none =>
      rw [hs, hs'] at h
      exact bytes_injective (List.append_cancel_left h)
    | some mac =>
      rw [hs, hs'] at h
      exact absurd h.symm (longer hs')
  | some mac =>
    cases hs' : signed key' msg' with
    | none =>
      rw [hs, hs'] at h
      exact absurd h (longer hs)
    | some mac' =>
      rw [hs, hs'] at h
      cases (show mac = mac' from h)
      exact signed_injective hs hs'

def bearerGrant : Grant := .bearer (uuid 3) nonce (uuid 2) 1700086400

def inviteGrant : Grant := .invite (uuid 1) nonce email 1701209600

theorem bearer_minted : bearerGrant.MintedAs symbolic bearerLink := ⟨seconds 1700086400, by decide +kernel⟩

theorem invite_minted : inviteGrant.MintedAs symbolic inviteLink := by
  show symbolic.inviteLink _ _ _ _ = _
  decide +kernel

end Probe

theorem families_apart_probe :
    Probe.symbolic.verifyInviteMac (Probe.uuid 1) Probe.nonce Probe.email 1701209600
      (macArm Probe.inviteLink) = true ∧
    Probe.symbolic.verifyInviteMac (Probe.uuid 1) Probe.nonce Probe.email 1701209600
      (macArm Probe.bearerLink) = false ∧
    Probe.symbolic.verifyInviteMac (Probe.uuid 4) Probe.nonce Probe.email 1701209600
      (macArm Probe.inviteLink) = false ∧
    Probe.symbolic.verifyRecipientCredential Probe.recipientLink 1700000000 = true ∧
    Probe.symbolic.verifyRecipientCredential Probe.inviteLink 1700000000 = false := by
  have hb := (families_apart Probe.symbolic Probe.symbolic_injective).2 Probe.bearerGrant
    Probe.bearerLink (by decide)
    Probe.bearer_minted
  have hi := (families_apart Probe.symbolic Probe.symbolic_injective).2 Probe.inviteGrant
    Probe.inviteLink (by decide)
    Probe.invite_minted
  refine ⟨?_, Bool.eq_false_iff.mpr fun h => ?_, Bool.eq_false_iff.mpr fun h => ?_, by decide +kernel,
    Bool.eq_false_iff.mpr fun h => ?_⟩
  · rw [(parseCapability_macArm Probe.parse_inviteLink).1]
    decide +kernel
  · cases hb.2.1 _ _ _ _ (by decide) (by decide) h
  · have hid := (Grant.invite.inj (hi.2.1 _ _ _ _ (by decide) (by decide) h)).1
    exact absurd hid (by decide)
  · obtain ⟨c, -, hc⟩ := hi.2.2 _ _ rfl h
    cases hc

end BackbonePortal
