import BackbonePortal.Families
import BackbonePortal.Lifetime

/-!
# Credentials that read back

The links of the two capability families and the recipient credential: each is
parsed into the fields it was made of, and its MAC verifies.
-/

namespace BackbonePortal

open Proc

/-! ## Capability links -/

theorem parseCapability_arms {s : String} (h : (splitAt '.' s).length ≠ 4) : parseCapability s = none := by
  unfold parseCapability
  split
  next id nonce exp mac hsplit =>
    rw [hsplit] at h
    exact absurd rfl h
  next => rfl

theorem verifyMac_computed (P : Portal) (key : List UInt8) (input : String) :
    P.verifyMac key input (P.computeMac key input) = true := by
  unfold Portal.verifyMac Portal.computeMac
  rw [hexDecode_hexOf]
  exact decide_eq_true rfl

/-- **Capability round trip.** The links of both families parse into their fields
and a MAC that verifies; a string without four arms is rejected. -/
theorem capability_round_trip (P : Portal) (hmac : ∀ key msg, (P.hmacSha256 key msg).length = 32)
    (hs : P.bearerSecret ≠ []) :
    (∀ (id user : Uuid) (nonce : String) (expires : Instant), nonce ≠ "" → allHex nonce = true →
      -(2 ^ 63) ≤ expires.timestamp → expires.timestamp < 2 ^ 63 →
      ∃ link mac, P.bearerLink id user nonce expires = .ok link ∧
        parseCapability link = some ⟨id, nonce, expires.timestamp, mac⟩ ∧
        P.verifyMac P.bearerSecret
          (capabilityMacInput domainBearer id nonce (Portal.bearerGrant user) expires.timestamp) mac = true) ∧
    (∀ (id : Uuid) (nonce email : String) (exp : Int), nonce ≠ "" → allHex nonce = true →
      -(2 ^ 63) ≤ exp → exp < 2 ^ 63 →
      ∃ link mac, P.inviteLink id nonce email exp = .ok link ∧
        parseCapability link = some ⟨id, nonce, exp, mac⟩ ∧
        P.verifyMac P.bearerSecret
          (capabilityMacInput domainInvite id nonce (Portal.inviteGrant email) exp) mac = true) ∧
    ∀ s, (splitAt '.' s).length ≠ 4 → parseCapability s = none := by
  refine ⟨?_, ?_, fun s => parseCapability_arms⟩
  · intro id user nonce expires hne hhex hlo hhi
    unfold Portal.bearerLink
    rw [secret_eq hs]
    exact ⟨_, _, rfl, parseCapability_rendered id hne hhex hlo hhi (byteLen_hexOf (hmac _ _))
      (allHex_hexOf _), verifyMac_computed P _ _⟩
  · intro id nonce email exp hne hhex hlo hhi
    unfold Portal.inviteLink
    rw [secret_eq hs]
    exact ⟨_, _, rfl, parseCapability_rendered id hne hhex hlo hhi (byteLen_hexOf (hmac _ _))
      (allHex_hexOf _), verifyMac_computed P _ _⟩

/-! ## The recipient credential -/

theorem splitAt_concat (s t : String) : splitAt '.' (s ++ "." ++ t) = splitAt '.' s ++ splitAt '.' t := by
  have hlist : (s ++ "." ++ t).toList = s.toList ++ '.' :: t.toList := by simp [String.toList_append]
  rw [splitAt, hlist, List.splitOn_append_cons_self, List.map_append]
  rfl

theorem splitAt_single {s : String} (h : '.' ∉ s.toList) : splitAt '.' s = [s] := by
  rw [splitAt, List.splitOn_eq_singleton h, List.map_singleton, String.ofList_toList]

theorem intercalate_splitAt (s : String) : ".".intercalate (splitAt '.' s) = s := by
  rw [← String.toList_inj, String.toList_intercalate, splitAt, List.map_map]
  have hid : (String.toList ∘ String.ofList) = id := funext fun cs => String.toList_ofList
  rw [hid, List.map_id]
  exact List.intercalate_splitOn '.'

theorem parseRecipient_rendered (user : Uuid) (email : String) {exp : Int}
    (hlo : -(2 ^ 63) ≤ exp) (hhi : exp < 2 ^ 63)
    {mac : List UInt8} (hmac : mac.length = 32) :
    parseRecipient (user.display ++ "." ++ email ++ "." ++ toString exp ++ "." ++ hexOf mac) =
      some ⟨user, email, exp, hexOf mac⟩ := by
  have hsplit : splitAt '.' (user.display ++ "." ++ email ++ "." ++ toString exp ++ "." ++ hexOf mac) =
      user.display :: (splitAt '.' email ++ [toString exp] ++ [hexOf mac]) := by
    rw [splitAt_concat, splitAt_concat, splitAt_concat, splitAt_single (dot_notMem_display user),
      splitAt_single (dot_notMem_toString exp), splitAt_single (dot_notMem_hexOf mac)]
    rfl
  have hlen : ¬byteLen (hexOf mac) ≠ 64 := by rw [hexOf_length, hmac]; decide
  unfold parseRecipient
  rw [hsplit]
  simp only [Uuid.parse_display, Option.bind_eq_bind, Option.bind_some, List.getLastD_concat,
    List.dropLast_concat, if_neg hlen, parseI64_toString hlo hhi, intercalate_splitAt, Option.pure_def]

def minUtc : Instant := seconds (-8334601228800)

theorem timestamp_ge {t : Instant} (h : minUtc ≤ t) : -(2 ^ 63) ≤ t.timestamp := by
  have hmin : ∀ u : Int, -8334601228800000000000 ≤ u → -(2 ^ 63) ≤ u / 1000000000 := by omega
  rw [Instant.timestamp, Int.fdiv_eq_ediv_of_nonneg _ (by decide)]
  exact hmin t h

theorem mintRecipientCredential_fits {P : Portal} {user : Uuid} {email link : String}
    {i : Nat → Env} {w : World}
    (h : ((P.mintRecipientCredential user email).run portalMachine i w).1 = .ok link) :
    P.recipientSecret ≠ [] ∧ (i 0).now + seconds (recipientHmacTtlDays * 86400) ≤ maxUtc := by
  unfold Portal.mintRecipientCredential Portal.recipientKey at h
  split at h
  · cases h
  next hs =>
    refine ⟨hs, ?_⟩
    rw [ofExcept_ok, Prog.bind_eq, Prog.bind_ret, Prog.bind_eq, run_utcNow] at h
    rcases lifetime_eq "days" 86400 recipientHmacTtlDays (i 0).now with ⟨hlast, -⟩ | ⟨-, m, hlife⟩
    · exact hlast.2
    · rw [show daysAfter = lifetime "days" 86400 from rfl, hlife] at h
      cases h

theorem verifyRecipientCredential_iff {P : Portal} {value : String} {now : Int} :
    P.verifyRecipientCredential value now = true ↔ P.recipientSecret ≠ [] ∧ ∃ c, parseRecipient value = some c ∧
      now ≤ c.exp ∧
      hexDecode c.mac = some (P.hmacSha256 P.recipientSecret (recipientMacInput c.userId c.email c.exp)) := by
  unfold Portal.verifyRecipientCredential Portal.recipientKey
  by_cases hs : P.recipientSecret = []
  · simp [hs]
  · cases hp : parseRecipient value with
    | none => simp [hs]
    | some c =>
      cases hd : hexDecode c.mac with
      | none => simp [hs, Portal.verifyMac, hd]
      | some bs => simp [hs, Portal.verifyMac, hd, and_comm]

/-- **Recipient round trip.** A minted link is accepted until its expiry and not
after; whatever is accepted is unexpired and has a MAC over what was parsed. -/
theorem recipient_round_trip (P : Portal) (hmac : ∀ key msg, (P.hmacSha256 key msg).length = 32) :
    (∀ (user : Uuid) (email link : String) (i : Nat → Env) (w : World), minUtc ≤ (i 0).now →
      ((P.mintRecipientCredential user email).run portalMachine i w).1 = .ok link →
      ∀ now, P.verifyRecipientCredential link now = true ↔
        now ≤ ((i 0).now + seconds (180 * 86400)).timestamp) ∧
    ∀ value now, P.verifyRecipientCredential value now = true → ∃ c, parseRecipient value = some c ∧
      now ≤ c.exp ∧
      P.verifyMac P.recipientSecret (recipientMacInput c.userId c.email c.exp) c.mac = true := by
  refine ⟨?_, ?_⟩
  · intro user email link i w hfirst hlink now
    obtain ⟨hs, hmax⟩ := mintRecipientCredential_fits hlink
    rw [mintRecipientCredential_run hlink, verifyRecipientCredential_iff]
    have hlater : minUtc ≤ (i 0).now + seconds (recipientHmacTtlDays * 86400) :=
      Int.le_trans hfirst (Int.le_add_of_nonneg_right (by decide))
    have hlo := timestamp_ge hlater
    have hhi := timestamp_lt hmax
    rw [show (180 : Int) = recipientHmacTtlDays from rfl]
    generalize ((i 0).now + seconds (recipientHmacTtlDays * 86400)).timestamp = exp at hlo hhi ⊢
    have hparse := parseRecipient_rendered user email hlo hhi
      (hmac ((Grant.recipient user email exp).key P) (Grant.recipient user email exp).macInput)
    constructor
    · intro h
      obtain ⟨-, c, hc, hnow, -⟩ := h
      cases hparse.symm.trans hc
      exact hnow
    · intro h
      exact ⟨hs, _, hparse, h, hexDecode_hexOf _⟩
  · intro value now h
    obtain ⟨-, c, hc, hnow, hd⟩ := verifyRecipientCredential_iff.mp h
    refine ⟨c, hc, hnow, ?_⟩
    unfold Portal.verifyMac
    rw [hd]
    exact decide_eq_true rfl

namespace Probe

def sized : Portal :=
  { portal with hmacSha256 := fun key msg => (signed key msg).getD (List.replicate 32 0) }

theorem sized_length (key : List UInt8) (msg : String) : (sized.hmacSha256 key msg).length = 32 := by
  show ((signed key msg).getD (List.replicate 32 0)).length = 32
  cases h : signed key msg with
  | none => rfl
  | some mac => exact signed_length h

end Probe

theorem capability_round_trip_probe :
    (∃ link mac,
      Probe.sized.bearerLink (Probe.uuid 3) (Probe.uuid 2) Probe.nonce (seconds 1700086400) = .ok link ∧
      parseCapability link = some ⟨Probe.uuid 3, Probe.nonce, 1700086400, mac⟩ ∧
      Probe.sized.verifyMac Probe.bearerSecret Probe.bearerInput mac = true) ∧
    (∃ link mac, Probe.sized.inviteLink (Probe.uuid 1) Probe.nonce Probe.email 1701209600 = .ok link ∧
      parseCapability link = some ⟨Probe.uuid 1, Probe.nonce, 1701209600, mac⟩ ∧
      Probe.sized.verifyMac Probe.bearerSecret Probe.inviteInput mac = true) ∧
    parseCapability "a.b.c" = none := by
  obtain ⟨hbearer, hinvite, harms⟩ := capability_round_trip Probe.sized Probe.sized_length (by decide)
  have hb := hbearer (Probe.uuid 3) (Probe.uuid 2) Probe.nonce (seconds 1700086400)
    (by decide) (by decide) (by decide)
    (by decide)
  have hi := hinvite (Probe.uuid 1) Probe.nonce Probe.email 1701209600 (by decide)
    (by decide) (by decide) (by decide)
  have hbi : capabilityMacInput domainBearer (Probe.uuid 3) Probe.nonce (Portal.bearerGrant (Probe.uuid 2))
      (Instant.timestamp (seconds 1700086400)) = Probe.bearerInput := by decide +kernel
  have hii : capabilityMacInput domainInvite (Probe.uuid 1) Probe.nonce
      (Portal.inviteGrant Probe.email) 1701209600 =
      Probe.inviteInput := by decide +kernel
  rw [hbi] at hb
  rw [hii] at hi
  exact ⟨hb, hi, harms _ (by decide)⟩

theorem recipient_round_trip_probe :
    Probe.sized.verifyRecipientCredential Probe.recipientLink 1715552000 = true ∧
    Probe.sized.verifyRecipientCredential Probe.recipientLink 1715552001 = false := by
  have h :=
    (recipient_round_trip Probe.sized Probe.sized_length).1 (Probe.uuid 2) Probe.email Probe.recipientLink
    (fun _ => Probe.env) (Probe.world Db.empty) (by decide) (by decide +kernel)
  exact ⟨(h _).mpr (by decide), Bool.eq_false_iff.mpr fun hlate => absurd ((h _).mp hlate) (by decide)⟩

end BackbonePortal
