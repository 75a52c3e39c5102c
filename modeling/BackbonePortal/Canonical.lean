import BackbonePortal.RoundTrips
import BackbonePortal.Spellings

/-!
# One credential, several strings

The strings the two parsers accept for one credential: those that spell the
identifier, the expiry and the MAC of the link that is rendered for it.
-/

namespace BackbonePortal

open Proc

/-! ## No delimiter in a spelling -/

theorem dot_notMem_of_lower {s t : String} (h : asciiLower s = t) (ht : '.' ∉ t.toList) : '.' ∉ s.toList := by
  intro hmem
  rw [← h, asciiLower, String.toList_ofList] at ht
  exact ht (List.mem_map.mpr ⟨'.', hmem, by decide⟩)

theorem Uuid.Spells.dot_notMem {u : Uuid} {s : String} (h : u.Spells s) : '.' ∉ s.toList := by
  have hdisplay := dot_notMem_display u
  rcases h with h | h | h | ⟨t, rfl, h⟩
  · apply dot_notMem_of_lower h
    intro hmem
    rw [Uuid.simple, String.toList_ofList] at hmem
    obtain ⟨d, hd, he⟩ := mem_hexDigits hmem
    exact digitOf_ne_dot hd he.symm
  · exact dot_notMem_of_lower h hdisplay
  · apply dot_notMem_of_lower h
    rw [String.toList_append, String.toList_append]
    simp [hdisplay]
  · have ht := dot_notMem_of_lower h hdisplay
    rw [String.toList_append]
    simp [ht]

theorem IntSpells.dot_notMem {n : Int} {s : String} (h : IntSpells n s) : '.' ∉ s.toList := by
  obtain ⟨sign, k, rfl, hsign⟩ := h
  have hnumber : '.' ∉ Nat.toDigits 10 n.natAbs := fun hmem => absurd (mem_toDigits hmem).1 (by decide)
  have hmark : '.' ∉ sign.toList := by
    rcases hsign with ⟨-, rfl | rfl⟩ | ⟨-, rfl⟩ <;> decide
  rw [String.toList_append, String.toList_append]
  simp [hmark, hnumber, zeros]

/-! ## Capability links -/

/-- The string has the arms of the link, the identifier and the expiry in any spelling. -/
def ParsedCapability.Spelled (parts : ParsedCapability) (s : String) : Prop :=
  ∃ idArm expArm, s = idArm ++ "." ++ parts.nonce ++ "." ++ expArm ++ "." ++ parts.mac ∧ parts.id.Spells idArm ∧
    IntSpells parts.exp expArm

/-- The fields have the range of their types and the form the parser asks for. -/
structure ParsedCapability.Formed (parts : ParsedCapability) : Prop where
  exp_ge : -(2 ^ 63) ≤ parts.exp
  exp_lt : parts.exp < 2 ^ 63
  nonce_ne : parts.nonce ≠ ""
  nonce_hex : allHex parts.nonce = true
  mac_length : byteLen parts.mac = 64
  mac_hex : allHex parts.mac = true

theorem parseCapability_iff {s : String} {parts : ParsedCapability} :
    parseCapability s = some parts ↔ parts.Spelled s ∧ parts.Formed := by
  constructor
  · intro h
    unfold parseCapability at h
    split at h
    next idArm nonce expArm mac hsplit =>
      obtain ⟨id, hid, h⟩ := Option.bind_eq_some_iff.mp h
      split at h
      · cases h
      next hnonce =>
        obtain ⟨exp, hexp, h⟩ := Option.bind_eq_some_iff.mp h
        split at h
        · cases h
        next hmac =>
          cases h
          simp only [not_or, not_not, Bool.not_eq_false] at hnonce hmac
          obtain ⟨hspells, hlo, hhi⟩ := parseI64_iff.mp hexp
          have hs := intercalate_splitAt s
          rw [hsplit] at hs
          refine ⟨⟨idArm, expArm, ?_, Uuid.parse_iff.mp hid, hspells⟩,
            ⟨hlo, hhi, hnonce.1, hnonce.2, hmac.1, hmac.2⟩⟩
          rw [← hs]
          simp [String.append_assoc]
    next => cases h
  · intro h
    obtain ⟨⟨idArm, expArm, rfl, hid, hexp⟩, hformed⟩ := h
    have hsplit := splitAt_dots hid.dot_notMem (dot_notMem_of_allHex hformed.nonce_hex) hexp.dot_notMem
      (dot_notMem_of_allHex hformed.mac_hex)
    unfold parseCapability
    rw [hsplit]
    simp only [Uuid.parse_iff.mpr hid, parseI64_iff.mpr ⟨hexp, hformed.exp_ge, hformed.exp_lt⟩,
      hformed.nonce_ne, hformed.nonce_hex, hformed.mac_length, hformed.mac_hex, Option.bind_eq_bind,
      Option.bind_some, ne_eq, not_true_eq_false, Bool.true_eq_false, or_self, if_false]

/-! ## Recipient credentials -/

def RecipientCredential.Spelled (c : RecipientCredential) (value : String) : Prop :=
  ∃ idArm expArm, value = idArm ++ "." ++ c.email ++ "." ++ expArm ++ "." ++ c.mac ∧ c.userId.Spells idArm ∧
    IntSpells c.exp expArm

structure RecipientCredential.Formed (c : RecipientCredential) : Prop where
  exp_ge : -(2 ^ 63) ≤ c.exp
  exp_lt : c.exp < 2 ^ 63
  mac_length : byteLen c.mac = 64
  mac_arm : '.' ∉ c.mac.toList

theorem parseRecipient_iff {value : String} {c : RecipientCredential} (hemail : c.email ≠ "") :
    parseRecipient value = some c ↔ c.Spelled value ∧ c.Formed := by
  constructor
  · intro h
    unfold parseRecipient at h
    split at h
    · cases h
    next idArm arms hsplit =>
      obtain ⟨user, hid, h⟩ := Option.bind_eq_some_iff.mp h
      dsimp only at h
      split at h
      · cases h
      next hlen =>
        obtain ⟨exp, hexp, h⟩ := Option.bind_eq_some_iff.mp h
        cases h
        rw [not_not] at hlen
        have hvalue := intercalate_splitAt value
        rw [hsplit] at hvalue
        -- a MAC of 64 bytes and an expiry that is read are the last two arms
        rcases List.eq_nil_or_concat' arms with rfl | ⟨init, mac, rfl⟩
        · exact absurd hlen (by decide)
        rw [List.dropLast_concat] at hexp hemail ⊢
        rw [List.getLastD_concat] at hlen ⊢
        rcases List.eq_nil_or_concat' init with rfl | ⟨emailArms, expArm, rfl⟩
        · rw [show parseI64 (([] : List String).getLastD "") = none by decide] at hexp
          cases hexp
        rw [List.dropLast_concat] at hemail ⊢
        rw [List.getLastD_concat] at hexp
        have hne : emailArms ≠ [] := by
          rintro rfl
          exact hemail (String.intercalate_nil (s := "."))
        obtain ⟨hspells, hlo, hhi⟩ := parseI64_iff.mp hexp
        refine ⟨⟨idArm, expArm, ?_, Uuid.parse_iff.mp hid, hspells⟩, ⟨hlo, hhi, hlen, ?_⟩⟩
        · rw [← hvalue, String.intercalate_cons_of_ne_nil (by simp),
            String.intercalate_append_of_ne_nil (by simp) (by simp),
            String.intercalate_append_of_ne_nil hne (by simp), String.intercalate_singleton,
              String.intercalate_singleton]
          simp only [String.append_assoc]
        · have hmem : mac ∈ splitAt '.' value := by
            rw [hsplit]
            simp
          obtain ⟨cs, hcs, rfl⟩ := List.mem_map.mp hmem
          rw [String.toList_ofList]
          exact Fields.notMem_of_mem_splitOn hcs
  · intro h
    obtain ⟨⟨idArm, expArm, rfl, hid, hexp⟩, hformed⟩ := h
    have hsplit : splitAt '.' (idArm ++ "." ++ c.email ++ "." ++ expArm ++ "." ++ c.mac) =
        idArm :: (splitAt '.' c.email ++ [expArm] ++ [c.mac]) := by
      rw [splitAt_concat, splitAt_concat, splitAt_concat, splitAt_single hid.dot_notMem,
        splitAt_single hexp.dot_notMem, splitAt_single hformed.mac_arm]
      rfl
    unfold parseRecipient
    rw [hsplit]
    simp only [Uuid.parse_iff.mpr hid, Option.bind_eq_bind, Option.bind_some, List.getLastD_concat,
      List.dropLast_concat, hformed.mac_length, parseI64_iff.mpr ⟨hexp, hformed.exp_ge, hformed.exp_lt⟩,
      intercalate_splitAt, ne_eq, not_true_eq_false, if_false, Option.pure_def]

theorem parseRecipient_range {value : String} {c : RecipientCredential} (h : parseRecipient value = some c) :
    -(2 ^ 63) ≤ c.exp ∧ c.exp < 2 ^ 63 := by
  unfold parseRecipient at h
  split at h
  · cases h
  next idArm arms hsplit =>
    obtain ⟨user, hid, h⟩ := Option.bind_eq_some_iff.mp h
    dsimp only at h
    split at h
    · cases h
    next hlen =>
      obtain ⟨exp, hexp, h⟩ := Option.bind_eq_some_iff.mp h
      cases h
      exact (parseI64_iff.mp hexp).2

theorem byteLen_of_lower {s t : String} (h : asciiLower s = t) : byteLen s = byteLen t := by
  unfold byteLen
  rw [← asciiLower_eq_iff.mp h, List.length_map]

def withoutEmail (user : Uuid) (exp : Int) (mac : String) : String :=
  user.display ++ "." ++ toString exp ++ "." ++ mac

theorem parseRecipient_withoutEmail (user : Uuid) {exp : Int} (hlo : -(2 ^ 63) ≤ exp) (hhi : exp < 2 ^ 63)
    {mac : List UInt8} (hmac : mac.length = 32) :
    parseRecipient (withoutEmail user exp (hexOf mac)) = some ⟨user, "", exp, hexOf mac⟩ := by
  have hsplit : splitAt '.' (withoutEmail user exp (hexOf mac)) =
    user.display :: ([toString exp] ++ [hexOf mac]) := by
    unfold withoutEmail
    rw [splitAt_concat, splitAt_concat, splitAt_single (dot_notMem_display user),
      splitAt_single (dot_notMem_toString exp), splitAt_single (dot_notMem_hexOf mac)]
    rfl
  have hlen : ¬byteLen (hexOf mac) ≠ 64 := by rw [hexOf_length, hmac]; decide
  have hone : ([toString exp] : List String) = [] ++ [toString exp] := rfl
  unfold parseRecipient
  rw [hsplit, hone]
  simp only [Uuid.parse_display, Option.bind_eq_bind, Option.bind_some, List.getLastD_concat,
    List.dropLast_concat, if_neg hlen, parseI64_toString hlo hhi, String.intercalate_nil, Option.pure_def]

theorem withoutEmail_collides {P : Portal} (hmac : ∀ key msg, (P.hmacSha256 key msg).length = 32) {user : Uuid}
    {email : String} {exp now : Int} (hlo : -(2 ^ 63) ≤ exp) (hhi : exp < 2 ^ 63)
    (h : P.verifyRecipientCredential
      (withoutEmail user exp (P.computeMac P.recipientSecret (recipientMacInput user email exp))) now = true) :
    P.hmacSha256 P.recipientSecret (recipientMacInput user "" exp) =
      P.hmacSha256 P.recipientSecret (recipientMacInput user email exp) := by
  obtain ⟨-, c, hc, -, hd⟩ := verifyRecipientCredential_iff.mp h
  cases (parseRecipient_withoutEmail user hlo hhi (hmac _ _)).symm.trans hc
  rw [hexDecode_hexOf] at hd
  exact (Option.some.inj hd).symm

namespace Probe

def bearerMacUpper : String := "97FF5F8A4B7569D92FB54ADD6EE08882A356B8F4B3C51ECC4E08097D19C10A73"

def respelledBearer : String :=
  "33333333333333333333333333333333." ++ nonce ++ ".+1700086400." ++ bearerMacUpper

def respelledRecipient : String :=
  "22222222222222222222222222222222.first@example.com.1715552000." ++ recipientMac

def recipientParts : RecipientCredential := ⟨uuid 2, email, 1715552000, recipientMac⟩

theorem respelled_parsed : parseRecipient respelledRecipient = some recipientParts := by decide +kernel

theorem respelled_accepted : sized.verifyRecipientCredential respelledRecipient 1700000000 = true := by
  have hmac : hexDecode recipientMac =
    some (sized.hmacSha256 recipientSecret (recipientMacInput (uuid 2) email 1715552000)) := by
    decide +kernel
  exact verifyRecipientCredential_iff.mpr ⟨by decide, recipientParts, respelled_parsed, by decide, hmac⟩

end Probe

theorem rendered_hyphen (user : Uuid) (rest : String) : (user.display ++ rest).toList[8]? = some '-' := by
  have hlen := hexDigits_length 32 user.bits.toNat
  rw [String.toList_append, Uuid.display_toList]
  simp [hlen]

end BackbonePortal
