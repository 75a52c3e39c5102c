import BackbonePortal.History

/-!
# The folded audit row

What `record_audit` leaves of its three ids and of the caller's detail: all of it.
-/

namespace BackbonePortal

theorem Json.filter_insert {k : String} {p : String → Bool} (hp : p k = false) (v : Json)
    (fs : List (String × Json)) :
    (Json.insert k v fs).filter (fun f => p f.1) = fs.filter (fun f => p f.1) := by
  induction fs with
  | nil => simp [insert, hp]
  | cons f fs ih =>
    obtain ⟨k', v'⟩ := f
    unfold insert
    split
    next hk =>
      subst hk
      simp [hp]
    split
    · simp [hp]
    · rw [List.filter_cons, ih, List.filter_cons]

def reserved : List String := ["portal_user_id", "invite_id", "token_id"]

/-- The detail's object form has none of the reserved keys. -/
def Json.Unreserved (detail : Json) : Prop := ∀ f ∈ detail.fields, f.1 ∉ reserved

instance (detail : Json) : Decidable detail.Unreserved := inferInstanceAs (Decidable (∀ f ∈ detail.fields, _))

def AuditEvent.fields (event : AuditEvent) : List (String × Json) := (event.changed.map Json.fields).getD []

/-- An id of the recording call, from the row: its subject, or a folded field. -/
def AuditEvent.idUnder (event : AuditEvent) (type key : String) : Option String :=
  if event.subjectType = some type then event.subjectId else event.text key

def foldId (subject : Option String) (key type : String) (id : Option Uuid) (fields : List (String × Json)) :
    List (String × Json) :=
  match id with
  | some v => if subject = some type then fields else Json.insert key (.str v.display) fields
  | none => fields

theorem foldId_filter {key : String} (hkey : key ∈ reserved) (subject : Option String)
    (type : String) (id : Option Uuid)
    (fields : List (String × Json)) :
    (foldId subject key type id fields).filter (fun f => f.1 ∉ reserved) =
    fields.filter (fun f => f.1 ∉ reserved) := by
  cases id with
  | none => rfl
  | some v =>
    unfold foldId
    dsimp only
    split
    · rfl
    · exact Json.filter_insert (p := fun j => j ∉ reserved) (by simpa using hkey) _ _

theorem foldId_other {key key' : String} (hkey : key ≠ key') (subject : Option String)
    (type : String) (id : Option Uuid)
    (fields : List (String × Json)) :
    Json.text (foldId subject key type id fields) key' = Json.text fields key' := by
  cases id with
  | none => rfl
  | some v =>
    unfold foldId
    dsimp only
    split
    · rfl
    · exact Json.text_insert_other hkey

theorem foldId_self {subject : Option String} {key type : String} {fields : List (String × Json)}
    (hsubject : subject ≠ some type) (hnone : Json.text fields key = none) (id : Option Uuid) :
    Json.text (foldId subject key type id fields) key = id.map Uuid.display := by
  cases id with
  | none => exact hnone
  | some v =>
    unfold foldId
    dsimp only
    rw [if_neg hsubject, Json.text_insert_self]
    rfl

section
variable (action : String) (actor : Option String) (user invite token : Option Uuid) {detail : Json}

theorem recordAudit_fields (detail : Json) :
    (recordAudit action actor user invite token detail).fields =
      foldId (recordAudit action actor user invite token detail).subjectType "token_id"
        "portal.portal_tokens" token
        (foldId (recordAudit action actor user invite token detail).subjectType
          "invite_id" "portal.portal_invitations" invite
          (foldId (recordAudit action actor user invite token detail).subjectType
            "portal_user_id" "portal.portal_users" user
            detail.fields)) := by
  cases detail <;> rfl

theorem recordAudit_filter (detail : Json) :
    (recordAudit action actor user invite token detail).fields.filter (fun f => f.1 ∉ reserved) =
      detail.fields.filter (fun f => f.1 ∉ reserved) := by
  rw [recordAudit_fields, foldId_filter (by decide), foldId_filter (by decide), foldId_filter (by decide)]

theorem Json.Unreserved.filter (h : detail.Unreserved) :
    detail.fields.filter (fun f => f.1 ∉ reserved) = detail.fields :=
  List.filter_eq_self.mpr fun f hf => decide_eq_true (h f hf)

theorem Json.Unreserved.text (h : detail.Unreserved) {key : String} (hkey : key ∈ reserved) :
    Json.text detail.fields key = none :=
  Json.text_lacks fun f hf he => h f hf (he ▸ hkey)

theorem recordAudit_text (detail : Json) (key : String) :
    (recordAudit action actor user invite token detail).text key =
      Json.text (recordAudit action actor user invite token detail).fields key := by
  cases detail <;> rfl

theorem recordAudit_ids (h : detail.Unreserved) :
    (recordAudit action actor user invite token detail).idUnder "portal.portal_users" "portal_user_id" =
      user.map Uuid.display ∧
    (recordAudit action actor user invite token detail).idUnder "portal.portal_invitations" "invite_id" =
      invite.map Uuid.display ∧
    (recordAudit action actor user invite token detail).idUnder "portal.portal_tokens" "token_id" =
      token.map Uuid.display := by
  have hu : Json.text detail.fields "portal_user_id" = none := h.text (by decide)
  have hi : Json.text detail.fields "invite_id" = none := h.text (by decide)
  have ht : Json.text detail.fields "token_id" = none := h.text (by decide)
  unfold AuditEvent.idUnder
  simp only [recordAudit_text, recordAudit_fields]
  refine ⟨?_, ?_, ?_⟩
  · split
    next hs => cases token <;> cases invite <;> cases user <;> simp [recordAudit] at hs ⊢
    next hs => rw [foldId_other (by decide), foldId_other (by decide), foldId_self hs hu]
  · split
    next hs => cases token <;> cases invite <;> cases user <;> simp [recordAudit] at hs ⊢
    next hs =>
      rw [foldId_other (by decide), foldId_self hs]
      rw [foldId_other (by decide), hi]
  · split
    next hs => cases token <;> cases invite <;> cases user <;> simp [recordAudit] at hs ⊢
    next hs =>
      rw [foldId_self hs]
      rw [foldId_other (by decide), foldId_other (by decide), ht]

end

theorem map_display_injective {a b : Option Uuid} (h : a.map Uuid.display = b.map Uuid.display) : a = b := by
  cases a <;> cases b
  · rfl
  · cases h
  · cases h
  · rw [Uuid.display_inj (Option.some.inj h)]

/-- **Folding loses nothing**: every entry of the detail is in the row, and rows of
one subject and diff come from the same three ids and the same detail. -/
theorem audit_folding_lossless {action action' : String} {actor actor' : Option String}
    {user user' invite invite' token token' : Option Uuid} {detail detail' : Json} (h : detail.Unreserved)
    (h' : detail'.Unreserved) :
    (∃ fields, (recordAudit action actor user invite token detail).changed = some (.obj fields) ∧
      ∀ f ∈ detail.fields, f ∈ fields) ∧
    ((recordAudit action actor user invite token detail).subjectType =
        (recordAudit action' actor' user' invite' token' detail').subjectType →
      (recordAudit action actor user invite token detail).subjectId =
        (recordAudit action' actor' user' invite' token' detail').subjectId →
      (recordAudit action actor user invite token detail).changed =
        (recordAudit action' actor' user' invite' token' detail').changed →
      user = user' ∧ invite = invite' ∧ token = token' ∧ detail.fields = detail'.fields ∧
        ∀ fields fields', detail = .obj fields → detail' = .obj fields' → detail = detail') := by
  refine ⟨⟨_, rfl, fun f hf => ?_⟩, fun htype hid hchanged => ?_⟩
  · have hkept := (recordAudit_filter action actor user invite token detail).trans h.filter
    rw [← hkept] at hf
    exact (List.mem_filter.mp hf).1
  · obtain ⟨hu, hi, ht⟩ := recordAudit_ids action actor user invite token h
    obtain ⟨hu', hi', ht'⟩ := recordAudit_ids action' actor' user' invite' token' h'
    have hsame : ∀ type key, (recordAudit action actor user invite token detail).idUnder type key =
        (recordAudit action' actor' user' invite' token' detail').idUnder type key := by
      intro type key
      unfold AuditEvent.idUnder AuditEvent.text
      rw [htype, hid, hchanged]
    have hfields : detail.fields = detail'.fields := by
      rw [← h.filter, ← h'.filter, ← recordAudit_filter action actor user invite token,
        ← recordAudit_filter action' actor' user' invite' token']
      unfold AuditEvent.fields
      rw [hchanged]
    rw [hsame, hu'] at hu
    rw [hsame, hi'] at hi
    rw [hsame, ht'] at ht
    refine ⟨(map_display_injective hu).symm, (map_display_injective hi).symm,
      (map_display_injective ht).symm, hfields, ?_⟩
    intro fields fields' hd hd'
    rw [hd, hd'] at hfields ⊢
    exact congrArg Json.obj hfields

namespace Probe

def departure : Json := .object [("reason", .str "left")]

end Probe

theorem audit_folding_lossless_probe :
    (recordAudit "bearer_revoked" (some "officer") (some (Probe.uuid 2)) none
      (some (Probe.uuid 3)) Probe.departure).changed ≠
      (recordAudit "bearer_revoked" (some "officer") (some (Probe.uuid 4)) none
        (some (Probe.uuid 3)) Probe.departure).changed := by
  have hfree : Probe.departure.Unreserved := by decide
  intro h
  refine absurd ((audit_folding_lossless hfree hfree).2 ?_ ?_ h).1 (by decide)
  · rfl
  · rfl

end BackbonePortal
