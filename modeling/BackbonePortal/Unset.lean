import BackbonePortal.LinkOrder
import BackbonePortal.ThrottleGate
import BackbonePortal.Trail

/-!
# The unset secret

With an empty bearer secret every verb that mints or renders a link fails.
`mint_bearer`, `rotate_bearer`, `login` and `redeem` look the secret up before
they write; `mint_invite` and the creating arm of `signup` write first.
-/

namespace BackbonePortal

open Proc Tables

/-- The rows that record a minting, a creation or a redemption. -/
def AuditEvent.Issues (event : AuditEvent) : Prop :=
  ∃ ending ∈ ["_minted", "_created", "_redeemed"], ending.toList <:+ event.action.toList

/-- The principal without its login stamp and the stamp of the update trigger. -/
def PortalUser.unstamped (u : PortalUser) : PortalUser :=
  { u with lastLoginAt := none, metadata := { u.metadata with updatedAt := none } }

/-- Nothing was minted, created or redeemed, and no row says so. -/
structure Db.Untraced (db db' : Db) : Prop where
  invites : db'.invites = db.invites
  users : db'.users.rows.map (·.unstamped) = db.users.rows.map (·.unstamped)
  tokens : db'.tokens = db.tokens
  trail : db.Records (fun event => ¬event.Issues) db'

theorem Db.Untraced.refl (db : Db) : db.Untraced db := ⟨rfl, rfl, rfl, .refl _ _⟩

theorem Db.Untraced.trans {db₁ db₂ db₃ : Db} (h : db₁.Untraced db₂) (h' : db₂.Untraced db₃) :
    db₁.Untraced db₃ :=
  ⟨h'.invites.trans h.invites, h'.users.trans h.users, h'.tokens.trans h.tokens, h.trail.trans h'.trail⟩

def Act.Traceless : Act → Prop
  | .sql (.appendAudit event) => ¬event.Issues
  | .sql (.touchLastLogin _) => True
  | .sql q => q.writes = []
  | _ => True

theorem act_untraced {a : Act} (ha : a.Traceless) (i : Env) (w : World) : w.db.Untraced (a.exec i w).2.db := by
  cases a with
  | sql q =>
    show w.db.Untraced (q.answer i w.db).2
    cases hr : (q.answer i w.db).1 with
    | error e => rw [Stmt.answer_error hr]; exact .refl _
    | ok r =>
      have hexec := (Stmt.answer_ok hr).2
      have reads : q.writes = [] → w.db.Untraced (q.answer i w.db).2 := fun hq => by
        have hf := exec_framed q hexec
        rw [hq] at hf
        exact ⟨hf.invites List.not_mem_nil, by rw [hf.users List.not_mem_nil], hf.tokens List.not_mem_nil,
          .same (hf.trail List.not_mem_nil)⟩
      cases q with
      | appendAudit event =>
        rw [appendAudit_answer (Stmt.answer_ok hr).1]
        exact ⟨rfl, rfl, rfl, Db.appended_records ha _⟩
      | touchLastLogin id =>
        obtain ⟨users, hu, -, he⟩ := Db.updateUsers_ok hexec
        rw [he]
        refine ⟨rfl, ?_, rfl, .same rfl⟩
        rw [show ({ w.db with users } : Db).users.rows = _ from (Table.update_eq_ok hu).2, List.map_map]
        apply List.map_congr_left
        intro u _
        simp only [Function.comp_apply]
        split
        · rfl
        · rfl
      | _ => exact reads ha
  | _ => exact .refl _

theorem run_untraced {α : Type} {p : Verb α} (hp : p.All Act.Traceless) (i : Nat → Env) (w : World) :
    w.db.Untraced (p.run portalMachine i w).2.db :=
  Prog.run_keeps portalMachine (I := fun v => w.db.Untraced v.db)
    (fun _ ha i v hv => hv.trans (act_untraced ha i v)) hp i
    (.refl _)

/-! ## The verbs that look the secret up first -/

abbrev Unissued (action : String) : Prop :=
  ∀ ending ∈ ["_minted", "_created", "_redeemed"], ¬ending.toList <:+ action.toList

section
variable {P : Portal} {α : Type}

theorem audit_traceless {action actor : String} {user invite token : Option Uuid}
    {detail : Json} (h : Unissued action) :
    (audit action user invite token actor detail).All Act.Traceless :=
  all_query fun ⟨ending, hmem, hend⟩ => h ending hmem hend

theorem registerNow_traceless (key : String) : (registerNow key).All Act.Traceless :=
  ⟨trivial, fun _ => ⟨trivial, fun _ => trivial⟩⟩

theorem refuseLogin_traceless (user : Option Uuid) (idKey ipKey : String) (detail : Json) :
    (Portal.refuseLogin user idKey ipKey detail : Verb α).All Act.Traceless := by
  refine (registerNow_traceless idKey).bind fun _ => (registerNow_traceless ipKey).bind fun _ => ?_
  exact (audit_traceless (by decide)).bind fun _ => trivial

variable (hs : P.bearerSecret = [])
include hs

theorem secret_unset : P.secret = .error .bearerSecretNotConfigured := if_pos hs

theorem mintBearer_unset (user : Uuid) (ttl : Int) :
    P.mintBearer user ttl = refuse .bearerSecretNotConfigured := by
  simp only [Portal.mintBearer, secret_unset hs]
  rfl

theorem rotateBearer_unset (link : String) (ttl : Int) :
    P.rotateBearer link ttl = refuse .bearerSecretNotConfigured := by
  simp only [Portal.rotateBearer, Portal.verifyBearer, secret_unset hs]
  rfl

theorem inviteAgrees_unset (parts : ParsedCapability) (presenting : String) (row : InviteJoin) :
    P.inviteAgrees parts presenting row = false := by
  cases h : P.inviteAgrees parts presenting row with
  | false => rfl
  | true => exact absurd hs (inviteAgrees_pending h).2.2

theorem succeedLogin_traceless (user : Uuid) (idKey ipKey event : String) :
    (P.succeedLogin user idKey ipKey event).All Act.Traceless := by
  unfold Portal.succeedLogin
  rw [mintBearer_unset hs]
  exact ⟨trivial, fun _ => ⟨trivial, fun _ => ⟨trivial, fun _ => trivial⟩⟩⟩

theorem verifyAndMint_traceless (email presented ip event : String) :
    (P.verifyAndMint email presented ip event).All Act.Traceless := by
  refine ⟨trivial, fun now => ?_⟩
  refine (all_checkKey trivial).bind fun _ => (all_checkKey trivial).bind fun _ => ?_
  refine Prog.All.bind (all_query rfl) fun found => ?_
  split
  · exact refuseLogin_traceless _ _ _ _
  split
  · exact refuseLogin_traceless _ _ _ _
  apply Prog.All.bind (all_step trivial)
  intro verdict
  split
  · exact succeedLogin_traceless hs _ _ _ _
  · exact refuseLogin_traceless _ _ _ _
  · trivial
  · exact (audit_traceless (by decide)).bind fun _ => trivial

theorem login_traceless (email presented ip : String) : (P.login email presented ip).All Act.Traceless := by
  unfold Portal.login
  dsimp only
  split
  · trivial
  · exact verifyAndMint_traceless hs _ _ _ _

theorem redeem_traceless (link email : String) : (P.redeem link email).All Act.Traceless := by
  unfold Portal.redeem
  dsimp only
  split
  · trivial
  refine Prog.All.bind (all_query rfl) fun found => ?_
  split
  · trivial
  rw [inviteAgrees_unset hs]
  trivial

end

/-! ## How the calls end -/

section
variable {P : Portal}
variable (hs : P.bearerSecret = [])
include hs

theorem verifyAndMint_fails (email presented ip event : String) :
    (P.verifyAndMint email presented ip event).Ends Fails := by
  refine fails_bind _ fun _ => fails_bind _ fun _ => fails_bind _ fun _ => fails_bind _ fun found => ?_
  split
  · exact refuseLogin_fails _ _ _ _
  split
  · exact refuseLogin_fails _ _ _ _
  apply fails_bind _
  intro verdict
  split
  · unfold Portal.succeedLogin
    rw [mintBearer_unset hs]
    exact fails_bind _ fun _ => fails_bind _ fun _ => fails_bind _ fun _ => fails_refuse _
  · exact refuseLogin_fails _ _ _ _
  · exact fails_refuse _
  · exact fails_bind _ fun _ => fails_refuse _

theorem login_fails (email presented ip : String) : (P.login email presented ip).Ends Fails := by
  unfold Portal.login
  dsimp only
  split
  · exact fails_refuse _
  · exact verifyAndMint_fails hs _ _ _ _

theorem redeem_fails (link email : String) : (P.redeem link email).Ends Fails := by
  unfold Portal.redeem
  dsimp only
  split
  · exact fails_refuse _
  apply fails_bind _
  intro found
  split
  · exact fails_refuse _
  rw [inviteAgrees_unset hs]
  exact fails_refuse _

theorem mintInvite_fails (email : String) (grantedBy : Option Uuid) (ttl : Int) :
    (P.mintInvite email grantedBy ttl).Ends Fails := by
  unfold Portal.mintInvite
  dsimp only
  split
  · exact fails_refuse _
  refine fails_bind _ fun _ => fails_bind _ fun _ => fails_bind _ fun _ =>
    fails_bind _ fun _ => fails_bind _ fun _ =>
    fails_bind _ fun _ => ?_
  simp only [Portal.inviteLink, secret_unset hs]
  exact fails_refuse _

theorem createPrincipal_fails (email : String) : (P.createPrincipal email).Ends Fails := by
  refine fails_bind _ fun _ => fails_bind _ fun _ => fails_bind _ fun _ => fails_bind _ fun _ => ?_
  rw [mintBearer_unset hs]
  exact fails_refuse _

theorem signup_fails (email presented ip : String) : (P.signup email presented ip).Ends Fails := by
  unfold Portal.signup
  dsimp only
  split
  · exact fails_refuse _
  apply fails_bind _
  intro is_open
  cases is_open with
  | false => exact fails_bind _ fun _ => fails_refuse _
  | true =>
    apply fails_bind _
    intro found
    split
    · split
      · exact fails_refuse _
      · exact verifyAndMint_fails hs _ _ _ _
    · refine fails_bind _ fun _ => fails_bind _ fun _ => fails_bind _ fun verdict => ?_
      split
      · exact createPrincipal_fails hs _
      · exact fails_bind _ fun _ => fails_bind _ fun _ => fails_refuse _
      · exact fails_refuse _
      · exact fails_bind _ fun _ => fails_refuse _

end

/-! ## The verbs that write first -/

/-- `mint_invite` stores and audits its invitation: the address is one, the
expiry is an instant, the row breaks no constraint and no statement fails. -/
structure Portal.StoresInvite (P : Portal) (email : String) (grantedBy : Option Uuid)
    (ttl : Int) (i : Nat → Env)
    (db : Db) : Prop where
  addressed : '@' ∈ (P.normalizeEmail email).toList ∧ byteLen (P.normalizeEmail email) ≤ 320
  lasts : Lasts 86400 (if 1 ≤ ttl then ttl else defaultInviteTtlDays) (i 2).now
  fits : db.invites.conflict (.fresh (i 0).uuid (P.normalizeEmail email) (nonceOf (i 1).nonce)
    ((i 2).now + seconds ((if 1 ≤ ttl then ttl else defaultInviteTtlDays) * 86400))
    grantedBy (i 3).now.stored) = none
  written : (i 3).fault = none ∧ (i 4).fault = none

/-- `signup` creates and audits a principal: the policy is open, the address is
one and has no live principal, the book and the verifier let it pass, the row
breaks no constraint and no statement fails. -/
structure Portal.CreatesPrincipal (P : Portal) (email ip : String) (i : Nat → Env) (w : World) : Prop where
  addressed : P.normalizeEmail email ≠ "" ∧ '@' ∈ (P.normalizeEmail email).toList
  opened : (i 0).fault = none ∧ w.db.SignupOpen
  vacant : (i 1).fault = none ∧ w.db.principal (P.normalizeEmail email) = none
  unthrottled : w.book.check (P.identityKey (P.normalizeEmail email)) (i 2).now = .ok () ∧
    w.book.check (ipKey ip) (i 4).now = .ok ()
  verified : (i 6).verdict = some (.ok true)
  fits : w.db.users.conflict (.fresh (i 7).uuid (P.normalizeEmail email) (i 8).now.stored) = none
  written : (i 8).fault = none ∧ (i 9).fault = none

/-- Under `C` the verb has written when it reaches the secret, and otherwise a
verb that reaches it has not. -/
def Tells {α : Type} (C : Prop) (w : World) (out : Except Halt α × World) : Prop :=
  (C ∧ out.1 = .error (.err .bearerSecretNotConfigured) ∧ ¬w.db.Untraced out.2.db) ∨
    (¬C ∧ (out.1 = .error (.err .bearerSecretNotConfigured) → w.db.Untraced out.2.db))

section
variable {P : Portal} {α : Type} {C : Prop} {i : Nat → Env} {w w₀ : World}

theorem Tells.early {out : Except Halt α × World} (hC : ¬C)
    (h : out.1 ≠ .error (.err .bearerSecretNotConfigured)) :
    Tells C w₀ out := .inr ⟨hC, fun he => absurd he h⟩

theorem tells_query {q : Stmt} {f : q.Res → Verb α} (herr : ∀ e, (q.answer (i 0) w.db).1 = .error e → ¬C)
    (hok : ∀ r, (q.answer (i 0) w.db).1 = .ok r → Tells C w₀ ((f r).run portalMachine (from_ 1 i)
      { w with db := (q.answer (i 0) w.db).2, clock := (i 0).now })) :
    Tells C w₀ (((query q).bind f).run portalMachine i w) := by
  rcases run_query i w q f with ⟨e, he, hrun⟩ | ⟨r, hr, hrun⟩
  · rw [hrun]
    exact .early (herr e he) fun h => by cases h
  · rw [hrun]
    exact hok r hr

theorem tells_audit {event : AuditEvent} {f : Unit → Verb α} (hC : C → (i 0).fault = none)
    (hok : (i 0).fault = none → Tells C w₀ ((f ()).run portalMachine (from_ 1 i)
      { w with db := w.db.appended event (i 0).now.stored, clock := (i 0).now })) :
    Tells C w₀ (((query (.appendAudit event)).bind f).run portalMachine i w) := by
  refine tells_query (fun e he hc => ?_) fun r hr => ?_
  · rw [appendAudit_answer (hC hc)] at he
    cases he
  · have hf := (Stmt.answer_ok hr).1
    rw [appendAudit_answer hf]
    exact hok hf

theorem tells_checkNow {key : String} {f : Unit → Verb α} (hC : C → w.book.check key (i 0).now = .ok ())
    (hok : w.book.check key (i 0).now = .ok () → Tells C w₀ ((f ()).run portalMachine (from_ 2 i)
      { w with clock := (i 1).now })) : Tells C w₀ (((checkNow key).bind f).run portalMachine i w) := by
  unfold checkNow
  simp only [Prog.bind_eq, Prog.bind_assoc]
  rw [run_utcNow]
  rcases run_checkKey (from_ 1 i) { w with clock := (i 0).now } key (i 0).now f with ⟨e, he, hrun⟩ | ⟨hc, hrun⟩
  · obtain ⟨n, rfl⟩ := AttemptBook.check_error he
    rw [hrun]
    refine .early (fun h => ?_) fun h => by cases h
    cases he.symm.trans (hC h)
  · rw [hrun]
    exact hok hc

theorem tells_untraced {p : Verb α} (hC : ¬C) (hp : p.All Act.Traceless) (hw : w.db = w₀.db) :
    Tells C w₀ (p.run portalMachine i w) :=
  .inr ⟨hC, fun _ => hw ▸ run_untraced hp i w⟩

theorem insertInvite_succeeds {id : Uuid} {email nonce : String} {expires : Instant}
    {grantedBy : Option Uuid} {i : Env}
    {db : Db} (hf : i.fault = none)
    (h : db.invites.conflict (.fresh id email nonce expires grantedBy i.now.stored) = none) :
    ∃ r, ((Stmt.insertInvite id email nonce expires grantedBy).answer i db).1 = .ok r := by
  cases hin : db.invites.insert (.fresh id email nonce expires grantedBy i.now.stored) with
  | error c => cases h.symm.trans (Table.insert_eq_error.mp hin)
  | ok invites =>
    have hexec : (Stmt.insertInvite id email nonce expires grantedBy).exec i.now.stored i.scan db =
        .ok ((), { db with invites }) := by simp only [Stmt.exec, hin]
    exact ⟨(), congrArg Prod.fst (Stmt.answer_of_ok hf hexec)⟩

theorem insertSignup_succeeds {id : Uuid} {email : String} {i : Env} {db : Db} (hf : i.fault = none)
    (h : db.users.conflict (.fresh id email i.now.stored) = none) :
    ((Stmt.insertSignup id email).answer i db).1 = .ok (some id) := by
  cases hin : db.users.insert (.fresh id email i.now.stored) with
  | error c => cases h.symm.trans (Table.insert_eq_error.mp hin)
  | ok users =>
    have hexec : (Stmt.insertSignup id email).exec i.now.stored i.scan db =
      .ok (some id, { db with users }) := by
      simp only [Stmt.exec, hin]
    exact congrArg Prod.fst (Stmt.answer_of_ok hf hexec)

variable (hs : P.bearerSecret = [])
include hs

theorem mintInvite_tells (email : String) (grantedBy : Option Uuid) (ttl : Int) :
    Tells (P.StoresInvite email grantedBy ttl i w.db) w
      ((P.mintInvite email grantedBy ttl).run portalMachine i w) := by
  unfold Portal.mintInvite
  dsimp only
  by_cases hinvalid : '@' ∉ (P.normalizeEmail email).toList ∨ 320 < byteLen (P.normalizeEmail email)
  · rw [if_pos hinvalid]
    refine .early (fun h => ?_) fun h => by cases h
    rcases hinvalid with hat | hlong
    · exact hat h.addressed.1
    · exact absurd h.addressed.2 (Nat.not_le.mpr hlong)
  rw [if_neg hinvalid]
  have haddressed : '@' ∈ (P.normalizeEmail email).toList ∧ byteLen (P.normalizeEmail email) ≤ 320 :=
    ⟨not_not.mp fun h => hinvalid (.inl h), Nat.not_lt.mp fun h => hinvalid (.inr h)⟩
  simp only [Prog.bind_eq, daysAfter]
  rw [run_newUuid, run_mintNonce, run_utcNow]
  simp only [from_from, from_apply]
  rcases lifetime_eq "days" 86400 (if 1 ≤ ttl then ttl else defaultInviteTtlDays) (i 2).now
    with ⟨hl, heq⟩ | ⟨hl, m, heq⟩
  · rw [heq, Prog.bind_ret]
    refine tells_query (fun e he h => ?_) fun r hr => ?_
    · obtain ⟨r, hr⟩ := insertInvite_succeeds h.written.1 h.fits
      cases he.symm.trans hr
    · obtain ⟨hf, hexec⟩ := Stmt.answer_ok hr
      obtain ⟨invites, hin, hdb⟩ := exec_insertInvite hexec
      obtain ⟨hfits, hrows⟩ := Table.insert_eq_ok.mp hin
      apply tells_audit (fun h => h.written.2)
      intro hf'
      simp only [Portal.inviteLink, secret_unset hs]
      refine .inl ⟨⟨haddressed, hl, hfits, hf, hf'⟩, rfl, fun h => ?_⟩
      have hsame : invites = w.db.invites := (congrArg Db.invites hdb).symm.trans h.invites
      rw [hsame] at hrows
      exact absurd hrows (by simp)
  · rw [heq]
    exact .early (fun h => hl h.lasts) fun h => by cases h

theorem createPrincipal_tells {email : String} {C : Prop} {w₀ : World} (hw : w.db = w₀.db)
    (hvacant : w.db.principal email = none)
    (hC : C ↔ w.db.users.conflict (.fresh (i 0).uuid email (i 1).now.stored) = none ∧ (i 1).fault = none ∧
      (i 2).fault = none) : Tells C w₀ ((P.createPrincipal email).run portalMachine i w) := by
  unfold Portal.createPrincipal
  simp only [Prog.bind_eq]
  rw [run_newUuid]
  refine tells_query (fun e he h => ?_) fun r hr => ?_
  · exact nomatch he.symm.trans (insertSignup_succeeds (hC.mp h).2.1 (hC.mp h).1)
  · obtain ⟨hf, hexec⟩ := Stmt.answer_ok hr
    rcases exec_insertSignup hexec with ⟨users, hin, rfl, hdb⟩ | ⟨c, hin, rfl, hdb⟩
    · obtain ⟨hfits, hrows⟩ := Table.insert_eq_ok.mp hin
      apply tells_audit (fun h => (hC.mp h).2.2)
      intro hf'
      rw [mintBearer_unset hs]
      refine .inl ⟨hC.mpr ⟨hfits, hf, hf'⟩, rfl, fun h => ?_⟩
      have hsame : users.rows.map (·.unstamped) = w.db.users.rows.map (·.unstamped) :=
        (congrArg (fun db => db.users.rows.map (·.unstamped)) hdb).symm.trans (hw ▸ h.users)
      rw [hrows] at hsame
      exact absurd (congrArg List.length hsame) (by simp)
    · -- the id is taken, so the address has no winner to fall back on
      have hno : ¬C := fun h => nomatch (hC.mp h).1.symm.trans (Table.insert_eq_error.mp hin)
      rw [hdb]
      unfold Portal.createdPrincipal
      simp only [Prog.bind_eq, Prog.bind_assoc]
      apply tells_query (fun _ _ => hno)
      intro found hfound
      cases (liveUserByEmail_absent hvacant hfound).1
      exact .early hno fun h => by cases h

theorem signupFresh_tells {email : String} (presented ip : String) {C : Prop} {w₀ : World} (hw : w.db = w₀.db)
    (hvacant : w.db.principal email = none)
    (hC : C ↔
      (w.book.check (P.identityKey email) (i 0).now = .ok () ∧ w.book.check (ipKey ip) (i 2).now = .ok ()) ∧
      (i 4).verdict = some (.ok true) ∧ w.db.users.conflict (.fresh (i 5).uuid email (i 6).now.stored) = none ∧
      (i 6).fault = none ∧ (i 7).fault = none) :
    Tells C w₀ ((P.signupFresh email presented ip).run portalMachine i w) := by
  unfold Portal.signupFresh
  simp only [Prog.bind_eq]
  refine tells_checkNow (fun h => (hC.mp h).1.1) fun hid =>
    tells_checkNow (fun h => (hC.mp h).1.2) fun hip => ?_
  rw [run_checkCredential]
  have hverdict : C → (from_ 2 (from_ 2 i) 0).verdict = some (.ok true) := fun h => (hC.mp h).2.1
  split
  next h =>
    refine createPrincipal_tells hs hw hvacant ?_
    exact ⟨fun hc => (hC.mp hc).2.2, fun hf => hC.mpr ⟨⟨hid, hip⟩, h, hf⟩⟩
  next h =>
    refine tells_untraced (fun hc => nomatch h.symm.trans (hverdict hc)) ?_ hw
    exact (registerNow_traceless _).bind fun _ => (registerNow_traceless _).bind fun _ => trivial
  next e h => exact .early (fun hc => nomatch h.symm.trans (hverdict hc)) fun h => by cases h
  next h =>
    refine tells_untraced (fun hc => nomatch h.symm.trans (hverdict hc)) ?_ hw
    exact (audit_traceless (by decide)).bind fun _ => trivial

theorem signup_tells (email presented ip : String) :
    Tells (P.CreatesPrincipal email ip i w) w ((P.signup email presented ip).run portalMachine i w) := by
  unfold Portal.signup
  dsimp only
  by_cases hinvalid : P.normalizeEmail email = "" ∨ '@' ∉ (P.normalizeEmail email).toList
  · rw [if_pos hinvalid]
    refine .early (fun h => ?_) fun h => by cases h
    rcases hinvalid with hempty | hat
    · exact h.addressed.1 hempty
    · exact hat h.addressed.2
  rw [if_neg hinvalid]
  have haddressed : P.normalizeEmail email ≠ "" ∧ '@' ∈ (P.normalizeEmail email).toList :=
    ⟨fun h => hinvalid (.inl h), not_not.mp fun h => hinvalid (.inr h)⟩
  simp only [Prog.bind_eq]
  rw [run_signupOpen]
  have hopens : ((Stmt.policyEnabled).answer (i 0) w.db).1.toOption.getD false = true ↔
      (i 0).fault = none ∧ w.db.SignupOpen := by
    rw [← policyEnabled_true]
    cases ((Stmt.policyEnabled).answer (i 0) w.db).1 with
    | error e => simp [Except.toOption]
    | ok r => simp [Except.toOption]
  cases hopen : ((Stmt.policyEnabled).answer (i 0) w.db).1.toOption.getD false with
  | false =>
    refine tells_untraced (fun h => ?_) ((audit_traceless (by decide)).bind fun _ => trivial) rfl
    cases hopen.symm.trans (hopens.mpr h.opened)
  | true =>
    refine tells_query (fun e he h => ?_) fun r hr => ?_
    · obtain ⟨hf, -⟩ := h.vacant
      have hok : ((Stmt.liveUserByEmail (P.normalizeEmail email)).answer (i 1) w.db).1 = .ok _ :=
        congrArg Prod.fst (Stmt.answer_of_ok hf rfl)
      cases hok.symm.trans he
    · obtain ⟨hf, hexec⟩ := Stmt.answer_ok hr
      obtain ⟨hr', hdb⟩ := Prod.mk.inj (Except.ok.inj hexec)
      rw [← hdb]
      cases hp : w.db.principal (P.normalizeEmail email) with
      | none =>
        rw [show r = none by rw [← hr']; simp [hp]]
        apply signupFresh_tells hs presented ip rfl hp
        constructor
        · exact fun h => ⟨h.unthrottled, h.verified, h.fits, h.written⟩
        · exact fun h => ⟨haddressed, hopens.mp hopen, ⟨hf, hp⟩, h.1, h.2.1, h.2.2.1, h.2.2.2⟩
      | some u =>
        rw [show r = some (u.id, u.status) by rw [← hr']; simp [hp]]
        have hno : ¬P.CreatesPrincipal email ip i w := fun h => by cases hp.symm.trans h.vacant.2
        dsimp only
        split
        · exact .early hno fun h => by cases h
        · exact tells_untraced hno (verifyAndMint_traceless hs _ _ _ _) rfl

end

/-! ## The six verbs -/

def Request.Renders : Request → Prop
  | .mintBearer .. | .rotateBearer .. | .login .. | .signup .. | .mintInvite .. | .redeem .. => True
  | _ => False

/-- The call fails, and if it got to the secret it left no trace. -/
def Portal.LeavesNoTrace (P : Portal) (t : Request) (i : Nat → Env) (w : World) : Prop :=
  let out := (P.serve t).run portalMachine i w
  (∃ e, out.1 = .error e) ∧ (out.1 = .error (.err .bearerSecretNotConfigured) → w.db.Untraced out.2.db)

def Request.WritesFirst (P : Portal) (i : Nat → Env) (w : World) : Request → Prop
  | .mintInvite email grantedBy ttl => P.StoresInvite email grantedBy ttl i w.db
  | .signup email _ ip => P.CreatesPrincipal email ip i w
  | _ => False

section
variable {P : Portal} {α : Type} {C : Prop} {i : Nat → Env} {w : World}

theorem reply_run (p : Verb α) (f : α → Reply) :
    (reply p f).run portalMachine i w = ((p.run portalMachine i w).1.map f, (p.run portalMachine i w).2) :=
  Prog.run_bind_ret portalMachine p f i w

theorem leaves_no_trace_iff {p : Verb α} {f : α → Reply} {t : Request} (ht : P.serve t = reply p f)
    (hfails : p.Ends Fails)
    (h : Tells C w (p.run portalMachine i w)) : P.LeavesNoTrace t i w ↔ ¬C := by
  obtain ⟨e, he⟩ := Prog.run_ends portalMachine hfails i w
  unfold Portal.LeavesNoTrace
  simp only [ht, reply_run]
  generalize p.run portalMachine i w = out at he h ⊢
  obtain ⟨o, w'⟩ := out
  cases he
  constructor
  · rintro ⟨-, htrace⟩ hc
    rcases h with ⟨-, hunset, hwrites⟩ | ⟨hno, -⟩
    · cases hunset
      exact hwrites (htrace rfl)
    · exact hno hc
  · intro hno
    refine ⟨⟨e, rfl⟩, fun hunset => ?_⟩
    rcases h with ⟨hc, -⟩ | ⟨-, h⟩
    · exact absurd hc hno
    · cases hunset
      exact h rfl

/-- Of the six verbs, with no secret set, exactly those that write first leave a trace. -/
theorem unset_secret_traces_iff (P : Portal) (hs : P.bearerSecret = []) (t : Request)
    (ht : t.Renders) (i : Nat → Env)
    (w : World) : P.LeavesNoTrace t i w ↔ ¬t.WritesFirst P i w := by
  have quiet : ∀ {α : Type} {p : Verb α}, p.All Act.Traceless → Tells False w (p.run portalMachine i w) :=
    fun hp => tells_untraced not_false hp rfl
  cases t with
  | mintBearer user ttl =>
    refine leaves_no_trace_iff rfl ?_ (quiet ?_)
    · rw [mintBearer_unset hs]; exact fails_refuse _
    · rw [mintBearer_unset hs]; trivial
  | rotateBearer link ttl =>
    refine leaves_no_trace_iff rfl ?_ (quiet ?_)
    · rw [rotateBearer_unset hs]; exact fails_refuse _
    · rw [rotateBearer_unset hs]; trivial
  | login email presented ip =>
    exact leaves_no_trace_iff rfl (login_fails hs _ _ _) (quiet (login_traceless hs _ _ _))
  | redeem link email => exact leaves_no_trace_iff rfl (redeem_fails hs _ _) (quiet (redeem_traceless hs _ _))
  | mintInvite email grantedBy ttl =>
    exact leaves_no_trace_iff rfl (mintInvite_fails hs _ _ _) (mintInvite_tells hs _ _ _)
  | signup email presented ip => exact leaves_no_trace_iff rfl (signup_fails hs _ _ _) (signup_tells hs _ _ _)
  | _ => exact ht.elim

end

namespace Probe

def unset : Portal := { portal with bearerSecret := [] }

def inviting : Request := .mintInvite email none 14

def registering : Request := .signup email "secret" "10.0.0.1"

end Probe

/-- Both verbs fail for want of the secret and leave their row behind. -/
theorem unset_secret_leaves_rows :
    let invited := (Probe.unset.mintInvite Probe.email none 14).run portalMachine
      (fun _ => Probe.env) (Probe.world Db.empty)
    let signed := (Probe.unset.signup Probe.email "secret" "10.0.0.1").run portalMachine (fun _ => Probe.env)
      (Probe.world Probe.opened)
    (invited.1 = .error (.err .bearerSecretNotConfigured) ∧
      invited.2.db.invites.rows.map (·.status) = [.pending] ∧
      invited.2.db.trail.map (·.event.action) = ["invite_minted"]) ∧
    (signed.1 = .error (.err .bearerSecretNotConfigured) ∧ signed.2.db.users.rows.map (·.status) = [.active] ∧
      signed.2.db.trail.map (·.event.action) = ["signup_created"]) ∧
    ¬Probe.unset.LeavesNoTrace Probe.inviting (fun _ => Probe.env) (Probe.world Db.empty) ∧
    ¬Probe.unset.LeavesNoTrace Probe.registering (fun _ => Probe.env) (Probe.world Probe.opened) := by
  refine ⟨by decide +kernel, by decide +kernel, fun h => ?_, fun h => ?_⟩
  · have hrows := congrArg (fun t => t.rows.length) (h.2 rfl).invites
    exact absurd hrows (by decide +kernel)
  · have hrows := congrArg List.length (h.2 rfl).users
    exact absurd hrows (by decide +kernel)

/-- A login with no secret set leaves no trace. -/
theorem unset_secret_traces_iff_probe :
    Probe.unset.LeavesNoTrace (.login Probe.email "secret" "10.0.0.1") (fun _ => Probe.env)
      (Probe.world Probe.enrolled) :=
  (unset_secret_traces_iff Probe.unset rfl (.login Probe.email "secret" "10.0.0.1") trivial (fun _ => Probe.env)
    (Probe.world Probe.enrolled)).mpr not_false

end BackbonePortal
