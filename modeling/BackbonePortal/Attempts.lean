import BackbonePortal.Book
import BackbonePortal.LinkOrder
import BackbonePortal.ThrottleGate
import BackbonePortal.Trail

/-!
# Credential attempts

What a login or a signup without failures does to the attempt book, arm by arm,
and the arms that leave their attempt out of it.
-/

namespace BackbonePortal

open Proc Tables

/-! ## The two keys of an attempt -/

theorem identityKey_ne_ipKey (P : Portal) (email ip : String) : P.identityKey email ≠ ipKey ip := by
  intro h
  have htake := congrArg (fun s => s.toList.take 9) h
  simp [Portal.identityKey, ipKey, String.toList_append] at htake

namespace AttemptBook

variable (b : AttemptBook) (key other : String) (now : Instant)

def Counts : Prop := -(2 ^ 31) ≤ b.failures key + 1 ∧ b.failures key + 1 < 2 ^ 31

instance : Decidable (b.Counts key) := inferInstanceAs (Decidable (_ ∧ _))

def Clear (keys : List String) : Prop := ∀ key ∈ keys, b.entries key = none

variable {b key other now}

theorem failures_registerFailure : (b.registerFailure key now).failures key = wrapI32 (b.failures key + 1) := by
  unfold failures registerFailure
  rw [put_self]
  cases b.entries key with
  | none => rfl
  | some e => rfl

theorem failures_other (h : other ≠ key) : (b.registerFailure key now).failures other = b.failures other := by
  unfold failures registerFailure
  rw [put_other _ h]

theorem reset_clear (h : b.entries key = none) : b.reset key = b := by
  obtain ⟨entries⟩ := b
  refine congrArg AttemptBook.mk (funext fun k => ?_)
  show (if k = key then none else entries k) = entries k
  by_cases hk : k = key
  · rw [if_pos hk, hk]
    exact h.symm
  · rw [if_neg hk]

theorem reset_both_clears : ((b.reset key).reset other).Clear [key, other] := by
  intro k hk
  simp only [List.mem_cons, List.not_mem_nil, or_false] at hk
  show (if k = other then none else if k = key then none else b.entries k) = none
  rcases hk with rfl | rfl
  · by_cases ho : k = other
    · rw [if_pos ho]
    · rw [if_neg ho, if_pos rfl]
  · rw [if_pos rfl]

theorem reset_both_eq : (b.reset key).reset other = b ↔ b.Clear [key, other] := by
  constructor
  · intro h
    rw [← h]
    exact reset_both_clears
  · intro h
    have hkey := h key (.head _)
    rw [reset_clear hkey, reset_clear (h other (.tail _ (.head _)))]

theorem register_both_counts (h : key ≠ other) {t t' : Instant} :
    (∀ k ∈ [key, other], ((b.registerFailure key t).registerFailure other t').failures k = b.failures k + 1) ↔
      b.Counts key ∧ b.Counts other := by
  simp only [List.mem_cons, List.not_mem_nil, or_false, forall_eq_or_imp, forall_eq]
  rw [failures_other h, failures_registerFailure, failures_registerFailure, failures_other h.symm,
    wrapI32_eq_self, wrapI32_eq_self]
  rfl

end AttemptBook

/-! ## Actions that leave the book alone -/

def Act.Bookless : Act → Prop
  | .registerFailure .. | .reset _ => False
  | _ => True

theorem run_bookless {α : Type} {p : Verb α} (hp : p.All Act.Bookless) (i : Nat → Env) (w : World) :
    (p.run portalMachine i w).2.book = w.book := by
  refine Prog.run_keeps (M := portalMachine) (I := fun w' => w'.book = w.book) (fun a ha i w' h => ?_) hp i rfl
  cases a with
  | registerFailure key now => exact ha.elim
  | reset key => exact ha.elim
  | _ => exact h

theorem Act.Mints.bookless {a : Act} (h : a.Mints) : a.Bookless := by
  cases a with
  | registerFailure key now => exact h.elim
  | reset key => exact h.elim
  | _ => trivial

/-! ## The verification without failures -/

/-- The book refuses one of the keys, each at its own reading of the clock. -/
def Portal.Throttles (P : Portal) (email ip : String) (b : AttemptBook) (t t' : Instant) : Prop :=
  (∃ e, b.check (P.identityKey email) t = .error e) ∨ ∃ e, b.check (ipKey ip) t' = .error e

/-- The mint finds a secret and fresh draws, and an expiry `chrono` can represent. -/
structure Portal.MintReady (P : Portal) (user : Uuid) (i : Nat → Env) (db : Db) : Prop where
  secret : P.bearerSecret ≠ []
  lasts : Lasts 3600 (max defaultBearerTtlHours 1) (i 2).now
  fits : BearerFits (i 0).uuid user (nonceOf (i 1).nonce) db

def Portal.MintPanics (P : Portal) (i : Nat → Env) : Prop :=
  P.bearerSecret ≠ [] ∧ ¬Lasts 3600 (max defaultBearerTtlHours 1) (i 2).now

inductive Portal.MintEnds {α : Type} (P : Portal) (user : Uuid) (i : Nat → Env) (db : Db) :
    Except Halt α → Prop where
  | panicked (message : String) (late : P.MintPanics i) : Portal.MintEnds P user i db
    (.error (.panicked message))
  | done (a : α) (ready : P.MintReady user i db) : Portal.MintEnds P user i db (.ok a)
  | failed (e : PortalError) (unready : ¬P.MintReady user i db) (early : ¬P.MintPanics i)
    (other : e ≠ .invalidCredentials) :
    Portal.MintEnds P user i db (.error (.err e))

section
variable {P : Portal} {α : Type} {i : Nat → Env} {w : World} {email presented ip event : String}

theorem mint_ends (user : Uuid) {g : String → Verb α} (hi : ∀ n, (i n).fault = none)
    (hg : ∀ link i w, (∀ n, (i n).fault = none) → ∃ a, ((g link).run portalMachine i w).1 = .ok a) :
    P.MintEnds user i w.db (((P.mintBearer user defaultBearerTtlHours).bind g).run portalMachine i w).1 := by
  rw [Prog.run_bind]
  have hends := Prog.run_ends portalMachine (mintBearer_ends P user defaultBearerTtlHours) i w
  by_cases hs : P.bearerSecret = []
  · have hmint : (P.mintBearer user defaultBearerTtlHours).run portalMachine i w =
        (.error (.err .bearerSecretNotConfigured), w) := by
      rw [Portal.mintBearer, Portal.secret, if_pos hs]
      rfl
    rw [hmint]
    exact .failed _ (fun h => h.secret hs) (fun h => h.1 hs) PortalError.noConfusion
  · have hmint := mintBearer_alone hs user defaultBearerTtlHours i w
    generalize (P.mintBearer user defaultBearerTtlHours).run portalMachine i w = o at hends hmint ⊢
    obtain ⟨o, w'⟩ := o
    rcases hmint with ⟨hlate, m, rfl⟩ | ⟨hlasts, hfits, link, rfl⟩ | ⟨hlasts, hunfit, e, rfl⟩
    · exact .panicked m ⟨hs, hlate⟩
    · obtain ⟨a, ha⟩ := hg link
        (fun n => i (n + ((P.mintBearer user defaultBearerTtlHours).trace portalMachine i w).length)) w'
        fun n => hi _
      dsimp only
      rw [ha]
      exact .done a ⟨hs, hlasts, hfits.fits⟩
    · refine .failed e (fun h => hunfit ⟨h.fits, hi 3, hi 4⟩) (fun h => h.2 hlasts) ?_
      rintro rfl
      rcases hends with ⟨link, h⟩ | ⟨m, h⟩ | ⟨e, h, rfl | ⟨s, rfl⟩⟩ <;> cases h

theorem refuseLogin_run {user : Option Uuid} (idKey : String) {ipKey : String}
    {detail : Json} (hi : ∀ n, (i n).fault = none) :
    ∃ w', (Portal.refuseLogin user idKey ipKey detail : Verb α).run portalMachine i w =
        (.error (.err .invalidCredentials), w') ∧
      w'.book = (w.book.registerFailure idKey (i 0).now).registerFailure ipKey (i 2).now := by
  have hrun : (Portal.refuseLogin user idKey ipKey detail : Verb α).run portalMachine i w =
      ((audit "login_refused" user none none "anonymous" detail).bind fun _ => refuse .invalidCredentials).run
        portalMachine (from_ 4 i) { w with
          book := (w.book.registerFailure idKey (i 0).now).registerFailure ipKey (i 2).now,
            clock := (i 3).now } := rfl
  rw [hrun, run_query_ok _ _ (appendAudit_answer (hi 4))]
  exact ⟨_, rfl, rfl⟩

theorem touchLastLogin_fits {user id other : Uuid} {nonce : String} {i : Env} {db : Db} :
    BearerFits id other nonce ((Stmt.touchLastLogin user).answer i db).2 ↔ BearerFits id other nonce db := by
  have htokens : ((Stmt.touchLastLogin user).answer i db).2.tokens = db.tokens :=
    act_spares (n := .tokens) (a := .sql (.touchLastLogin user)) (by simp [Act.Spares, Stmt.writes])
      i ⟨db, .empty, [], 0⟩
  have husers : (((Stmt.touchLastLogin user).answer i db).2.users.get other).isSome =
    (db.users.get other).isSome := by
    cases h : ((Stmt.touchLastLogin user).answer i db).1 with
    | error e => rw [Stmt.answer_error h]
    | ok n =>
      obtain ⟨users, hu, -, hdb⟩ := Db.updateUsers_ok (Stmt.answer_ok h).2
      rw [hdb]
      show (users.get other).isSome = _
      rw [Table.update_get hu, Option.isSome_map]
  constructor
  · rintro ⟨hkey, hselector, howner⟩
    exact ⟨htokens ▸ hkey, htokens ▸ hselector, husers ▸ howner⟩
  · rintro ⟨hkey, hselector, howner⟩
    exact ⟨htokens.symm ▸ hkey, htokens.symm ▸ hselector, husers.symm ▸ howner⟩

theorem Portal.MintEnds.congr {user : Uuid} {db db' : Db} {o : Except Halt α}
    (hfits : ∀ id nonce, BearerFits id user nonce db' ↔ BearerFits id user nonce db)
    (h : P.MintEnds user i db' o) :
    P.MintEnds user i db o := by
  have hready : P.MintReady user i db' ↔ P.MintReady user i db := by
    constructor
    · exact fun h => ⟨h.secret, h.lasts, (hfits _ _).mp h.fits⟩
    · exact fun h => ⟨h.secret, h.lasts, (hfits _ _).mpr h.fits⟩
  cases h with
  | panicked message late => exact .panicked message late
  | done a ready => exact .done a (hready.mp ready)
  | failed e unready early other => exact .failed e (mt hready.mpr unready) early other

theorem succeedLogin_run {user : Uuid} (idKey : String) {ipKey : String} (hi : ∀ n, (i n).fault = none) :
    ((P.succeedLogin user idKey ipKey event).run portalMachine i w).2.book = (w.book.reset idKey).reset ipKey ∧
      P.MintEnds user (from_ 3 i) w.db ((P.succeedLogin user idKey ipKey event).run portalMachine i w).1 := by
  let v : World := { w with
    db := ((Stmt.touchLastLogin user).answer (i 2) w.db).2, book := (w.book.reset idKey).reset ipKey
    gate := w.gate ++ [.cleared idKey] ++ [.cleared ipKey], clock := (i 2).now }
  have hrun : (P.succeedLogin user idKey ipKey event).run portalMachine i w =
      ((P.mintBearer user defaultBearerTtlHours).bind fun bearer =>
        (audit event (some user) none none "recipient" (.object [])).bind fun _ =>
        .ret (user, bearer)).run portalMachine
          (from_ 3 i) v := rfl
  rw [hrun]
  constructor
  · refine run_bookless (.bind (mintBearer_all P (fun a h => h.bookless) _ _) fun _ =>
      .bind (all_query trivial) fun _ => ?_) _ v
    trivial
  · refine .congr (fun id nonce => touchLastLogin_fits)
      (mint_ends (w := v) _ (fun n => hi (n + 3)) fun link j x hj => ?_)
    rw [run_query_ok _ _ (appendAudit_answer (hj 0))]
    exact ⟨_, rfl⟩

theorem run_checkKey_ok (i : Nat → Env) (w : World) {key : String} {now : Instant}
    {f : Unit → Verb α} (h : w.book.check key now = .ok ()) :
    ((checkKey key now).bind f).run portalMachine i w =
      (f ()).run portalMachine (from_ 1 i) { w with clock := (i 0).now } := by
  rcases run_checkKey i w key now f with ⟨e, he, -⟩ | ⟨-, hrun⟩
  · cases h.symm.trans he
  · exact hrun

theorem check_ok_of_not {b : AttemptBook} {key : String} {t : Instant} (h : ¬∃ e, b.check key t = .error e) :
    b.check key t = .ok () := by
  cases hc : b.check key t with
  | ok u => rfl
  | error e => exact absurd ⟨e, hc⟩ h

inductive VerifyRun (P : Portal) (email ip : String) (i : Nat → Env) (w : World) :
    Except Halt (Uuid × String) × World → Prop where
  | throttled (n : Int) (w' : World) (hit : P.Throttles email ip w.book (i 0).now (i 0).now)
    (same : Untouched w w') :
    VerifyRun P email ip i w (.error (.err (.rateLimited n)), w')
  | refused (w' : World) (t t' : Instant) (passed : ¬P.Throttles email ip w.book (i 0).now (i 0).now)
      (why : ∀ u, w.db.principal email = some u → u.status = .active → (i 4).verdict = some (.ok false))
      (book : w'.book = (w.book.registerFailure (P.identityKey email) t).registerFailure (ipKey ip) t') :
    VerifyRun P email ip i w (.error (.err .invalidCredentials), w')
  | unanswered (u : PortalUser) (e : PortalError) (w' : World)
      (found : w.db.principal email = some u ∧ u.status = .active)
      (verdict : ∀ b, (i 4).verdict ≠ some (.ok b)) (error : e ≠ .invalidCredentials)
      (book : w'.book = w.book) :
    VerifyRun P email ip i w (.error (.err e), w')
  | admitted (u : PortalUser) (o : Except Halt (Uuid × String)) (w' : World)
      (passed : ¬P.Throttles email ip w.book (i 0).now (i 0).now)
      (found : w.db.principal email = some u ∧ u.status = .active)
      (verdict : (i 4).verdict = some (.ok true)) (ends : P.MintEnds u.id (from_ 8 i) w.db o)
      (book : w'.book = (w.book.reset (P.identityKey email)).reset (ipKey ip)) :
      VerifyRun P email ip i w (o, w')

theorem verifyAndMint_run (hi : ∀ n, (i n).fault = none) :
    VerifyRun P email ip i w ((P.verifyAndMint email presented ip event).run portalMachine i w) := by
  by_cases hit : P.Throttles email ip w.book (i 0).now (i 0).now
  · have hlimits : RateLimits (P.verifyAndMint email presented ip event) i w := by
      unfold Portal.verifyAndMint
      refine limits_utcNow fun w₁ h₁ => limits_checkKey ?_
      refine hit.imp (fun h => h₁.book ▸ h) fun h w₂ h₂ => limits_checkKey (.inl ?_)
      rw [(h₁.trans h₂).book]
      exact h
    obtain ⟨n, w', hrun, hu⟩ := hlimits
    rw [hrun]
    exact .throttled n w' hit hu
  have hid := check_ok_of_not fun h => hit (.inl h)
  have hip := check_ok_of_not fun h => hit (.inr h)
  have hread : (Stmt.liveUserByEmail email).answer (i 3) w.db =
      (.ok ((w.db.principal email).map fun u => (u.id, u.status)), w.db) := Stmt.answer_of_ok (hi 3) rfl
  unfold Portal.verifyAndMint
  dsimp only
  rw [Prog.bind_eq, run_utcNow, Prog.bind_eq, run_checkKey_ok _ { w with clock := (i 0).now } hid, Prog.bind_eq,
    run_checkKey_ok _ { w with clock := (from_ 1 i 0).now } hip, Prog.bind_eq,
    run_query_ok _ { w with clock := (from_ 1 (from_ 1 i) 0).now } hread]
  have refused : ∀ (user : Option Uuid) (detail : Json) (i' : Nat → Env) (v : World),
      (∀ n, (i' n).fault = none) →
      v.book = w.book →
        (∀ u, w.db.principal email = some u → u.status = .active → (i 4).verdict = some (.ok false)) →
      VerifyRun P email ip i w
        ((Portal.refuseLogin user (P.identityKey email) (ipKey ip) detail).run portalMachine i' v) := by
    intro user detail i' v hi' hv why
    obtain ⟨w', hrun, hbook⟩ := refuseLogin_run (α := Uuid × String) (w := v) (P.identityKey email) hi'
    rw [hrun]
    exact .refused w' _ _ hit why (hv ▸ hbook)
  cases hp : w.db.principal email with
  | none => exact refused _ _ _ _ (fun n => hi _) rfl fun u hu => by cases hp.symm.trans hu
  | some u =>
    dsimp only [Option.map_some]
    split
    next hs =>
      refine refused _ _ _ _ (fun n => hi _) rfl fun v hv hactive => ?_
      cases hp.symm.trans hv
      exact absurd hactive hs
    next hs =>
      have hfound : w.db.principal email = some u ∧ u.status = .active := ⟨hp, not_not.mp hs⟩
      rw [Prog.bind_eq, run_checkCredential]
      generalize hv : Env.verdict _ = verdict
      cases verdict with
      | none =>
        dsimp only
        rw [Prog.bind_eq, run_query_ok _ _ (appendAudit_answer (hi 5))]
        exact .unanswered u _ _ hfound (fun b h => by cases hv.symm.trans h) PortalError.noConfusion rfl
      | some r =>
        cases r with
        | error text =>
          exact .unanswered u _ _ hfound (fun b h => by cases hv.symm.trans h) PortalError.noConfusion rfl
        | ok b =>
          cases b with
          | false => exact refused _ _ _ _ (fun n => hi _) rfl fun _ _ _ => hv
          | true =>
            obtain ⟨hbook, hends⟩ := succeedLogin_run (P := P) (i := from_ 5 i)
              (w := { w with gate := w.gate ++ [.asked email (i 4).now (some (.ok true))], clock := (i 4).now })
              (P.identityKey email) fun n => hi _
            exact (.admitted u _ _ hit hfound hv hends hbook : VerifyRun P email ip i w (_, _))

/-! ## The creation without failures -/

/-- The principal of a signup can be inserted, and its bearer minted. -/
structure Portal.CreationReady (P : Portal) (email : String) (i : Nat → Env) (db : Db) : Prop where
  fresh : db.users.get (i 0).uuid = none
  address : withinLength 320 email = true ∧ notBlank email = true
  secret : P.bearerSecret ≠ []
  lasts : Lasts 3600 (max defaultBearerTtlHours 1) (i 5).now
  key : db.tokens.get (i 3).uuid = none
  selector : ∀ t ∈ db.tokens.rows, t.tokenNonce ≠ nonceOf (i 4).nonce

theorem createPrincipal_run (hi : ∀ n, (i n).fault = none) (hvacant : w.db.principal email = none) :
    ((P.createPrincipal email).run portalMachine i w).1 ≠ .error (.err .invalidCredentials) ∧
      ((∃ r, ((P.createPrincipal email).run portalMachine i w).1 = .ok r) ↔ P.CreationReady email i w.db) := by
  unfold Portal.createPrincipal
  dsimp only
  rw [Prog.bind_eq, run_newUuid]
  cases hin : w.db.users.insert (.fresh (i 0).uuid email (i 1).now.stored) with
  | error c =>
    -- nobody has the address, so only the id or a CHECK constraint can refuse the row
    have hunready : ¬P.CreationReady email i w.db := fun h => by
      have hfree := (freshUser_conflict (i 1).now.stored h.address).mpr ⟨h.fresh, hvacant⟩
      cases hfree.symm.trans (Table.insert_eq_error.mp hin)
    rcases run_query (from_ 1 i) { w with clock := (i 0).now } (.insertSignup (i 0).uuid email) _ with
      ⟨e, -, hrun⟩ | ⟨r, hr, hrun⟩
    · rw [Prog.bind_eq, hrun]
      exact ⟨by rintro ⟨⟩, iff_of_false (by rintro ⟨r, ⟨⟩⟩) hunready⟩
    · obtain ⟨-, hq⟩ := Stmt.answer_ok hr
      rcases exec_insertSignup hq with ⟨users, hok, -⟩ | ⟨c', -, rfl, hdb⟩
      · cases hok.symm.trans hin
      · have hread : (Stmt.liveUserByEmail email).answer (i 2)
            ((Stmt.insertSignup (i 0).uuid email).answer (i 1) w.db).2 = (.ok none, w.db) := by
          rw [show ((Stmt.insertSignup (i 0).uuid email).answer (i 1) w.db).2 = w.db from hdb]
          apply Stmt.answer_of_ok (hi 2)
          simp only [Stmt.exec, hvacant, Option.map_none]
        rw [Prog.bind_eq, hrun, Portal.createdPrincipal, Prog.bind_eq, Prog.bind_eq, Prog.bind_assoc,
          run_query_ok _ _ hread]
        exact ⟨by rintro ⟨⟩, iff_of_false (by rintro ⟨r, ⟨⟩⟩) hunready⟩
  | ok users =>
    obtain ⟨hfree, -⟩ := Table.insert_eq_ok.mp hin
    have haddress : withinLength 320 email = true ∧ notBlank email = true :=
      freshUser_broken.mp (Table.conflict_eq_none.mp hfree).1
    obtain ⟨hnone, hself⟩ := Table.insert_get_self hin
    have hinsert : (Stmt.insertSignup (i 0).uuid email).answer (i 1) w.db =
        (.ok (some (i 0).uuid), { w.db with users }) := Stmt.answer_of_ok (hi 1) (by simp only [Stmt.exec, hin])
    rw [Prog.bind_eq, run_query_ok (from_ 1 i) { w with clock := (i 0).now } hinsert]
    simp only [Portal.createdPrincipal, Prog.pure_eq, Prog.bind_eq, Prog.bind_ret]
    rw [run_query_ok _ _ (appendAudit_answer (hi 2))]
    let v : World := { w with
      db := ({ w.db with users } : Db).appended
        (recordAudit "signup_created" (some "recipient") (some (i 0).uuid) none none (.object []))
        (i 2).now.stored
      clock := (i 2).now }
    have hends := mint_ends (P := P) (i := from_ 3 i) (w := v) (i 0).uuid
      (g := fun bearer => Prog.ret ((i 0).uuid, bearer)) (fun n => hi (n + 3)) fun link j x _ => ⟨_, rfl⟩
    have howner : (v.db.users.get (i 0).uuid).isSome := by
      show (users.get (i 0).uuid).isSome = true
      rw [show users.get (i 0).uuid = _ from hself]
      rfl
    have hready : P.MintReady (i 0).uuid (from_ 3 i) v.db ↔ P.CreationReady email i w.db := by
      constructor
      · exact fun h => ⟨hnone, haddress, h.secret, h.lasts, h.fits.key, h.fits.selector⟩
      · exact fun h => ⟨h.secret, h.lasts, h.key, h.selector, howner⟩
    show (Prog.run portalMachine (Prog.bind (P.mintBearer (i 0).uuid defaultBearerTtlHours) fun bearer =>
        Prog.ret ((i 0).uuid, bearer)) (from_ 3 i) v).1 ≠ _ ∧
      ((∃ r, (Prog.run portalMachine (Prog.bind (P.mintBearer (i 0).uuid defaultBearerTtlHours) fun bearer =>
        Prog.ret ((i 0).uuid, bearer)) (from_ 3 i) v).1 = .ok r) ↔ _)
    generalize (Prog.run portalMachine (Prog.bind (P.mintBearer (i 0).uuid defaultBearerTtlHours) fun bearer =>
        Prog.ret ((i 0).uuid, bearer)) (from_ 3 i) v).1 = o at hends ⊢
    rw [← hready]
    cases hends with
    | panicked message late =>
      exact ⟨by rintro ⟨⟩, iff_of_false (by rintro ⟨r, ⟨⟩⟩) fun h => late.2 h.lasts⟩
    | done a ready => exact ⟨by rintro ⟨⟩, iff_of_true ⟨a, rfl⟩ ready⟩
    | failed e unready early other =>
      exact ⟨(fun h => other (Halt.err.inj (Except.error.inj h))),
        iff_of_false (by rintro ⟨r, ⟨⟩⟩) unready⟩

theorem createPrincipal_bookless (email : String) : (P.createPrincipal email).All Act.Bookless := by
  refine .bind (all_step trivial) fun id => .bind (all_query trivial) fun r => .bind ?_ fun user =>
    .bind (all_query trivial) fun _ => .bind (mintBearer_all P (fun a h => h.bookless) _ _) fun _ => trivial
  unfold Portal.createdPrincipal
  split
  · trivial
  · refine .bind (all_query trivial) fun r => ?_
    split <;> trivial

/-- How the signup of a vacant address without failures ends. -/
inductive FreshRun (P : Portal) (email ip : String) (i : Nat → Env) (w : World) :
    Except Halt (Uuid × String) × World → Prop where
  | throttled (n : Int) (w' : World) (hit : P.Throttles email ip w.book (i 0).now (i 2).now)
    (same : Untouched w w') :
    FreshRun P email ip i w (.error (.err (.rateLimited n)), w')
  | refused (w' : World) (t t' : Instant) (passed : ¬P.Throttles email ip w.book (i 0).now (i 2).now)
      (why : (i 4).verdict = some (.ok false))
      (book : w'.book = (w.book.registerFailure (P.identityKey email) t).registerFailure (ipKey ip) t') :
    FreshRun P email ip i w (.error (.err .invalidCredentials), w')
  | unanswered (e : PortalError) (w' : World) (verdict : ∀ b, (i 4).verdict ≠ some (.ok b))
      (error : e ≠ .invalidCredentials) (book : w'.book = w.book) :
      FreshRun P email ip i w (.error (.err e), w')
  | verified (o : Except Halt (Uuid × String)) (w' : World)
      (passed : ¬P.Throttles email ip w.book (i 0).now (i 2).now)
      (verdict : (i 4).verdict = some (.ok true)) (error : o ≠ .error (.err .invalidCredentials))
      (created : (∃ r, o = .ok r) ↔ P.CreationReady email (from_ 5 i) w.db) (book : w'.book = w.book) :
    FreshRun P email ip i w (o, w')

theorem run_checkNow_ok (i : Nat → Env) (w : World) {key : String} {f : Unit → Verb α}
    (h : w.book.check key (i 0).now = .ok ()) :
    ((checkNow key).bind f).run portalMachine i w =
      (f ()).run portalMachine (from_ 2 i) { w with clock := (i 1).now } := by
  rw [checkNow, Prog.bind_eq, Prog.bind_assoc, run_utcNow, run_checkKey_ok _ { w with clock := (i 0).now } h]
  rfl

theorem signupFresh_run (hi : ∀ n, (i n).fault = none) (hvacant : w.db.principal email = none) :
    FreshRun P email ip i w ((P.signupFresh email presented ip).run portalMachine i w) := by
  by_cases hit : P.Throttles email ip w.book (i 0).now (i 2).now
  · have hlimits : RateLimits (P.signupFresh email presented ip) i w := by
      unfold Portal.signupFresh checkNow
      dsimp only
      rw [Prog.bind_eq, Prog.bind_eq, Prog.bind_assoc]
      refine limits_utcNow fun w₁ h₁ => limits_checkKey (hit.imp (fun h => h₁.book ▸ h) fun h w₂ h₂ => ?_)
      rw [Prog.bind_eq, Prog.bind_eq, Prog.bind_assoc]
      refine limits_utcNow fun w₃ h₃ => limits_checkKey (.inl ?_)
      rw [((h₁.trans h₂).trans h₃).book]
      exact h
    obtain ⟨n, w', hrun, hu⟩ := hlimits
    rw [hrun]
    exact .throttled n w' hit hu
  have hid := check_ok_of_not fun h => hit (.inl h)
  have hip := check_ok_of_not fun h => hit (.inr h)
  unfold Portal.signupFresh
  dsimp only
  rw [Prog.bind_eq, run_checkNow_ok _ _ hid, Prog.bind_eq, run_checkNow_ok _ { w with clock := (i 1).now } hip]
  rw [Prog.bind_eq, run_checkCredential]
  generalize hv : Env.verdict _ = verdict
  cases verdict with
  | none =>
    dsimp only
    rw [Prog.bind_eq, run_query_ok _ _ (appendAudit_answer (hi 5))]
    exact .unanswered _ _ (fun b h => by cases hv.symm.trans h) PortalError.noConfusion rfl
  | some r =>
    cases r with
    | error text => exact .unanswered _ _ (fun b h => by cases hv.symm.trans h) PortalError.noConfusion rfl
    | ok b =>
      cases b with
      | false => exact .refused _ _ _ hit hv rfl
      | true =>
        let v : World :=
          { w with gate := w.gate ++ [.asked email (i 4).now (some (.ok true))], clock := (i 4).now }
        have hbook : ((P.createPrincipal email).run portalMachine (from_ 5 i) v).2.book = v.book :=
          run_bookless (createPrincipal_bookless email) _ _
        obtain ⟨herror, hcreated⟩ := createPrincipal_run (P := P) (w := v) (fun n => hi (n + 5)) hvacant
        exact (.verified _ _ hit hv herror hcreated hbook : FreshRun P email ip i w (_, _))

end

/-! ## Booked attempts -/

inductive Door where
  | login
  | signup
deriving DecidableEq, Repr

def Portal.attempt (P : Portal) : Door → String → String → String → Verb (Uuid × String)
  | .login => P.login
  | .signup => P.signup

/-- A refused attempt counts against both keys, an admitted one clears them, and
any other leaves the book alone. -/
structure Booked (keys : List String) (o : Except Halt (Uuid × String)) (b b' : AttemptBook) : Prop where
  refused : o = .error (.err .invalidCredentials) → ∀ key ∈ keys, b'.failures key = b.failures key + 1
  admitted : (∃ r, o = .ok r) → b'.Clear keys
  other : (∃ e, o = .error (.err e) ∧ e ≠ .invalidCredentials) → b' = b

/-- A verification books its attempt: both counts have room where it refuses,
and its mint succeeds, or there was nothing to reset, where it admits. -/
structure Portal.BooksVerification (P : Portal) (email ip : String) (i : Nat → Env)
    (b : AttemptBook) (db : Db) : Prop where
  refused : ¬P.Throttles email ip b (i 0).now (i 0).now →
    (∀ u, db.principal email = some u → u.status = .active → (i 4).verdict = some (.ok false)) →
    b.Counts (P.identityKey email) ∧ b.Counts (ipKey ip)
  admitted : ¬P.Throttles email ip b (i 0).now (i 0).now → ∀ u, db.principal email = some u →
    u.status = .active →
    (i 4).verdict = some (.ok true) → b.Clear [P.identityKey email, ipKey ip] ∨ P.MintPanics (from_ 8 i) ∨
      P.MintReady u.id (from_ 8 i) db

/-- A creation books its attempt: both counts have room where it refuses, and
there was nothing to reset where it admits. -/
structure Portal.BooksCreation (P : Portal) (email ip : String) (i : Nat → Env)
    (b : AttemptBook) (db : Db) : Prop where
  refused : ¬P.Throttles email ip b (i 0).now (i 2).now → (i 4).verdict = some (.ok false) →
    b.Counts (P.identityKey email) ∧ b.Counts (ipKey ip)
  admitted : ¬P.Throttles email ip b (i 0).now (i 2).now → (i 4).verdict = some (.ok true) →
    P.CreationReady email (from_ 5 i) db → b.Clear [P.identityKey email, ipKey ip]

/-- Not the blank address at the login, and no principal that is not active at
the signup; there the attempt is booked by its verification or its creation. -/
def Portal.Books (P : Portal) (email ip : String) (i : Nat → Env) (w : World) : Door → Prop
  | .login => P.normalizeEmail email ≠ "" ∧ P.BooksVerification (P.normalizeEmail email) ip i w.book w.db
  | .signup =>
    (P.normalizeEmail email = "" ∨ '@' ∉ (P.normalizeEmail email).toList) ∨
      match w.db.principal (P.normalizeEmail email) with
      | some u => u.status = .active ∧ P.BooksVerification (P.normalizeEmail email) ip (from_ 2 i) w.book w.db
      | none => P.BooksCreation (P.normalizeEmail email) ip (from_ 2 i) w.book w.db

section
variable {P : Portal} {email presented ip : String} {i : Nat → Env} {w : World}
    {o : Except Halt (Uuid × String) × World}

theorem booked_refused {b b' : AttemptBook} {t t' : Instant}
    (h : b' = (b.registerFailure (P.identityKey email) t).registerFailure (ipKey ip) t') :
    Booked [P.identityKey email, ipKey ip] (.error (.err .invalidCredentials)) b b' ↔
      b.Counts (P.identityKey email) ∧ b.Counts (ipKey ip) := by
  rw [← AttemptBook.register_both_counts (identityKey_ne_ipKey P email ip) (t := t)]
  subst h
  constructor
  · exact fun h => h.refused rfl
  · intro h
    refine ⟨fun _ => h, (fun ⟨r, hr⟩ => nomatch hr), fun ⟨e, he, hne⟩ => ?_⟩
    cases he
    exact absurd rfl hne

theorem booked_same {keys : List String} {e : PortalError} {b : AttemptBook} (h : e ≠ .invalidCredentials) :
    Booked keys (.error (.err e)) b b := by
  refine ⟨fun he => ?_, (fun ⟨r, hr⟩ => nomatch hr), fun _ => rfl⟩
  cases he
  exact absurd rfl h

theorem VerifyRun.booked_iff (h : VerifyRun P email ip i w o) :
    Booked [P.identityKey email, ipKey ip] o.1 w.book o.2.book ↔
      P.BooksVerification email ip i w.book w.db := by
  cases h with
  | throttled n w' hit same =>
    rw [same.book]
    exact iff_of_true (booked_same PortalError.noConfusion) ⟨fun hp => absurd hit hp, fun hp => absurd hit hp⟩
  | refused w' t t' passed why book =>
    refine (booked_refused book).trans
      ⟨fun h => ⟨fun _ _ => h, fun _ u hu ha hv => ?_⟩, fun h => h.refused passed why⟩
    cases (why u hu ha).symm.trans hv
  | unanswered u e w' found verdict error book =>
    rw [book]
    refine iff_of_true (booked_same error) ⟨fun _ why => ?_, fun _ v _ _ hv => absurd hv (verdict true)⟩
    exact absurd (why u found.1 found.2) (verdict false)
  | admitted u o w' passed found verdict ends book =>
    have huniq : ∀ v, w.db.principal email = some v → v = u :=
      fun v hv => Option.some.inj (hv.symm.trans found.1)
    have hrefused : (∀ u, w.db.principal email = some u → u.status = .active →
      (i 4).verdict = some (.ok false)) → False :=
      fun why => by cases verdict.symm.trans (why u found.1 found.2)
    cases ends with
    | panicked message late =>
      refine iff_of_true ⟨(fun h => nomatch h), (fun ⟨r, h⟩ => nomatch h), fun ⟨e, h, _⟩ => nomatch h⟩
        ⟨fun _ why => (hrefused why).elim, fun _ _ _ _ _ => .inr (.inl late)⟩
    | done r ready =>
      refine iff_of_true ⟨(fun h => nomatch h), fun _ => ?_, fun ⟨e, h, _⟩ => nomatch h⟩
        ⟨fun _ why => (hrefused why).elim, fun _ v hv _ _ => .inr (.inr (huniq v hv ▸ ready))⟩
      show w'.book.Clear _
      rw [book]
      exact AttemptBook.reset_both_clears
    | failed e unready early other =>
      constructor
      · intro h
        have hclear := AttemptBook.reset_both_eq.mp (book.symm.trans (h.other ⟨e, rfl, other⟩))
        exact ⟨fun _ why => (hrefused why).elim, fun _ _ _ _ _ => .inl hclear⟩
      · intro h
        rcases h.admitted passed u found.1 found.2 verdict with hclear | hlate | hready
        · show Booked _ _ w.book w'.book
          rw [book, AttemptBook.reset_both_eq.mpr hclear]
          exact booked_same other
        · exact absurd hlate early
        · exact absurd hready unready

theorem FreshRun.booked_iff (h : FreshRun P email ip i w o) :
    Booked [P.identityKey email, ipKey ip] o.1 w.book o.2.book ↔ P.BooksCreation email ip i w.book w.db := by
  cases h with
  | throttled n w' hit same =>
    rw [same.book]
    exact iff_of_true (booked_same PortalError.noConfusion) ⟨fun hp => absurd hit hp, fun hp => absurd hit hp⟩
  | refused w' t t' passed why book =>
    refine (booked_refused book).trans ⟨fun h => ⟨fun _ _ => h, fun _ hv => ?_⟩, fun h => h.refused passed why⟩
    cases why.symm.trans hv
  | unanswered e w' verdict error book =>
    rw [book]
    exact iff_of_true (booked_same error)
      ⟨fun _ hv => absurd hv (verdict false), fun _ hv => absurd hv (verdict true)⟩
  | verified o w' passed verdict error created book =>
    rw [book]
    constructor
    · intro h
      refine ⟨fun _ hv => ?_, fun _ _ hready => h.admitted (created.mpr hready)⟩
      cases verdict.symm.trans hv
    · intro h
      exact ⟨fun he => absurd he error, fun hok => h.admitted passed verdict (created.mp hok), fun _ => rfl⟩

theorem unbooked_refusal {key : String} {keys : List String} {b : AttemptBook} :
    ¬Booked (key :: keys) (.error (.err .invalidCredentials)) b b := by
  intro h
  have hcount := h.refused rfl key List.mem_cons_self
  omega

theorem login_booked_iff (hi : ∀ n, (i n).fault = none) :
    let out := (P.login email presented ip).run portalMachine i w
    Booked [P.identityKey (P.normalizeEmail email), ipKey ip] out.1 w.book out.2.book ↔
      P.Books email ip i w .login := by
  dsimp only
  unfold Portal.login
  dsimp only
  by_cases hblank : P.normalizeEmail email = ""
  · rw [if_pos hblank]
    exact iff_of_false unbooked_refusal fun h => h.1 hblank
  · rw [if_neg hblank]
    exact (verifyAndMint_run hi).booked_iff.trans (and_iff_right hblank).symm

theorem signup_booked_iff (hi : ∀ n, (i n).fault = none) (hopen : w.db.SignupOpen) :
    let out := (P.signup email presented ip).run portalMachine i w
    Booked [P.identityKey (P.normalizeEmail email), ipKey ip] out.1 w.book out.2.book ↔
      P.Books email ip i w .signup := by
  dsimp only
  unfold Portal.signup
  dsimp only
  by_cases hbad : P.normalizeEmail email = "" ∨ '@' ∉ (P.normalizeEmail email).toList
  · rw [if_pos hbad]
    exact iff_of_true (booked_same PortalError.noConfusion) (.inl hbad)
  have hread : (Stmt.liveUserByEmail (P.normalizeEmail email)).answer (i 1) w.db =
      (.ok ((w.db.principal (P.normalizeEmail email)).map fun u => (u.id, u.status)), w.db) :=
    Stmt.answer_of_ok (hi 1) rfl
  rw [if_neg hbad, Prog.bind_eq, run_signupOpen, policyEnabled_true.mpr ⟨hi 0, hopen⟩]
  dsimp only [Except.toOption, Option.getD_some]
  rw [Prog.bind_eq, run_query_ok (from_ 1 i) { w with clock := (i 0).now } hread]
  unfold Portal.Books
  rw [or_iff_right hbad]
  cases hp : w.db.principal (P.normalizeEmail email) with
  | none => exact (signupFresh_run (fun n => hi (n + 2)) hp).booked_iff
  | some u =>
    dsimp only [Option.map_some]
    by_cases hactive : u.status = .active
    · rw [if_neg (not_not.mpr hactive)]
      exact (verifyAndMint_run fun n => hi (n + 2)).booked_iff.trans (and_iff_right hactive).symm
    · rw [if_pos hactive]
      exact iff_of_false unbooked_refusal fun h => hactive h.1

end

/-- **The book of an attempt.** Without failures and alone, a login, or a signup
under an open policy, books its attempt if and only if `Books` holds. -/
theorem attempt_booked_iff (P : Portal) (door : Door) (email presented ip : String) (i : Nat → Env) (w : World)
    (hi : ∀ n, (i n).fault = none) (hopen : door = .signup → w.db.SignupOpen) :
    let out := (P.attempt door email presented ip).run portalMachine i w
    Booked [P.identityKey (P.normalizeEmail email), ipKey ip] out.1 w.book out.2.book ↔
      P.Books email ip i w door := by
  cases door with
  | login => exact login_booked_iff hi
  | signup => exact signup_booked_iff hi (hopen rfl)

namespace Probe

def shut : Db := { opened with users := .single { user with status := .revoked } (by decide +kernel) }

def turnedAway : Except Halt (Uuid × String) × World :=
  (portal.signup email "guess" "10.0.0.1").run portalMachine (fun _ => env) (world shut)

def wrong : Env := { env with verdict := some (.ok false) }

end Probe

/-- The signup is refused, and neither key has a failure on record afterwards. -/
theorem refused_signup_is_not_booked :
    Probe.turnedAway.1 = .error (.err .invalidCredentials) ∧
    Probe.turnedAway.2.book.failures (Probe.portal.identityKey Probe.email) = 0 ∧
    Probe.turnedAway.2.book.failures (ipKey "10.0.0.1") = 0 ∧
    ¬Booked [Probe.portal.identityKey (Probe.portal.normalizeEmail Probe.email), ipKey "10.0.0.1"]
      Probe.turnedAway.1
      (Probe.world Probe.shut).book Probe.turnedAway.2.book := by
  have hrun : Probe.turnedAway.1 = .error (.err .invalidCredentials) ∧
      Probe.turnedAway.2.book.failures (Probe.portal.identityKey Probe.email) = 0 ∧
      Probe.turnedAway.2.book.failures (ipKey "10.0.0.1") = 0 := by decide +kernel
  refine ⟨hrun.1, hrun.2.1, hrun.2.2, fun h => ?_⟩
  have hcount := h.refused hrun.1 (ipKey "10.0.0.1") (.tail _ (.head _))
  rw [hrun.2.2] at hcount
  exact absurd hcount (by decide)

theorem attempt_booked_iff_probe :
    let out :=
      (Probe.portal.attempt .signup Probe.email "guess" "10.0.0.1").run portalMachine (fun _ => Probe.wrong)
      (Probe.world Probe.opened)
    Booked [Probe.portal.identityKey (Probe.portal.normalizeEmail Probe.email), ipKey "10.0.0.1"] out.1
      (Probe.world Probe.opened).book out.2.book := by
  refine (attempt_booked_iff Probe.portal .signup Probe.email "guess" "10.0.0.1" (fun _ => Probe.wrong)
    (Probe.world Probe.opened) (fun _ => rfl) fun _ =>
    ⟨_, .head _, rfl, rfl⟩).mpr (.inr ⟨fun _ _ => ?_, fun _ hv => nomatch hv⟩)
  constructor
  · decide
  · decide

end BackbonePortal
